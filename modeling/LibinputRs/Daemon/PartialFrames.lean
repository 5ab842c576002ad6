import LibinputRs.Daemon.FailedWrites
import LibinputRs.Daemon.WrapperPointing

/-! Frames that are cut short. A motion stores its remainders before its first write and clears its
displacement after the last one; a write refused in between leaves a displacement behind that has
been written already, and the next frame writes it once more. -/
namespace LibinputRs
open Automata

variable {F : Type}

namespace DeviceWrapper
variable {s : DeviceWrapper F × VirtualDevice}

section Frames
variable [F32 F]

/-- The distances that a motion frame writes, the horizontal one first. -/
def motionDistances (cfg : InputConfig F) (w : DeviceWrapper F) : ℤ × ℤ :=
  (F32.roundToI32 (F32.ofI32 w.currentDx * hardwareScale * cfg.pointerAcceleration +
      w.remainderX : F),
    F32.roundToI32 (F32.ofI32 w.currentDy * hardwareScale * cfg.pointerAcceleration +
      w.remainderY : F))

/-- How far a scrolling frame turns the wheel, before the sign of natural scrolling. -/
def wheelDistance (w : DeviceWrapper F) : ℤ :=
  F32.roundToI32 (F32.ofI32 w.currentDy * wheelScale + w.remainderY : F)

/-- How many writes a distance takes: the relative event and its `SYN_REPORT`, if it is not zero. -/
def relWrites (value : ℤ) : ℕ := if value ≠ 0 then 2 else 0

/-- How many writes the movement of a frame takes. -/
def frameWrites (cfg : InputConfig F) (w : DeviceWrapper F) : ℕ :=
  if w.touchFingers ≤ 1 then
    relWrites (w.motionDistances cfg).1 + relWrites (w.motionDistances cfg).2
  else if w.touchFingers = 2 then relWrites w.wheelDistance
  else 0

/-- The event ends a frame with displacement outside the typing window. -/
def MovesFrame (cfg : InputConfig F) (w : DeviceWrapper F) (i : WrapperInput) : Prop :=
  i.te.ev.IsReport ∧ dwtActive cfg i.typing i.te.now = false ∧ (w.currentDx ≠ 0 ∨ w.currentDy ≠ 0)

instance (cfg : InputConfig F) (w : DeviceWrapper F) (i : WrapperInput) :
    Decidable (MovesFrame cfg w i) := inferInstanceAs (Decidable (_ ∧ _ ∧ _))

/-- The event ends a frame, one of whose movement writes is refused. -/
def CutShort (cfg : InputConfig F) (s : DeviceWrapper F × VirtualDevice) (i : WrapperInput) : Prop :=
  MovesFrame cfg s.1 i ∧ ∃ n < s.1.frameWrites cfg, s.2.accepts n = false

instance (cfg : InputConfig F) (s : DeviceWrapper F × VirtualDevice) (i : WrapperInput) :
    Decidable (CutShort cfg s i) := inferInstanceAs (Decidable (_ ∧ _))

omit [F32 F] in
theorem emitRel_ok_iff (code : ℕ) (value : ℤ) : (emitRel code value s).2.2 = true ↔
    ∀ n < relWrites value,s.2.accepts n = true := by
  unfold emitRel relWrites
  split_ifs
  · exact emitRaw_ok_iff _
  · simp

omit [F32 F] in
theorem emitRel_accepted {code : ℕ} {value : ℤ} (h : ∀ n < relWrites value,s.2.accepts n = true) :
    (emitRel code value s).1 = (s.1,⟨fun n => s.2.accepts (n + relWrites value)⟩) := by
  unfold emitRel relWrites at *
  split_ifs at *
  · rw [emitRaw_accepted h]
  · rfl

omit [F32 F] in
/-- Two relative events come to their end exactly if all their writes are accepted. -/
theorem emitRel_andThen_ok_iff (code code' : ℕ) (value value' : ℤ) :
    ((emitRel code value).andThen (emitRel code' value') s).2.2 = true ↔
      ∀ n < relWrites value + relWrites value',s.2.accepts n = true := by
  rw [Fallible.andThen_ok_iff,emitRel_ok_iff]
  constructor
  · rintro ⟨hfirst,hsecond⟩ n hn
    rw [emitRel_accepted hfirst,emitRel_ok_iff] at hsecond
    by_cases h : n < relWrites value
    · exact hfirst n h
    · have hlater : s.2.accepts (n - relWrites value + relWrites value) = true :=
        hsecond (n - relWrites value) (by omega)
      rwa [Nat.sub_add_cancel (by omega)] at hlater
  · intro h
    have hfirst : ∀ n < relWrites value,s.2.accepts n = true := fun n hn => h n (by omega)
    refine ⟨hfirst,?_⟩
    rw [emitRel_accepted hfirst,emitRel_ok_iff]
    exact fun n hn => h _ (by omega)

/-- The movement of a frame comes to its end exactly if all its writes are accepted. -/
theorem movementFrame_ok_iff (cfg : InputConfig F) : (movementFrame cfg s).2.2 = true ↔
    ∀ n < s.1.frameWrites cfg,s.2.accepts n = true := by
  have hframe : (movementFrame cfg s).2.2 = true ↔ ((if s.1.touchFingers ≤ 1 then motionFrame cfg
      else if s.1.touchFingers = 2 then scrollFrame cfg else .skip)
        ({ s.1 with tapEmitted := true },s.2)).2.2 = true := by
    unfold movementFrame
    exact Fallible.andThen_ok_iff.trans (and_iff_left rfl)
  rw [hframe,frameWrites]
  split_ifs with hone htwo
  · exact emitRel_andThen_ok_iff (s := (_,s.2)) _ _ _ _
  · refine Fallible.andThen_ok_iff.trans ((and_iff_left rfl).trans ?_)
    change ((if s.1.wheelDistance ≠ 0 then emitRaw _ else (.skip : Step F)) _).2.2 = true ↔ _
    by_cases hwheel : s.1.wheelDistance = 0
    · rw [relWrites,if_neg (not_not.mpr hwheel),if_neg (not_not.mpr hwheel)]
      exact iff_of_true rfl fun n hn => absurd hn n.not_lt_zero
    · rw [relWrites,if_pos hwheel,if_pos hwheel]
      exact emitRaw_ok_iff _
  · exact iff_of_true rfl fun n hn => absurd hn n.not_lt_zero

/-- The displacement of the frame, not yet written. -/
def displacement (w : DeviceWrapper F) : ℤ × ℤ := (w.currentDx,w.currentDy)

/-- The event sets the displacement to zero: a lift comes to its end, or a frame falls into the
typing window, or the movement of a frame comes to its end. -/
def Clears (cfg : InputConfig F) (s : DeviceWrapper F × VirtualDevice) (i : WrapperInput) : Prop :=
  (i.te.ev.Releases KeyCode.btnTouch ∧ (processEvent cfg i.typing i.te s).2.2 = true) ∨
    (i.te.ev.IsReport ∧ (dwtActive cfg i.typing i.te.now = true ∨
      ((s.1.currentDx ≠ 0 ∨ s.1.currentDy ≠ 0) ∧ (movementFrame cfg s).2.2 = true)))

instance (cfg : InputConfig F) (s : DeviceWrapper F × VirtualDevice) (i : WrapperInput) :
    Decidable (Clears cfg s i) := inferInstanceAs (Decidable (_ ∨ _))

/-- Outside the key events the bookkeeping of `process_event` leaves the wrapper alone. -/
theorem processEvent_report (cfg : InputConfig F) (typing : Option Instant) {te : TimedEvent}
    (habs : s.1.isAbsolute = true) (htype : te.ev.eventType = .synchronization) :
    processEvent cfg typing te s = processSyn te cfg (dwtActive cfg typing te.now)
      (s.1.guarded (dwtActive cfg typing te.now),s.2) := by
  have htrack : s.1.trackKey te = s.1 := if_neg (by simp [htype])
  rw [processEvent_absolute cfg typing te habs,processAbsolute_synchronization htype,htrack]

/-- A frame with displacement that is not cut short clears it. -/
theorem clears_of_movesFrame {cfg : InputConfig F} {i : WrapperInput}
    (hmoves : MovesFrame cfg s.1 i) (hwhole : ¬ CutShort cfg s i) : Clears cfg s i := by
  refine .inr ⟨hmoves.1,.inr ⟨hmoves.2.2,(movementFrame_ok_iff cfg).mpr fun n hn => ?_⟩⟩
  by_contra hrefused
  exact hwhole ⟨hmoves,n,hn,Bool.eq_false_iff.mpr hrefused⟩

section Clearing

/-- A lift whose writes are refused leaves the position of the finger; the other key events change
it as they would on their own. -/
theorem writeStep_pointing_key {cfg : InputConfig F} {i : WrapperInput}
    (habs : s.1.isAbsolute = true) (hkey : i.te.ev.eventType = .key) :
    (writeStep cfg s i).1.1.pointing =
      if i.te.ev.Releases KeyCode.btnTouch ∧ ¬ Clears cfg s i then s.1.pointing
      else s.1.pointing.next i.te := by
  change (processEvent cfg i.typing i.te s).1.1.pointing = _
  by_cases hup : i.te.ev.Releases KeyCode.btnTouch
  · have hreport : ¬ i.te.ev.IsReport := fun h => by simp [h.1] at hkey
    have hclears : Clears cfg s i ↔ (processEvent cfg i.typing i.te s).2.2 = true := by
      unfold Clears
      rw [and_iff_right hup,or_iff_left fun h => hreport h.1]
    rw [processEvent_touchUp cfg _ habs hup.1 hup.2] at hclears ⊢
    rw [touchUp_pointing,Pointing.next_touch hup.1,hup.2]
    simp only [hclears,hup,true_and,ite_not,found_pointing]
  · rw [if_neg fun h => hup h.1,processEvent_absolute cfg _ _ habs,processAbsolute_key hkey,
      processKey_pointing i.te cfg _ hkey hup,found_pointing]

/-- So does the end of a frame that is left standing. -/
theorem writeStep_pointing_synchronization {cfg : InputConfig F} {i : WrapperInput}
    (habs : s.1.isAbsolute = true) (hsyn : i.te.ev.eventType = .synchronization) :
    (writeStep cfg s i).1.1.pointing =
      if i.te.ev.IsReport ∧ ¬ Clears cfg s i then s.1.pointing else s.1.pointing.next i.te := by
  have hkey : i.te.ev.eventType ≠ .key := by simp [hsyn]
  have hclears : Clears cfg s i ↔ i.te.ev.code = 0 ∧
      (dwtActive cfg i.typing i.te.now = true ∨ ((s.1.currentDx ≠ 0 ∨ s.1.currentDy ≠ 0) ∧
        (movementFrame cfg s).2.2 = true)) := by
    unfold Clears InputEvent.IsReport
    rw [or_iff_right fun h => hkey h.1.1.1,and_iff_right hsyn]
  change (processEvent cfg i.typing i.te s).1.1.pointing = _
  rw [processEvent_report cfg _ habs hsyn,processSyn_pointing,guarded_pointing]
  by_cases hcode : i.te.ev.code = 0
  · have hreport : i.te.ev.IsReport := ⟨hsyn,hcode⟩
    have hfound : i.te.ev.code = 0 ∧ (dwtActive cfg i.typing i.te.now = true ∨
        (((s.1.guarded (dwtActive cfg i.typing i.te.now)).currentDx ≠ 0 ∨
            (s.1.guarded (dwtActive cfg i.typing i.te.now)).currentDy ≠ 0) ∧
          (movementFrame cfg (s.1.guarded (dwtActive cfg i.typing i.te.now),s.2)).2.2 = true)) ↔
        Clears cfg s i := by
      rw [hclears]
      cases dwtActive cfg i.typing i.te.now with
      | true => simp
      | false => rfl
    rw [Pointing.next_report hreport]
    simp only [hfound,hreport,true_and,ite_not]
  · have hreport : ¬ i.te.ev.IsReport := fun h => hcode h.2
    rw [if_neg fun h => hcode h.1,if_neg fun h => hreport h.1,
      Pointing.next_of_other hkey (by simp [hsyn]) hreport]

/-- An event that clears, and any other that ends no touch and no frame, changes the position of the
finger as it would on its own; the others leave it. -/
theorem writeStep_pointing {cfg : InputConfig F} {i : WrapperInput}
    (habs : s.1.isAbsolute = true) : (writeStep cfg s i).1.1.pointing =
      if (i.te.ev.Releases KeyCode.btnTouch ∨ i.te.ev.IsReport) ∧ ¬ Clears cfg s i then
        s.1.pointing else s.1.pointing.nextShared i.te := by
  have hpos : i.te.ev.eventType ≠ .absolute → s.1.pointing.nextShared i.te =
      s.1.pointing.next i.te := fun h => Pointing.nextShared_of_not_position fun hp => h hp.1
  by_cases hkey : i.te.ev.eventType = .key
  · have hreport : ¬ i.te.ev.IsReport := fun h => by simp [h.1] at hkey
    rw [writeStep_pointing_key habs hkey,hpos (by simp [hkey])]
    simp only [or_iff_left hreport]
  have hup : ¬ i.te.ev.Releases KeyCode.btnTouch := fun h => hkey h.1.1
  by_cases hsyn : i.te.ev.eventType = .synchronization
  · rw [writeStep_pointing_synchronization habs hsyn,hpos (by simp [hsyn])]
    simp only [or_iff_right hup]
  have hreport : ¬ i.te.ev.IsReport := fun h => hsyn h.1
  change (processEvent cfg i.typing i.te s).1.1.pointing = _
  rw [if_neg fun h => h.1.elim hup hreport,processEvent_absolute cfg _ _ habs]
  by_cases haxis : i.te.ev.eventType = .absolute
  · rw [processAbsolute_absolute haxis]
    refine (processAxis_pointing _ haxis).trans ?_
    rw [found_pointing]
  · rw [processAbsolute_other hkey haxis hsyn,hpos haxis,
      Pointing.next_of_other hkey haxis hreport]
    exact found_pointing _ _ _

/-- Where every write is accepted, every event changes it as it would on its own. -/
theorem eventStep_pointing (cfg : InputConfig F) (w : DeviceWrapper F) (i : WrapperInput)
    (habs : w.isAbsolute = true) :
    (w.eventStep cfg i).1.pointing = w.pointing.nextShared i.te := by
  have hpointing : (w.eventStep cfg i).1.pointing =
      if (i.te.ev.Releases KeyCode.btnTouch ∨ i.te.ev.IsReport) ∧ ¬ Clears cfg (w,.reliable) i then
        w.pointing else w.pointing.nextShared i.te := writeStep_pointing habs
  rw [hpointing]
  by_cases hstands : (i.te.ev.Releases KeyCode.btnTouch ∨ i.te.ev.IsReport) ∧
      ¬ Clears cfg (w,.reliable) i
  · rw [if_pos hstands]
    obtain ⟨hup | hreport,hclears⟩ := hstands
    · have hdone := congrArg (·.2.2) (processEvent_completes cfg i.typing i.te w)
      exact absurd (.inl ⟨hup,hdone⟩) hclears
    -- only a frame without displacement is left as it is
    · have hdone := congrArg (·.2.2) (movementFrame_completes cfg w)
      obtain ⟨hdx,hdy⟩ := not_or.mp fun hmoved => hclears (.inr ⟨hreport,.inr ⟨hmoved,hdone⟩⟩)
      rw [Pointing.nextShared_of_not_position hreport.not_position,Pointing.next_report hreport]
      unfold Pointing.report pointing
      rw [not_not.mp hdx,not_not.mp hdy]
  · rw [if_neg hstands]

end Clearing

end Frames
end DeviceWrapper
end LibinputRs
