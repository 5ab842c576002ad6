import LibinputRs.Daemon.PartialFrames
import LibinputRs.Pipeline.Conservation

/-! A displacement is written once. A frame takes its displacement into the remainder before its
first write and clears it after the last one; a write refused in between leaves it standing, and the
next frame takes it once more. Where no movement is cut short, the values accepted and the remainder
add up to the displacements that the motions took, each of them once. -/
namespace LibinputRs
open Automata

variable {F : Type}

/-- The position axis of a sample. -/
def TouchAxis.position (a : TouchAxis) : ℕ := a.select AbsoluteAxisCode.absX AbsoluteAxisCode.absY

/-- The relative axis that the daemon moves the pointer on. -/
def TouchAxis.relative (a : TouchAxis) : ℕ := FrameMode.pointer.relCode a

namespace DeviceWrapper

section Samples
variable [F32 F] (cfg : InputConfig F) (a : TouchAxis)

omit [F32 F] in
def remainder (w : DeviceWrapper F) : F := a.select w.remainderX w.remainderY

/-- The frame takes its displacement on the axis into the remainder: a motion does so on both axes,
a scroll on the vertical one. -/
def Takes (w : DeviceWrapper F) (i : WrapperInput) : Prop :=
  MovesFrame cfg w i ∧ (w.touchFingers ≤ 1 ∨ a = .y ∧ w.touchFingers = 2)

instance (w : DeviceWrapper F) (i : WrapperInput) : Decidable (Takes cfg a w i) :=
  inferInstanceAs (Decidable (_ ∧ (_ ∨ _ ∧ _)))

/-- The event gets a value of the relative axis accepted. -/
def GetsAccepted (s : DeviceWrapper F × VirtualDevice) (i : WrapperInput) : Prop :=
  ∃ w ∈ (writeStep cfg s i).2,
    w.accepted = true ∧ w.ev.eventType = .relative ∧ w.ev.code = a.relative

instance (s : DeviceWrapper F × VirtualDevice) (i : WrapperInput) :
    Decidable (GetsAccepted cfg a s i) := inferInstanceAs (Decidable (∃ w ∈ _,_))

/-- What the first event takes gets into an accepted value: one of that event itself, or a later one
with a remainder on all the way to it. -/
def Reaches : DeviceWrapper F × VirtualDevice → List WrapperInput → Prop
  | _, [] => False
  | s, i :: is => GetsAccepted cfg a s i ∨
      (writeStep cfg s i).1.1.remainder a ≠ 0.0 ∧ Reaches (writeStep cfg s i).1 is

instance decidableReaches [DecidableEq F] : (s : DeviceWrapper F × VirtualDevice) →
    (inputs : List WrapperInput) → Decidable (Reaches cfg a s inputs)
  | _, [] => inferInstanceAs (Decidable False)
  | s, i :: is =>
    have := decidableReaches (writeStep cfg s i).1 is
    inferInstanceAs (Decidable (_ ∨ _ ∧ _))

variable (s : DeviceWrapper F × VirtualDevice)

/-- The sample of the axis moves the displacement, and none of the events after it clears that. -/
structure Pending (before : List WrapperInput) (sample : WrapperInput) (mid : List WrapperInput) :
    Prop where
  axis : sample.te.ev.AxisWith a.position
  moves : (run (writeStep cfg) s (before ++ [sample])).1.1.displacement ≠
    (run (writeStep cfg) s before).1.1.displacement
  kept : AtEach (fun front i =>
    ¬ Clears cfg (run (writeStep cfg) s (before ++ sample :: front)).1 i) mid

/-- No sample of the position gets into accepted values of its relative axis by two of the frames
that take it. -/
def WrittenOnce (inputs : List WrapperInput) : Prop :=
  ∀ before sample mid first between second after,
    inputs = before ++ sample :: (mid ++ first :: (between ++ second :: after)) →
    Pending cfg a s before sample (mid ++ first :: between) →
    let atFirst := (run (writeStep cfg) s (before ++ sample :: mid)).1
    let atSecond := (run (writeStep cfg) s (before ++ sample :: (mid ++ first :: between))).1
    Takes cfg a atFirst.1 first → Takes cfg a atSecond.1 second →
      ¬ (Reaches cfg a atFirst (first :: (between ++ second :: after)) ∧
        Reaches cfg a atSecond (second :: after))

variable {cfg a s}

/-- A frame that takes a displacement and is not cut short clears it, so no other frame takes it. -/
theorem writtenOnce_of_whole {inputs : List WrapperInput}
    (hwhole : AtEach (fun before i => ¬ CutShort cfg (run (writeStep cfg) s before).1 i) inputs) :
    WrittenOnce cfg a s inputs := by
  rintro before sample mid first between second after rfl hpending atFirst atSecond htakes - -
  have hcut : ¬ CutShort cfg atFirst first :=
    hwhole (before ++ sample :: mid) first (between ++ second :: after) (by simp)
  exact hpending.kept mid first between rfl (clears_of_movesFrame htakes.1 hcut)

end Samples

section Books

/-- A step that comes to its end has done what it does on a reliable virtual device. -/
def EndsReliably (p : Step F) : Prop :=
  ∀ s, (p s).2.2 = true → ((p s).1.1,(p s).2.1) = reliably p s.1

namespace EndsReliably
variable {p q : Step F}

theorem skip : EndsReliably (F := F) .skip := fun _ _ => rfl

theorem modify (f : DeviceWrapper F → DeviceWrapper F) : EndsReliably (modify f) := fun _ _ => rfl

theorem emitRaw (ev : InputEvent) : EndsReliably (F := F) (emitRaw ev) := by
  intro s h
  rw [emitRaw_accepted ((emitRaw_ok_iff ev).mp h)]
  rfl

theorem andThen (hcompletes : Completes p) (hp : EndsReliably p) (hq : EndsReliably q) :
    EndsReliably (p.andThen q) := by
  intro s h
  obtain ⟨hfirst,hsecond⟩ := Fallible.andThen_ok_iff.mp h
  have happly : p s = ((p s).1,(p s).2.1,true) := by rw [← hfirst]
  have hstate : (p s).1.1 = (reliably p s.1).1 := by rw [← hp s hfirst]
  have hout : (p s).2.1 = (reliably p s.1).2 := by rw [← hp s hfirst]
  have hrest : ((q (p s).1).1.1,(q (p s).1).2.1) = reliably q (reliably p s.1).1 := by
    rw [← hstate]
    exact hq _ hsecond
  rw [Fallible.andThen_of_ok happly,reliably_andThen hcompletes,← hout,← hrest]

theorem ite {c : Prop} {_ : Decidable c} (hp : EndsReliably p) (hq : EndsReliably q) :
    EndsReliably (if c then p else q) := by
  split_ifs
  · exact hp
  · exact hq

theorem emitRel (code : ℕ) (value : ℤ) : EndsReliably (F := F) (emitRel code value) :=
  .ite (.emitRaw _) .skip

end EndsReliably

theorem movementFrame_endsReliably [F32 F] (cfg : InputConfig F) :
    EndsReliably (movementFrame cfg) := by
  have hmotion : EndsReliably (motionFrame cfg) := fun s =>
    EndsReliably.andThen (emitRel_completes _ _) (.emitRel _ _) (.emitRel _ _) (_,s.2)
  have hscroll : EndsReliably (scrollFrame cfg) := fun s =>
    EndsReliably.andThen (.ite (.emitRaw _) .skip) (.ite (.emitRaw _) .skip) (.modify _) (_,s.2)
  exact fun s => EndsReliably.andThen
    (.ite (motionFrame_completes cfg) (.ite (scrollFrame_completes cfg) .skip))
    (.ite hmotion (.ite hscroll .skip)) (.modify _) (_,s.2)

/-- What is accepted of the relative axis. -/
def acceptedSum (a : TouchAxis) (out : List Write) : ℤ :=
  relSum a.relative (out.filter Write.accepted)

theorem acceptedSum_append (a : TouchAxis) (out out' : List Write) :
    acceptedSum a (out ++ out') = acceptedSum a out + acceptedSum a out' := by
  rw [acceptedSum,List.filter_append,relSum_append]
  rfl

theorem acceptedSum_eq_zero {a : TouchAxis} {out : List Write}
    (h : ∀ w ∈ out, w.ev.eventType ≠ .relative) : acceptedSum a out = 0 :=
  relSum_eq_zero fun w hw => h w (List.mem_of_mem_filter hw)

theorem acceptedSum_relAccepted (a : TouchAxis) (code : ℕ) (value : ℤ) :
    acceptedSum a (relAccepted code value) = if a.relative = code then value else 0 := by
  have hall : (relAccepted code value).filter Write.accepted = relAccepted code value := by
    unfold relAccepted
    split_ifs <;> rfl
  rw [acceptedSum,hall]
  exact relSum_relWrites a.relative code value

variable (cfg : InputConfig ℚ) (a : TouchAxis)

/-- The displacement that a motion takes on the axis. -/
def taken (w : DeviceWrapper ℚ) (i : WrapperInput) : ℤ :=
  if MovesFrame cfg w i ∧ w.touchFingers ≤ 1 then a.select w.currentDx w.currentDy else 0

/-- What the remainder of the axis loses other than to a motion: all of it in the typing window, the
horizontal one to a scroll, and the vertical one what the wheel turns beyond the displacement. -/
def lost (w : DeviceWrapper ℚ) (i : WrapperInput) : ℚ :=
  if i.te.ev.IsReport ∧ dwtActive cfg i.typing i.te.now = true then w.remainder a
  else if MovesFrame cfg w i ∧ w.touchFingers = 2 then
    a.select w.remainderX (w.wheelDistance - FrameMode.gain cfg.pointerAcceleration .scroll *
      w.currentDy)
  else 0

/-- The values accepted and the final remainder add up to the initial remainder and what the motions
took, less what the remainder lost. -/
def Booked (s : DeviceWrapper ℚ × VirtualDevice) (inputs : List WrapperInput) : Prop :=
  tally (writeStep cfg) (fun s i => (acceptedSum a (writeStep cfg s i).2 : ℚ)) s inputs +
      (run (writeStep cfg) s inputs).1.1.remainder a =
    s.1.remainder a + tally (writeStep cfg) (fun s i => FrameMode.gain cfg.pointerAcceleration
      .pointer * taken cfg a s.1 i - lost cfg a s.1 i) s inputs

variable {cfg a} {s : DeviceWrapper ℚ × VirtualDevice} {i : WrapperInput}

/-- An event that ends no frame writes nothing relative and leaves the remainders, whatever becomes
of its writes. -/
theorem writeStep_still (cfg : InputConfig ℚ) (a : TouchAxis) (habs : s.1.isAbsolute = true)
    (hsyn : i.te.ev.eventType ≠ .synchronization) :
    (∀ w ∈ (writeStep cfg s i).2, w.ev.eventType ≠ .relative) ∧
      (writeStep cfg s i).1.1.remainder a = s.1.remainder a := by
  have hraw : ∀ code value, (emitRaw (.new .key code value)).Ensures
      (fun t : DeviceWrapper ℚ × VirtualDevice => t.1.remainder a = s.1.remainder a)
        fun w => w.ev.eventType ≠ .relative := by
    intro code value t ht
    refine ⟨ht,fun w hw => ?_⟩
    rcases VirtualDevice.emitRaw_ev _ t.2 w hw with h | h <;> rw [h] <;> exact nofun
  have hreport : (emitRaw .synReport).Ensures
      (fun t : DeviceWrapper ℚ × VirtualDevice => t.1.remainder a = s.1.remainder a)
        fun w => w.ev.eventType ≠ .relative := by
    intro t ht
    refine ⟨ht,fun w hw => ?_⟩
    rcases VirtualDevice.emitRaw_ev _ t.2 w hw with h | h <;> rw [h] <;> exact nofun
  have hmodify : ∀ f : DeviceWrapper ℚ → DeviceWrapper ℚ, (∀ w, (f w).remainder a = w.remainder a) →
      (modify f).Ensures (fun t => t.1.remainder a = s.1.remainder a)
        fun w => w.ev.eventType ≠ .relative :=
    fun f hf => Fallible.Ensures.update fun t ht => (hf t.1).trans ht
  have hup : (touchUp i.te cfg (dwtActive cfg i.typing i.te.now)).Ensures
      (fun t => t.1.remainder a = s.1.remainder a) fun w => w.ev.eventType ≠ .relative :=
    fun t ht => Fallible.Ensures.andThen (.ite (fun _ => (hraw _ _).andThen
      (hreport.andThen (hraw _ _))) fun _ => .skip) (hmodify resetTouch fun _ => rfl) _ ht
  have hfound : ((s.1.trackKey i.te).guarded (dwtActive cfg i.typing i.te.now)).remainder a =
      s.1.remainder a := found_frame (remainder a) (fun _ _ _ _ _ => rfl) i.te _ s.1
  change (∀ w ∈ (processEvent cfg i.typing i.te s).2.1, w.ev.eventType ≠ .relative) ∧
    (processEvent cfg i.typing i.te s).1.1.remainder a = s.1.remainder a
  rw [processEvent_absolute cfg _ _ habs]
  by_cases hkey : i.te.ev.eventType = .key
  · rw [processAbsolute_key hkey]
    have htouch : (processTouchKey i.te cfg (dwtActive cfg i.typing i.te.now)).Ensures
        (fun t => t.1.remainder a = s.1.remainder a) fun w => w.ev.eventType ≠ .relative :=
      .ite (fun _ => .ite (fun _ => hmodify _ fun _ => rfl) fun _ => hup) fun _ =>
        .ite (fun _ => hmodify _ fun _ => rfl) fun _ =>
          .ite (fun _ => hmodify _ fun _ => rfl) fun _ => .skip
    have hforward : (forwardButton i.te).Ensures
        (fun t => t.1.remainder a = s.1.remainder a) fun w => w.ev.eventType ≠ .relative := by
      intro t ht
      have hclick := mapClick_frame (remainder a) (fun _ _ => rfl) i.te.ev.code i.te.ev.value t.1
      unfold forwardButton
      dsimp only
      split_ifs
      · exact hraw _ _ _ (hclick.trans ht)
      · exact ⟨hclick.trans ht,List.forall_mem_nil _⟩
    exact (htouch.andThen hforward _ hfound).symm
  by_cases haxis : i.te.ev.eventType = .absolute
  · rw [processAbsolute_absolute haxis]
    exact ⟨List.forall_mem_nil _,
      (processAxis_frame (remainder a) (fun _ _ _ _ _ _ => rfl) _ _).trans hfound⟩
  · rw [processAbsolute_other hkey haxis hsyn]
    exact ⟨List.forall_mem_nil _,hfound⟩

/-- What a movement that comes to its end gets accepted, and what it leaves in the remainder. -/
theorem movementFrame_booked (hmoves : MovesFrame cfg s.1 i) :
    (acceptedSum a (reliably (movementFrame cfg) s.1).2 : ℚ) +
        (reliably (movementFrame cfg) s.1).1.remainder a =
      s.1.remainder a + (FrameMode.gain cfg.pointerAcceleration .pointer * taken cfg a s.1 i -
        lost cfg a s.1 i) := by
  have htyping : ¬ (i.te.ev.IsReport ∧ dwtActive cfg i.typing i.te.now = true) := fun h => by
    simp [hmoves.2.1] at h
  rw [reliably_movementFrame,lost,if_neg htyping,taken]
  simp only [hmoves,true_and]
  by_cases hone : s.1.touchFingers ≤ 1
  · have htwo : s.1.touchFingers ≠ 2 := by omega
    rw [if_pos hone,if_pos hone,if_neg htwo,reliably_motionFrame]
    dsimp only
    rw [acceptedSum_append,acceptedSum_relAccepted,acceptedSum_relAccepted]
    have htotal : ∀ (d : ℤ) (r : ℚ), F32.ofI32 d * hardwareScale * cfg.pointerAcceleration + r =
        FrameMode.gain cfg.pointerAcceleration .pointer * d + r :=
      fun d r => pointer_total cfg.pointerAcceleration r d
    simp only [htotal]
    have hkept : ∀ (total r due : ℚ), total = due + r →
        ((F32.roundToI32 total : ℤ) : ℚ) + (total - F32.ofI32 (F32.roundToI32 total)) =
          r + (due - 0) := by
      intro total r due heq
      rw [sub_zero,add_comm r due,← heq]
      exact add_sub_cancel _ _
    cases a
    · rw [if_pos (by decide),if_neg (by decide),add_zero]
      exact hkept _ _ _ rfl
    · rw [if_neg (by decide),if_pos (by decide),zero_add]
      exact hkept _ _ _ rfl
  · rw [if_neg hone,if_neg hone]
    by_cases htwo : s.1.touchFingers = 2
    · rw [if_pos htwo,if_pos htwo,reliably_scrollFrame]
      have htotal : F32.ofI32 s.1.currentDy * wheelScale + s.1.remainderY =
          FrameMode.gain cfg.pointerAcceleration .scroll * s.1.currentDy + s.1.remainderY :=
        scroll_total cfg.pointerAcceleration s.1.remainderY s.1.currentDy
      have hwheel : ∀ (p : Prop) [Decidable p] (value : ℤ), acceptedSum a
          (if p then accepted (.new .relative RelativeAxisCode.relWheel value) else []) = 0 := by
        intro p _ value
        split_ifs
        · cases a <;> rfl
        · rfl
      change ((acceptedSum a (if s.1.wheelDistance ≠ 0 then _ else _) : ℤ) : ℚ) +
        a.select (0.0 : ℚ) (F32.ofI32 s.1.currentDy * wheelScale + s.1.remainderY -
          (s.1.wheelDistance : ℚ)) = _
      rw [hwheel,htotal]
      cases a
      · change ((0 : ℤ) : ℚ) + 0.0 = s.1.remainderX + (_ * ((0 : ℤ) : ℚ) - s.1.remainderX)
        norm_num
      · change ((0 : ℤ) : ℚ) + (_ - _) = s.1.remainderY + (_ * ((0 : ℤ) : ℚ) - (_ - _))
        push_cast
        ring
    · rw [if_neg htwo,if_neg htwo]
      change ((0 : ℤ) : ℚ) + s.1.remainder a = s.1.remainder a + (_ * ((0 : ℤ) : ℚ) - 0)
      simp

theorem emitRaw_quiet {ev : InputEvent} (hev : ev.eventType ≠ .relative)
    (t : DeviceWrapper ℚ × VirtualDevice) :
    acceptedSum a (emitRaw ev t).2.1 = 0 ∧ (emitRaw ev t).1.1 = t.1 := by
  refine ⟨acceptedSum_eq_zero fun w hw => ?_,rfl⟩
  rcases VirtualDevice.emitRaw_ev _ t.2 w hw with h | h <;> rw [h]
  · exact hev
  · exact nofun

/-- The event that is passed on after the movement changes nothing in the books. -/
theorem andThen_passed {ev : InputEvent} (hev : ev.eventType ≠ .relative) {p : Step ℚ}
    (passed : Bool) {t : DeviceWrapper ℚ × VirtualDevice} (hok : (p t).2.2 = true) :
    acceptedSum a (p.andThen (if passed then emitRaw ev else .skip) t).2.1 =
        acceptedSum a (p t).2.1 ∧
      (p.andThen (if passed then emitRaw ev else .skip) t).1.1 = (p t).1.1 := by
  have happly : p t = ((p t).1,(p t).2.1,true) := by rw [← hok]
  rw [Fallible.andThen_of_ok happly]
  cases passed with
  | false => exact ⟨(acceptedSum_append a _ _).trans (add_zero _),rfl⟩
  | true =>
    obtain ⟨hsum,hstate⟩ := emitRaw_quiet (a := a) hev (p t).1
    exact ⟨(acceptedSum_append a _ _).trans ((congrArg (_ + ·) hsum).trans (add_zero _)),hstate⟩

/-- The end of a frame that is not cut short. -/
theorem writeStep_booked_synchronization (habs : s.1.isAbsolute = true)
    (hsyn : i.te.ev.eventType = .synchronization) (hwhole : ¬ CutShort cfg s i) :
    (acceptedSum a (writeStep cfg s i).2 : ℚ) + (writeStep cfg s i).1.1.remainder a =
      s.1.remainder a + (FrameMode.gain cfg.pointerAcceleration .pointer * taken cfg a s.1 i -
        lost cfg a s.1 i) := by
  have hquiet : i.te.ev.eventType ≠ .relative := by simp [hsyn]
  change (acceptedSum a (processEvent cfg i.typing i.te s).2.1 : ℚ) +
    (processEvent cfg i.typing i.te s).1.1.remainder a = _
  rw [processEvent_report cfg _ habs hsyn]
  by_cases hreport : i.te.ev.IsReport
  · rw [processSyn,if_neg (not_not.mpr hreport.2)]
    dsimp only
    cases hdwt : dwtActive cfg i.typing i.te.now with
    | true =>
      have htaken : taken cfg a s.1 i = 0 := if_neg fun h => by
        obtain ⟨⟨_,hawake,_⟩,_⟩ := h
        simp [hdwt] at hawake
      obtain ⟨hsum,hstate⟩ := andThen_passed (a := a) (p := modify discardFrame)
        (t := (s.1.guarded true,s.2)) hquiet
        (decide ((s.1.guarded true).currentDx ≠ 0 ∨ (s.1.guarded true).currentDy ≠ 0) || !true) rfl
      rw [if_pos rfl,hsum,hstate,htaken,lost,if_pos ⟨hreport,hdwt⟩]
      cases a
      · change ((0 : ℤ) : ℚ) + 0.0 = s.1.remainderX + (_ * ((0 : ℤ) : ℚ) - s.1.remainderX)
        norm_num
      · change ((0 : ℤ) : ℚ) + 0.0 = s.1.remainderY + (_ * ((0 : ℤ) : ℚ) - s.1.remainderY)
        norm_num
    | false =>
      have hguard : s.1.guarded false = s.1 := rfl
      rw [hguard,if_neg Bool.false_ne_true]
      by_cases hmoved : s.1.currentDx ≠ 0 ∨ s.1.currentDy ≠ 0
      · have hmoves : MovesFrame cfg s.1 i := ⟨hreport,hdwt,hmoved⟩
        have hok : (movementFrame cfg s).2.2 = true := by
          refine (movementFrame_ok_iff cfg).mpr fun n hn => ?_
          by_contra hrefused
          exact hwhole ⟨hmoves,n,hn,Bool.eq_false_iff.mpr hrefused⟩
        have hbooks := movementFrame_booked (a := a) hmoves
        rw [← movementFrame_endsReliably cfg s hok] at hbooks
        obtain ⟨hsum,hstate⟩ := andThen_passed (a := a) (p := movementFrame cfg) (t := (s.1,s.2))
          hquiet (decide (s.1.currentDx ≠ 0 ∨ s.1.currentDy ≠ 0) || !false) hok
        rw [if_pos (decide_eq_true hmoved),hsum,hstate]
        exact hbooks
      · obtain ⟨hsum,hstate⟩ := andThen_passed (a := a) (p := .skip) (t := (s.1,s.2))
          hquiet (decide (s.1.currentDx ≠ 0 ∨ s.1.currentDy ≠ 0) || !false) rfl
        have htaken : taken cfg a s.1 i = 0 := if_neg fun h => hmoved h.1.2.2
        have hlost : lost cfg a s.1 i = 0 := by
          rw [lost,if_neg fun h => by simp [hdwt] at h,if_neg fun h => hmoved h.1.2.2]
        rw [if_neg (by simpa using hmoved),hsum,hstate,htaken,hlost]
        change ((0 : ℤ) : ℚ) + s.1.remainder a = s.1.remainder a + (_ * ((0 : ℤ) : ℚ) - 0)
        simp
  · have htaken : taken cfg a s.1 i = 0 := if_neg fun h => hreport h.1.1
    have hlost : lost cfg a s.1 i = 0 := by
      rw [lost,if_neg fun h => hreport h.1,if_neg fun h => hreport h.1.1]
    have hcode : i.te.ev.code ≠ 0 := fun h => hreport ⟨hsyn,h⟩
    have hkept : (s.1.guarded (dwtActive cfg i.typing i.te.now)).remainder a = s.1.remainder a := by
      cases dwtActive cfg i.typing i.te.now <;> rfl
    rw [processSyn,if_pos hcode,(emitRaw_quiet hquiet _).1,(emitRaw_quiet (a := a) hquiet _).2,
      htaken,hlost,hkept]
    simp

/-- One event of a run in which no movement is cut short. -/
theorem writeStep_booked (habs : s.1.isAbsolute = true) (hwhole : ¬ CutShort cfg s i) :
    (acceptedSum a (writeStep cfg s i).2 : ℚ) + (writeStep cfg s i).1.1.remainder a =
      s.1.remainder a + (FrameMode.gain cfg.pointerAcceleration .pointer * taken cfg a s.1 i -
        lost cfg a s.1 i) := by
  by_cases hsyn : i.te.ev.eventType = .synchronization
  · exact writeStep_booked_synchronization habs hsyn hwhole
  · obtain ⟨hout,hrem⟩ := writeStep_still cfg a habs hsyn
    have hreport : ¬ i.te.ev.IsReport := fun h => hsyn h.1
    have htaken : taken cfg a s.1 i = 0 := if_neg fun h => hreport h.1.1
    have hlost : lost cfg a s.1 i = 0 := by
      rw [lost,if_neg fun h => hreport h.1,if_neg fun h => hreport h.1.1]
    rw [acceptedSum_eq_zero hout,hrem,htaken,hlost]
    simp

/-- A run in which no movement is cut short. -/
theorem booked_of_whole {inputs : List WrapperInput} (habs : s.1.isAbsolute = true)
    (hwhole : AtEach (fun before i => ¬ CutShort cfg (run (writeStep cfg) s before).1 i) inputs) :
    Booked cfg a s inputs :=
  tally_conserved (writeStep cfg) (fun s => s.1.remainder a) _ _ fun before i back heq =>
    writeStep_booked ((run_isAbsolute s before).trans habs) (hwhole before i back heq)

end Books

/-- A finger lands and moves diagonally over two frames. -/
def diagonal : List WrapperInput :=
  [(.key,KeyCode.btnTouch,1),(.absolute,AbsoluteAxisCode.absX,100),
    (.absolute,AbsoluteAxisCode.absY,100),(.synchronization,0,0),
    (.absolute,AbsoluteAxisCode.absX,200),(.absolute,AbsoluteAxisCode.absY,200),
    (.synchronization,0,0),(.absolute,AbsoluteAxisCode.absX,300),(.synchronization,0,0)].map
      fun e => ⟨⟨⟨1,e.1,e.2.1,e.2.2⟩,0⟩,none⟩

/-- Where the horizontal motion was too short to be written, its displacement is in the remainder and
left standing: the next frame writes both. -/
example : ¬ WrittenOnce .default .x (opened ⟨fun n => n != 2⟩)
    (diagonal.take 4 ++ ⟨⟨⟨1,.absolute,AbsoluteAxisCode.absX,102⟩,0⟩,none⟩ ::
      (diagonal.drop 5).take 2 ++ diagonal.drop 8) := by
  intro h
  exact h (diagonal.take 4) ⟨⟨⟨1,.absolute,AbsoluteAxisCode.absX,102⟩,0⟩,none⟩
    [⟨⟨⟨1,.absolute,AbsoluteAxisCode.absY,200⟩,0⟩,none⟩] ⟨⟨⟨1,.synchronization,0,0⟩,0⟩,none⟩ []
    ⟨⟨⟨1,.synchronization,0,0⟩,0⟩,none⟩ [] rfl ⟨by decide,by decide +kernel,by decide +kernel⟩
    (by decide +kernel) (by decide +kernel) (by decide +kernel)

end DeviceWrapper
end LibinputRs
