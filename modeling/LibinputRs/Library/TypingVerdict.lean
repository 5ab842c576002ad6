import LibinputRs.Library.PinchContacts
import LibinputRs.Pipeline.TouchPointing

/-! What the typing window takes from a batch of a touchpad: the taps, the updates of a pinch and the
movements that the batch shows outside the window, and the fractions and the moved touch that it
leaves behind there. All of it is read off the state before the batch and its events. -/
namespace LibinputRs
open Automata

variable {F D : Type}

/-- What of a touchpad decides what its lifts and frames show outside the typing window. -/
structure Pad (F : Type) where
  pointing : Pointing
  slots : SlotView
  fingers : ℕ
  pinching : Bool
  downSince : Option Instant
  moved : Bool
  fractionX : F
  fractionY : F

namespace Pad

section Seen
variable (p : Pad F)

/-- The number of contacts. -/
def contacts : ℕ := p.slots.contacts.length

/-- The number of fingers that a frame is about. -/
def touching : ℕ := max p.contacts p.fingers

/-- There is a displacement, and no pinch that discards it. -/
def Moves : Prop :=
  p.pinching = false ∧ (p.pointing.currentDx ≠ 0 ∨ p.pointing.currentDy ≠ 0)

instance : Decidable p.Moves := inferInstanceAs (Decidable (_ ∧ (_ ∨ _)))

/-- The touch was short, of one finger, and did not move. -/
def Taps (now : Instant) : Prop :=
  p.moved = false ∧ quickTouch p.downSince now = true ∧ p.fingers ≤ 1

variable [F32 F]

/-- The displacement of an axis in the units of motion or of scrolling, with the fraction that is
left of the frames before. -/
def total (cfgAccel : F) (d : ℤ) (fraction : F) : F :=
  if p.touching ≤ 1 then F32.ofI32 d * TrackedDevice.hwScale * cfgAccel + fraction
  else F32.ofI32 d * TrackedDevice.scrollScale + fraction

def totalX (cfgAccel : F) : F := p.total cfgAccel p.pointing.currentDx p.fractionX

def totalY (cfgAccel : F) : F := p.total cfgAccel p.pointing.currentDy p.fractionY

/-- The end of a frame shows something: a pinch of two contacts, a swipe, or a movement that does
not round to zero. -/
def FrameSeen (cfgAccel : F) : Prop :=
  (p.pinching = true ∧ 2 ≤ p.contacts) ∨
    (p.Moves ∧ (3 ≤ p.touching ∨ F32.roundToI32 (p.totalX cfgAccel) ≠ 0 ∨
      F32.roundToI32 (p.totalY cfgAccel) ≠ 0))

/-- The event shows something that the typing window would hide. -/
def Seen (cfg : Settings F) (te : TimedEvent) : Prop :=
  (te.ev.Releases KeyCode.btnTouch ∧ cfg.cfgTap = true ∧ p.Taps te.now) ∨
    (te.ev.IsReport ∧ p.FrameSeen cfg.cfgAccel)

/-- What rounding leaves. -/
def fraction (total : F) : F := total - F32.ofI32 (F32.roundToI32 total)

/-- What an event leaves of it outside the window. -/
def next (cfgAccel : F) (te : TimedEvent) : Pad F where
  pointing := p.pointing.next te
  slots := p.slots.next te.ev
  fingers := (fingerKey te.ev).elim p.fingers (countKey p.contacts p.fingers)
  pinching :=
    if te.ev.Presses KeyCode.btnTouch then p.pinching || decide (2 ≤ p.contacts)
    else if te.ev.Releases KeyCode.btnTouch then false
    else p.pinching
  downSince := te.ev.touchStartAfter te.now p.downSince
  moved :=
    if te.ev.Presses KeyCode.btnTouch then false
    else if te.ev.IsReport ∧ p.Moves then true
    else p.moved
  fractionX :=
    if te.ev.IsReport ∧ p.Moves ∧ p.touching ≤ 2 then fraction (p.totalX cfgAccel) else p.fractionX
  fractionY :=
    if te.ev.IsReport ∧ p.Moves ∧ p.touching ≤ 2 then fraction (p.totalY cfgAccel) else p.fractionY

/-- What a batch leaves of it outside the window. -/
def after (cfgAccel : F) (events : List TimedEvent) : Pad F :=
  events.foldl (fun p te => p.next cfgAccel te) p

/-- The batch shows nothing that the window would hide, and leaves nothing that it would not: no
fraction once a frame has ended, and a touch that counts as moved unless it ends with a touch-down. -/
structure Indifferent (cfg : Settings F) (events : List TimedEvent) : Prop where
  unseen : AtEach (fun before te => ¬ (p.after cfg.cfgAccel before).Seen cfg te) events
  fractions : (∃ te ∈ events, te.ev.IsReport) →
    (p.after cfg.cfgAccel events).fractionX = 0.0 ∧ (p.after cfg.cfgAccel events).fractionY = 0.0
  settled : ∀ te ∈ events.getLast?,
    te.ev.Presses KeyCode.btnTouch ∨ (p.after cfg.cfgAccel events).moved = true

end Seen

variable [F32 F] {p : Pad F} {cfgAccel : F}

theorem after_concat (events : List TimedEvent) (te : TimedEvent) :
    p.after cfgAccel (events ++ [te]) = (p.after cfgAccel events).next cfgAccel te :=
  List.foldl_concat _ _ _ _

/-- Fractions change at the ends of frames only. -/
theorem after_fractions {events : List TimedEvent} (h : ∀ te ∈ events, ¬ te.ev.IsReport) :
    (p.after cfgAccel events).fractionX = p.fractionX ∧
      (p.after cfgAccel events).fractionY = p.fractionY := by
  induction events generalizing p with
  | nil => exact ⟨rfl,rfl⟩
  | cons te events ih =>
    obtain ⟨hte,hevents⟩ := List.forall_mem_cons.mp h
    have hkept : (p.next cfgAccel te).fractionX = p.fractionX ∧
        (p.next cfgAccel te).fractionY = p.fractionY :=
      ⟨if_neg fun h => hte h.1,if_neg fun h => hte h.1⟩
    obtain ⟨hx,hy⟩ := ih (p := p.next cfgAccel te) hevents
    exact ⟨hx.trans hkept.1,hy.trans hkept.2⟩

end Pad

/-- An event with the settings it is processed under. -/
def Settings.touchInput (cfg : Settings F) (dwt : Bool) (te : TimedEvent) : TouchInput F :=
  ⟨te,cfg.cfgTap,cfg.cfgNat,cfg.cfgAccel,dwt⟩

namespace TrackedDevice

/-- What the device knows of it. -/
def pad (td : TrackedDevice F D) : Pad F :=
  ⟨td.pointing,td.slotView,td.touchFingers,td.pinchActive,td.touchStartTime,td.tapEmitted,
    td.remainderX,td.remainderY⟩

theorem pad_contacts (td : TrackedDevice F D) : td.pad.contacts = td.activeSlotCount :=
  td.activeSlotCount_eq.symm

/-- The same device with another account of the tap and of the fractions. -/
def marked (td : TrackedDevice F D) (tap : Bool) (x y : F) : TrackedDevice F D :=
  { td with tapEmitted := tap, remainderX := x, remainderY := y }

theorem marked_eq_self_iff {td : TrackedDevice F D} {tap : Bool} {x y : F} :
    td.marked tap x y = td ↔ tap = td.tapEmitted ∧ x = td.remainderX ∧ y = td.remainderY := by
  constructor
  · intro h
    exact ⟨congrArg tapEmitted h,congrArg remainderX h,congrArg remainderY h⟩
  · rintro ⟨rfl,rfl,rfl⟩
    rfl

/-- What a touch and its frames leave for later ones. -/
def carried (td : TrackedDevice F D) : Option Instant × Bool × F × F :=
  (td.touchStartTime,td.tapEmitted,td.remainderX,td.remainderY)

variable [F64 D]

theorem processAbsoluteKey_carried (te : TimedEvent) (cfgTap dwt : Bool) (td : TrackedDevice F D)
    (hkey : te.ev.eventType = .key) : (td.processAbsoluteKey te cfgTap dwt).1.carried =
      (te.ev.touchStartAfter te.now td.touchStartTime,
        if te.ev.Presses KeyCode.btnTouch then false else td.tapEmitted,
        td.remainderX,td.remainderY) := by
  have hdown := touchDown_frame carried (fun _ _ _ _ _ => rfl) te td
  have hclick := physicalClick_frame carried (fun _ _ => rfl) te td
  by_cases htouch : te.ev.code = KeyCode.btnTouch
  · have hev : te.ev.IsTouch := ⟨hkey,htouch⟩
    unfold processAbsoluteKey InputEvent.touchStartAfter
    dsimp only
    rw [if_pos htouch,if_pos hev]
    by_cases hvalue : te.ev.value = 0
    · rw [if_neg (not_not.mpr hvalue),if_neg (not_not.mpr hvalue),if_neg fun h => h.2 hvalue]
      rfl
    · rw [if_pos hvalue,if_pos hvalue,if_pos ⟨hev,hvalue⟩]
      exact hdown
  · have hev : ¬ te.ev.IsTouch := fun h => htouch h.2
    have hpress : ¬ te.ev.Presses KeyCode.btnTouch := fun h => hev h.1
    unfold processAbsoluteKey InputEvent.touchStartAfter
    dsimp only
    rw [if_neg htouch,if_neg hev,if_neg hpress]
    split_ifs
    all_goals first
      | rfl
      | exact hclick

theorem processAbsoluteAxis_carried (te : TimedEvent) (td : TrackedDevice F D) :
    (td.processAbsoluteAxis te).carried = td.carried :=
  processAbsoluteAxis_frame carried (fun _ _ _ => rfl) (fun _ _ _ _ _ _ => rfl) te td

variable [F32 F] [FloatCast F D]

/-- The end of a frame outside the window. -/
theorem processSyn_outside (te : TimedEvent) (cfgNat : Bool) (cfgAccel : F)
    (td : TrackedDevice F D) (hcode : te.ev.code = 0) : td.processSyn te cfgNat cfgAccel false =
      if td.pinchActive = true then td.pinchFrame te
      else if td.pad.Moves then td.movementFrame te cfgNat cfgAccel
      else (td,[]) := by
  unfold processSyn
  rw [if_neg (not_not.mpr hcode)]
  cases hpinch : td.pinchActive with
  | true => rfl
  | false =>
    have hmoves : td.pad.Moves ↔ td.currentDx ≠ 0 ∨ td.currentDy ≠ 0 := and_iff_right hpinch
    simp only [hmoves,Bool.false_and,Bool.false_eq_true,if_false]

/-- What a frame that moves leaves of the fractions. -/
theorem movementFrame_carried (te : TimedEvent) (cfgNat : Bool) (cfgAccel : F)
    (td : TrackedDevice F D) : (td.movementFrame te cfgNat cfgAccel).1.carried =
      (td.touchStartTime,true,
        if td.pad.touching ≤ 2 then Pad.fraction (td.pad.totalX cfgAccel) else td.remainderX,
        if td.pad.touching ≤ 2 then Pad.fraction (td.pad.totalY cfgAccel) else td.remainderY) := by
  have htouching : td.pad.touching = max td.activeSlotCount td.touchFingers :=
    congrArg (max · td.touchFingers) td.pad_contacts
  have hcount : ({ td with tapEmitted := true } : TrackedDevice F D).activeSlotCount =
      td.activeSlotCount := rfl
  unfold movementFrame Pad.totalX Pad.totalY Pad.total
  dsimp only
  rw [htouching,hcount]
  split_ifs <;> first
    | rfl
    | omega

/-- A frame that moves shows nothing when both axes round to zero. -/
theorem movementFrame_eq_nil_iff (te : TimedEvent) (cfgNat : Bool) (cfgAccel : F)
    (td : TrackedDevice F D) : (td.movementFrame te cfgNat cfgAccel).2 = [] ↔
      ¬ (3 ≤ td.pad.touching ∨ F32.roundToI32 (td.pad.totalX cfgAccel) ≠ 0 ∨
        F32.roundToI32 (td.pad.totalY cfgAccel) ≠ 0) := by
  have htouching : td.pad.touching = max td.activeSlotCount td.touchFingers :=
    congrArg (max · td.touchFingers) td.pad_contacts
  have hcount : ({ td with tapEmitted := true } : TrackedDevice F D).activeSlotCount =
      td.activeSlotCount := rfl
  unfold movementFrame Pad.totalX Pad.totalY Pad.total
  dsimp only
  rw [htouching,hcount]
  split_ifs with hone htwo
  · have hfew : ¬ 3 ≤ max td.activeSlotCount td.touchFingers := by omega
    unfold motionFrame pad pointing
    simp [hfew]
  · have hfew : ¬ 3 ≤ max td.activeSlotCount td.touchFingers := by omega
    unfold scrollFrame scrollAxis pad pointing
    simp [hfew,and_comm]
  · have hmany : 3 ≤ max td.activeSlotCount td.touchFingers := by omega
    simp [swipeFrame,hmany]

theorem processSyn_carried (te : TimedEvent) (cfgNat : Bool) (cfgAccel : F)
    (td : TrackedDevice F D) (hcode : te.ev.code = 0) :
    (td.processSyn te cfgNat cfgAccel false).1.carried =
      (td.touchStartTime,if td.pad.Moves then true else td.tapEmitted,
        if td.pad.Moves ∧ td.pad.touching ≤ 2 then Pad.fraction (td.pad.totalX cfgAccel)
        else td.remainderX,
        if td.pad.Moves ∧ td.pad.touching ≤ 2 then Pad.fraction (td.pad.totalY cfgAccel)
        else td.remainderY) := by
  rw [processSyn_outside te cfgNat cfgAccel td hcode]
  by_cases hpinch : td.pinchActive = true
  · have hstill : ¬ td.pad.Moves := fun h => Bool.noConfusion (hpinch.symm.trans h.1)
    simp only [if_pos hpinch,hstill,false_and,if_false]
    rfl
  · by_cases hmoves : td.pad.Moves
    · simp only [if_neg hpinch,hmoves,true_and,if_true]
      exact movementFrame_carried te cfgNat cfgAccel td
    · simp only [if_neg hpinch,hmoves,false_and,if_false]
      rfl

/-- The end of a frame is seen exactly when the handler answers it. -/
theorem processSyn_eq_nil_iff (te : TimedEvent) (cfgNat : Bool) (cfgAccel : F)
    (td : TrackedDevice F D) (hcode : te.ev.code = 0) :
    (td.processSyn te cfgNat cfgAccel false).2 = [] ↔ ¬ td.pad.FrameSeen cfgAccel := by
  rw [processSyn_outside te cfgNat cfgAccel td hcode]
  unfold Pad.FrameSeen
  rw [pad_contacts,← primarySlotDistance_isSome]
  have hpad : td.pad.pinching = td.pinchActive := rfl
  by_cases hpinch : td.pinchActive = true
  · have hstill : ¬ td.pad.Moves := fun h => Bool.noConfusion (hpinch.symm.trans h.1)
    rw [if_pos hpinch,pinchFrame]
    cases td.primarySlotDistance <;> simp [hpad,hpinch,hstill]
  · by_cases hmoves : td.pad.Moves
    · rw [if_neg hpinch,if_pos hmoves,movementFrame_eq_nil_iff]
      simp [hpad,hpinch,hmoves]
    · simp [hpad,hpinch,hmoves]

variable (cfg : Settings F) (td : TrackedDevice F D) (te : TimedEvent)

theorem touchStep_carried : (td.touchStep (cfg.touchInput false te)).1.carried =
    ((td.pad.next cfg.cfgAccel te).downSince,(td.pad.next cfg.cfgAccel te).moved,
      (td.pad.next cfg.cfgAccel te).fractionX,(td.pad.next cfg.cfgAccel te).fractionY) := by
  have hnext : te.ev.eventType ≠ .key → ¬ te.ev.IsReport →
      td.carried = ((td.pad.next cfg.cfgAccel te).downSince,(td.pad.next cfg.cfgAccel te).moved,
        (td.pad.next cfg.cfgAccel te).fractionX,(td.pad.next cfg.cfgAccel te).fractionY) := by
    intro hkey hreport
    have htouch : ¬ te.ev.IsTouch := fun h => hkey h.1
    have hpress : ¬ te.ev.Presses KeyCode.btnTouch := fun h => hkey h.1.1
    simp only [Pad.next,InputEvent.touchStartAfter,htouch,hpress,hreport,false_and,if_false]
    rfl
  cases htype : te.ev.eventType with
  | key =>
    have hreport : ¬ te.ev.IsReport := fun h => by cases htype.symm.trans h.1
    rw [touchStep_key td _ htype]
    simp only [Pad.next,hreport,false_and,if_false]
    exact processAbsoluteKey_carried te cfg.cfgTap false td htype
  | absolute =>
    rw [touchStep_absolute td _ htype]
    exact (processAbsoluteAxis_carried te td).trans
      (hnext (by simp [htype]) fun h => by cases htype.symm.trans h.1)
  | synchronization =>
    rw [touchStep_synchronization td _ htype]
    by_cases hcode : te.ev.code = 0
    · have htouch : ¬ te.ev.IsTouch := fun h => by cases htype.symm.trans h.1
      have hpress : ¬ te.ev.Presses KeyCode.btnTouch := fun h => htouch h.1
      have hreport : te.ev.IsReport := ⟨htype,hcode⟩
      simp only [Pad.next,InputEvent.touchStartAfter,htouch,hpress,hreport,true_and,if_false]
      exact processSyn_carried te cfg.cfgNat cfg.cfgAccel td hcode
    · have hsilent : td.processSyn te cfg.cfgNat cfg.cfgAccel false = (td,[]) := if_pos hcode
      exact (congrArg (·.1.carried) hsilent).trans (hnext (by simp [htype]) fun h => hcode h.2)
  | relative =>
    unfold touchStep processAbsoluteEvent Settings.touchInput
    rw [htype]
    exact hnext (by simp [htype]) fun h => by cases htype.symm.trans h.1
  | other n =>
    unfold touchStep processAbsoluteEvent Settings.touchInput
    rw [htype]
    exact hnext (by simp [htype]) fun h => by cases htype.symm.trans h.1

theorem touchStep_pinchActive (i : TouchInput F) : (td.touchStep i).1.pinchActive =
    if i.te.ev.Presses KeyCode.btnTouch then td.pinchActive || decide (2 ≤ td.activeSlotCount)
    else if i.te.ev.Releases KeyCode.btnTouch then false
    else td.pinchActive := by
  have hlatch := touchStep_pinchLatch (F := F) (D := D)
  rw [Bool.eq_iff_iff]
  split_ifs with hpress hrel
  · by_cases htwo : 2 ≤ td.activeSlotCount
    · simp [hlatch.set td i ⟨hpress,htwo⟩,htwo]
    · simpa [htwo] using hlatch.kept td i (fun h => htwo h.2) fun h => hpress.2 h.2
  · exact iff_of_false (hlatch.released td i (fun h => hpress h.1) hrel) not_false
  · exact hlatch.kept td i (fun h => hpress h.1) hrel

/-- Outside the window every event changes what the device knows as the reading does. -/
theorem pad_touchStep : (td.touchStep (cfg.touchInput false te)).1.pad =
    td.pad.next cfg.cfgAccel te := by
  have hcarried := td.touchStep_carried cfg te
  simp only [carried,Prod.mk.injEq] at hcarried
  obtain ⟨hdown,hmoved,hx,hy⟩ := hcarried
  unfold pad
  rw [touchStep_pointing,touchStep_slotView,touchStep_touchFingers,touchStep_pinchActive,hdown,
    hmoved,hx,hy,← pad_contacts]
  rfl

/-- What the window makes of an event: the same but for the account of the tap and of the fractions,
with an answer that leaves out what is seen of it. -/
def MutedStep (tap : Bool) (x y : F) (seen : Prop)
    (r r' : TrackedDevice F D × List (LibinputEvent D)) : Prop :=
  r.1 = r'.1.marked tap x y ∧ r.2.Sublist r'.2 ∧ (r.2 = r'.2 ↔ ¬ seen)

omit [F64 D] [F32 F] [FloatCast F D] in
/-- Nothing is left out of an answer that is the same. -/
theorem MutedStep.same {tap : Bool} {x y : F} {seen : Prop}
    {r r' : TrackedDevice F D × List (LibinputEvent D)} (hseen : ¬ seen)
    (h : r = (r'.1.marked tap x y,r'.2)) : MutedStep tap x y seen r r' := by
  obtain rfl := h
  exact ⟨rfl,List.Sublist.refl _,iff_of_true rfl hseen⟩

omit [F32 F] [FloatCast F D] in
theorem touchDown_marked (tap : Bool) (x y : F) : (td.marked tap x y).touchDown te =
    ((td.touchDown te).1.marked false x y,(td.touchDown te).2) := by
  have hbase : (td.marked tap x y).pinchBase = td.pinchBase := rfl
  rw [touchDown_eq,touchDown_eq,hbase]
  cases td.pinchBase <;> rfl

omit [F32 F] [FloatCast F D] [F64 D] in
theorem physicalClick_marked (tap : Bool) (x y : F) : (td.marked tap x y).physicalClick te =
    ((td.physicalClick te).1.marked tap x y,(td.physicalClick te).2) :=
  physicalClick_commutes (marked · tap x y) (fun _ => ⟨rfl,rfl,rfl⟩) (fun _ _ => rfl) te td

omit [F32 F] [FloatCast F D] in
theorem processAbsoluteAxis_marked (tap : Bool) (x y : F) :
    (td.marked tap x y).processAbsoluteAxis te = (td.processAbsoluteAxis te).marked tap x y := by
  have hite : ∀ {c : Prop} {_ : Decidable c} {r r' s s' : TrackedDevice F D},
      r = r'.marked tap x y → s = s'.marked tap x y →
        (if c then r else s) = (if c then r' else s').marked tap x y := by
    intro c _ r r' s s' hr hs
    split_ifs
    · exact hr
    · exact hs
  exact hite (hite rfl rfl) (hite rfl (hite rfl (hite rfl (hite rfl (hite rfl (hite rfl rfl))))))

omit [F32 F] [FloatCast F D] in
/-- A lift in the window is no tap. -/
theorem touchUp_muted (tap : Bool) (x y : F) :
    MutedStep tap x y (cfg.cfgTap = true ∧ td.pad.Taps te.now)
      ((td.marked tap x y).touchUp te cfg.cfgTap true) (td.touchUp te cfg.cfgTap false) := by
  have hlift : (td.marked tap x y).liftPinch te = td.liftPinch te := rfl
  have hmuted : (td.marked tap x y).isTap te.now cfg.cfgTap true = false := by simp [isTap]
  have htap : td.isTap te.now cfg.cfgTap false = true ↔
      cfg.cfgTap = true ∧ td.pad.Taps te.now := by
    have hpad : td.pad.moved = td.tapEmitted ∧ td.pad.downSince = td.touchStartTime ∧
        td.pad.fingers = td.touchFingers := ⟨rfl,rfl,rfl⟩
    simp only [isTap,Pad.Taps,quickTouch,hpad,Bool.and_eq_true,Bool.not_eq_true',
      decide_eq_true_eq,Bool.not_false,and_true,and_assoc]
  refine ⟨rfl,?_,?_⟩
  · unfold touchUp
    dsimp only
    rw [hlift,hmuted]
    exact (List.Sublist.refl _).append (List.nil_sublist _)
  · unfold touchUp
    dsimp only
    rw [hlift,hmuted,← htap]
    cases td.isTap te.now cfg.cfgTap false <;> simp

omit [FloatCast F D] in
theorem processAbsoluteKey_muted (x y : F) (hkey : te.ev.eventType = .key) :
    MutedStep (decide (¬ te.ev.Presses KeyCode.btnTouch)) x y (td.pad.Seen cfg te)
      ((td.marked true x y).processAbsoluteKey te cfg.cfgTap true)
      (td.processAbsoluteKey te cfg.cfgTap false) := by
  have hreport : ¬ te.ev.IsReport := fun h => by cases hkey.symm.trans h.1
  have hseen : td.pad.Seen cfg te ↔
      te.ev.Releases KeyCode.btnTouch ∧ cfg.cfgTap = true ∧ td.pad.Taps te.now :=
    or_iff_left fun h => hreport h.1
  rw [hseen]
  unfold processAbsoluteKey
  dsimp only
  by_cases htouch : te.ev.code = KeyCode.btnTouch
  · have hev : te.ev.IsTouch := ⟨hkey,htouch⟩
    rw [if_pos htouch,if_pos htouch]
    by_cases hvalue : te.ev.value = 0
    · have hpress : ¬ te.ev.Presses KeyCode.btnTouch := fun h => h.2 hvalue
      have hrel : te.ev.Releases KeyCode.btnTouch := ⟨hev,hvalue⟩
      rw [if_neg (not_not.mpr hvalue),if_neg (not_not.mpr hvalue),decide_eq_true hpress,
        and_iff_right hrel]
      exact td.touchUp_muted cfg te true x y
    · have hpress : te.ev.Presses KeyCode.btnTouch := ⟨hev,hvalue⟩
      rw [if_pos hvalue,if_pos hvalue,decide_eq_false (not_not.mpr hpress)]
      exact .same (fun h => hvalue h.1.2) (td.touchDown_marked te true x y)
  · have hpress : ¬ te.ev.Presses KeyCode.btnTouch := fun h => htouch h.1.2
    have hrel : ¬ te.ev.Releases KeyCode.btnTouch := fun h => htouch h.1.2
    rw [if_neg htouch,if_neg htouch,decide_eq_true hpress]
    refine .same (fun h => hrel h.1) ?_
    split_ifs
    · rfl
    · rfl
    · rfl
    · rfl
    · rfl
    · rfl
    · exact td.physicalClick_marked te true x y

/-- The end of a frame drops the displacement, in the window or out of it. -/
theorem processSyn_cleared (hcode : te.ev.code = 0) (tap : Bool) (x y : F) :
    (td.processSyn te cfg.cfgNat cfg.cfgAccel false).1.marked tap x y =
      ({ td with currentDx := 0, currentDy := 0 } : TrackedDevice F D).marked tap x y := by
  rw [processSyn_outside te cfg.cfgNat cfg.cfgAccel td hcode]
  split_ifs with hpinch hmoves
  · rfl
  · unfold movementFrame
    dsimp only
    split_ifs <;> rfl
  · obtain ⟨hdx,hdy⟩ := not_or.mp fun h => hmoves ⟨Bool.eq_false_iff.mpr hpinch,h⟩
    have hx : td.currentDx = 0 := not_not.mp hdx
    have hy : td.currentDy = 0 := not_not.mp hdy
    unfold marked
    rw [hx,hy]

theorem processSyn_muted (x y : F) (hsyn : te.ev.eventType = .synchronization) :
    MutedStep true (if te.ev.IsReport then 0.0 else x) (if te.ev.IsReport then 0.0 else y)
      (td.pad.Seen cfg te) ((td.marked true x y).processSyn te cfg.cfgNat cfg.cfgAccel true)
      (td.processSyn te cfg.cfgNat cfg.cfgAccel false) := by
  have hrel : ¬ te.ev.Releases KeyCode.btnTouch := fun h => by cases hsyn.symm.trans h.1.1
  have hseen : td.pad.Seen cfg te ↔ te.ev.IsReport ∧ td.pad.FrameSeen cfg.cfgAccel :=
    or_iff_right fun h => hrel h.1
  rw [hseen]
  by_cases hcode : te.ev.code = 0
  · have hreport : te.ev.IsReport := ⟨hsyn,hcode⟩
    have hmuted : (td.marked true x y).processSyn te cfg.cfgNat cfg.cfgAccel true =
        (({ td with currentDx := 0, currentDy := 0 } : TrackedDevice F D).marked true 0.0 0.0,[]) := by
      unfold processSyn
      simp [hcode]
      rfl
    rw [if_pos hreport,if_pos hreport,and_iff_right hreport]
    refine ⟨?_,?_,?_⟩
    · rw [hmuted,processSyn_cleared cfg td te hcode]
    · rw [hmuted]
      exact List.nil_sublist _
    · rw [hmuted,← processSyn_eq_nil_iff te cfg.cfgNat cfg.cfgAccel td hcode]
      exact eq_comm
  · have hno : ¬ te.ev.IsReport := fun h => hcode h.2
    have hsilent : ∀ (td : TrackedDevice F D) dwt,
        td.processSyn te cfg.cfgNat cfg.cfgAccel dwt = (td,[]) := fun _ _ => if_pos hcode
    rw [if_neg hno,if_neg hno,hsilent,hsilent]
    exact .same (fun h => hno h.1) rfl

/-- What the window makes of one event. -/
theorem touchStep_muted (tap : Bool) (x y : F) :
    MutedStep (decide (¬ te.ev.Presses KeyCode.btnTouch)) (if te.ev.IsReport then 0.0 else x)
      (if te.ev.IsReport then 0.0 else y) (td.pad.Seen cfg te)
      ((td.marked tap x y).touchStep (cfg.touchInput true te))
      (td.touchStep (cfg.touchInput false te)) := by
  have hother : te.ev.eventType ≠ .key → te.ev.eventType ≠ .synchronization →
      decide (¬ te.ev.Presses KeyCode.btnTouch) = true ∧ ¬ te.ev.IsReport ∧ ¬ td.pad.Seen cfg te := by
    intro hkey hsyn
    have hpress : ¬ te.ev.Presses KeyCode.btnTouch := fun h => hkey h.1.1
    exact ⟨decide_eq_true hpress,fun h => hsyn h.1,
      fun h => h.elim (fun h => hkey h.1.1.1) fun h => hsyn h.1.1⟩
  cases htype : te.ev.eventType with
  | key =>
    have hreport : ¬ te.ev.IsReport := fun h => by cases htype.symm.trans h.1
    rw [touchStep_key _ _ htype,touchStep_key _ _ htype,if_neg hreport,if_neg hreport]
    exact processAbsoluteKey_muted cfg td te x y htype
  | synchronization =>
    have hpress : ¬ te.ev.Presses KeyCode.btnTouch := fun h => by cases htype.symm.trans h.1.1
    rw [touchStep_synchronization _ _ htype,touchStep_synchronization _ _ htype,
      decide_eq_true hpress]
    exact processSyn_muted cfg td te x y htype
  | absolute =>
    obtain ⟨hpress,hreport,hseen⟩ := hother (by simp [htype]) (by simp [htype])
    rw [touchStep_absolute _ _ htype,touchStep_absolute _ _ htype,hpress,if_neg hreport,
      if_neg hreport]
    exact .same hseen (congrArg (·,[]) (processAbsoluteAxis_marked td te true x y))
  | relative =>
    obtain ⟨hpress,hreport,hseen⟩ := hother (by simp [htype]) (by simp [htype])
    unfold touchStep processAbsoluteEvent Settings.touchInput
    rw [htype,hpress,if_neg hreport,if_neg hreport]
    exact .same hseen rfl
  | other n =>
    obtain ⟨hpress,hreport,hseen⟩ := hother (by simp [htype]) (by simp [htype])
    unfold touchStep processAbsoluteEvent Settings.touchInput
    rw [htype,hpress,if_neg hreport,if_neg hreport]
    exact .same hseen rfl

/-- The touchpad handler over a batch, under one verdict on typing. -/
def touchBatch (cfg : Settings F) (dwt : Bool) (td : TrackedDevice F D)
    (events : List TimedEvent) : TrackedDevice F D × List (LibinputEvent D) :=
  run (fun td te => td.processAbsoluteEvent te cfg.cfgTap cfg.cfgNat cfg.cfgAccel dwt) td events

theorem pad_touchBatch (events : List TimedEvent) :
    (td.touchBatch cfg false events).1.pad = td.pad.after cfg.cfgAccel events := by
  induction events using List.reverseRecOn with
  | nil => rfl
  | append_singleton events te ih =>
    rw [touchBatch,run_append,run_singleton,Pad.after_concat,← ih]
    exact pad_touchStep cfg _ te

/-- What the window makes of a batch: the same but for the account of the tap and of the
fractions. -/
theorem touchBatch_muted (events : List TimedEvent) : (td.touchBatch cfg true events).1 =
    (td.touchBatch cfg false events).1.marked
      (events.getLast?.elim td.tapEmitted fun te => decide (¬ te.ev.Presses KeyCode.btnTouch))
      (if ∃ te ∈ events, te.ev.IsReport then 0.0 else td.remainderX)
      (if ∃ te ∈ events, te.ev.IsReport then 0.0 else td.remainderY) := by
  induction events using List.reverseRecOn with
  | nil => rfl
  | append_singleton events te ih =>
    have hreports : (∃ te' ∈ events ++ [te], te'.ev.IsReport) ↔
        (∃ te' ∈ events, te'.ev.IsReport) ∨ te.ev.IsReport := by
      simp only [List.mem_append,List.mem_singleton,or_and_right,exists_or,exists_eq_left]
    have hite : ∀ r : F, (if ∃ te' ∈ events ++ [te], te'.ev.IsReport then 0.0 else r) =
        if te.ev.IsReport then 0.0 else if ∃ te' ∈ events, te'.ev.IsReport then 0.0 else r := by
      intro r
      by_cases hreport : te.ev.IsReport
      · rw [if_pos (hreports.mpr (.inr hreport)),if_pos hreport]
      · simp only [hreports,hreport,or_false,if_false]
    rw [List.getLast?_concat,hite,hite]
    unfold touchBatch at ih ⊢
    rw [run_append,run_append,run_singleton,run_singleton]
    simp only [ih]
    exact (touchStep_muted cfg _ te _ _ _).1

/-- What the window makes of what a batch shows: the same exactly when nothing is seen of it. -/
theorem touchBatch_out_iff (events : List TimedEvent) :
    (td.touchBatch cfg true events).2 = (td.touchBatch cfg false events).2 ↔
      AtEach (fun before te => ¬ (td.pad.after cfg.cfgAccel before).Seen cfg te) events := by
  have hstep : ∀ (s t : TrackedDevice F D) te, (∃ tap x y, s = t.marked tap x y) →
      (∃ tap x y, (s.touchStep (cfg.touchInput true te)).1 =
        (t.touchStep (cfg.touchInput false te)).1.marked tap x y) ∧
      (s.touchStep (cfg.touchInput true te)).2.Sublist (t.touchStep (cfg.touchInput false te)).2 ∧
      ((s.touchStep (cfg.touchInput true te)).2 = (t.touchStep (cfg.touchInput false te)).2 ↔
        ¬ t.pad.Seen cfg te) := by
    rintro s t te ⟨tap,x,y,rfl⟩
    obtain ⟨hstate,hanswer⟩ := touchStep_muted cfg t te tap x y
    exact ⟨⟨_,_,_,hstate⟩,hanswer⟩
  have hruns := (run_eq_iff_of_sublist
    (fun s t : TrackedDevice F D => ∃ tap x y, s = t.marked tap x y)
    (fun (t : TrackedDevice F D) te => ¬ t.pad.Seen cfg te) hstep
    (show ∃ tap x y, td = td.marked tap x y from ⟨_,_,_,rfl⟩) events).2
  have hpads : ∀ before, (run (fun td te => td.touchStep (cfg.touchInput false te)) td before).1.pad =
      td.pad.after cfg.cfgAccel before := td.pad_touchBatch cfg
  simp only [hpads] at hruns
  exact hruns

/-- A touchpad processes a batch the same in the typing window and out of it exactly when the window
has nothing to hide of it. -/
theorem touchBatch_eq_iff (events : List TimedEvent) :
    td.touchBatch cfg true events = td.touchBatch cfg false events ↔
      td.pad.Indifferent cfg events := by
  have hpad := td.pad_touchBatch cfg events
  have hx : (td.pad.after cfg.cfgAccel events).fractionX =
      (td.touchBatch cfg false events).1.remainderX := congrArg Pad.fractionX hpad.symm
  have hy : (td.pad.after cfg.cfgAccel events).fractionY =
      (td.touchBatch cfg false events).1.remainderY := congrArg Pad.fractionY hpad.symm
  have hmoved : (td.pad.after cfg.cfgAccel events).moved =
      (td.touchBatch cfg false events).1.tapEmitted := congrArg Pad.moved hpad.symm
  have htap : (events.getLast?.elim td.tapEmitted fun te =>
      decide (¬ te.ev.Presses KeyCode.btnTouch)) = (td.touchBatch cfg false events).1.tapEmitted ↔
        ∀ te ∈ events.getLast?, te.ev.Presses KeyCode.btnTouch ∨
          (td.pad.after cfg.cfgAccel events).moved = true := by
    rw [← hmoved]
    rcases List.eq_nil_or_concat' events with rfl | ⟨events,te,rfl⟩
    · simp [Pad.after,pad]
    · rw [List.getLast?_concat]
      by_cases hpress : te.ev.Presses KeyCode.btnTouch
      · simp [Pad.after_concat,Pad.next,hpress]
      · simp only [Option.elim_some,hpress,not_false_iff,decide_true,Option.mem_some_iff,
          forall_eq',false_or]
        exact eq_comm
  have hfractions : ((if ∃ te ∈ events, te.ev.IsReport then 0.0 else td.remainderX) =
        (td.touchBatch cfg false events).1.remainderX ∧
      (if ∃ te ∈ events, te.ev.IsReport then 0.0 else td.remainderY) =
        (td.touchBatch cfg false events).1.remainderY) ↔
      ((∃ te ∈ events, te.ev.IsReport) → (td.pad.after cfg.cfgAccel events).fractionX = 0.0 ∧
        (td.pad.after cfg.cfgAccel events).fractionY = 0.0) := by
    rw [← hx,← hy]
    by_cases hreport : ∃ te ∈ events, te.ev.IsReport
    · simp only [hreport,if_true,true_imp_iff]
      exact and_congr eq_comm eq_comm
    · have hnone : ∀ te ∈ events, ¬ te.ev.IsReport := fun te hte h => hreport ⟨te,hte,h⟩
      simp only [hreport,if_false,false_imp_iff,iff_true]
      exact (Pad.after_fractions hnone).imp Eq.symm Eq.symm
  rw [Prod.ext_iff,touchBatch_out_iff,touchBatch_muted,marked_eq_self_iff,htap,hfractions]
  exact ⟨fun h => ⟨h.2,h.1.2,h.1.1⟩,fun h => ⟨⟨h.settled,h.fractions⟩,h.unseen⟩⟩

end TrackedDevice
end LibinputRs
