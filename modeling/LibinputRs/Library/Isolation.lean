import LibinputRs.Backend.TouchpadClock
import LibinputRs.Library.PinchContacts

/-! What a touch finds of the touches before it. The touch-down overwrites most of the tracking state;
the clock of the last position is read only once there is a position, the baseline of a pinch only
while there is one. What stays is the displacement and its fractions, which no lift clears. -/
namespace LibinputRs
open Automata

variable {F D : Type}

namespace TrackedDevice
variable [F64 D]

section Clock

omit [F64 D] in
/-- Without a stored coordinate a position event finds the same in every clock. -/
theorem position_of_none (te : TimedEvent) (td : TrackedDevice F D) (last : Option Instant)
    (hx : td.lastX = none) (hy : td.lastY = none) :
    ({ td with lastMovementTime := last } : TrackedDevice F D).positionX te = td.positionX te ∧
      ({ td with lastMovementTime := last } : TrackedDevice F D).positionY te = td.positionY te := by
  unfold positionX positionY
  simp [hx,hy]

/-- The coordinates stored for the position events. -/
def coordinates (td : TrackedDevice F D) : Option ℤ × Option ℤ := (td.lastX,td.lastY)

theorem processAbsoluteKey_coordinates (te : TimedEvent) (cfgTap dwt : Bool)
    (td : TrackedDevice F D) (h : td.coordinates = (none,none)) :
    (td.processAbsoluteKey te cfgTap dwt).1.coordinates = (none,none) := by
  have hdown := touchDown_frame coordinates (fun _ _ _ _ _ => rfl) te td
  have hclick := physicalClick_frame coordinates (fun _ _ => rfl) te td
  unfold processAbsoluteKey
  dsimp only
  split_ifs
  all_goals first
    | exact h
    | exact hdown
    | rfl
    | exact hclick.trans h

theorem processAbsoluteAxis_coordinates (te : TimedEvent) (td : TrackedDevice F D)
    (hpos : ¬ (te.ev.code = AbsoluteAxisCode.absX ∨ te.ev.code = AbsoluteAxisCode.absY)) :
    (td.processAbsoluteAxis te).coordinates = td.coordinates := by
  unfold processAbsoluteAxis
  dsimp only
  split_ifs with _ _ _ _ _ _ hx hy
  all_goals first
    | rfl
    | exact absurd (.inl ‹_›) hpos
    | exact absurd (.inr ‹_›) hpos

variable [F32 F] [FloatCast F D]

theorem processSyn_coordinates (te : TimedEvent) (cfgNat : Bool) (cfgAccel : F) (dwt : Bool)
    (td : TrackedDevice F D) :
    (td.processSyn te cfgNat cfgAccel dwt).1.coordinates = td.coordinates :=
  processSyn_frame coordinates (fun _ _ _ _ _ _ => rfl) te cfgNat cfgAccel dwt td

/-- Only a position event stores a coordinate. -/
theorem touchStep_coordinates (td : TrackedDevice F D) (i : TouchInput F)
    (h : td.coordinates = (none,none)) (hpos : ¬ i.te.ev.IsPosition) :
    (td.touchStep i).1.coordinates = (none,none) := by
  have hguard : (if i.dwtActive then { td with tapEmitted := true } else td).coordinates =
      (none,none) := by
    split_ifs <;> exact h
  unfold touchStep processAbsoluteEvent
  dsimp only
  cases htype : i.te.ev.eventType with
  | key => exact processAbsoluteKey_coordinates _ _ _ _ hguard
  | absolute =>
    exact (processAbsoluteAxis_coordinates _ _ fun hcode => hpos ⟨htype,hcode⟩).trans hguard
  | synchronization => exact (processSyn_coordinates _ _ _ _ _).trans hguard
  | relative => exact hguard
  | other n => exact hguard

/-- The devices differ in the clock of the last position at most, and that only before there is a
position. -/
def SameButClock (s t : TrackedDevice F D) : Prop :=
  s = t ∨ (s.coordinates = (none,none) ∧ ∃ last, t = { s with lastMovementTime := last })

theorem touchStep_sameButClock (s t : TrackedDevice F D) (i : TouchInput F)
    (h : SameButClock s t) : (touchStep s i).2 = (touchStep t i).2 ∧
      SameButClock (touchStep s i).1 (touchStep t i).1 := by
  rcases h with rfl | ⟨hnone,last,rfl⟩
  · exact ⟨rfl,.inl rfl⟩
  · by_cases hpos : i.te.ev.IsPosition
    · have hsame : touchStep ({ s with lastMovementTime := last } : TrackedDevice F D) i =
          touchStep s i := by
        have hguard : ∀ td : TrackedDevice F D, td.coordinates = (none,none) →
            ({ td with lastMovementTime := last } : TrackedDevice F D).processAbsoluteAxis i.te =
              td.processAbsoluteAxis i.te := by
          intro td htd
          obtain ⟨hx,hy⟩ := td.position_of_none i.te last (congrArg Prod.fst htd)
            (congrArg Prod.snd htd)
          rcases hpos.2 with hcode | hcode
          · rw [processAbsoluteAxis_x _ ⟨hpos.1,hcode⟩,processAbsoluteAxis_x _ ⟨hpos.1,hcode⟩,hx]
          · rw [processAbsoluteAxis_y _ ⟨hpos.1,hcode⟩,processAbsoluteAxis_y _ ⟨hpos.1,hcode⟩,hy]
        rw [touchStep_absolute _ i hpos.1,touchStep_absolute _ i hpos.1]
        cases i.dwtActive
        · exact congrArg (·,[]) (hguard s hnone)
        · exact congrArg (·,[]) (hguard { s with tapEmitted := true } hnone)
      rw [hsame]
      exact ⟨rfl,.inl rfl⟩
    · have hmoved : ∀ b, i.te.ev.movementAfter i.te.now b = b := fun b => if_neg hpos
      have hstep : ∀ b, touchStep ({ s with lastMovementTime := b } : TrackedDevice F D) i =
          ((touchStep s i).1.retimed (i.te.ev.touchStartAfter i.te.now s.touchStartTime)
            (i.te.ev.movementAfter i.te.now b),(touchStep s i).2) :=
        fun b => processAbsoluteEvent_retimes i.te.ev i.te.now i.te.now i.cfgTap i.cfgNat i.cfgAccel
          i.dwtActive s s.touchStartTime b s.touchStartTime s.lastMovementTime (fun _ _ => rfl)
          fun h => absurd h hpos
      have hstart : (touchStep s i).1.touchStartTime =
          i.te.ev.touchStartAfter i.te.now s.touchStartTime :=
        congrArg (·.1.touchStartTime) (hstep s.lastMovementTime)
      rw [hstep last,hmoved,← hstart]
      exact ⟨rfl,.inr ⟨touchStep_coordinates s i hnone hpos,last,rfl⟩⟩

end Clock

section Base

/-- The same device with another baseline of the pinch. -/
def based (td : TrackedDevice F D) (dist angle : D) (fingers : ℤ) : TrackedDevice F D :=
  { td with pinchBaseDist := dist, pinchBaseAngle := angle, pinchFingers := fingers }

/-- One outcome is the other with the given baseline. -/
def Rebases (dist angle : D) (fingers : ℤ) (r r' : TrackedDevice F D × List (LibinputEvent D)) :
    Prop :=
  r = (r'.1.based dist angle fingers,r'.2)

variable {dist angle : D} {fingers : ℤ}

omit [F64 D] in
theorem Rebases.ite {r r' s s' : TrackedDevice F D × List (LibinputEvent D)} {c : Prop}
    {_ : Decidable c} (hr : c → Rebases dist angle fingers r r')
    (hs : ¬ c → Rebases dist angle fingers s s') :
    Rebases dist angle fingers (if c then r else s) (if c then r' else s') := by
  split_ifs with hc
  · exact hr hc
  · exact hs hc

omit [F64 D] in
theorem physicalClick_rebases (te : TimedEvent) (td : TrackedDevice F D) :
    Rebases dist angle fingers ((td.based dist angle fingers).physicalClick te)
      (td.physicalClick te) :=
  physicalClick_commutes (·.based dist angle fingers) (fun _ => ⟨rfl,rfl,rfl⟩) (fun _ _ => rfl) te td

/-- Outside a pinch a key event that is no touch-down leaves the baseline alone. -/
theorem processAbsoluteKey_rebases (te : TimedEvent) (cfgTap dwt : Bool) (td : TrackedDevice F D)
    (hclosed : td.pinchActive = false) (hdown : te.ev.code = KeyCode.btnTouch → te.ev.value = 0) :
    Rebases dist angle fingers
      ((td.based dist angle fingers).processAbsoluteKey te cfgTap dwt)
      (td.processAbsoluteKey te cfgTap dwt) := by
  have hlift : ∀ td : TrackedDevice F D, td.pinchActive = false → td.liftPinch te = [] := by
    intro td h
    unfold liftPinch
    rw [h]
    rfl
  refine .ite (fun htouch => ?_) fun _ => .ite (fun _ => rfl) fun _ => .ite (fun _ => rfl)
    fun _ => .ite (fun _ => rfl) fun _ => td.physicalClick_rebases te
  rw [if_neg (not_not.mpr (hdown htouch)),if_neg (not_not.mpr (hdown htouch)),touchUp,touchUp,
    hlift td hclosed,hlift (td.based dist angle fingers) hclosed]
  rfl

omit [F64 D] in
theorem ite_based {x x' y y' : TrackedDevice F D} {c : Prop} {_ : Decidable c}
    (hx : c → x = x'.based dist angle fingers) (hy : ¬ c → y = y'.based dist angle fingers) :
    (if c then x else y) = (if c then x' else y').based dist angle fingers := by
  split_ifs with hc
  · exact hx hc
  · exact hy hc

theorem processAbsoluteAxis_based (te : TimedEvent) (td : TrackedDevice F D) :
    (td.based dist angle fingers).processAbsoluteAxis te =
      (td.processAbsoluteAxis te).based dist angle fingers :=
  ite_based (fun _ => ite_based (fun _ => rfl) fun _ => rfl) fun _ =>
    ite_based (fun _ => rfl) fun _ => ite_based (fun _ => rfl) fun _ =>
    ite_based (fun _ => rfl) fun _ => ite_based (fun _ => rfl) fun _ =>
    ite_based (fun _ => rfl) fun _ => ite_based (fun _ => rfl) fun _ => rfl

variable [F32 F] [FloatCast F D]

/-- Outside a pinch a frame leaves the baseline alone. -/
theorem processSyn_rebases (te : TimedEvent) (cfgNat : Bool) (cfgAccel : F) (dwt : Bool)
    (td : TrackedDevice F D) (hclosed : td.pinchActive = false) :
    Rebases dist angle fingers
      ((td.based dist angle fingers).processSyn te cfgNat cfgAccel dwt)
      (td.processSyn te cfgNat cfgAccel dwt) := by
  have hclear : ∀ r r' : TrackedDevice F D × List (LibinputEvent D),
      Rebases dist angle fingers r r' →
      Rebases dist angle fingers ({ r.1 with currentDx := 0, currentDy := 0 },r.2)
        ({ r'.1 with currentDx := 0, currentDy := 0 },r'.2) := by
    rintro _ r' rfl
    rfl
  have hmove : Rebases dist angle fingers
      ((td.based dist angle fingers).movementFrame te cfgNat cfgAccel)
      (td.movementFrame te cfgNat cfgAccel) :=
    hclear _ _ (.ite (fun _ => rfl) fun _ => .ite (fun _ => rfl) fun _ => rfl)
  refine .ite (fun _ => rfl) fun _ => .ite (fun hpinch => ?_) fun _ => .ite (fun _ => rfl) fun _ =>
    .ite (fun _ => hmove) fun _ => rfl
  have hopen : (td.based dist angle fingers).pinchActive = false := hclosed
  rw [hopen] at hpinch
  cases hpinch

/-- The devices differ in the baseline of the pinch at most, and that only outside one. -/
def SameButBase (s t : TrackedDevice F D) : Prop :=
  s = t ∨ (s.pinchActive = false ∧ ∃ dist angle fingers, t = s.based dist angle fingers)

theorem touchStep_sameButBase (s t : TrackedDevice F D) (i : TouchInput F)
    (h : SameButBase s t) : (touchStep s i).2 = (touchStep t i).2 ∧
      SameButBase (touchStep s i).1 (touchStep t i).1 := by
  rcases h with rfl | ⟨hclosed,dist,angle,fingers,rfl⟩
  · exact ⟨rfl,.inl rfl⟩
  · obtain ⟨td,hs,ht,hopen⟩ : ∃ td : TrackedDevice F D,
        (if i.dwtActive then { s with tapEmitted := true } else s) = td ∧
        (if i.dwtActive then { s.based dist angle fingers with tapEmitted := true }
          else s.based dist angle fingers) = td.based dist angle fingers ∧
        td.pinchActive = false := by
      refine ⟨_,rfl,ite_based (fun _ => rfl) fun _ => rfl,?_⟩
      split_ifs <;> exact hclosed
    have hclosing : ¬ i.te.ev.Presses KeyCode.btnTouch → (touchStep s i).1.pinchActive = false := by
      intro hpress
      have hset : ¬ (i.te.ev.Presses KeyCode.btnTouch ∧ 2 ≤ s.activeSlotCount) :=
        fun h => hpress h.1
      rw [← Bool.not_eq_true]
      by_cases hrel : i.te.ev.Releases KeyCode.btnTouch
      · exact touchStep_pinchLatch.released s i hset hrel
      · rw [touchStep_pinchLatch.kept s i hset hrel,hclosed]
        exact Bool.false_ne_true
    by_cases hpress : i.te.ev.Presses KeyCode.btnTouch
    · have hbase : (td.based dist angle fingers).pinchBase = td.pinchBase := rfl
      rw [touchStep_key _ _ hpress.1.1,touchStep_key _ _ hpress.1.1,hs,ht,processAbsoluteKey,
        processAbsoluteKey,if_pos hpress.1.2,if_pos hpress.1.2,if_pos hpress.2,if_pos hpress.2,
        touchDown_eq,touchDown_eq,hbase]
      cases td.pinchBase with
      | none => exact ⟨rfl,.inr ⟨hopen,dist,angle,fingers,rfl⟩⟩
      | some base => exact ⟨rfl,.inl rfl⟩
    · have hrebased : Rebases dist angle fingers (touchStep (s.based dist angle fingers) i)
          (touchStep s i) := by
        unfold touchStep processAbsoluteEvent
        dsimp only
        rw [hs,ht]
        cases htype : i.te.ev.eventType with
        | key =>
          exact processAbsoluteKey_rebases _ _ _ td hopen fun hcode =>
            not_not.mp fun hvalue => hpress ⟨⟨htype,hcode⟩,hvalue⟩
        | absolute => exact congrArg (·,[]) (processAbsoluteAxis_based i.te td)
        | synchronization => exact processSyn_rebases _ _ _ _ td hopen
        | relative => rfl
        | other n => rfl
      rw [hrebased]
      exact ⟨rfl,.inr ⟨hclosing hpress,dist,angle,fingers,rfl⟩⟩

end Base

section Lift

/-- What a touch-down overwrites or replaces is emptied: the touch with its fingers, position and
clocks, and the baseline of a pinch. -/
def erased (td : TrackedDevice F D) : TrackedDevice F D :=
  { td with
    touchActive := false
    touchFingers := 0
    lastX := none
    lastY := none
    tapEmitted := false
    touchStartTime := none
    lastMovementTime := none
    pinchBaseDist := 0.0
    pinchBaseAngle := 0.0
    pinchFingers := 0 }

/-- The report of a slot reads and changes none of that. -/
theorem processAbsoluteAxis_erased (te : TimedEvent) (td : TrackedDevice F D)
    (hpos : ¬ (te.ev.code = AbsoluteAxisCode.absX ∨ te.ev.code = AbsoluteAxisCode.absY)) :
    (td.processAbsoluteAxis te).erased = td.erased.processAbsoluteAxis te := by
  have hite : ∀ {c : Prop} {_ : Decidable c} {x x' y y' : TrackedDevice F D},
      x.erased = x' → y.erased = y' → (if c then x else y).erased = if c then x' else y' := by
    intro c _ x x' y y' hx hy
    split_ifs
    · exact hx
    · exact hy
  rw [not_or] at hpos
  refine hite (hite rfl rfl) (hite rfl (hite rfl (hite rfl (hite rfl ?_))))
  rw [if_neg hpos.1,if_neg hpos.2,if_neg hpos.1,if_neg hpos.2]

theorem eventType_of_slotEvent {ev : InputEvent} (h : frameStage ev = some 0) :
    ev.eventType = .absolute ∧
      ¬ (ev.code = AbsoluteAxisCode.absX ∨ ev.code = AbsoluteAxisCode.absY) := by
  unfold frameStage at h
  split at h
  · rename_i htype
    refine ⟨htype,fun hcode => ?_⟩
    rw [if_pos (by simpa using hcode)] at h
    cases h
  · split_ifs at h <;> simp at h
  · cases h

variable [F32 F] [FloatCast F D]

/-- Devices that a touch-down makes alike stay so while contacts land. -/
theorem touchStep_erased {s t : TrackedDevice F D} {i : TouchInput F}
    (hslot : frameStage i.te.ev = some 0) (h : s.erased = t.erased) :
    (touchStep s i).2 = (touchStep t i).2 ∧
      (touchStep s i).1.erased = (touchStep t i).1.erased := by
  obtain ⟨htype,hpos⟩ := eventType_of_slotEvent hslot
  have hstep : ∀ td : TrackedDevice F D, (touchStep td i).2 = [] ∧
      (touchStep td i).1.erased = td.erased.processAbsoluteAxis i.te := by
    intro td
    have hguard : (if i.dwtActive then { td with tapEmitted := true } else td).erased =
        td.erased := by
      split_ifs <;> rfl
    rw [td.touchStep_absolute i htype,processAbsoluteAxis_erased _ _ hpos,hguard]
    exact ⟨rfl,rfl⟩
  rw [(hstep s).1,(hstep t).1,(hstep s).2,(hstep t).2,h]
  exact ⟨rfl,rfl⟩

/-- After a touch-down they differ in the clock of the last position and the baseline at most. -/
theorem touchDown_erased {s t : TrackedDevice F D} {i : TouchInput F}
    (hpress : i.te.ev.Presses KeyCode.btnTouch) (hclosed : s.pinchActive = false)
    (h : s.erased = t.erased) : (touchStep s i).2 = (touchStep t i).2 ∧
      ∃ u, SameButClock (touchStep s i).1 u ∧ SameButBase u (touchStep t i).1 := by
  have ht : t = { s with
      touchActive := t.touchActive
      touchFingers := t.touchFingers
      lastX := t.lastX
      lastY := t.lastY
      tapEmitted := t.tapEmitted
      touchStartTime := t.touchStartTime
      lastMovementTime := t.lastMovementTime
      pinchBaseDist := t.pinchBaseDist
      pinchBaseAngle := t.pinchBaseAngle
      pinchFingers := t.pinchFingers } := by
    cases s
    cases t
    simp only [erased,mk.injEq] at h ⊢
    tauto
  have hdown : ∀ td : TrackedDevice F D, touchStep td i = td.touchDown i.te := by
    intro td
    rw [touchStep_key _ _ hpress.1.1,processAbsoluteKey,if_pos hpress.1.2,if_pos hpress.2]
    split_ifs <;> rfl
  have hbase : t.pinchBase = s.pinchBase := by
    rw [ht]
    rfl
  rw [hdown,hdown,touchDown_eq,touchDown_eq,hbase,ht]
  cases s.pinchBase with
  | none =>
    exact ⟨rfl,{ s with
      touchActive := true
      touchStartTime := some i.te.now
      tapEmitted := false
      touchFingers := max s.activeSlotCount 1
      lastX := none
      lastY := none
      lastMovementTime := t.lastMovementTime },
      .inr ⟨rfl,_,rfl⟩,.inr ⟨hclosed,_,_,_,rfl⟩⟩
  | some dist => exact ⟨rfl,_,.inr ⟨rfl,_,rfl⟩,.inl rfl⟩

end Lift
end TrackedDevice

section Isolation
open TrackedDevice
variable [F64 D] [F32 F] [FloatCast F D]

/-- One touch: slots are reported while contacts land, then `BTN_TOUCH` goes down, once. -/
def OneTouch (touch : List (TouchInput F)) : Prop :=
  ∃ landing down rest, touch = landing ++ down :: rest ∧
    (∀ i ∈ landing, frameStage i.te.ev = some 0) ∧ down.te.ev.Presses KeyCode.btnTouch ∧
    ∀ j ∈ rest, ¬ j.te.ev.Presses KeyCode.btnTouch

/-- Outside a pinch, devices that a touch-down makes alike queue the same for a touch. -/
theorem run_of_erased {s t : TrackedDevice F D} {touch : List (TouchInput F)}
    (htouch : OneTouch touch) (hclosed : s.pinchActive = false) (h : s.erased = t.erased) :
    (run touchStep s touch).2 = (run touchStep t touch).2 := by
  obtain ⟨landing,down,rest,rfl,hlanding,hdown,-⟩ := htouch
  have hlatch : (run touchStep s landing).1.pinchActive = false := by
    refine run_invariant touchStep (fun td => td.pinchActive = false) (fun td i hi htd => ?_) hclosed
    obtain ⟨htype,_⟩ := eventType_of_slotEvent (hlanding i hi)
    have hkey : ¬ i.te.ev.eventType = .key := by simp [htype]
    rw [← Bool.not_eq_true] at htd ⊢
    rwa [touchStep_pinchLatch.kept td i (fun h => hkey h.1.1.1) fun h => hkey h.1.1]
  obtain ⟨hland,hlanded⟩ := run_bisimilar touchStep
    (fun s t : TrackedDevice F D => s.erased = t.erased)
    (fun _ _ i hi => touchStep_erased (hlanding i hi)) h
  obtain ⟨hout,u,hclock,hbase⟩ := touchDown_erased hdown hlatch hlanded
  have hclocks : (run touchStep (touchStep (run touchStep s landing).1 down).1 rest).2 =
      (run touchStep u rest).2 :=
    (run_bisimilar touchStep SameButClock (fun s t i _ => touchStep_sameButClock s t i) hclock).1
  have hbases : (run touchStep u rest).2 =
      (run touchStep (touchStep (run touchStep t landing).1 down).1 rest).2 :=
    (run_bisimilar touchStep SameButBase (fun s t i _ => touchStep_sameButBase s t i) hbase).1
  rw [run_append,run_append,run_cons,run_cons]
  dsimp only
  rw [hland,hout,hclocks,hbases]

variable (device : EvdevDevice) (path : PathBuf) (d : DevicePtr)

/-- A fresh device with the slots of another one. -/
def freshWith (td : TrackedDevice F D) : TrackedDevice F D :=
  { (.new device path d : TrackedDevice F D) with
    mtSlots := td.mtSlots
    currentSlot := td.currentSlot }

/-- The fresh device with the displacement of the other one as well, and its fractions. -/
def freshCarrying (td : TrackedDevice F D) : TrackedDevice F D :=
  { freshWith device path d td with
    remainderX := td.remainderX
    remainderY := td.remainderY
    currentDx := td.currentDx
    currentDy := td.currentDy }

/-- All contacts are lifted: `BTN_TOUCH` is up, no slot is active, no pinch is open and no button is
down. -/
structure Lifted (td : TrackedDevice F D) : Prop where
  touch : td.touchActive = false
  slots : td.activeSlotCount = 0
  pinch : td.pinchActive = false
  button : td.activeClickButton = none

/-- No displacement is left over and no fraction of one. -/
def Settled (td : TrackedDevice F D) : Prop :=
  td.remainderX = 0.0 ∧ td.remainderY = 0.0 ∧ td.currentDx = 0 ∧ td.currentDy = 0

instance (td : TrackedDevice ℚ ℚ) : Decidable (Settled td) :=
  inferInstanceAs (Decidable (_ ∧ _ ∧ _ ∧ _))

/-- The next touch queues what it would on a fresh device with the same slots. -/
def Isolated (td : TrackedDevice F D) : Prop :=
  ∀ touch, OneTouch touch →
    (run touchStep td touch).2 = (run touchStep (freshWith device path d td) touch).2

/-- Of the touches before it a touch finds the displacement and its fractions only. -/
theorem run_lifted {inputs : List (TouchInput F)}
    (h : Lifted (afterInputs device path d inputs : TrackedDevice F D))
    {touch : List (TouchInput F)} (htouch : OneTouch touch) :
    let td : TrackedDevice F D := afterInputs device path d inputs
    (run touchStep td touch).2 = (run touchStep (freshCarrying device path d td) touch).2 := by
  intro td
  have hkept : td.identity = (.new device path d : TrackedDevice F D).identity ∧
      td.keyState = (.new device path d : TrackedDevice F D).keyState :=
    run_invariant touchStep (fun td => td.identity = _ ∧ td.keyState = _)
      (fun td i _ h => by
        have hstep := td.processAbsoluteEvent_step i.te i.cfgTap i.cfgNat i.cfgAccel i.dwtActive
        exact ⟨hstep.identity.trans h.1,hstep.keyState.trans h.2⟩) ⟨rfl,rfl⟩
  refine run_of_erased htouch h.pinch ?_
  have hpinch : td.pinchActive = false := h.pinch
  have hbutton : td.activeClickButton = none := h.button
  simp only [identity,keyState,Prod.mk.injEq] at hkept
  unfold erased freshCarrying freshWith
  simp only [mk.injEq]
  tauto

/-- After a lift that leaves nothing over the next touch is isolated. -/
theorem isolated_of_settled {inputs : List (TouchInput F)}
    (h : Lifted (afterInputs device path d inputs : TrackedDevice F D))
    (hsettled : Settled (afterInputs device path d inputs : TrackedDevice F D)) :
    Isolated device path d (afterInputs device path d inputs : TrackedDevice F D) := by
  intro touch htouch
  have hfresh : freshCarrying device path d (afterInputs device path d inputs : TrackedDevice F D) =
      freshWith device path d (afterInputs device path d inputs) := by
    obtain ⟨hx,hy,hdx,hdy⟩ := hsettled
    unfold freshCarrying
    rw [hx,hy,hdx,hdy]
    rfl
  rw [run_lifted device path d h htouch,hfresh]

end Isolation

section Exact
open TrackedDevice

/-- The slots of a device are empty in whatever else it has. -/
theorem Lifted.slots_of_same {td : TrackedDevice F D} (h : Lifted td) :
    ∀ td' : TrackedDevice F D, td'.mtSlots = td.mtSlots → td'.activeSlotCount = 0 := by
  intro td' hsame
  rw [activeSlotCount,activeSlots,hsame]
  exact h.slots

/-- One finger moves by the given distances in one frame, with no acceleration. -/
def moveBy (x y : ℤ) : List (TouchInput ℚ) := atOnce
  [(.key,KeyCode.btnTouch,1),(.absolute,AbsoluteAxisCode.absX,0),(.absolute,AbsoluteAxisCode.absY,0),
    (.absolute,AbsoluteAxisCode.absX,x),(.absolute,AbsoluteAxisCode.absY,y),(.synchronization,0,0)]

theorem moveBy_oneTouch (x y : ℤ) : OneTouch (moveBy x y) :=
  ⟨[],_,_,rfl,List.forall_mem_nil _,by decide,by
    simp [InputEvent.Presses,InputEvent.KeyWith]⟩

theorem run_moveBy (td : TrackedDevice ℚ ℚ) (hlifted : Lifted td)
    (hstill : td.currentDx = 0 ∧ td.currentDy = 0) {x y : ℤ} (hx : i32Wrap x = x) (hy : i32Wrap y = y)
    (hmoved : x ≠ 0) : (run touchStep td (moveBy x y)).2 =
      (({ td with currentDx := x, currentDy := y } : TrackedDevice ℚ ℚ).motionFrame
        ⟨⟨1,.synchronization,0,0⟩,0⟩ 1).2 := by
  have hslots := hlifted.slots_of_same
  have hstall : ∀ td' : TrackedDevice ℚ ℚ, td'.lastMovementTime = some 0 → td'.stalled 0 = false := by
    intro td' h
    rw [stalled,h]
    decide
  unfold moveBy atOnce
  simp only [List.map_cons,List.map_nil,run_cons,run_nil]
  simp [touchStep,processAbsoluteEvent,processAbsoluteKey,touchDown,hslots,hlifted.pinch,
    processAbsoluteAxis,AbsoluteAxisCode.absX,AbsoluteAxisCode.absY,
    AbsoluteAxisCode.absMtSlot,AbsoluteAxisCode.absMtTrackingId,AbsoluteAxisCode.absMtPositionX,
    AbsoluteAxisCode.absMtPositionY,AbsoluteAxisCode.absMtDistance,
    positionX,positionY,processSyn,movementFrame,motionFrame,accumulate,hstall,hstill,hx,hy,hmoved]

/-- A distance whose scaled value lies half-way between two integers, on the far side of `r`. -/
def tieBefore (r : ℚ) : ℤ := if 0 < r then -25 else 25

theorem i32Wrap_tieBefore (r : ℚ) : i32Wrap (tieBefore r) = tieBefore r := by
  unfold tieBefore
  split_ifs <;> decide

theorem scaled_tie (r : ℚ) :
    (F32.ofI32 (tieBefore r) : ℚ) * hwScale * 1 = if 0 < r then -9/2 else 9/2 := by
  have hunits : (F32.ofI32 (tieBefore r) : ℚ) = (tieBefore r : ℚ) := rfl
  rw [hunits,hwScale,tieBefore]
  split_ifs <;> norm_num

theorem round_tie (r : ℚ) : F32.roundToI32 (if 0 < r then -9/2 else 9/2 : ℚ) =
    if 0 < r then -5 else 5 := by
  split_ifs <;> decide +kernel

/-- Rounding notices any fraction that is added to the tie before it. -/
theorem eq_zero_of_round_tie {r : ℚ}
    (h : F32.roundToI32 ((if 0 < r then -9/2 else 9/2 : ℚ) + r) = if 0 < r then -5 else 5) :
    r = 0 := by
  change saturateI32 (roundHalfAway _) = _ at h
  unfold saturateI32 at h
  rcases lt_trichotomy r 0 with hneg | rfl | hpos
  · rw [if_neg (not_lt.mpr hneg.le),if_neg (not_lt.mpr hneg.le)] at h
    have hbelow : roundHalfAway (9/2 + r) ≤ 4 := by
      unfold roundHalfAway
      split_ifs with hsign
      · exact Int.lt_add_one_iff.mp (Int.floor_lt.mpr (by push_cast; linarith))
      · have : 0 ≤ ⌊-(9/2 + r) + 1/2⌋ := Int.floor_nonneg.mpr (by linarith)
        omega
    omega
  · rfl
  · rw [if_pos hpos,if_pos hpos] at h
    have habove : -4 ≤ roundHalfAway (-9/2 + r) := by
      unfold roundHalfAway
      split_ifs with hsign
      · have : 0 ≤ ⌊(-9/2 + r) + 1/2⌋ := Int.floor_nonneg.mpr (by linarith)
        omega
      · have : ⌊-(-9/2 + r) + 1/2⌋ < 5 := Int.floor_lt.mpr (by push_cast; linarith)
        omega
    omega

/-- Three fingers land. -/
def threeLand : List (TouchInput ℚ) := atOnce
  [(.key,KeyCode.btnTouch,1),(.key,KeyCode.btnToolTripletap,1),(.synchronization,0,0)]

theorem run_threeLand (td : TrackedDevice ℚ ℚ) (hlifted : Lifted td) :
    (run touchStep td threeLand).2 = [] ↔ td.currentDx = 0 ∧ td.currentDy = 0 := by
  have hslots := hlifted.slots_of_same
  unfold threeLand atOnce
  simp only [List.map_cons,List.map_nil,run_cons,run_nil]
  simp [touchStep,processAbsoluteEvent,processAbsoluteKey,touchDown,hslots,hlifted.pinch,
    processSyn,movementFrame,swipeFrame,KeyCode.btnTouch,KeyCode.btnToolTripletap,KeyCode.btnToolDoubletap]
  split_ifs with hmoved
  · simp only [false_iff]
    tauto
  · simp only [true_iff]
    tauto

/-- Equal outputs of two motions that emit something come from equal distances. -/
theorem motionFrame_inj {td td' : TrackedDevice ℚ ℚ} {te : TimedEvent} {accel : ℚ}
    (h : (td.motionFrame te accel).2 = (td'.motionFrame te accel).2)
    (hemit : F32.roundToI32 ((F32.ofI32 td'.currentDx : ℚ) * hwScale * accel + td'.remainderX) ≠ 0) :
    (F32.roundToI32 ((F32.ofI32 td.currentDx : ℚ) * hwScale * accel + td.remainderX) =
        F32.roundToI32 ((F32.ofI32 td'.currentDx : ℚ) * hwScale * accel + td'.remainderX)) ∧
      F32.roundToI32 ((F32.ofI32 td.currentDy : ℚ) * hwScale * accel + td.remainderY) =
        F32.roundToI32 ((F32.ofI32 td'.currentDy : ℚ) * hwScale * accel + td'.remainderY) := by
  have hcast : ∀ a b : ℤ, (F64.ofI32 a : ℚ) = F64.ofI32 b → a = b := fun a b h => Int.cast_inj.mp h
  unfold motionFrame at h
  dsimp only at h
  split_ifs at h with _ hquiet hquiet
  · simp only [List.cons.injEq,LibinputEvent.mk.injEq,EventPayload.pointerMotion.injEq,
      PointerMotionEvent.mk.injEq] at h
    exact ⟨hcast _ _ h.1.2.1.2.1,hcast _ _ h.1.2.1.2.2.1⟩
  · exact absurd (.inl hemit) hquiet

variable (device : EvdevDevice) (path : PathBuf) (d : DevicePtr)

/-- If the next touch is isolated, nothing is left over. -/
theorem settled_of_isolated {td : TrackedDevice ℚ ℚ} (hlifted : Lifted td)
    (h : Isolated device path d td) : Settled td := by
  have hfresh : Lifted (freshWith device path d td) := ⟨rfl,hlifted.slots,rfl,rfl⟩
  have hstill : td.currentDx = 0 ∧ td.currentDy = 0 := by
    rw [← run_threeLand td hlifted,h threeLand ⟨[],_,_,rfl,List.forall_mem_nil _,by decide,by decide⟩]
    exact (run_threeLand _ hfresh).mpr ⟨rfl,rfl⟩
  have hmove := h (moveBy (tieBefore td.remainderX) (tieBefore td.remainderY)) (moveBy_oneTouch _ _)
  have hne : ∀ r, tieBefore r ≠ 0 := by
    intro r
    unfold tieBefore
    split_ifs <;> decide
  rw [run_moveBy td hlifted hstill (i32Wrap_tieBefore _) (i32Wrap_tieBefore _) (hne _),
    run_moveBy _ hfresh ⟨rfl,rfl⟩ (i32Wrap_tieBefore _) (i32Wrap_tieBefore _) (hne _)] at hmove
  have hfraction : ∀ q : ℚ, q + (0.0 : ℚ) = q := fun q => by norm_num
  obtain ⟨hx,hy⟩ := motionFrame_inj hmove (by
    dsimp only [freshWith,TrackedDevice.new]
    rw [hfraction,scaled_tie,round_tie]
    split_ifs <;> decide)
  dsimp only [freshWith,TrackedDevice.new] at hx hy
  rw [hfraction,scaled_tie,round_tie] at hx hy
  have hzero : (0.0 : ℚ) = 0 := by norm_num
  exact ⟨(eq_zero_of_round_tie hx).trans hzero.symm,(eq_zero_of_round_tie hy).trans hzero.symm,hstill⟩

/-- After any history that ends with all contacts lifted the next touch is isolated if nothing is
left over, in any arithmetic, and only if nothing is left over, in the exact one. -/
theorem touch_isolated_iff {F D : Type} [F64 D] [F32 F] [FloatCast F D] (device : EvdevDevice)
    (path : PathBuf) (d : DevicePtr) :
    (∀ history : List (TouchInput F),
      Lifted (afterInputs device path d history : TrackedDevice F D) →
        Settled (afterInputs device path d history : TrackedDevice F D) →
          Isolated device path d (afterInputs device path d history : TrackedDevice F D)) ∧
      ∀ history : List (TouchInput ℚ),
        Lifted (afterInputs device path d history : TrackedDevice ℚ ℚ) →
          (Isolated device path d (afterInputs device path d history : TrackedDevice ℚ ℚ) ↔
            Settled (afterInputs device path d history : TrackedDevice ℚ ℚ)) :=
  ⟨fun _ hlifted => isolated_of_settled device path d hlifted,fun _ hlifted =>
    ⟨settled_of_isolated device path d hlifted,isolated_of_settled device path d hlifted⟩⟩

/-- A finger that moves by two units and lifts. -/
def twoUnits : List (TouchInput ℚ) := atOnce
  [(.absolute,AbsoluteAxisCode.absMtTrackingId,1),(.key,KeyCode.btnTouch,1),
    (.key,KeyCode.btnToolFinger,1),(.absolute,AbsoluteAxisCode.absX,100),
    (.absolute,AbsoluteAxisCode.absY,100),(.synchronization,0,0),
    (.absolute,AbsoluteAxisCode.absX,102),(.synchronization,0,0),
    (.absolute,AbsoluteAxisCode.absMtTrackingId,-1),(.key,KeyCode.btnTouch,0),
    (.key,KeyCode.btnToolFinger,0),(.synchronization,0,0)]

/-- A finger that lands after it and moves by one unit. -/
def oneUnit : List (TouchInput ℚ) := atOnce
  [(.absolute,AbsoluteAxisCode.absMtTrackingId,2),(.key,KeyCode.btnTouch,1),
    (.key,KeyCode.btnToolFinger,1),(.absolute,AbsoluteAxisCode.absX,200),
    (.absolute,AbsoluteAxisCode.absY,200),(.synchronization,0,0),
    (.absolute,AbsoluteAxisCode.absX,201),(.synchronization,0,0)]

/-- The pointer moves by a step for the second finger, with the fraction that the first one left. -/
theorem one_unit_finds_fraction :
    KernelContacts ((twoUnits ++ oneUnit).map (·.te.ev)) ∧
      ¬ ∀ history : List (TouchInput ℚ),
        Lifted (afterInputs plainTouchpad "/dev/input/event5" 0 history : TrackedDevice ℚ ℚ) →
          Isolated plainTouchpad "/dev/input/event5" 0
            (afterInputs plainTouchpad "/dev/input/event5" 0 history : TrackedDevice ℚ ℚ) := by
  refine ⟨by decide +kernel,fun h => ?_⟩
  have hlifted : Lifted (afterInputs plainTouchpad "/dev/input/event5" 0 twoUnits :
      TrackedDevice ℚ ℚ) :=
    ⟨by decide +kernel,by decide +kernel,by decide +kernel,by decide +kernel⟩
  have hsame := congrArg List.length (h twoUnits hlifted oneUnit
    ⟨oneUnit.take 1,_,oneUnit.drop 2,rfl,by decide,by decide,by decide⟩)
  exact absurd hsame (by decide +kernel)

/-- After a tap nothing is left over. -/
theorem touch_isolated_after_tap :
    Isolated plainTouchpad "/dev/input/event5" 0
      (afterInputs plainTouchpad "/dev/input/event5" 0 (atOnce [(.key,KeyCode.btnTouch,1),
        (.synchronization,0,0),(.key,KeyCode.btnTouch,0)]) : TrackedDevice ℚ ℚ) ∧
      ¬ Isolated plainTouchpad "/dev/input/event5" 0
        (afterInputs plainTouchpad "/dev/input/event5" 0 twoUnits : TrackedDevice ℚ ℚ) := by
  constructor
  · exact (touch_isolated_iff (F := ℚ) (D := ℚ) _ _ _).1 _
      ⟨by decide +kernel,by decide +kernel,by decide +kernel,by decide +kernel⟩ (by decide +kernel)
  · rw [(touch_isolated_iff (F := ℚ) (D := ℚ) _ _ _).2 _
      ⟨by decide +kernel,by decide +kernel,by decide +kernel,by decide +kernel⟩]
    decide +kernel

end Exact
end LibinputRs
