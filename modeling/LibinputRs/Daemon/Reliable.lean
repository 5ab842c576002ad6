import LibinputRs.Daemon.WrapperSteps

/-! The wrapper on a virtual device that accepts every write: each step then comes to its end, and
an event is a function from the wrapper to the wrapper after it and the writes made. -/
namespace LibinputRs
open Automata

variable {F : Type}

/-- What `emit_raw` writes where the writes are accepted. -/
def accepted (ev : InputEvent) : List Write := [⟨ev,true⟩,⟨.synReport,true⟩]

namespace DeviceWrapper

/-- The wrapper and the writes after a step on a reliable virtual device. -/
def reliably (p : Step F) (w : DeviceWrapper F) : DeviceWrapper F × List Write :=
  ((p (w,.reliable)).1.1,(p (w,.reliable)).2.1)

/-- The step leaves a reliable virtual device reliable and comes to its end. -/
def Completes (p : Step F) : Prop :=
  ∀ w, p (w,.reliable) = (((reliably p w).1,.reliable),(reliably p w).2,true)

@[simp] theorem reliably_skip (w : DeviceWrapper F) : reliably .skip w = (w,[]) := rfl

@[simp] theorem reliably_modify (f : DeviceWrapper F → DeviceWrapper F) (w : DeviceWrapper F) :
    reliably (modify f) w = (f w,[]) := rfl

@[simp] theorem reliably_emitRaw (ev : InputEvent) (w : DeviceWrapper F) :
    reliably (emitRaw ev) w = (w,accepted ev) := rfl

@[simp] theorem reliably_andThen {p q : Step F} (hp : Completes p) (w : DeviceWrapper F) :
    reliably (p.andThen q) w = ((reliably q (reliably p w).1).1,
      (reliably p w).2 ++ (reliably q (reliably p w).1).2) := by
  have happly := Fallible.andThen_of_ok (hp w) q
  exact Prod.ext (congrArg (·.1.1) happly) (congrArg (·.2.1) happly)

@[simp] theorem reliably_ite (c : Prop) {_ : Decidable c} (p q : Step F) (w : DeviceWrapper F) :
    reliably (if c then p else q) w = if c then reliably p w else reliably q w := by
  split_ifs <;> rfl

namespace Completes
variable {p q : Step F}

theorem skip : Completes (F := F) .skip := fun _ => rfl

theorem modify (f : DeviceWrapper F → DeviceWrapper F) : Completes (modify f) := fun _ => rfl

theorem emitRaw (ev : InputEvent) : Completes (F := F) (emitRaw ev) := fun _ => rfl

theorem andThen (hp : Completes p) (hq : Completes q) : Completes (p.andThen q) := by
  intro w
  rw [reliably_andThen hp,Fallible.andThen_of_ok (hp w),hq]

theorem ite {c : Prop} {_ : Decidable c} (hp : Completes p) (hq : Completes q) :
    Completes (if c then p else q) := by
  split_ifs
  · exact hp
  · exact hq

end Completes

theorem emitTap_completes : Completes (F := F) emitTap :=
  (Completes.emitRaw _).andThen ((Completes.emitRaw _).andThen (.emitRaw _))

/-- What a tap writes: press, frame end, release. -/
def tapWrites : List Write :=
  accepted (.new .key KeyCode.btnLeft 1) ++
    (accepted .synReport ++ accepted (.new .key KeyCode.btnLeft 0))

@[simp] theorem reliably_emitTap (w : DeviceWrapper F) : reliably emitTap w = (w,tapWrites) := by
  rw [emitTap,reliably_andThen (.emitRaw _),reliably_andThen (.emitRaw _)]
  rfl

theorem touchUp_completes (te : TimedEvent) (cfg : InputConfig F) (dwt : Bool) :
    Completes (touchUp te cfg dwt) :=
  fun w => (Completes.ite emitTap_completes .skip).andThen (.modify resetTouch)
    { w with touchActive := false }

theorem reliably_touchUp (te : TimedEvent) (cfg : InputConfig F) (dwt : Bool)
    (w : DeviceWrapper F) : reliably (touchUp te cfg dwt) w =
      (({ w with touchActive := false } : DeviceWrapper F).resetTouch,
        if w.isTap cfg dwt te.now then tapWrites else []) := by
  have happly : reliably (touchUp te cfg dwt) w = reliably ((if w.isTap cfg dwt te.now then emitTap
      else .skip).andThen (modify resetTouch)) { w with touchActive := false } := rfl
  rw [happly,reliably_andThen (.ite emitTap_completes .skip)]
  split_ifs
  · rw [reliably_emitTap,reliably_modify,List.append_nil]
  · rfl

theorem processTouchKey_completes (te : TimedEvent) (cfg : InputConfig F) (dwt : Bool) :
    Completes (processTouchKey te cfg dwt) :=
  .ite (.ite (.modify _) (touchUp_completes te cfg dwt)) (.ite (.modify _) (.ite (.modify _) .skip))

/-- The touch and finger keys: a touch, a lift with its tap, or a change of the finger count. -/
theorem reliably_processTouchKey (te : TimedEvent) (cfg : InputConfig F) (dwt : Bool)
    (w : DeviceWrapper F) : reliably (processTouchKey te cfg dwt) w =
      if te.ev.code = KeyCode.btnTouch then
        if te.ev.value ≠ 0 then (w.touchDown te,[]) else reliably (touchUp te cfg dwt) w
      else if te.ev.code = KeyCode.btnToolDoubletap then
        ({ w with touchFingers := if te.ev.value ≠ 0 then 2 else 1 },[])
      else if te.ev.code = KeyCode.btnToolTripletap then
        ({ w with touchFingers := if te.ev.value ≠ 0 then 3 else 2 },[])
      else (w,[]) := by
  unfold processTouchKey
  simp only [reliably_ite,reliably_modify,reliably_skip]

theorem forwardButton_completes (te : TimedEvent) : Completes (F := F) (forwardButton te) := by
  intro w
  unfold reliably forwardButton
  dsimp only
  split_ifs <;> rfl

theorem reliably_forwardButton (te : TimedEvent) (w : DeviceWrapper F) :
    reliably (forwardButton te) w = ((w.mapClick te.ev.code te.ev.value).1,
      if isTouchpadButton (w.mapClick te.ev.code te.ev.value).2 then
        accepted (.new .key (w.mapClick te.ev.code te.ev.value).2 te.ev.value) else []) := by
  unfold reliably forwardButton
  dsimp only
  split_ifs <;> rfl

variable [F32 F]

omit [F32 F] in
theorem emitRel_completes (code : ℕ) (value : ℤ) : Completes (F := F) (emitRel code value) :=
  .ite (.emitRaw _) .skip

/-- What one relative axis writes where the writes are accepted. -/
def relAccepted (code : ℕ) (value : ℤ) : List Write :=
  if value ≠ 0 then accepted (.new .relative code value) else []

omit [F32 F] in
@[simp] theorem reliably_emitRel (code : ℕ) (value : ℤ) (w : DeviceWrapper F) :
    reliably (emitRel code value) w = (w,relAccepted code value) := by
  unfold emitRel relAccepted
  rw [reliably_ite]
  split_ifs <;> rfl

omit [F32 F] in
theorem reliably_emitRels (emitX emitY : ℤ) (w : DeviceWrapper F) :
    reliably ((emitRel RelativeAxisCode.relX emitX).andThen
      (emitRel RelativeAxisCode.relY emitY)) w =
        (w,relAccepted RelativeAxisCode.relX emitX ++ relAccepted RelativeAxisCode.relY emitY) := by
  rw [reliably_andThen (emitRel_completes _ _),reliably_emitRel,reliably_emitRel]

theorem motionFrame_completes (cfg : InputConfig F) : Completes (motionFrame cfg) := by
  intro w
  unfold reliably motionFrame
  exact (emitRel_completes _ _).andThen (emitRel_completes _ _) _

theorem scrollFrame_completes (cfg : InputConfig F) : Completes (scrollFrame cfg) := by
  intro w
  unfold reliably scrollFrame
  exact (Completes.ite (.emitRaw _) .skip).andThen (.modify _) _

theorem movementFrame_completes (cfg : InputConfig F) : Completes (movementFrame cfg) := by
  intro w
  unfold reliably movementFrame
  exact (Completes.ite (motionFrame_completes cfg) (.ite (scrollFrame_completes cfg) .skip)).andThen
    (.modify _) _

/-- The motion of a frame: the rounded totals are written and the rests kept. -/
theorem reliably_motionFrame (cfg : InputConfig F) (w : DeviceWrapper F) :
    reliably (motionFrame cfg) w =
      let totalX := F32.ofI32 w.currentDx * hardwareScale * cfg.pointerAcceleration + w.remainderX
      let totalY := F32.ofI32 w.currentDy * hardwareScale * cfg.pointerAcceleration + w.remainderY
      ({ w with
          remainderX := totalX - F32.ofI32 (F32.roundToI32 totalX)
          remainderY := totalY - F32.ofI32 (F32.roundToI32 totalY) },
        relAccepted RelativeAxisCode.relX (F32.roundToI32 totalX) ++
          relAccepted RelativeAxisCode.relY (F32.roundToI32 totalY)) := reliably_emitRels _ _ _

/-- The scroll of a frame: the vertical total is written, the horizontal rest dropped. -/
theorem reliably_scrollFrame (cfg : InputConfig F) (w : DeviceWrapper F) :
    reliably (scrollFrame cfg) w =
      let totalY := F32.ofI32 w.currentDy * wheelScale + w.remainderY
      let emitWheel := F32.roundToI32 totalY
      ({ w with remainderX := 0.0, remainderY := totalY - F32.ofI32 emitWheel },
        if emitWheel ≠ 0 then accepted (.new .relative RelativeAxisCode.relWheel
          (if cfg.naturalScrolling then i32Wrap (-emitWheel) else emitWheel)) else []) := by
  apply (reliably_andThen (.ite (.emitRaw _) .skip) _).trans
  rw [reliably_ite]
  dsimp only
  split_ifs <;> rfl

/-- A frame with displacement, by the number of fingers. -/
theorem reliably_movementFrame (cfg : InputConfig F) (w : DeviceWrapper F) :
    reliably (movementFrame cfg) w =
      let moved := { w with tapEmitted := true }
      let r := if w.touchFingers ≤ 1 then reliably (motionFrame cfg) moved
        else if w.touchFingers = 2 then reliably (scrollFrame cfg) moved
        else (moved,[])
      (r.1.clearDisplacement,r.2) := by
  refine (reliably_andThen (.ite (motionFrame_completes cfg)
    (.ite (scrollFrame_completes cfg) .skip)) _).trans ?_
  rw [reliably_ite,reliably_ite,reliably_skip]
  exact Prod.ext rfl (List.append_nil _)

theorem processSyn_completes (te : TimedEvent) (cfg : InputConfig F) (dwt : Bool) :
    Completes (processSyn te cfg dwt) := by
  intro w
  unfold reliably processSyn
  by_cases hcode : te.ev.code = 0
  · simp only [if_neg (not_not.mpr hcode)]
    exact (Completes.ite (.modify discardFrame) (.ite (movementFrame_completes cfg) .skip)).andThen
      (.ite (.emitRaw te.ev) .skip) w
  · simp only [if_pos hcode]
    rfl

/-- A frame end in the typing window, one that finds a displacement, and one that finds none. -/
theorem reliably_processSyn (te : TimedEvent) (cfg : InputConfig F) (dwt : Bool)
    (w : DeviceWrapper F) (hcode : te.ev.code = 0) :
    reliably (processSyn te cfg dwt) w =
      let hasMovement := decide (w.currentDx ≠ 0 ∨ w.currentDy ≠ 0)
      let r := if dwt then (w.discardFrame,[])
        else if hasMovement then reliably (movementFrame cfg) w
        else (w,[])
      (r.1,r.2 ++ if hasMovement || !dwt then accepted te.ev else []) := by
  have hunfold : reliably (processSyn te cfg dwt) w =
      reliably ((if dwt then modify discardFrame
        else if decide (w.currentDx ≠ 0 ∨ w.currentDy ≠ 0) then movementFrame cfg
        else .skip).andThen
          (if decide (w.currentDx ≠ 0 ∨ w.currentDy ≠ 0) || !dwt then emitRaw te.ev else .skip)) w := by
    unfold reliably processSyn
    simp only [if_neg (not_not.mpr hcode)]
  rw [hunfold,reliably_andThen (.ite (.modify _) (.ite (movementFrame_completes cfg) .skip)),
    reliably_ite,reliably_ite,reliably_ite]
  dsimp only [reliably_modify,reliably_skip,reliably_emitRaw]
  split_ifs <;> rfl

/-- Another synchronization event is passed on. -/
theorem reliably_processSyn_other (te : TimedEvent) (cfg : InputConfig F) (dwt : Bool)
    (w : DeviceWrapper F) (hcode : te.ev.code ≠ 0) :
    reliably (processSyn te cfg dwt) w = (w,accepted te.ev) := by
  unfold reliably processSyn
  simp only [if_pos hcode]
  rfl

theorem processAbsolute_completes (te : TimedEvent) (cfg : InputConfig F) (dwt : Bool) :
    Completes (processAbsolute te cfg dwt) := by
  intro w
  unfold reliably processAbsolute
  dsimp only
  generalize (if dwt then { w with tapEmitted := true } else w) = w'
  cases te.ev.eventType with
  | key => exact (processTouchKey_completes te cfg dwt).andThen (forwardButton_completes te) w'
  | synchronization => exact processSyn_completes te cfg dwt w'
  | absolute => rfl
  | relative => rfl
  | other n => rfl

theorem processEvent_completes (cfg : InputConfig F) (typing : Option Instant) (te : TimedEvent) :
    Completes (processEvent cfg typing te) := by
  intro w
  unfold reliably processEvent
  dsimp only
  split_ifs
  · rfl
  · exact processAbsolute_completes te cfg _ _

/-- An event of a wrapper that is not absolute is passed on. -/
theorem reliably_processEvent_relative (cfg : InputConfig F) (typing : Option Instant)
    (te : TimedEvent) {w : DeviceWrapper F} (habs : w.isAbsolute = false) :
    reliably (processEvent cfg typing te) w = (w.trackKey te,accepted te.ev) := by
  have habs' : (w.trackKey te).isAbsolute = false :=
    (congrArg (·.2.2.1) (trackKey_identity te w)).trans habs
  unfold reliably processEvent
  dsimp only
  rw [habs',Bool.not_false,if_pos rfl]
  rfl

theorem reliably_processEvent_absolute (cfg : InputConfig F) (typing : Option Instant)
    (te : TimedEvent) {w : DeviceWrapper F} (habs : w.isAbsolute = true) :
    reliably (processEvent cfg typing te) w =
      reliably (processAbsolute te cfg (dwtActive cfg typing te.now)) (w.trackKey te) := by
  have habs' : (w.trackKey te).isAbsolute = true :=
    (congrArg (·.2.2.1) (trackKey_identity te w)).trans habs
  unfold reliably processEvent
  dsimp only
  rw [habs',Bool.not_true,if_neg Bool.false_ne_true]

/-- The wrapper as the branches for an absolute device find it. -/
def guarded (dwt : Bool) (w : DeviceWrapper F) : DeviceWrapper F :=
  if dwt then { w with tapEmitted := true } else w

omit [F32 F] in
/-- They find whatever depends neither on the keys held nor on the tap as it was before. -/
theorem found_frame {α : Type} (read : DeviceWrapper F → α)
    (hread : ∀ (w : DeviceWrapper F) ctrl alt typing tap,
      read { w with
        ctrlPressed := ctrl
        altPressed := alt
        lastTypingTime := typing
        tapEmitted := tap } = read w)
    (te : TimedEvent) (dwt : Bool) (w : DeviceWrapper F) :
    read ((w.trackKey te).guarded dwt) = read w := by
  have htrack := trackKey_frame read (fun w _ _ _ => hread w _ _ _ w.tapEmitted) te w
  cases dwt with
  | false => exact htrack
  | true => exact (hread (w.trackKey te) _ _ _ true).trans htrack

/-- The key events of an absolute wrapper: touch and fingers first, then the buttons. -/
theorem reliably_processAbsolute_key (te : TimedEvent) (cfg : InputConfig F) (dwt : Bool)
    (w : DeviceWrapper F) (hkey : te.ev.eventType = .key) :
    reliably (processAbsolute te cfg dwt) w =
      reliably ((processTouchKey te cfg dwt).andThen (forwardButton te))
        (w.guarded dwt) := by
  unfold reliably processAbsolute processKey guarded
  rw [hkey]

theorem reliably_processAbsolute_syn (te : TimedEvent) (cfg : InputConfig F) (dwt : Bool)
    (w : DeviceWrapper F) (hsyn : te.ev.eventType = .synchronization) :
    reliably (processAbsolute te cfg dwt) w =
      reliably (processSyn te cfg dwt) (w.guarded dwt) := by
  unfold reliably processAbsolute guarded
  rw [hsyn]

theorem reliably_processAbsolute_axis (te : TimedEvent) (cfg : InputConfig F) (dwt : Bool)
    (w : DeviceWrapper F) (haxis : te.ev.eventType = .absolute) :
    reliably (processAbsolute te cfg dwt) w =
      ((w.guarded dwt).processAxis te,[]) := by
  unfold reliably processAbsolute guarded
  rw [haxis]

theorem reliably_processAbsolute_other (te : TimedEvent) (cfg : InputConfig F) (dwt : Bool)
    (w : DeviceWrapper F) (hkey : te.ev.eventType ≠ .key)
    (hsyn : te.ev.eventType ≠ .synchronization) (haxis : te.ev.eventType ≠ .absolute) :
    reliably (processAbsolute te cfg dwt) w =
      (w.guarded dwt,[]) := by
  unfold reliably processAbsolute guarded
  cases htype : te.ev.eventType with
  | key => exact absurd htype hkey
  | synchronization => exact absurd htype hsyn
  | absolute => exact absurd htype haxis
  | relative => rfl
  | other n => rfl

end DeviceWrapper

/-- One event for a wrapper, with the typing time that the keyboards share. -/
structure WrapperInput where
  te : TimedEvent
  typing : Option Instant

variable [F32 F]

/-- An event of a wrapper whose writes are all accepted. -/
def DeviceWrapper.eventStep (cfg : InputConfig F) (w : DeviceWrapper F) (i : WrapperInput) :
    DeviceWrapper F × List Write :=
  reliably (processEvent cfg i.typing i.te) w

theorem DeviceWrapper.eventStep_isAbsolute (cfg : InputConfig F) (w : DeviceWrapper F)
    (i : WrapperInput) : (w.eventStep cfg i).1.isAbsolute = w.isAbsolute :=
  congrArg (·.2.2.1) (processEvent_keeps cfg i.typing i.te (w,.reliable)).1

/-- On a reliable virtual device a turn of the loop over a batch is such an event. -/
theorem Batch.handle_reliable (cfg : InputConfig F) (token : ℕ) (b : Batch F) (te : TimedEvent)
    (hv : b.vDevice = .reliable) :
    (b.handle cfg token te).1.wrapper = (b.wrapper.eventStep cfg ⟨te,b.typing⟩).1 ∧
      (b.handle cfg token te).1.vDevice = .reliable ∧
      (b.handle cfg token te).2 =
        [.handled ⟨token,b.wrapper,b.typing,te,(b.wrapper.eventStep cfg ⟨te,b.typing⟩).2⟩] := by
  have hcompletes := DeviceWrapper.processEvent_completes cfg b.typing te b.wrapper
  unfold handle
  rw [hv]
  exact ⟨rfl,congrArg (·.1.2) hcompletes,rfl⟩

end LibinputRs
