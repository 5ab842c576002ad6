import LibinputRs.Daemon.WrapperSteps
import LibinputRs.Pipeline.Samples

/-! The library and the daemon on one single-touch stream. They differ in what a stall drops:
the library drops the stored coordinate of the axis that moved, the daemon those of both axes.
The two stay in step exactly as long as no reported frame contains displacement that was
measured against a coordinate the daemon has dropped. -/
namespace LibinputRs
open Automata

section Axes

theorem i32Wrap_accumulate {d : ℤ} (hd : i32Wrap d = d) (previous : Option ℤ) (val : ℤ) :
    i32Wrap (TrackedDevice.accumulate d previous val) = TrackedDevice.accumulate d previous val := by
  cases previous with
  | none => exact hd
  | some p => exact i32Wrap_i32Wrap _

/-- One axis of the two programs: the daemon has dropped a stale coordinate, and lacks the
displacement owed. -/
structure AxisRelated (a : StaleAxis) (last last' : Option ℤ) (d d' : ℤ) : Prop where
  library : last = a.stored
  daemon : last' = if a.stale then none else a.stored
  range : i32Wrap d' = d'
  extra : i32Wrap a.extra = a.extra
  owed : d = i32Wrap (d' + a.extra)

namespace AxisRelated
variable {a : StaleAxis} {last last' : Option ℤ} {d d' : ℤ}

/-- With nothing owed the displacements agree. -/
theorem eq_of_settled (h : AxisRelated a last last' d d') (hextra : a.extra = 0) : d = d' := by
  rw [h.owed,hextra,Int.add_zero,h.range]

/-- Where the displacements agree, nothing is owed. -/
theorem settled_of_eq (h : AxisRelated a last last' d d') (heq : d = d') : a.extra = 0 := by
  have howed : i32Wrap (d' + a.extra) = i32Wrap (d' + 0) := by
    rw [← h.owed,heq,Int.add_zero,h.range]
  have hzero : i32Wrap a.extra = i32Wrap 0 := (Int.bmod_add_cancel_left d').mp howed
  rw [← h.extra,hzero]
  rfl

theorem forget (h : AxisRelated a last last' d d') : AxisRelated a.forget none none d d' :=
  ⟨rfl,rfl,h.range,h.extra,h.owed⟩

/-- Cleared displacements and a settled account. -/
theorem settle (h : AxisRelated a last last' d d') : AxisRelated a.settle last last' 0 0 :=
  ⟨h.library,h.daemon,rfl,rfl,rfl⟩

/-- An axis with nothing owed is settled already. -/
theorem settled (h : AxisRelated a last last' d d') (hextra : a.extra = 0) :
    AxisRelated a.settle last last' d d' :=
  ⟨h.library,h.daemon,h.range,rfl,by rw [h.eq_of_settled hextra]; simp [StaleAxis.settle,h.range]⟩

/-- A position event on the other axis: after a stall the daemon drops this coordinate too. -/
theorem stall (h : AxisRelated a last last' d d') (stalled : Bool) :
    AxisRelated (a.stall stalled) last (if stalled then none else last') d d' := by
  refine ⟨h.library,?_,h.range,h.extra,h.owed⟩
  rw [h.daemon]
  cases stalled <;> cases hstale : a.stale <;> simp [StaleAxis.stall,hstale]

/-- A position event on the axis. -/
theorem measure (h : AxisRelated a last last' d d') (stalled : Bool) (value : ℤ) :
    AxisRelated (a.measure stalled value) (some value) (some value)
      (TrackedDevice.accumulate d (if stalled then none else last) value)
      (TrackedDevice.accumulate d' (if stalled then none else last') value) := by
  refine ⟨rfl,rfl,i32Wrap_accumulate h.range _ _,?_,?_⟩
  · unfold StaleAxis.measure
    dsimp only
    split_ifs
    · exact i32Wrap_accumulate h.extra _ _
    · exact h.extra
  · rw [h.library,h.daemon]
    unfold StaleAxis.measure
    cases stalled with
    | true => simpa [TrackedDevice.accumulate] using h.owed
    | false =>
      cases hstored : a.stored with
      | none => simpa [TrackedDevice.accumulate] using h.owed
      | some p =>
        -- the library measures against the coordinate, the daemon only if it is not stale
        cases a.stale with
        | true =>
          simp only [TrackedDevice.accumulate,h.owed,Bool.not_false,Bool.and_true,if_true,
            Bool.false_eq_true,if_false,i32Wrap_add_wrap,i32Wrap_wrap_add,Int.add_assoc]
        | false =>
          simp only [TrackedDevice.accumulate,h.owed,Bool.not_false,Bool.and_false,
            Bool.false_eq_true,if_false,i32Wrap_add_wrap,i32Wrap_wrap_add]
          rw [Int.add_right_comm]

end AxisRelated
end Axes

variable {F D : Type} [F32 F] [F64 D] [FloatCast F D]

/-- A tracked device and a wrapper in the same state, but for what each axis is owed. -/
structure Related (g : Stale) (td : TrackedDevice F D) (w : DeviceWrapper F) : Prop where
  absolute : w.isAbsolute = true
  slots : td.activeSlotCount = 0
  pinch : td.pinchActive = false
  fingers : td.touchFingers = w.touchFingers
  few : w.touchFingers ≤ 1
  start : td.touchStartTime = w.touchStartTime
  tap : td.tapEmitted = w.tapEmitted
  click : td.activeClickButton = w.activeClickButton
  last : td.lastMovementTime = g.last
  last' : w.lastMovementTime = g.last
  remainderX : td.remainderX = w.remainderX
  remainderY : td.remainderY = w.remainderY
  x : AxisRelated g.x td.lastX w.lastX td.currentDx w.currentDx
  y : AxisRelated g.y td.lastY w.lastY td.currentDy w.currentDy

/-- The answers to one sample: related states, the same motion, the same buttons. -/
structure Answered (g : Stale) (r : TrackedDevice F D × List (LibinputEvent D))
    (r' : (DeviceWrapper F × VirtualDevice) × List Write) : Prop where
  related : Related g r.1 r'.1.1
  reliable : r'.1.2 = .reliable
  motion : libraryMotion r.2 = daemonMotion r'.2
  buttons : libraryButtons r.2 = daemonButtons r'.2

namespace Related
variable {g : Stale} {td : TrackedDevice F D} {w : DeviceWrapper F}

omit [FloatCast F D] in
theorem fresh (device : AbsoluteDevice) (rawFd : RawFd) (path : PathBuf) (d : DevicePtr) :
    Related .fresh (.new (F := F) (D := D) device.1 path d) (.new ⟨device.1,rawFd,true⟩ path) where
  absolute := device.2
  slots := rfl
  pinch := rfl
  fingers := rfl
  few := Nat.zero_le 1
  start := rfl
  tap := rfl
  click := rfl
  last := rfl
  last' := rfl
  remainderX := rfl
  remainderY := rfl
  x := ⟨rfl,rfl,rfl,rfl,rfl⟩
  y := ⟨rfl,rfl,rfl,rfl,rfl⟩

omit [F32 F] [F64 D] [FloatCast F D] in
/-- The bookkeeping of key events concerns no touch. -/
theorem trackKey (h : Related g td w) (te : TimedEvent) : Related g td (w.trackKey te) := by
  unfold DeviceWrapper.trackKey
  split_ifs
  · exact { h with }
  · exact h

omit [F32 F] [F64 D] [FloatCast F D] in
/-- Both programs rule out the tap in the typing window. -/
theorem guard (h : Related g td w) (dwt : Bool) :
    Related g (if dwt then { td with tapEmitted := true } else td)
      (if dwt then { w with tapEmitted := true } else w) := by
  cases dwt with
  | true => exact { h with tap := rfl }
  | false => exact h

omit [F32 F] [FloatCast F D] in
/-- A touch-down forgets the stored coordinates in both programs. -/
theorem touchDown (h : Related g td w) (te : TimedEvent) :
    Answered { g with x := g.x.forget, y := g.y.forget } (td.touchDown te)
      ((w.touchDown te,.reliable),[]) := by
  have hdown : td.touchDown te = ({ td with
      touchActive := true
      touchStartTime := some te.now
      tapEmitted := false
      touchFingers := 1
      lastX := none
      lastY := none },[]) := by
    unfold TrackedDevice.touchDown
    simp [h.slots]
  rw [hdown]
  refine ⟨?_,rfl,rfl,rfl⟩
  exact { h with
    fingers := rfl
    few := Nat.le_refl 1
    start := rfl
    tap := rfl
    x := h.x.forget
    y := h.y.forget }

omit [F32 F] [F64 D] [FloatCast F D] in
/-- The two programs agree on what is a tap. -/
theorem isTap (h : Related g td w) (cfg : Settings F) (dwt : Bool) (now : Instant) :
    td.isTap now cfg.cfgTap dwt = w.isTap (.ofSettings cfg) dwt now := by
  unfold TrackedDevice.isTap DeviceWrapper.isTap
  rw [h.tap,h.start,h.fingers,decide_eq_true h.few,Bool.and_true]
  rfl

omit [F32 F] [FloatCast F D] in
/-- A lift makes the same click, if any, and clears everything that is owed. -/
theorem touchUp (h : Related g td w) (cfg : Settings F) (te : TimedEvent) (dwt : Bool) :
    Answered { g with x := g.x.forget.settle, y := g.y.forget.settle }
      (td.touchUp te cfg.cfgTap dwt)
      ((DeviceWrapper.touchUp te (.ofSettings cfg) dwt (w,.reliable)).1,
        (DeviceWrapper.touchUp te (.ofSettings cfg) dwt (w,.reliable)).2.1) := by
  have hpinch : td.liftPinch te = [] := by rw [TrackedDevice.liftPinch,h.pinch]; rfl
  have hrelated : Related { g with x := g.x.forget.settle, y := g.y.forget.settle }
      (td.touchUp te cfg.cfgTap dwt).1
      ({ w with touchActive := false } : DeviceWrapper F).resetTouch :=
    { h with
      pinch := rfl
      fingers := rfl
      few := Nat.zero_le 1
      start := rfl
      x := h.x.forget.settle
      y := h.y.forget.settle }
  have htap := h.isTap cfg dwt te.now
  unfold TrackedDevice.touchUp DeviceWrapper.touchUp
  dsimp only
  rw [hpinch,htap]
  change Answered _ (_,[] ++ if w.isTap _ dwt te.now then _ else _)
    ((Fallible.andThen (if w.isTap _ dwt te.now then _ else _) _ _).1,
      (Fallible.andThen (if w.isTap _ dwt te.now then _ else _) _ _).2.1)
  cases w.isTap (.ofSettings cfg) dwt te.now with
  | true => exact ⟨hrelated,rfl,rfl,rfl⟩
  | false => exact ⟨hrelated,rfl,rfl,rfl⟩

omit [F32 F] [FloatCast F D] in
/-- A button event is reported under the same code. -/
theorem button (h : Related g td w) (te : TimedEvent) :
    Answered g (td.physicalClick te)
      ((DeviceWrapper.forwardButton te (w,.reliable)).1,
        (DeviceWrapper.forwardButton te (w,.reliable)).2.1) := by
  have hclick : (td.mapClick te.ev.code te.ev.value).2 = (w.mapClick te.ev.code te.ev.value).2 ∧
      Related g (td.mapClick te.ev.code te.ev.value).1 (w.mapClick te.ev.code te.ev.value).1 := by
    have hfew := h.few
    have hlibrary : (if td.touchFingers = 2 then KeyCode.btnRight
        else if 3 ≤ td.touchFingers then KeyCode.btnMiddle else te.ev.code) = te.ev.code := by
      rw [h.fingers,if_neg (by omega),if_neg (by omega)]
    have hdaemon : (if w.touchFingers = 2 then KeyCode.btnRight
        else if w.touchFingers = 3 then KeyCode.btnMiddle else te.ev.code) = te.ev.code := by
      rw [if_neg (by omega),if_neg (by omega)]
    unfold TrackedDevice.mapClick DeviceWrapper.mapClick
    dsimp only
    rw [hlibrary,hdaemon]
    split_ifs
    · exact ⟨rfl,{ h with click := rfl }⟩
    · have hclick := h.click
      cases hactive : w.activeClickButton with
      | none =>
        rw [hactive] at hclick
        rw [hclick]
        exact ⟨rfl,{ h with click := hclick }⟩
      | some active =>
        rw [hactive] at hclick
        rw [hclick]
        exact ⟨rfl,{ h with click := rfl }⟩
    · exact ⟨rfl,h⟩
  unfold TrackedDevice.physicalClick DeviceWrapper.forwardButton
  dsimp only
  rw [hclick.1]
  split_ifs
  · exact ⟨hclick.2,rfl,rfl,rfl⟩
  · exact ⟨hclick.2,rfl,rfl,rfl⟩

omit [F32 F] [F64 D] [FloatCast F D] in
theorem dropStalled (h : Related g td w) (te : TimedEvent)
    (hcode : te.ev.code = AbsoluteAxisCode.absX ∨ te.ev.code = AbsoluteAxisCode.absY) :
    w.dropStalled te = { w with
      lastX := if g.stalled te.now then none else w.lastX
      lastY := if g.stalled te.now then none else w.lastY
      lastMovementTime := some te.now } := by
  have hstalled : (w.lastMovementTime.any fun last => decide (fromMillis 50 < last.elapsed te.now)) =
      g.stalled te.now := congrArg (Option.any _) h.last'
  unfold DeviceWrapper.dropStalled
  rw [if_pos hcode]
  dsimp only
  rw [hstalled]

omit [F32 F] [F64 D] [FloatCast F D] in
/-- A horizontal position event: after a stall the daemon also drops the vertical coordinate. -/
theorem positionX (h : Related g td w) (te : TimedEvent)
    (hcode : te.ev.code = AbsoluteAxisCode.absX) :
    Related ⟨some te.now,g.x.measure (g.stalled te.now) te.ev.value,g.y.stall (g.stalled te.now)⟩
      (td.positionX te) (w.processAxis te) := by
  have hstalled : td.stalled te.now = g.stalled te.now := congrArg (Option.any _) h.last
  unfold TrackedDevice.positionX DeviceWrapper.processAxis
  rw [h.dropStalled te (.inl hcode)]
  dsimp only
  rw [if_pos hcode,hstalled]
  exact { h with
    last := rfl
    last' := rfl
    x := h.x.measure (g.stalled te.now) te.ev.value
    y := h.y.stall (g.stalled te.now) }

omit [F32 F] [F64 D] [FloatCast F D] in
/-- A vertical position event, likewise. -/
theorem positionY (h : Related g td w) (te : TimedEvent)
    (hcode : te.ev.code = AbsoluteAxisCode.absY) :
    Related ⟨some te.now,g.x.stall (g.stalled te.now),g.y.measure (g.stalled te.now) te.ev.value⟩
      (td.positionY te) (w.processAxis te) := by
  have hstalled : td.stalled te.now = g.stalled te.now := congrArg (Option.any _) h.last
  have hother : ¬ te.ev.code = AbsoluteAxisCode.absX := by rw [hcode]; decide
  unfold TrackedDevice.positionY DeviceWrapper.processAxis
  rw [h.dropStalled te (.inr hcode)]
  dsimp only
  rw [if_neg hother,if_pos hcode,hstalled]
  exact { h with
    last := rfl
    last' := rfl
    x := h.x.stall (g.stalled te.now)
    y := h.y.measure (g.stalled te.now) te.ev.value }

end Related

section Frames

theorem relSum_append (code : ℕ) (l m : List Write) :
    relSum code (l ++ m) = relSum code l + relSum code m := by
  simp [relSum]

/-- The writes of one relative axis on a device that accepts them. -/
def relWrites (code : ℕ) (value : ℤ) : List Write :=
  if value ≠ 0 then [⟨.new .relative code value,true⟩,⟨.synReport,true⟩] else []

theorem relSum_relWrites (code code' : ℕ) (value : ℤ) :
    relSum code (relWrites code' value) = if code = code' then value else 0 := by
  unfold relWrites
  by_cases hvalue : value = 0
  · simp [hvalue,relSum]
  · by_cases hcode : code' = code
    · simp [hvalue,hcode,relSum,InputEvent.new,InputEvent.synReport]
    · simp [hvalue,hcode,Ne.symm hcode,relSum,InputEvent.new,InputEvent.synReport]

theorem daemonButtons_relWrites (code : ℕ) (value : ℤ) :
    daemonButtons (relWrites code value) = [] := by
  unfold relWrites
  split_ifs <;> rfl

/-- Passing a frame end on moves nothing and presses nothing. -/
theorem forwarded_syn {ev : InputEvent} (hev : ev.eventType = .synchronization) (code : ℕ) :
    relSum code [⟨ev,true⟩,⟨.synReport,true⟩] = 0 ∧
      daemonButtons [⟨ev,true⟩,⟨.synReport,true⟩] = [] := by
  simp [relSum,daemonButtons,hev,InputEvent.synReport,InputEvent.new]

omit [F32 F] in
theorem emitRel_reliable (code : ℕ) (value : ℤ) (w : DeviceWrapper F) :
    DeviceWrapper.emitRel code value (w,.reliable) = ((w,.reliable),relWrites code value,true) := by
  unfold DeviceWrapper.emitRel relWrites
  split_ifs <;> rfl

variable {g : Stale} {td : TrackedDevice F D} {w : DeviceWrapper F}

omit [F64 D] [FloatCast F D] [F32 F] in
theorem emitRels_reliable (emitX emitY : ℤ) (w : DeviceWrapper F) :
    ((DeviceWrapper.emitRel RelativeAxisCode.relX emitX).andThen
      (DeviceWrapper.emitRel RelativeAxisCode.relY emitY)) (w,.reliable) = ((w,.reliable),
        relWrites RelativeAxisCode.relX emitX ++ relWrites RelativeAxisCode.relY emitY,true) := by
  rw [Fallible.andThen_of_ok (emitRel_reliable _ _ w),emitRel_reliable]

theorem daemonMotion_frame (emitX emitY : ℤ) {ev : InputEvent}
    (hev : ev.eventType = .synchronization) :
    (daemonMotion (relWrites RelativeAxisCode.relX emitX ++ relWrites RelativeAxisCode.relY emitY ++
      [⟨ev,true⟩,⟨.synReport,true⟩]) : D × D) = (F64.ofI32 emitX,F64.ofI32 emitY) := by
  unfold daemonMotion
  simp [relSum_append,relSum_relWrites,(forwarded_syn hev _).1,RelativeAxisCode.relX,
    RelativeAxisCode.relY]

omit [F32 F] [FloatCast F D] in
theorem daemonMotion_still {ev : InputEvent} (hev : ev.eventType = .synchronization) :
    (daemonMotion [⟨ev,true⟩,⟨.synReport,true⟩] : D × D) = (F64.ofI32 0,F64.ofI32 0) := by
  unfold daemonMotion
  rw [(forwarded_syn hev _).1,(forwarded_syn hev _).1]

/-- The total that the library rounds on one axis. -/
def total (cfg : Settings F) (displacement : ℤ) (remainder : F) : F :=
  F32.ofI32 displacement * TrackedDevice.hwScale * cfg.cfgAccel + remainder

/-- The motion frame of the library reports the rounded totals, also when both are zero. -/
theorem libraryMotion_motionFrame (td : TrackedDevice F D) (cfg : Settings F) (te : TimedEvent) :
    libraryMotion (td.motionFrame te cfg.cfgAccel).2 =
      (F64.ofI32 (F32.roundToI32 (total cfg td.currentDx td.remainderX)),
        F64.ofI32 (F32.roundToI32 (total cfg td.currentDy td.remainderY))) := by
  unfold TrackedDevice.motionFrame total
  dsimp only
  split_ifs with hemit
  · rfl
  · rw [not_or,not_not,not_not] at hemit
    exact Prod.ext (congrArg F64.ofI32 hemit.1.symm) (congrArg F64.ofI32 hemit.2.symm)

omit [F64 D] [FloatCast F D] in
/-- The motion frame of the daemon writes the rounded totals. -/
theorem motionFrame_reliable (w : DeviceWrapper F) (cfg : Settings F) :
    DeviceWrapper.motionFrame (.ofSettings cfg) (w,.reliable) =
      (({ w with
          remainderX := total cfg w.currentDx w.remainderX -
            F32.ofI32 (F32.roundToI32 (total cfg w.currentDx w.remainderX))
          remainderY := total cfg w.currentDy w.remainderY -
            F32.ofI32 (F32.roundToI32 (total cfg w.currentDy w.remainderY)) },.reliable),
        relWrites RelativeAxisCode.relX (F32.roundToI32 (total cfg w.currentDx w.remainderX)) ++
          relWrites RelativeAxisCode.relY (F32.roundToI32 (total cfg w.currentDy w.remainderY)),
        true) := emitRels_reliable _ _ _

/-- One finger moves the pointer: the library. -/
theorem movementFrame_one (td : TrackedDevice F D) (cfg : Settings F) (te : TimedEvent)
    (hfingers : max td.activeSlotCount td.touchFingers ≤ 1) :
    td.movementFrame te cfg.cfgNat cfg.cfgAccel =
      ({ (({ td with tapEmitted := true } : TrackedDevice F D).motionFrame te cfg.cfgAccel).1 with
          currentDx := 0
          currentDy := 0 },
        (({ td with tapEmitted := true } : TrackedDevice F D).motionFrame te cfg.cfgAccel).2) := by
  have hone : max ({ td with tapEmitted := true } : TrackedDevice F D).activeSlotCount
      td.touchFingers ≤ 1 := hfingers
  unfold TrackedDevice.movementFrame
  dsimp only
  rw [if_pos hone]

omit [F64 D] [FloatCast F D] in
/-- One finger moves the pointer: the daemon. -/
theorem movementFrame_reliable (w : DeviceWrapper F) (cfg : Settings F)
    (hfew : w.touchFingers ≤ 1) :
    DeviceWrapper.movementFrame (.ofSettings cfg) (w,.reliable) =
      (({ w with
          tapEmitted := true
          remainderX := total cfg w.currentDx w.remainderX -
            F32.ofI32 (F32.roundToI32 (total cfg w.currentDx w.remainderX))
          remainderY := total cfg w.currentDy w.remainderY -
            F32.ofI32 (F32.roundToI32 (total cfg w.currentDy w.remainderY))
          currentDx := 0
          currentDy := 0 },.reliable),
        relWrites RelativeAxisCode.relX (F32.roundToI32 (total cfg w.currentDx w.remainderX)) ++
          relWrites RelativeAxisCode.relY (F32.roundToI32 (total cfg w.currentDy w.remainderY)),
        true) := by
  unfold DeviceWrapper.movementFrame
  dsimp only
  rw [if_pos hfew,Fallible.andThen_of_ok (motionFrame_reliable _ cfg)]
  exact congrArg (fun l => (_,l,true)) (List.append_nil _)

omit [F32 F] [F64 D] [FloatCast F D] in
theorem Related.oneFinger (h : Related g td w) : max td.activeSlotCount td.touchFingers ≤ 1 := by
  rw [h.slots,h.fingers]
  exact max_le (Nat.zero_le 1) h.few

/-- A frame with displacement on which nothing is owed: both programs round the same totals. -/
theorem Related.movement (h : Related g td w) (cfg : Settings F) (te : TimedEvent)
    (hx : g.x.extra = 0) (hy : g.y.extra = 0) : ∃ emitX emitY w',
      DeviceWrapper.movementFrame (.ofSettings cfg) (w,.reliable) = ((w',.reliable),
        relWrites RelativeAxisCode.relX emitX ++ relWrites RelativeAxisCode.relY emitY,true) ∧
      libraryMotion (td.movementFrame te cfg.cfgNat cfg.cfgAccel).2 =
        (F64.ofI32 emitX,F64.ofI32 emitY) ∧
      libraryButtons (td.movementFrame te cfg.cfgNat cfg.cfgAccel).2 = [] ∧
      Related { g with x := g.x.settle, y := g.y.settle }
        (td.movementFrame te cfg.cfgNat cfg.cfgAccel).1 w' := by
  have htotalX : total cfg td.currentDx td.remainderX = total cfg w.currentDx w.remainderX := by
    rw [h.x.eq_of_settled hx,h.remainderX]
  have htotalY : total cfg td.currentDy td.remainderY = total cfg w.currentDy w.remainderY := by
    rw [h.y.eq_of_settled hy,h.remainderY]
  refine ⟨_,_,_,movementFrame_reliable w cfg h.few,?_,?_,?_⟩ <;>
    rw [movementFrame_one td cfg te h.oneFinger]
  · rw [libraryMotion_motionFrame,← htotalX,← htotalY]
  · unfold TrackedDevice.motionFrame
    dsimp only
    split_ifs <;> rfl
  · rw [← htotalX,← htotalY]
    exact { h with
      tap := rfl
      remainderX := rfl
      remainderY := rfl
      x := h.x.settle
      y := h.y.settle }

/-- The end of a frame on which nothing is owed, unless the typing window discards it. -/
theorem Related.syn (h : Related g td w) (cfg : Settings F) (te : TimedEvent) (dwt : Bool)
    (hev : te.ev.eventType = .synchronization) (hcode : te.ev.code = 0)
    (hsettled : dwt = false → g.x.extra = 0 ∧ g.y.extra = 0) :
    Answered { g with x := g.x.settle, y := g.y.settle }
      (td.processSyn te cfg.cfgNat cfg.cfgAccel dwt)
      ((DeviceWrapper.processSyn te (.ofSettings cfg) dwt (w,.reliable)).1,
        (DeviceWrapper.processSyn te (.ofSettings cfg) dwt (w,.reliable)).2.1) := by
  have hforward : ∀ w' : DeviceWrapper F, DeviceWrapper.emitRaw te.ev (w',.reliable) =
      ((w',.reliable),[⟨te.ev,true⟩,⟨.synReport,true⟩],true) := fun _ => rfl
  have hsilent := forwarded_syn hev
  unfold TrackedDevice.processSyn DeviceWrapper.processSyn
  have hpinch : (td.pinchActive && !dwt) = false := by rw [h.pinch]; rfl
  rw [if_neg (not_not.mpr hcode),if_neg (not_not.mpr hcode),hpinch,if_neg Bool.false_ne_true]
  cases dwt with
  | true =>
    have hdiscard : Related { g with x := g.x.settle, y := g.y.settle }
        ({ td with
          currentDx := 0
          currentDy := 0
          remainderX := 0.0
          remainderY := 0.0
          tapEmitted := true } : TrackedDevice F D) w.discardFrame :=
      { h with
        tap := rfl
        remainderX := rfl
        remainderY := rfl
        x := h.x.settle
        y := h.y.settle }
    have hwrites : ∀ moved : Bool, Answered { g with x := g.x.settle, y := g.y.settle }
        (({ td with
            currentDx := 0
            currentDy := 0
            remainderX := 0.0
            remainderY := 0.0
            tapEmitted := true } : TrackedDevice F D),([] : List (LibinputEvent D)))
        ((w.discardFrame,.reliable),if moved then [⟨te.ev,true⟩,⟨.synReport,true⟩] else []) := by
      intro moved
      refine ⟨hdiscard,rfl,?_,?_⟩
      · cases moved with
        | true => exact (daemonMotion_still hev).symm
        | false => rfl
      · cases moved with
        | true => exact (hsilent 0).2.symm
        | false => rfl
    have hmoved := hwrites (decide (w.currentDx ≠ 0 ∨ w.currentDy ≠ 0))
    simp only [Bool.not_true,Bool.or_false,if_true,DeviceWrapper.modify,Fallible.update_andThen]
    cases hd : decide (w.currentDx ≠ 0 ∨ w.currentDy ≠ 0) with
    | true =>
      rw [hd] at hmoved
      exact hmoved
    | false =>
      rw [hd] at hmoved
      exact hmoved
  | false =>
    obtain ⟨hx,hy⟩ := hsettled rfl
    have hmoved : (td.currentDx ≠ 0 ∨ td.currentDy ≠ 0) ↔ (w.currentDx ≠ 0 ∨ w.currentDy ≠ 0) := by
      rw [h.x.eq_of_settled hx,h.y.eq_of_settled hy]
    simp only [Bool.not_false,Bool.false_eq_true,if_false,Bool.or_true,if_true,hmoved]
    by_cases hany : w.currentDx ≠ 0 ∨ w.currentDy ≠ 0
    · obtain ⟨emitX,emitY,w',hdaemon,hmotion,hbuttons,hrelated⟩ := h.movement cfg te hx hy
      rw [if_pos hany,decide_eq_true hany,if_pos rfl,Fallible.andThen_of_ok hdaemon,hforward]
      refine ⟨hrelated,rfl,hmotion.trans ?_,hbuttons.trans ?_⟩
      · exact (daemonMotion_frame emitX emitY hev).symm
      · have hdaemon' : ∀ l m, daemonButtons (l ++ m) = daemonButtons l ++ daemonButtons m :=
          fun l m => List.filterMap_append
        simp only [hdaemon',daemonButtons_relWrites,(hsilent 0).2,List.append_nil]
    · rw [if_neg hany,decide_eq_false hany,if_neg Bool.false_ne_true,Fallible.skip_andThen,hforward]
      exact ⟨{ h with x := h.x.settled hx, y := h.y.settled hy },rfl,(daemonMotion_still hev).symm,
        (hsilent 0).2.symm⟩

end Frames

section Streams
variable {g : Stale} {td : TrackedDevice F D} {w : DeviceWrapper F}

omit [F64 D] [FloatCast F D] in
theorem daemonStep_eq (cfg : Settings F) (w : DeviceWrapper F) (v : VirtualDevice) (x : Sample)
    (habs : w.isAbsolute = true) : daemonStep cfg (w,v) x =
      ((DeviceWrapper.processAbsolute x.event (.ofSettings cfg) (x.dwt cfg.cfgDwt)
          (w.trackKey x.event,v)).1,
        (DeviceWrapper.processAbsolute x.event (.ofSettings cfg) (x.dwt cfg.cfgDwt)
          (w.trackKey x.event,v)).2.1) := by
  have habs' : (w.trackKey x.event).isAbsolute = true :=
    (congrArg (·.2.2.1) (DeviceWrapper.trackKey_identity x.event w)).trans habs
  unfold daemonStep DeviceWrapper.processEvent
  dsimp only
  rw [habs',Bool.not_true,if_neg Bool.false_ne_true]
  rfl

omit [F32 F] in
/-- A key event that is no touch and no tool comes down to the forwarding of buttons. -/
theorem processKey_button (te : TimedEvent) (cfg : InputConfig F) (dwt : Bool) (b : ClickButton)
    (hcode : te.ev.code = b.code) (s : DeviceWrapper F × VirtualDevice) :
    DeviceWrapper.processKey te cfg dwt s = DeviceWrapper.forwardButton te s := by
  have htouch : DeviceWrapper.processTouchKey te cfg dwt = .skip := by
    unfold DeviceWrapper.processTouchKey
    rw [hcode]
    cases b <;> rfl
  rw [DeviceWrapper.processKey,htouch,Fallible.skip_andThen]

/-- One sample, if its frame is settled. -/
theorem Related.step (h : Related g td w) (cfg : Settings F) (x : Sample)
    (hsettled : g.Settled cfg.cfgDwt x) :
    Answered (g.next x) (libraryStep cfg td x) (daemonStep cfg (w,.reliable) x) := by
  rw [daemonStep_eq cfg w .reliable x h.absolute]
  have hguard := (h.trackKey x.event).guard (x.dwt cfg.cfgDwt)
  unfold libraryStep TrackedDevice.processAbsoluteEvent DeviceWrapper.processAbsolute
  dsimp only
  generalize (if x.dwt cfg.cfgDwt then { td with tapEmitted := true } else td) = td' at hguard ⊢
  generalize (if x.dwt cfg.cfgDwt then { w.trackKey x.event with tapEmitted := true }
    else w.trackKey x.event) = w' at hguard ⊢
  have hev : x.event.ev = x.input.toEvent x.time := rfl
  unfold Stale.next
  cases hinput : x.input with
  | btnTouch value =>
    rw [hinput] at hev
    have hcode : x.event.ev.code = KeyCode.btnTouch := congrArg InputEvent.code hev
    rw [show x.event.ev.eventType = .key from congrArg InputEvent.eventType hev]
    dsimp only
    unfold TrackedDevice.processAbsoluteKey DeviceWrapper.processKey DeviceWrapper.processTouchKey
    rw [DeviceWrapper.forwardButton_touch hcode,if_pos hcode,if_pos hcode,
      show x.event.ev.value = value from congrArg InputEvent.value hev]
    by_cases hvalue : value = 0
    · rw [if_neg (not_not.mpr hvalue),if_neg (not_not.mpr hvalue),if_neg (not_not.mpr hvalue),
        Fallible.andThen_skip]
      exact hguard.touchUp cfg x.event (x.dwt cfg.cfgDwt)
    · rw [if_pos hvalue,if_pos hvalue,if_pos hvalue,Fallible.andThen_skip]
      exact hguard.touchDown x.event
  | button b value =>
    rw [hinput] at hev
    have hcode : x.event.ev.code = b.code := congrArg InputEvent.code hev
    rw [show x.event.ev.eventType = .key from congrArg InputEvent.eventType hev]
    dsimp only
    have hclick : td'.processAbsoluteKey x.event cfg.cfgTap (x.dwt cfg.cfgDwt) =
        td'.physicalClick x.event := by
      unfold TrackedDevice.processAbsoluteKey
      rw [hcode]
      cases b <;> rfl
    rw [processKey_button x.event _ _ b hcode,hclick]
    exact hguard.button x.event
  | absX value =>
    rw [hinput] at hev
    have hcode : x.event.ev.code = AbsoluteAxisCode.absX := congrArg InputEvent.code hev
    have hvalue : x.event.ev.value = value := congrArg InputEvent.value hev
    rw [show x.event.ev.eventType = .absolute from congrArg InputEvent.eventType hev]
    have haxis : td'.processAbsoluteAxis x.event = td'.positionX x.event := by
      unfold TrackedDevice.processAbsoluteAxis
      rw [hcode]
      rfl
    have hrelated := hguard.positionX x.event hcode
    rw [hvalue] at hrelated
    exact ⟨haxis ▸ hrelated,rfl,rfl,rfl⟩
  | absY value =>
    rw [hinput] at hev
    have hcode : x.event.ev.code = AbsoluteAxisCode.absY := congrArg InputEvent.code hev
    have hvalue : x.event.ev.value = value := congrArg InputEvent.value hev
    rw [show x.event.ev.eventType = .absolute from congrArg InputEvent.eventType hev]
    have haxis : td'.processAbsoluteAxis x.event = td'.positionY x.event := by
      unfold TrackedDevice.processAbsoluteAxis
      rw [hcode]
      rfl
    have hrelated := hguard.positionY x.event hcode
    rw [hvalue] at hrelated
    exact ⟨haxis ▸ hrelated,rfl,rfl,rfl⟩
  | synReport =>
    rw [hinput] at hev
    have htype : x.event.ev.eventType = .synchronization := congrArg InputEvent.eventType hev
    rw [htype]
    exact hguard.syn cfg x.event (x.dwt cfg.cfgDwt) htype (congrArg InputEvent.code hev)
      (hsettled hinput)

/-- A stream whose reported frames are all settled. -/
theorem Related.stream (h : Related g td w) (cfg : Settings F) {xs : List Sample}
    (hsettled : g.AllSettled cfg.cfgDwt xs) : SamePipeline cfg td (w,.reliable) xs := by
  induction xs generalizing g td w with
  | nil => exact ⟨rfl,rfl⟩
  | cons x xs ih =>
    obtain ⟨hrelated,hreliable,hmotion,hbuttons⟩ := h.step cfg x hsettled.1
    obtain ⟨hmotions,hrest⟩ := ih hrelated hsettled.2
    have hstate : (daemonStep cfg (w,.reliable) x).1 =
        ((daemonStep cfg (w,.reliable) x).1.1,.reliable) := Prod.ext rfl hreliable
    rw [← hstate] at hmotions hrest
    refine ⟨?_,?_⟩
    · rw [answers_cons,answers_cons,reportedMotions_cons,reportedMotions_cons,hmotion,hmotions]
    · rw [run_cons,run_cons]
      unfold libraryButtons daemonButtons at hrest hbuttons ⊢
      rw [List.filterMap_append,List.filterMap_append,hbuttons,hrest]

end Streams
end LibinputRs
