import LibinputRs.Automata.Ledger
import LibinputRs.Daemon.Reliable
import LibinputRs.Library.Pinch
import LibinputRs.Pipeline.SingleTouch

/-! Motion and scrolling in exact arithmetic. What a frame rounds off is carried to the next one,
so over any segment of one mode the integers emitted and the final remainder add up to the initial
remainder and the scaled displacements. -/
namespace LibinputRs
open Automata

section Rounding

/-- Rounding moves a number by at most one half. -/
theorem abs_sub_roundHalfAway_le (q : ℚ) : |q - roundHalfAway q| ≤ 1/2 := by
  have hfloor : ∀ r : ℚ, |r - ⌊r + 1/2⌋| ≤ 1/2 := by
    intro r
    have hle := Int.floor_le (r + 1/2)
    have hlt := Int.lt_floor_add_one (r + 1/2)
    rw [abs_le]
    constructor <;> linarith
  unfold roundHalfAway
  split_ifs
  · exact hfloor q
  · have h := hfloor (-q)
    rw [Int.cast_neg,sub_neg_eq_add,← abs_neg,neg_add,← sub_eq_add_neg]
    exact h

end Rounding

/-- The two axes of a touchpad. -/
inductive TouchAxis
  | x
  | y
  deriving DecidableEq, Repr

namespace TouchAxis

/-- The number of the scroll axis. -/
def scrollAxis : TouchAxis → ℕ
  | .x => 1
  | .y => 0

def select {α : Type} (a : TouchAxis) (atX atY : α) : α :=
  match a with
  | .x => atX
  | .y => atY

end TouchAxis

/-- How a frame with displacement is handled: it moves the pointer or scrolls. -/
inductive FrameMode
  | pointer
  | scroll
  deriving DecidableEq, Repr

namespace FrameMode

/-- The number of fingers is one of the mode. -/
def Fits : FrameMode → ℕ → Prop
  | .pointer, n => n ≤ 1
  | .scroll, n => n = 2

instance (mode : FrameMode) (n : ℕ) : Decidable (mode.Fits n) :=
  match mode with
  | .pointer => inferInstanceAs (Decidable (n ≤ 1))
  | .scroll => inferInstanceAs (Decidable (n = 2))

/-- The factor on displacements, with the acceleration factor. -/
def gain (a : ℚ) : FrameMode → ℚ
  | .pointer => 0.18 * a
  | .scroll => 0.02

end FrameMode

/-- The integer before the sign of natural scrolling. -/
def unsigned (cfgNat : Bool) (v : ℤ) : ℤ := if cfgNat then i32Wrap (-v) else v

/-- Rounding the total stays in the range of `i32`. -/
def InRange (q : ℚ) : Prop := -2^31 ≤ roundHalfAway q ∧ roundHalfAway q ≤ 2^31 - 1

instance (q : ℚ) : Decidable (InRange q) := inferInstanceAs (Decidable (_ ∧ _))

theorem roundToI32_of_inRange {q : ℚ} (h : InRange q) : F32.roundToI32 q = roundHalfAway q := by
  change saturateI32 (roundHalfAway q) = roundHalfAway q
  obtain ⟨hlow,hhigh⟩ := h
  unfold saturateI32
  omega

/-- Whatever is rounded, the two changes of sign undo each other. -/
theorem unsigned_sign (cfgNat : Bool) (q : ℚ) :
    unsigned cfgNat (if cfgNat then i32Wrap (-F32.roundToI32 q) else F32.roundToI32 q) =
      F32.roundToI32 q := by
  change unsigned cfgNat (if cfgNat then i32Wrap (-saturateI32 (roundHalfAway q))
    else saturateI32 (roundHalfAway q)) = saturateI32 (roundHalfAway q)
  have hrange : -2^31 ≤ saturateI32 (roundHalfAway q) ∧
      saturateI32 (roundHalfAway q) ≤ 2^31 - 1 := by
    unfold saturateI32
    omega
  generalize saturateI32 (roundHalfAway q) = z at hrange
  unfold unsigned i32Wrap
  cases cfgNat with
  | false => rfl
  | true =>
    simp only [if_true]
    rw [Int.bmod_def,Int.bmod_def]
    split_ifs <;> omega

section Laws
variable {σ ι ω : Type}

/-- A machine that reports displacements: the events it reads, the displacement stored on both
axes and on the one looked at, the remainder kept there, and what an answer emits there. -/
structure Meter (σ ι ω : Type) where
  step : σ → ι → σ × List ω
  ev : ι → InputEvent
  moved : σ → Prop
  displacement : σ → ℤ
  remainder : σ → ℚ
  emitted : ι → List ω → ℚ

namespace Meter
variable (m : Meter σ ι ω)

/-- The displacement that a `SYN_REPORT` finds. -/
def reported (s : σ) (i : ι) : ℚ := if (m.ev i).IsReport then m.displacement s else 0

/-- The state after some inputs. -/
def after (s : σ) (before : List ι) : σ := (run m.step s before).1

/-- The integers emitted and the final remainder add up to the initial remainder and the scaled
displacements, and every frame with displacement leaves at most one half. -/
def Conserves (gain : ℚ) (s : σ) (inputs : List ι) : Prop :=
  tally m.step (fun s i => m.emitted i (m.step s i).2) s inputs +
      m.remainder (m.after s inputs) =
    m.remainder s + gain * tally m.step m.reported s inputs ∧
  AtEach (fun before i => (m.ev i).IsReport → m.moved (m.after s before) →
    |m.remainder (m.after s (before ++ [i]))| ≤ 1/2) inputs

/-- What a frame rounds. -/
def total (gain : ℚ) (s : σ) : ℚ := gain * m.displacement s + m.remainder s

/-- What one step owes: a frame with displacement emits the rounded total and keeps the rest, and
any other event emits nothing and keeps the remainder. -/
structure Pays (gain : ℚ) (s : σ) (i : ι) : Prop where
  frame : (m.ev i).IsReport → m.moved s →
    m.emitted i (m.step s i).2 = roundHalfAway (m.total gain s) ∧
      m.remainder (m.step s i).1 = m.total gain s - roundHalfAway (m.total gain s)
  still : m.moved s ∨ m.displacement s = 0
  other : ¬ ((m.ev i).IsReport ∧ m.moved s) →
    m.emitted i (m.step s i).2 = 0 ∧ m.remainder (m.step s i).1 = m.remainder s

variable {m}

/-- One step that pays: what it emits and what it keeps is what was kept and what came in. -/
theorem Pays.balance {gain : ℚ} {s : σ} {i : ι} (h : m.Pays gain s i) :
    m.emitted i (m.step s i).2 + m.remainder (m.step s i).1 =
      m.remainder s + gain * m.reported s i := by
  by_cases hframe : (m.ev i).IsReport ∧ m.moved s
  · obtain ⟨hemit,hrem⟩ := h.frame hframe.1 hframe.2
    rw [hemit,hrem,reported,if_pos hframe.1,total]
    ring
  · obtain ⟨hemit,hrem⟩ := h.other hframe
    have hdue : m.reported s i = 0 := by
      unfold reported
      split_ifs with hreport
      · have hzero := h.still.resolve_left fun hmoved => hframe ⟨hreport,hmoved⟩
        rw [hzero,Int.cast_zero]
      · rfl
    rw [hemit,hrem,hdue]
    simp

theorem conserves_of_pays {gain : ℚ} {s : σ} {inputs : List ι}
    (h : AtEach (fun before i => m.Pays gain (m.after s before) i) inputs) :
    m.Conserves gain s inputs := by
  constructor
  · rw [← tally_mul_left]
    exact tally_conserved m.step m.remainder _ _ fun before i back heq =>
      (h before i back heq).balance
  · intro before i back heq hreport hmoved
    obtain ⟨_,hrem⟩ := (h before i back heq).frame hreport hmoved
    have hafter : m.after s (before ++ [i]) = (m.step (m.after s before) i).1 := by
      simp only [after,run_append,run_singleton]
    rw [hafter,hrem]
    exact abs_sub_roundHalfAway_le _

end Meter
end Laws

section Library

/-- What an event tells a client about the axis in this mode, the sign of natural scrolling
undone. -/
def LibinputEvent.emitted (mode : FrameMode) (a : TouchAxis) (cfgNat : Bool) (e : LibinputEvent ℚ) :
    ℚ :=
  match mode,e.payload with
  | .pointer,.pointerMotion m => a.select m.dx m.dy
  | .scroll,.pointerAxis s => if s.axis = a.scrollAxis then unsigned cfgNat s.valueDiscrete else 0
  | _,_ => 0

/-- The library on one axis of a touchpad. -/
def libraryMeter (mode : FrameMode) (a : TouchAxis) :
    Meter (TrackedDevice ℚ ℚ) (TouchInput ℚ) (LibinputEvent ℚ) where
  step := TrackedDevice.touchStep
  ev i := i.te.ev
  moved td := td.currentDx ≠ 0 ∨ td.currentDy ≠ 0
  displacement td := a.select td.currentDx td.currentDy
  remainder td := a.select td.remainderX td.remainderY
  emitted i out := (out.map (LibinputEvent.emitted mode a i.cfgNat)).sum

/-- The event comes outside the typing window and outside a pinch, under the acceleration factor,
and a frame with displacement is one of the mode whose rounded total is in range. -/
structure LibrarySegment (mode : FrameMode) (accel : ℚ) (a : TouchAxis) (td : TrackedDevice ℚ ℚ)
    (i : TouchInput ℚ) : Prop where
  awake : i.dwtActive = false
  closed : td.pinchActive = false
  factor : i.cfgAccel = accel
  fits : i.te.ev.IsReport → td.currentDx ≠ 0 ∨ td.currentDy ≠ 0 →
    mode.Fits (max td.activeSlotCount td.touchFingers)
  range : i.te.ev.IsReport → td.currentDx ≠ 0 ∨ td.currentDy ≠ 0 →
    InRange ((libraryMeter mode a).total (mode.gain accel) td)

instance (mode : FrameMode) (accel : ℚ) (a : TouchAxis) (td : TrackedDevice ℚ ℚ)
    (i : TouchInput ℚ) : Decidable (LibrarySegment mode accel a td i) :=
  decidable_of_iff (i.dwtActive = false ∧ td.pinchActive = false ∧ i.cfgAccel = accel ∧
    (i.te.ev.IsReport → td.currentDx ≠ 0 ∨ td.currentDy ≠ 0 →
      mode.Fits (max td.activeSlotCount td.touchFingers)) ∧
    (i.te.ev.IsReport → td.currentDx ≠ 0 ∨ td.currentDy ≠ 0 →
      InRange ((libraryMeter mode a).total (mode.gain accel) td)))
    ⟨fun h => ⟨h.1,h.2.1,h.2.2.1,h.2.2.2.1,h.2.2.2.2⟩,
      fun h => ⟨h.awake,h.closed,h.factor,h.fits,h.range⟩⟩

variable {mode : FrameMode} {a : TouchAxis} {td : TrackedDevice ℚ ℚ} {i : TouchInput ℚ}

/-- The total of a motion frame as the gain has it. -/
theorem pointer_total (accel r : ℚ) (d : ℤ) : F32.ofI32 d * TrackedDevice.hwScale * accel + r =
    FrameMode.gain accel .pointer * d + r := by
  change (d : ℚ) * (0.18 : ℚ) * accel + r = (0.18 : ℚ) * accel * d + r
  ring

theorem scroll_total (accel r : ℚ) (d : ℤ) : F32.ofI32 d * TrackedDevice.scrollScale + r =
    FrameMode.gain accel .scroll * d + r := by
  change (d : ℚ) * (0.02 : ℚ) + r = (0.02 : ℚ) * d + r
  ring

/-- A frame that moves the pointer emits the rounded totals on both axes. -/
theorem TrackedDevice.motionFrame_pays (te : TimedEvent) (cfgNat : Bool) (accel : ℚ)
    (hrange : InRange ((libraryMeter .pointer a).total (FrameMode.gain accel .pointer) td)) :
    ((td.motionFrame te accel).2.map (LibinputEvent.emitted .pointer a cfgNat)).sum =
        roundHalfAway ((libraryMeter .pointer a).total (FrameMode.gain accel .pointer) td) ∧
      (libraryMeter .pointer a).remainder (td.motionFrame te accel).1 =
        (libraryMeter .pointer a).total (FrameMode.gain accel .pointer) td -
          roundHalfAway ((libraryMeter .pointer a).total (FrameMode.gain accel .pointer) td) := by
  have hround := roundToI32_of_inRange hrange
  unfold motionFrame
  simp only [pointer_total accel]
  cases a with
  | x =>
    rw [← hround]
    refine ⟨?_,rfl⟩
    split_ifs with hemit
    · simp [LibinputEvent.emitted,TouchAxis.select]
      rfl
    · rw [not_or,not_not] at hemit
      exact (congrArg (Int.cast : ℤ → ℚ) hemit.1).symm
  | y =>
    rw [← hround]
    refine ⟨?_,rfl⟩
    split_ifs with hemit
    · simp [LibinputEvent.emitted,TouchAxis.select]
      rfl
    · rw [not_or,not_not,not_not] at hemit
      exact (congrArg (Int.cast : ℤ → ℚ) hemit.2).symm

/-- The scroll event of an axis counts on that axis alone. -/
theorem TrackedDevice.scrollAxis_emitted (te : TimedEvent) (cfgNat : Bool) (axis : ℕ) (q : ℚ) :
    ((td.scrollAxis te cfgNat axis (F32.roundToI32 q)).map
      (LibinputEvent.emitted .scroll a cfgNat)).sum =
        if axis = a.scrollAxis then (F32.roundToI32 q : ℚ) else 0 := by
  unfold scrollAxis
  by_cases hemit : F32.roundToI32 q = 0
  · simp [hemit]
  · rw [if_pos hemit,List.map_singleton,List.sum_singleton]
    change (if axis = a.scrollAxis then ((unsigned cfgNat (if cfgNat then
      i32Wrap (-F32.roundToI32 q) else F32.roundToI32 q) : ℤ) : ℚ) else 0) = _
    rw [unsigned_sign]

/-- A frame that scrolls emits the rounded totals on both axes. -/
theorem TrackedDevice.scrollFrame_pays (te : TimedEvent) (cfgNat : Bool) (accel : ℚ)
    (hrange : InRange ((libraryMeter .scroll a).total (FrameMode.gain accel .scroll) td)) :
    ((td.scrollFrame te cfgNat).2.map (LibinputEvent.emitted .scroll a cfgNat)).sum =
        roundHalfAway ((libraryMeter .scroll a).total (FrameMode.gain accel .scroll) td) ∧
      (libraryMeter .scroll a).remainder (td.scrollFrame te cfgNat).1 =
        (libraryMeter .scroll a).total (FrameMode.gain accel .scroll) td -
          roundHalfAway ((libraryMeter .scroll a).total (FrameMode.gain accel .scroll) td) := by
  have hround := roundToI32_of_inRange hrange
  rw [← hround]
  unfold scrollFrame
  simp only [scroll_total accel,List.map_append,List.sum_append,scrollAxis_emitted]
  cases a with
  | x => exact ⟨by rw [if_neg (by decide),if_pos (by decide),zero_add]; rfl,rfl⟩
  | y => exact ⟨by rw [if_pos (by decide),if_neg (by decide),add_zero]; rfl,rfl⟩

/-- The frames of a segment pay what they owe. -/
theorem TrackedDevice.movementFrame_pays (te : TimedEvent) (cfgNat : Bool) (accel : ℚ)
    (hfits : mode.Fits (max td.activeSlotCount td.touchFingers))
    (hrange : InRange ((libraryMeter mode a).total (mode.gain accel) td)) :
    ((td.movementFrame te cfgNat accel).2.map (LibinputEvent.emitted mode a cfgNat)).sum =
        roundHalfAway ((libraryMeter mode a).total (mode.gain accel) td) ∧
      (libraryMeter mode a).remainder (td.movementFrame te cfgNat accel).1 =
        (libraryMeter mode a).total (mode.gain accel) td -
          roundHalfAway ((libraryMeter mode a).total (mode.gain accel) td) := by
  unfold movementFrame
  dsimp only
  cases mode with
  | pointer =>
    rw [if_pos (show max ({ td with tapEmitted := true } : TrackedDevice ℚ ℚ).activeSlotCount
      td.touchFingers ≤ 1 from hfits)]
    exact motionFrame_pays te cfgNat accel hrange
  | scroll =>
    have htwo : max ({ td with tapEmitted := true } : TrackedDevice ℚ ℚ).activeSlotCount
      td.touchFingers = 2 := hfits
    rw [if_neg (by omega),if_pos htwo]
    exact scrollFrame_pays te cfgNat accel hrange

namespace TrackedDevice

def remainders (td : TrackedDevice ℚ ℚ) : ℚ × ℚ := (td.remainderX,td.remainderY)

theorem processAbsoluteKey_remainders (te : TimedEvent) (cfgTap dwt : Bool)
    (td : TrackedDevice ℚ ℚ) :
    (td.processAbsoluteKey te cfgTap dwt).1.remainders = td.remainders := by
  have hdown := touchDown_frame remainders (fun _ _ _ _ _ => rfl) te td
  have hclick := physicalClick_frame remainders (fun _ _ => rfl) te td
  unfold processAbsoluteKey
  dsimp only
  split_ifs
  all_goals first
    | rfl
    | exact hdown
    | exact hclick

theorem processAbsoluteAxis_remainders (te : TimedEvent) (td : TrackedDevice ℚ ℚ) :
    (td.processAbsoluteAxis te).remainders = td.remainders :=
  processAbsoluteAxis_frame remainders (fun _ _ _ => rfl) (fun _ _ _ _ _ _ => rfl) te td

/-- Events that end no frame leave the remainders alone. -/
theorem touchStep_remainders (i : TouchInput ℚ) (hreport : ¬ i.te.ev.IsReport) :
    (td.touchStep i).1.remainders = td.remainders := by
  have hguard : (if i.dwtActive then { td with tapEmitted := true } else td).remainders =
      td.remainders := by
    split_ifs <;> rfl
  unfold touchStep processAbsoluteEvent
  dsimp only
  cases htype : i.te.ev.eventType with
  | key => exact (processAbsoluteKey_remainders i.te i.cfgTap _ _).trans hguard
  | absolute => exact (processAbsoluteAxis_remainders i.te _).trans hguard
  | synchronization =>
    dsimp only
    rw [processSyn,if_pos fun hcode => hreport ⟨htype,hcode⟩]
    exact hguard
  | relative => exact hguard
  | other n => exact hguard

/-- They emit no motion and no scrolling either. -/
theorem touchStep_emitted (i : TouchInput ℚ) (hsyn : i.te.ev.eventType ≠ .synchronization)
    (cfgNat : Bool) : ∀ e ∈ (td.touchStep i).2, e.emitted mode a cfgNat = 0 := by
  have hbutton : ∀ d t code state,
      (LibinputEvent.button d t code state : LibinputEvent ℚ).emitted mode a cfgNat = 0 := by
    intro d t code state
    cases mode <;> rfl
  have hclick : ∀ (c : Prop) [Decidable c] (d t code state : ℕ), ∀ e ∈ (if c then
      [(.button d t code state : LibinputEvent ℚ)] else []), e.emitted mode a cfgNat = 0 := by
    intro c _ d t code state
    split_ifs
    · exact List.forall_mem_singleton.mpr (hbutton d t code state)
    · exact List.forall_mem_nil _
  unfold touchStep
  cases td.processAbsoluteEvent_effect i.te i.cfgTap i.cfgNat i.cfgAccel i.dwtActive with
  | contact hev hvalue hs hout => rw [hout]; exact List.forall_mem_nil _
  | pinchBegins hev hvalue fingers hclosed hs hout =>
    rw [hout]
    exact List.forall_mem_singleton.mpr (by cases mode <;> rfl)
  | lift hev hvalue ends taps hends htaps hs hout =>
    rw [hout,List.forall_mem_append]
    constructor
    · rcases hends with ⟨_,scale,angle,rfl⟩ | ⟨_,rfl⟩
      · exact List.forall_mem_singleton.mpr (by cases mode <;> rfl)
      · exact List.forall_mem_nil _
    · rcases htaps with rfl | rfl
      · exact List.forall_mem_nil _
      · exact List.forall_mem_cons.mpr ⟨hbutton _ _ _ _,
          List.forall_mem_singleton.mpr (hbutton _ _ _ _)⟩
  | leftPress hev hvalue mapped hmapped hs hout =>
    rw [hout]
    exact List.forall_mem_singleton.mpr (hbutton _ _ _ _)
  | leftRelease hev hvalue hs hout => rw [hout]; exact hclick _ _ _ _ _
  | otherButton code hev hcode hleft hs hout =>
    rw [hout]
    exact List.forall_mem_singleton.mpr (hbutton _ _ _ _)
  | quiet hev hs hout => rw [hout]; exact List.forall_mem_nil _
  | frame hev hs hout => exact absurd hev hsyn

/-- A frame end outside the typing window and a pinch. -/
theorem touchStep_syn (i : TouchInput ℚ) (hawake : i.dwtActive = false)
    (hclosed : td.pinchActive = false) (hsyn : i.te.ev.eventType = .synchronization) :
    td.touchStep i = if i.te.ev.code = 0 ∧ (td.currentDx ≠ 0 ∨ td.currentDy ≠ 0) then
      td.movementFrame i.te i.cfgNat i.cfgAccel else (td,[]) := by
  unfold touchStep processAbsoluteEvent processSyn
  rw [hsyn,hawake]
  by_cases hcode : i.te.ev.code = 0 <;> simp [hcode,hclosed]

end TrackedDevice

/-- Every event of a segment pays what it owes. -/
theorem LibrarySegment.pays {accel : ℚ} (h : LibrarySegment mode accel a td i) :
    (libraryMeter mode a).Pays (mode.gain accel) td i := by
  constructor
  · intro hreport hmoved
    have hstep := TrackedDevice.touchStep_syn i h.awake h.closed hreport.1
    rw [if_pos ⟨hreport.2,hmoved⟩,h.factor] at hstep
    change ((td.touchStep i).2.map _).sum = _ ∧
      (libraryMeter mode a).remainder (td.touchStep i).1 = _
    rw [hstep]
    exact TrackedDevice.movementFrame_pays i.te i.cfgNat accel (h.fits hreport hmoved)
      (h.range hreport hmoved)
  · by_cases hmoved : td.currentDx ≠ 0 ∨ td.currentDy ≠ 0
    · exact .inl hmoved
    · rw [not_or,not_not,not_not] at hmoved
      refine .inr ?_
      cases a
      · exact hmoved.1
      · exact hmoved.2
  · intro hstill
    change ((td.touchStep i).2.map _).sum = 0 ∧
      a.select (td.touchStep i).1.remainderX (td.touchStep i).1.remainderY = _
    by_cases hsyn : i.te.ev.eventType = .synchronization
    · rw [TrackedDevice.touchStep_syn i h.awake h.closed hsyn,
        if_neg fun hframe => hstill ⟨⟨hsyn,hframe.1⟩,hframe.2⟩]
      exact ⟨rfl,rfl⟩
    · have hrem : (td.touchStep i).1.remainders = td.remainders :=
        TrackedDevice.touchStep_remainders i fun hreport => hsyn hreport.1
      simp only [TrackedDevice.remainders,Prod.mk.injEq] at hrem
      rw [hrem.1,hrem.2]
      refine ⟨List.sum_eq_zero fun q hq => ?_,rfl⟩
      obtain ⟨e,he,rfl⟩ := List.mem_map.mp hq
      exact TrackedDevice.touchStep_emitted i hsyn i.cfgNat e he

end Library

section Daemon

/-- The code that the daemon writes an axis under. -/
def FrameMode.relCode (mode : FrameMode) (a : TouchAxis) : ℕ :=
  match mode with
  | .pointer => a.select RelativeAxisCode.relX RelativeAxisCode.relY
  | .scroll => a.select RelativeAxisCode.relHwheel RelativeAxisCode.relWheel

/-- The daemon on one axis of a touchpad, every write being accepted. -/
def daemonMeter (cfg : InputConfig ℚ) (mode : FrameMode) (a : TouchAxis) :
    Meter (DeviceWrapper ℚ) WrapperInput Write where
  step := DeviceWrapper.eventStep cfg
  ev i := i.te.ev
  moved w := w.currentDx ≠ 0 ∨ w.currentDy ≠ 0
  displacement w := a.select w.currentDx w.currentDy
  remainder w := a.select w.remainderX w.remainderY
  emitted _ writes :=
    match mode with
    | .pointer => relSum (mode.relCode a) writes
    | .scroll => unsigned cfg.naturalScrolling (relSum (mode.relCode a) writes)

/-- The event comes outside the typing window, and a frame with displacement is one of the mode
whose rounded total is in range. -/
structure DaemonSegment (cfg : InputConfig ℚ) (mode : FrameMode) (a : TouchAxis)
    (w : DeviceWrapper ℚ) (i : WrapperInput) : Prop where
  awake : DeviceWrapper.dwtActive cfg i.typing i.te.now = false
  fits : i.te.ev.IsReport → w.currentDx ≠ 0 ∨ w.currentDy ≠ 0 → mode.Fits w.touchFingers
  range : i.te.ev.IsReport → w.currentDx ≠ 0 ∨ w.currentDy ≠ 0 →
    InRange ((daemonMeter cfg mode a).total (mode.gain cfg.pointerAcceleration) w)

instance (cfg : InputConfig ℚ) (mode : FrameMode) (a : TouchAxis) (w : DeviceWrapper ℚ)
    (i : WrapperInput) : Decidable (DaemonSegment cfg mode a w i) :=
  decidable_of_iff (DeviceWrapper.dwtActive cfg i.typing i.te.now = false ∧
    (i.te.ev.IsReport → w.currentDx ≠ 0 ∨ w.currentDy ≠ 0 → mode.Fits w.touchFingers) ∧
    (i.te.ev.IsReport → w.currentDx ≠ 0 ∨ w.currentDy ≠ 0 →
      InRange ((daemonMeter cfg mode a).total (mode.gain cfg.pointerAcceleration) w)))
    ⟨fun h => ⟨h.1,h.2.1,h.2.2⟩,fun h => ⟨h.awake,h.fits,h.range⟩⟩

theorem relSum_eq_zero {code : ℕ} {writes : List Write}
    (h : ∀ x ∈ writes, x.ev.eventType ≠ .relative) : relSum code writes = 0 := by
  have hnil : (writes.filterMap fun x => if x.ev.eventType = .relative ∧ x.ev.code = code then
      some x.ev.value else none) = [] :=
    List.filterMap_eq_nil_iff.mpr fun x hx => if_neg fun hrel => h x hx hrel.1
  rw [relSum,hnil,List.sum_nil]

theorem relSum_accepted (code : ℕ) (value : ℤ) :
    relSum code (accepted (.new .relative code value)) = value := by
  simp [relSum,accepted,InputEvent.new,InputEvent.synReport]

theorem accepted_ne_relative {ev : InputEvent} (h : ev.eventType ≠ .relative) :
    ∀ x ∈ accepted ev, x.ev.eventType ≠ .relative := by
  simp [accepted,h,InputEvent.synReport,InputEvent.new]

namespace DeviceWrapper
variable {cfg : InputConfig ℚ} {w : DeviceWrapper ℚ} {i : WrapperInput}

def remainders (w : DeviceWrapper ℚ) : ℚ × ℚ := (w.remainderX,w.remainderY)

/-- Nothing that a key event writes is relative, and it leaves the remainders alone. -/
theorem reliably_key (te : TimedEvent) (dwt : Bool) :
    (∀ x ∈ (reliably ((processTouchKey te cfg dwt).andThen (forwardButton te)) w).2,
        x.ev.eventType ≠ .relative) ∧
      (reliably ((processTouchKey te cfg dwt).andThen (forwardButton te)) w).1.remainders =
        w.remainders := by
  have htouch : (∀ x ∈ (reliably (processTouchKey te cfg dwt) w).2, x.ev.eventType ≠ .relative) ∧
      (reliably (processTouchKey te cfg dwt) w).1.remainders = w.remainders := by
    have htap : ∀ x ∈ tapWrites, x.ev.eventType ≠ .relative := by decide
    rw [reliably_processTouchKey,reliably_touchUp]
    split_ifs
    all_goals first
      | exact ⟨htap,rfl⟩
      | exact ⟨List.forall_mem_nil _,rfl⟩
  have hclick : ∀ w' : DeviceWrapper ℚ,
      (∀ x ∈ (reliably (forwardButton te) w').2, x.ev.eventType ≠ .relative) ∧
        (reliably (forwardButton te) w').1.remainders = w'.remainders := by
    intro w'
    rw [reliably_forwardButton]
    refine ⟨?_,?_⟩
    · dsimp only
      split_ifs
      · exact accepted_ne_relative (by simp [InputEvent.new])
      · exact List.forall_mem_nil _
    · unfold mapClick
      split_ifs <;> rfl
  rw [reliably_andThen (processTouchKey_completes te cfg dwt)]
  refine ⟨List.forall_mem_append.mpr ⟨htouch.1,(hclick _).1⟩,(hclick _).2.trans htouch.2⟩

theorem processAxis_remainders (te : TimedEvent) (w : DeviceWrapper ℚ) :
    (w.processAxis te).remainders = w.remainders :=
  processAxis_frame remainders (fun _ _ _ _ _ _ => rfl) te w

/-- A frame end outside the typing window. -/
theorem eventStep_syn (habs : w.isAbsolute = true)
    (hawake : dwtActive cfg i.typing i.te.now = false)
    (hsyn : i.te.ev.eventType = .synchronization) :
    w.eventStep cfg i = if i.te.ev.code = 0 ∧ (w.currentDx ≠ 0 ∨ w.currentDy ≠ 0) then
      ((reliably (movementFrame cfg) w).1,
        (reliably (movementFrame cfg) w).2 ++ accepted i.te.ev) else (w,accepted i.te.ev) := by
  have htrack : w.trackKey i.te = w := if_neg (by simp [hsyn])
  rw [eventStep,reliably_processEvent_absolute cfg _ _ habs,hawake,
    reliably_processAbsolute_syn _ _ _ _ hsyn,htrack]
  change reliably (processSyn i.te cfg false) w = _
  by_cases hcode : i.te.ev.code = 0
  · rw [reliably_processSyn _ _ _ _ hcode]
    by_cases hmoved : w.currentDx ≠ 0 ∨ w.currentDy ≠ 0 <;> simp [hcode,hmoved]
  · rw [reliably_processSyn_other _ _ _ _ hcode,if_neg fun h => hcode h.1]

/-- Events that end no frame. -/
theorem eventStep_still (habs : w.isAbsolute = true)
    (hawake : dwtActive cfg i.typing i.te.now = false)
    (hsyn : i.te.ev.eventType ≠ .synchronization) :
    (∀ x ∈ (w.eventStep cfg i).2, x.ev.eventType ≠ .relative) ∧
      (w.eventStep cfg i).1.remainders = w.remainders := by
  have hfound := found_frame remainders (fun _ _ _ _ _ => rfl) i.te false w
  rw [eventStep,reliably_processEvent_absolute cfg _ _ habs,hawake]
  cases htype : i.te.ev.eventType with
  | key =>
    rw [reliably_processAbsolute_key _ _ _ _ htype]
    have hkey : (∀ x ∈ (reliably ((processTouchKey i.te cfg false).andThen (forwardButton i.te))
        ((w.trackKey i.te).guarded false)).2, x.ev.eventType ≠ .relative) ∧ _ :=
      reliably_key i.te false
    exact ⟨hkey.1,hkey.2.trans hfound⟩
  | synchronization => exact absurd htype hsyn
  | absolute =>
    rw [reliably_processAbsolute_axis _ _ _ _ htype]
    exact ⟨List.forall_mem_nil _,(processAxis_remainders _ _).trans hfound⟩
  | relative =>
    rw [reliably_processAbsolute_other _ _ _ _ (by simp [htype]) (by simp [htype]) (by simp [htype])]
    exact ⟨List.forall_mem_nil _,hfound⟩
  | other n =>
    rw [reliably_processAbsolute_other _ _ _ _ (by simp [htype]) (by simp [htype]) (by simp [htype])]
    exact ⟨List.forall_mem_nil _,hfound⟩

/-- The frames of a segment pay what they owe: the pointer on both axes, the wheel on one. -/
theorem movementFrame_pays {mode : FrameMode} {a : TouchAxis} (ev : InputEvent)
    (hev : ev.eventType = .synchronization) (haxis : mode = .scroll → a = .y)
    (hfits : mode.Fits w.touchFingers)
    (hrange : InRange ((daemonMeter cfg mode a).total (mode.gain cfg.pointerAcceleration) w)) :
    (daemonMeter cfg mode a).emitted i ((reliably (movementFrame cfg) w).2 ++ accepted ev) =
        roundHalfAway ((daemonMeter cfg mode a).total (mode.gain cfg.pointerAcceleration) w) ∧
      (daemonMeter cfg mode a).remainder (reliably (movementFrame cfg) w).1 =
        (daemonMeter cfg mode a).total (mode.gain cfg.pointerAcceleration) w -
          roundHalfAway ((daemonMeter cfg mode a).total (mode.gain cfg.pointerAcceleration) w) := by
  have hround := roundToI32_of_inRange hrange
  have hsyn : ∀ code, relSum code (accepted ev) = 0 := fun code => (forwarded_syn hev code).1
  have hrel : ∀ code code' value, relSum code (relAccepted code' value) =
      if code = code' then value else 0 := relSum_relWrites
  rw [← hround,reliably_movementFrame]
  dsimp only
  cases mode with
  | pointer =>
    have htotal : ∀ (d : ℤ) (r : ℚ), F32.ofI32 d * hardwareScale * cfg.pointerAcceleration + r =
        FrameMode.gain cfg.pointerAcceleration .pointer * d + r :=
      fun d r => pointer_total cfg.pointerAcceleration r d
    rw [if_pos (show w.touchFingers ≤ 1 from hfits),reliably_motionFrame]
    simp only [htotal]
    constructor
    · change ((relSum _ (_ ++ _ ++ accepted ev) : ℤ) : ℚ) = _
      rw [relSum_append,relSum_append,hrel,hrel,hsyn]
      cases a
      · rw [if_pos (by decide),if_neg (by decide),add_zero,add_zero]
        rfl
      · rw [if_neg (by decide),if_pos (by decide),zero_add,add_zero]
        rfl
    · cases a <;> rfl
  | scroll =>
    obtain rfl := haxis rfl
    have htwo : w.touchFingers = 2 := hfits
    have htotal : ∀ (d : ℤ) (r : ℚ), F32.ofI32 d * wheelScale + r =
        FrameMode.gain cfg.pointerAcceleration .scroll * d + r :=
      fun d r => scroll_total cfg.pointerAcceleration r d
    rw [if_neg (by omega),if_pos htwo,reliably_scrollFrame]
    simp only [htotal]
    refine ⟨?_,rfl⟩
    change ((unsigned cfg.naturalScrolling (relSum _ (_ ++ accepted ev)) : ℤ) : ℚ) = _
    rw [relSum_append,hsyn,add_zero,
      show (daemonMeter cfg .scroll .y).total (FrameMode.gain cfg.pointerAcceleration .scroll) w =
        FrameMode.gain cfg.pointerAcceleration .scroll * w.currentDy + w.remainderY from rfl]
    refine congrArg Int.cast (Eq.trans ?_ (unsigned_sign cfg.naturalScrolling _))
    apply congrArg (unsigned cfg.naturalScrolling)
    by_cases hemit : F32.roundToI32 (FrameMode.gain cfg.pointerAcceleration .scroll * w.currentDy +
        w.remainderY) = 0
    · rw [if_neg (not_not.mpr hemit),hemit]
      cases cfg.naturalScrolling <;> rfl
    · rw [if_pos hemit]
      exact relSum_accepted _ _

end DeviceWrapper

variable {cfg : InputConfig ℚ} {mode : FrameMode} {a : TouchAxis} {w : DeviceWrapper ℚ}
  {i : WrapperInput}

/-- Every event of a segment pays what it owes. -/
theorem DaemonSegment.pays (h : DaemonSegment cfg mode a w i) (habs : w.isAbsolute = true)
    (haxis : mode = .scroll → a = .y) :
    (daemonMeter cfg mode a).Pays (mode.gain cfg.pointerAcceleration) w i := by
  have hzero : ∀ writes, (∀ x ∈ writes, x.ev.eventType ≠ .relative) →
      (daemonMeter cfg mode a).emitted i writes = 0 := by
    intro writes hwrites
    have hsum : relSum (mode.relCode a) writes = 0 := relSum_eq_zero hwrites
    cases mode with
    | pointer => exact congrArg Int.cast hsum
    | scroll =>
      refine congrArg Int.cast (show unsigned _ (relSum _ writes) = 0 from ?_)
      rw [hsum]
      cases cfg.naturalScrolling <;> rfl
  constructor
  · intro hreport hmoved
    have hstep := DeviceWrapper.eventStep_syn habs h.awake hreport.1
    rw [if_pos ⟨hreport.2,hmoved⟩] at hstep
    have hpays := DeviceWrapper.movementFrame_pays (i := i) i.te.ev hreport.1 haxis
      (h.fits hreport hmoved) (h.range hreport hmoved)
    rw [show (daemonMeter cfg mode a).step w i = _ from hstep]
    exact hpays
  · by_cases hmoved : w.currentDx ≠ 0 ∨ w.currentDy ≠ 0
    · exact .inl hmoved
    · rw [not_or,not_not,not_not] at hmoved
      refine .inr ?_
      cases a
      · exact hmoved.1
      · exact hmoved.2
  · intro hstill
    by_cases hsyn : i.te.ev.eventType = .synchronization
    · have hstep := DeviceWrapper.eventStep_syn habs h.awake hsyn
      rw [if_neg fun hframe => hstill ⟨⟨hsyn,hframe.1⟩,hframe.2⟩] at hstep
      rw [show (daemonMeter cfg mode a).step w i = _ from hstep]
      exact ⟨hzero _ (accepted_ne_relative (by simp [hsyn])),rfl⟩
    · obtain ⟨hwrites,hrem⟩ := DeviceWrapper.eventStep_still (i := i) habs h.awake hsyn
      simp only [DeviceWrapper.remainders,Prod.mk.injEq] at hrem
      refine ⟨hzero _ hwrites,?_⟩
      change a.select (w.eventStep cfg i).1.remainderX (w.eventStep cfg i).1.remainderY = _
      rw [hrem.1,hrem.2]
      rfl

end Daemon

/-- Over any segment of one mode no motion is lost or counted twice on either axis in the library,
nor in the daemon on the axes that it emits. -/
theorem motion_conserved (mode : FrameMode) (accel : ℚ) (a : TouchAxis) (td : TrackedDevice ℚ ℚ)
    (inputs : List (TouchInput ℚ))
    (hinputs : AtEach (fun before i => LibrarySegment mode accel a
      ((libraryMeter mode a).after td before) i) inputs)
    (cfg : InputConfig ℚ) (b : TouchAxis) (w : DeviceWrapper ℚ) (habs : w.isAbsolute = true)
    (haxis : mode = .scroll → b = .y) (events : List WrapperInput)
    (hevents : AtEach (fun before i => DaemonSegment cfg mode b
      ((daemonMeter cfg mode b).after w before) i) events) :
    (libraryMeter mode a).Conserves (mode.gain accel) td inputs ∧
      (daemonMeter cfg mode b).Conserves (mode.gain cfg.pointerAcceleration) w events := by
  constructor
  · exact Meter.conserves_of_pays fun before i back heq => (hinputs before i back heq).pays
  · refine Meter.conserves_of_pays fun before i back heq => ?_
    have hkeep : ((daemonMeter cfg mode b).after w before).isAbsolute = true :=
      run_invariant _ (fun w => w.isAbsolute = true)
        (fun w i _ hw => (DeviceWrapper.eventStep_isAbsolute cfg w i).trans hw) habs
    exact (hevents before i back heq).pays hkeep haxis

/-- A finger that moves ten units to the right in one frame. -/
theorem ten_units_conserved :
    let events : List InputEvent := [⟨1,.absolute,AbsoluteAxisCode.absX,0⟩,
      ⟨2,.absolute,AbsoluteAxisCode.absX,10⟩,⟨3,.synchronization,0,0⟩]
    (libraryMeter .pointer .x).Conserves (FrameMode.gain 1 .pointer)
        (.new plainTouchpad "/dev/input/event5" 0) (events.map fun ev => ⟨⟨ev,0⟩,true,true,1,false⟩) ∧
      (daemonMeter .default .pointer .x).Conserves (FrameMode.gain 1.0 .pointer)
        (.new ⟨plainTouchpad,5,true⟩ "/dev/input/event5") (events.map fun ev => ⟨⟨ev,0⟩,none⟩) :=
  motion_conserved .pointer 1 .x _ _
    (atEach_cons.mpr ⟨by decide +kernel,atEach_cons.mpr ⟨by decide +kernel,
      atEach_singleton.mpr (by decide +kernel)⟩⟩) .default .x _ rfl nofun _
    (atEach_cons.mpr ⟨by decide +kernel,atEach_cons.mpr ⟨by decide +kernel,
      atEach_singleton.mpr (by decide +kernel)⟩⟩)

end LibinputRs
