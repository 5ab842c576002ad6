import LibinputRs.Automata.Symmetry
import LibinputRs.Library.Buttons
import LibinputRs.Pipeline.Conservation
import Mathlib.Data.Int.Order.Units

/-! Reflections of a touchpad's axes and translations that change with each touch. Nothing that the
library keeps of a touch depends on where on the pad it is or on which way it moves, so the image of
a stream is answered with the image of the answer. -/
namespace LibinputRs
open Automata

/-- A sign for each axis, and for each stretch between two `BTN_TOUCH` events a translation. -/
structure PadMap where
  signX : ℤˣ
  signY : ℤˣ
  shiftX : ℕ → ℤ
  shiftY : ℕ → ℤ

section Signs
variable (s : ℤˣ)

/-- A signed rational. -/
def signed (q : ℚ) : ℚ := ((s : ℤ) : ℚ) * q

@[simp] theorem signed_zero : signed s 0 = 0 := mul_zero _

@[simp] theorem signed_intCast (z : ℤ) : signed s z = ((s*z : ℤ) : ℚ) := (Int.cast_mul _ _).symm

theorem signed_ofI32 (z : ℤ) : signed s (F64.ofI32 z) = F64.ofI32 (s*z) := signed_intCast s z

theorem signed_add (p q : ℚ) : signed s (p + q) = signed s p + signed s q := mul_add _ _ _

theorem signed_sub (p q : ℚ) : signed s (p - q) = signed s p - signed s q := mul_sub _ _ _

theorem signed_mul (p q : ℚ) : signed s (p * q) = signed s p * q := (mul_assoc _ _ _).symm

@[simp] theorem sign_mul_eq_zero {z : ℤ} : (s : ℤ) * z = 0 ↔ z = 0 := by
  rcases Int.units_eq_one_or s with rfl | rfl <;> simp

/-- Halves are rounded away from zero on both sides. -/
theorem roundHalfAway_signed (q : ℚ) : roundHalfAway (signed s q) = s * roundHalfAway q := by
  rcases Int.units_eq_one_or s with rfl | rfl
  · simp [signed]
  · have hneg : signed (-1) q = -q := by simp [signed]
    rw [hneg,Units.val_neg,Units.val_one,neg_one_mul]
    unfold roundHalfAway
    rcases lt_trichotomy q 0 with hq | rfl | hq
    · rw [if_pos (by linarith),if_neg (not_le.mpr hq),neg_neg]
    · have hhalf : ⌊(2⁻¹ : ℚ)⌋ = 0 := Int.floor_eq_zero_iff.mpr ⟨by norm_num,by norm_num⟩
      simp [hhalf]
    · rw [if_neg (by linarith),if_pos hq.le,neg_neg]

/-- Rounding commutes with the sign as long as it does not saturate. -/
theorem roundToI32_signed {q : ℚ} (h : InRange q) (h' : InRange (signed s q)) :
    F32.roundToI32 (signed s q) = s * F32.roundToI32 q := by
  rw [roundToI32_of_inRange h,roundToI32_of_inRange h',roundHalfAway_signed]

theorem fitsI32_roundToI32 {q : ℚ} (h : InRange q) : FitsI32 (F32.roundToI32 q) := by
  rw [roundToI32_of_inRange h]
  exact h

/-- What an axis rounds in the image is the image of what it rounds. -/
theorem axis_total (gain r : ℚ) (d : ℤ) :
    gain*((s*d : ℤ) : ℚ) + signed s r = signed s (gain*d + r) := by
  rw [signed_add,← signed_intCast,mul_comm,← signed_mul,mul_comm]

/-- The sign of natural scrolling commutes with that of the axis. -/
theorem naturalSign_signed (cfgNat : Bool) {z : ℤ} (h : FitsI32 z) (h' : FitsI32 (s*z)) :
    (if cfgNat then i32Wrap (-(s*z)) else s*z) = s * if cfgNat then i32Wrap (-z) else z := by
  rcases Int.units_eq_one_or s with rfl | rfl
  · simp
  · rw [Units.val_neg,Units.val_one,neg_one_mul] at *
    cases cfgNat with
    | false => simp
    | true => rw [if_pos rfl,if_pos rfl,neg_neg,i32Wrap_of_fits h,i32Wrap_of_fits h',neg_one_mul,
        neg_neg]

end Signs

section Sums

/-- What an `i32` sum goes through when a coordinate is added to a displacement. -/
def sums (current : ℤ) (previous : Option ℤ) (val : ℤ) : List ℤ :=
  match previous with
  | some p => [val - p,current + (val - p)]
  | none => []

/-- The displacement of the image: the translation is the same at both ends of a difference. -/
theorem accumulate_image (s : ℤˣ) (c : ℤ) {current val : ℤ} {previous : Option ℤ}
    (h : ∀ z ∈ sums current previous val, FitsI32 z)
    (h' : ∀ z ∈ sums (s*current) (previous.map (s*· + c)) (s*val + c), FitsI32 z) :
    TrackedDevice.accumulate (s*current) (previous.map (s*· + c)) (s*val + c) =
      s * TrackedDevice.accumulate current previous val := by
  have hexact : ∀ {current val p : ℤ}, (∀ z ∈ sums current (some p) val, FitsI32 z) →
      TrackedDevice.accumulate current (some p) val = current + (val - p) := by
    intro current val p h
    change i32Wrap (current + i32Wrap (val - p)) = _
    rw [i32Wrap_of_fits (h (val - p) (by simp [sums])),
      i32Wrap_of_fits (h (current + (val - p)) (by simp [sums]))]
  cases previous with
  | none => rfl
  | some p =>
    rw [Option.map_some,hexact h']
    rw [hexact h]
    ring

/-- So is that after a stall, which drops the coordinate on both sides. -/
theorem stalled_image (s : ℤˣ) (c : ℤ) {current val : ℤ} {previous : Option ℤ} {stalled : Bool}
    (h : ∀ z ∈ sums current (if stalled then none else previous) val, FitsI32 z)
    (h' : ∀ z ∈ sums (s*current) (if stalled then none else previous.map (s*· + c)) (s*val + c),
      FitsI32 z) :
    TrackedDevice.accumulate (s*current) (if stalled then none else previous.map (s*· + c))
        (s*val + c) =
      s * TrackedDevice.accumulate current (if stalled then none else previous) val := by
  cases stalled with
  | true => rfl
  | false => exact accumulate_image s c h h'

end Sums

theorem InputEvent.AxisWith.not_y {ev : InputEvent} (h : ev.AxisWith AbsoluteAxisCode.absX) :
    ¬ ev.AxisWith AbsoluteAxisCode.absY := fun hy => absurd (h.2.symm.trans hy.2) (by decide)

/-- The mode that a number of fingers has. -/
def FrameMode.of (n : ℕ) : Option FrameMode :=
  if n ≤ 1 then some .pointer else if n = 2 then some .scroll else none

theorem FrameMode.of_fits {mode : FrameMode} {n : ℕ} (h : mode.Fits n) :
    FrameMode.of n = some mode := by
  cases mode with
  | pointer => exact if_pos h
  | scroll =>
    obtain rfl : n = 2 := h
    rfl

namespace PadMap
variable (m : PadMap)

def sign (a : TouchAxis) : ℤˣ := a.select m.signX m.signY

def pointX (k : ℕ) (x : ℤ) : ℤ := m.signX*x + m.shiftX k

def pointY (k : ℕ) (y : ℤ) : ℤ := m.signY*y + m.shiftY k

/-- The image of a kernel event in a stretch. -/
def input (k : ℕ) (ev : InputEvent) : InputEvent :=
  if ev.AxisWith AbsoluteAxisCode.absX then { ev with value := m.pointX k ev.value }
  else if ev.AxisWith AbsoluteAxisCode.absY then { ev with value := m.pointY k ev.value }
  else ev

def timed (k : ℕ) (te : TimedEvent) : TimedEvent := { te with ev := m.input k te.ev }

/-- The stretch after an event: every `BTN_TOUCH` begins a new one. -/
def stretch (k : ℕ) (ev : InputEvent) : ℕ := if ev.KeyWith KeyCode.btnTouch then k + 1 else k

/-- The image of a queued event: what it tells about an axis is reflected with it. -/
def event (e : LibinputEvent ℚ) : LibinputEvent ℚ :=
  match e.payload with
  | .pointerMotion p => { e with payload := .pointerMotion { p with
      dx := signed m.signX p.dx
      dy := signed m.signY p.dy
      dxUnaccel := signed m.signX p.dxUnaccel
      dyUnaccel := signed m.signY p.dyUnaccel } }
  | .pointerAxis p =>
    let sign := if p.axis = TouchAxis.x.scrollAxis then m.signX else m.signY
    { e with payload := .pointerAxis { p with
        value := signed sign p.value
        valueDiscrete := sign*p.valueDiscrete } }
  | .gestureSwipeUpdate g => { e with payload := .gestureSwipeUpdate { g with
      dx := signed m.signX g.dx
      dy := signed m.signY g.dy } }
  | _ => e

/-- The image of a device in a stretch. -/
def device (k : ℕ) (td : TrackedDevice ℚ ℚ) : TrackedDevice ℚ ℚ :=
  { td with
    lastX := td.lastX.map (m.pointX k)
    lastY := td.lastY.map (m.pointY k)
    currentDx := m.signX*td.currentDx
    currentDy := m.signY*td.currentDy
    remainderX := signed m.signX td.remainderX
    remainderY := signed m.signY td.remainderY }

/-- The image of the library on one touchpad. -/
def library : Relabeling (TrackedDevice ℚ ℚ) (TouchInput ℚ) (LibinputEvent ℚ) ℕ where
  state := m.device
  input k i := { i with te := m.timed k i.te }
  output := m.event
  next k i := stretch k i.te.ev

@[simp] theorem input_eventType (k : ℕ) (ev : InputEvent) :
    (m.input k ev).eventType = ev.eventType := by
  unfold input
  split_ifs <;> rfl

@[simp] theorem input_code (k : ℕ) (ev : InputEvent) : (m.input k ev).code = ev.code := by
  unfold input
  split_ifs <;> rfl

theorem axisWith_timed {k code : ℕ} {te : TimedEvent} :
    (m.timed k te).ev.AxisWith code ↔ te.ev.AxisWith code := by
  simp [timed,InputEvent.AxisWith]

/-- Only the two positions are changed. -/
theorem timed_of_other {k : ℕ} {te : TimedEvent} (hx : ¬ te.ev.AxisWith AbsoluteAxisCode.absX)
    (hy : ¬ te.ev.AxisWith AbsoluteAxisCode.absY) : m.timed k te = te := by
  unfold timed input
  rw [if_neg hx,if_neg hy]

theorem timed_x {k : ℕ} {te : TimedEvent} (hx : te.ev.AxisWith AbsoluteAxisCode.absX) :
    m.timed k te = ⟨{ te.ev with value := m.pointX k te.ev.value },te.now⟩ := by
  unfold timed input
  rw [if_pos hx]

theorem timed_y {k : ℕ} {te : TimedEvent} (hy : te.ev.AxisWith AbsoluteAxisCode.absY) :
    m.timed k te = ⟨{ te.ev with value := m.pointY k te.ev.value },te.now⟩ := by
  unfold timed input
  rw [if_neg fun hx => hx.not_y hy,if_pos hy]

theorem stretch_of_ne {k : ℕ} {ev : InputEvent} (h : ¬ ev.KeyWith KeyCode.btnTouch) :
    stretch k ev = k := if_neg h

end PadMap

namespace TrackedDevice
variable {m : PadMap} {td : TrackedDevice ℚ ℚ}

/-- The sums that a position event makes. -/
def summed (td : TrackedDevice ℚ ℚ) (te : TimedEvent) : List ℤ :=
  if te.ev.AxisWith AbsoluteAxisCode.absX then
    sums td.currentDx (if td.stalled te.now then none else td.lastX) te.ev.value
  else if te.ev.AxisWith AbsoluteAxisCode.absY then
    sums td.currentDy (if td.stalled te.now then none else td.lastY) te.ev.value
  else []

/-- The numbers that the end of a frame rounds. -/
def rounded (td : TrackedDevice ℚ ℚ) (i : TouchInput ℚ) : List ℚ :=
  if i.te.ev.IsReport ∧ i.dwtActive = false ∧ td.pinchActive = false ∧
      (td.currentDx ≠ 0 ∨ td.currentDy ≠ 0) then
    match FrameMode.of (max td.activeSlotCount td.touchFingers) with
    | some mode => [(libraryMeter mode .x).total (mode.gain i.cfgAccel) td,
        (libraryMeter mode .y).total (mode.gain i.cfgAccel) td]
    | none => []
  else []

/-- No `i32` sum of the event overflows, and no rounding saturates. -/
def NoOverflow (td : TrackedDevice ℚ ℚ) (i : TouchInput ℚ) : Prop :=
  (∀ z ∈ td.summed i.te,FitsI32 z) ∧ ∀ q ∈ td.rounded i,InRange q

instance (td : TrackedDevice ℚ ℚ) (i : TouchInput ℚ) : Decidable (td.NoOverflow i) :=
  inferInstanceAs (Decidable (_ ∧ _))

/-- The device with a finger down, before a pinch is looked for. -/
def landed (te : TimedEvent) (td : TrackedDevice ℚ ℚ) : TrackedDevice ℚ ℚ :=
  { td with
    touchActive := true
    touchStartTime := some te.now
    tapEmitted := false
    touchFingers := max td.activeSlotCount 1
    lastX := none
    lastY := none }

/-- The base distance of the pinch that a touch-down opens. -/
def opening (td : TrackedDevice ℚ ℚ) : Option ℚ :=
  if 2 ≤ max td.activeSlotCount 1 ∧ td.pinchActive = false then td.primarySlotDistance else none

theorem touchDown_landed (te : TimedEvent) (td : TrackedDevice ℚ ℚ) : td.touchDown te =
    td.opening.elim (td.landed te,[]) fun dist =>
      ({ td.landed te with
          pinchActive := true
          pinchBaseDist := dist
          pinchBaseAngle := (td.landed te).primarySlotAngle
          pinchFingers := (td.landed te).touchFingers },
        [.pinchBegin td.libDevice (systimeToUsec te.ev.time) (td.landed te).touchFingers]) := by
  unfold touchDown opening
  dsimp only
  split_ifs
  · split <;> rename_i hdist
    · rw [show td.primarySlotDistance = some _ from hdist]
      rfl
    · rw [show td.primarySlotDistance = none from hdist]
      rfl
  · rfl

/-- A touch-down forgets where the last touch was, so the translation may change there. -/
theorem touchDown_image (te : TimedEvent) (k n : ℕ) : (m.device k td).touchDown te =
    (m.device n (td.touchDown te).1,(td.touchDown te).2.map m.event) := by
  have hopening : (m.device k td).opening = td.opening := rfl
  rw [touchDown_landed,touchDown_landed,hopening]
  cases td.opening <;> rfl

/-- So does a lift. -/
theorem touchUp_image (te : TimedEvent) (cfgTap dwt : Bool) (k n : ℕ) :
    (m.device k td).touchUp te cfgTap dwt =
      (m.device n (td.touchUp te cfgTap dwt).1,(td.touchUp te cfgTap dwt).2.map m.event) := by
  have hends : (td.liftPinch te).map m.event = td.liftPinch te := by
    unfold liftPinch
    split_ifs <;> rfl
  refine Prod.ext ?_ ?_
  · simp [touchUp,PadMap.device]
  · change td.liftPinch te ++ (if td.isTap te.now cfgTap dwt then _ else _) =
      List.map m.event (td.liftPinch te ++ if td.isTap te.now cfgTap dwt then _ else _)
    rw [List.map_append,hends]
    split_ifs <;> rfl

theorem physicalClick_image (te : TimedEvent) (k : ℕ) : (m.device k td).physicalClick te =
    (m.device k (td.physicalClick te).1,(td.physicalClick te).2.map m.event) := by
  rw [TrackedDevice.physicalClick_commutes (m.device k) (fun _ => ⟨rfl,rfl,rfl⟩) (fun _ _ => rfl)]
  refine Prod.ext rfl ?_
  unfold physicalClick
  dsimp only
  split_ifs <;> rfl

theorem processAbsoluteKey_image (te : TimedEvent) (cfgTap dwt : Bool) (k : ℕ)
    : (m.device k td).processAbsoluteKey te cfgTap dwt =
      (m.device (PadMap.stretch k te.ev) (td.processAbsoluteKey te cfgTap dwt).1,
        (td.processAbsoluteKey te cfgTap dwt).2.map m.event) := by
  unfold processAbsoluteKey
  dsimp only
  by_cases htouch : te.ev.code = KeyCode.btnTouch
  · rw [if_pos htouch,if_pos htouch]
    split_ifs
    · exact touchDown_image te k _
    · exact touchUp_image te cfgTap dwt k _
  · rw [if_neg htouch,if_neg htouch,PadMap.stretch_of_ne fun h => htouch h.2]
    split_ifs
    all_goals first
      | rfl
      | exact physicalClick_image te k

theorem summed_x {te : TimedEvent} (hx : te.ev.AxisWith AbsoluteAxisCode.absX) : td.summed te =
    sums td.currentDx (if td.stalled te.now then none else td.lastX) te.ev.value := if_pos hx

theorem summed_y {te : TimedEvent} (hy : te.ev.AxisWith AbsoluteAxisCode.absY) : td.summed te =
    sums td.currentDy (if td.stalled te.now then none else td.lastY) te.ev.value := by
  rw [summed,if_neg fun hx => hx.not_y hy,if_pos hy]

theorem positionX_image (te : TimedEvent) (k : ℕ) (hx : te.ev.AxisWith AbsoluteAxisCode.absX)
    (h : ∀ z ∈ td.summed te,FitsI32 z) (h' : ∀ z ∈ (m.device k td).summed (m.timed k te),FitsI32 z) :
    (m.device k td).positionX (m.timed k te) = m.device k (td.positionX te) := by
  rw [summed_x hx] at h
  rw [summed_x (m.axisWith_timed.mpr hx),m.timed_x hx] at h'
  have hsum := stalled_image m.signX (m.shiftX k) h h'
  rw [m.timed_x hx]
  exact congrArg (fun z => ({ m.device k td with
    lastMovementTime := some te.now
    currentDx := z
    lastX := some (m.pointX k te.ev.value) } : TrackedDevice ℚ ℚ)) hsum

theorem positionY_image (te : TimedEvent) (k : ℕ) (hy : te.ev.AxisWith AbsoluteAxisCode.absY)
    (h : ∀ z ∈ td.summed te,FitsI32 z) (h' : ∀ z ∈ (m.device k td).summed (m.timed k te),FitsI32 z) :
    (m.device k td).positionY (m.timed k te) = m.device k (td.positionY te) := by
  rw [summed_y hy] at h
  rw [summed_y (m.axisWith_timed.mpr hy),m.timed_y hy] at h'
  have hsum := stalled_image m.signY (m.shiftY k) h h'
  rw [m.timed_y hy]
  exact congrArg (fun z => ({ m.device k td with
    lastMovementTime := some te.now
    currentDy := z
    lastY := some (m.pointY k te.ev.value) } : TrackedDevice ℚ ℚ)) hsum

theorem processAbsoluteAxis_image (te : TimedEvent) (k : ℕ) (habs : te.ev.eventType = .absolute)
    (h : ∀ z ∈ td.summed te,FitsI32 z) (h' : ∀ z ∈ (m.device k td).summed (m.timed k te),FitsI32 z) :
    (m.device k td).processAbsoluteAxis (m.timed k te) = m.device k (td.processAbsoluteAxis te) := by
  by_cases hx : te.ev.AxisWith AbsoluteAxisCode.absX
  · rw [processAbsoluteAxis_x _ hx,processAbsoluteAxis_x _ (m.axisWith_timed.mpr hx)]
    exact positionX_image te k hx h h'
  · by_cases hy : te.ev.AxisWith AbsoluteAxisCode.absY
    · rw [processAbsoluteAxis_y _ hy,processAbsoluteAxis_y _ (m.axisWith_timed.mpr hy)]
      exact positionY_image te k hy h h'
    · have hslots : (m.device k td).mtSlots = td.mtSlots := rfl
      have hcodeX : te.ev.code ≠ AbsoluteAxisCode.absX := fun hcode => hx ⟨habs,hcode⟩
      have hcodeY : te.ev.code ≠ AbsoluteAxisCode.absY := fun hcode => hy ⟨habs,hcode⟩
      rw [m.timed_of_other hx hy]
      unfold processAbsoluteAxis
      dsimp only
      rw [hslots]
      split_ifs <;> rfl

theorem pinchFrame_image (te : TimedEvent) (k : ℕ) : (m.device k td).pinchFrame te =
    (m.device k (td.pinchFrame te).1,(td.pinchFrame te).2.map m.event) := by
  have hdist : (m.device k td).primarySlotDistance = td.primarySlotDistance := rfl
  refine Prod.ext ?_ ?_
  · simp [pinchFrame,PadMap.device]
  · unfold pinchFrame
    dsimp only
    rw [hdist]
    cases td.primarySlotDistance <;> rfl

theorem total_image (mode : FrameMode) (a : TouchAxis) (gain : ℚ) (k : ℕ) :
    (libraryMeter mode a).total gain (m.device k td) =
      signed (m.sign a) ((libraryMeter mode a).total gain td) := by
  cases a
  · exact axis_total m.signX gain td.remainderX td.currentDx
  · exact axis_total m.signY gain td.remainderY td.currentDy

theorem round_image {mode : FrameMode} {a : TouchAxis} {gain : ℚ} {k : ℕ}
    (h : InRange ((libraryMeter mode a).total gain td))
    (h' : InRange ((libraryMeter mode a).total gain (m.device k td))) :
    F32.roundToI32 ((libraryMeter mode a).total gain (m.device k td)) =
      m.sign a * F32.roundToI32 ((libraryMeter mode a).total gain td) := by
  rw [total_image] at h' ⊢
  exact roundToI32_signed (m.sign a) h h'

theorem motionFrame_totals (te : TimedEvent) (accel : ℚ) (td : TrackedDevice ℚ ℚ) :
    td.motionFrame te accel =
      let totalX := (libraryMeter .pointer .x).total (FrameMode.gain accel .pointer) td
      let totalY := (libraryMeter .pointer .y).total (FrameMode.gain accel .pointer) td
      ({ td with
          remainderX := totalX - F32.roundToI32 totalX
          remainderY := totalY - F32.roundToI32 totalY },
        if F32.roundToI32 totalX ≠ 0 ∨ F32.roundToI32 totalY ≠ 0 then
          [⟨.pointerMotion,.pointerMotion ⟨systimeToUsec te.ev.time,F32.roundToI32 totalX,
            F32.roundToI32 totalY,(td.currentDx : ℚ)*0.18,(td.currentDy : ℚ)*0.18⟩,td.libDevice⟩]
        else []) := by
  unfold motionFrame
  simp only [pointer_total accel]
  rfl

theorem motionFrame_image (te : TimedEvent) (accel : ℚ) (k : ℕ)
    (h : ∀ a,InRange ((libraryMeter .pointer a).total (FrameMode.gain accel .pointer) td))
    (h' : ∀ a,InRange ((libraryMeter .pointer a).total (FrameMode.gain accel .pointer)
      (m.device k td))) : (m.device k td).motionFrame te accel =
    (m.device k (td.motionFrame te accel).1,(td.motionFrame te accel).2.map m.event) := by
  have hround := fun a => round_image (h a) (h' a)
  rw [motionFrame_totals,motionFrame_totals]
  dsimp only
  rw [hround,hround,total_image,total_image]
  simp only [ne_eq,sign_mul_eq_zero]
  refine Prod.ext ?_ ?_
  · dsimp only [PadMap.device]
    rw [← signed_intCast,← signed_sub,← signed_intCast,← signed_sub]
    rfl
  · split_ifs
    · simp only [List.map_singleton,PadMap.event,signed_intCast,signed_mul]
      rfl
    · rfl

theorem scrollAxis_image (te : TimedEvent) (cfgNat : Bool) (a : TouchAxis) (k : ℕ) {emit : ℤ}
    (h : FitsI32 emit) (h' : FitsI32 (m.sign a * emit)) :
    (m.device k td).scrollAxis te cfgNat a.scrollAxis (m.sign a * emit) =
      (td.scrollAxis te cfgNat a.scrollAxis emit).map m.event := by
  have hsign : (if a.scrollAxis = TouchAxis.x.scrollAxis then m.signX else m.signY) = m.sign a := by
    cases a <;> rfl
  unfold scrollAxis
  rw [naturalSign_signed (m.sign a) cfgNat h h']
  simp only [ne_eq,sign_mul_eq_zero]
  split_ifs
  all_goals first
    | rfl
    | simp only [List.map_singleton,PadMap.event,LibinputEvent.scroll,hsign,signed_mul,signed_ofI32]
      rfl

theorem scrollFrame_totals (te : TimedEvent) (cfgNat : Bool) (accel : ℚ) (td : TrackedDevice ℚ ℚ) :
    td.scrollFrame te cfgNat =
      let totalY := (libraryMeter .scroll .y).total (FrameMode.gain accel .scroll) td
      let totalX := (libraryMeter .scroll .x).total (FrameMode.gain accel .scroll) td
      ({ td with
          remainderY := totalY - F32.roundToI32 totalY
          remainderX := totalX - F32.roundToI32 totalX },
        td.scrollAxis te cfgNat TouchAxis.y.scrollAxis (F32.roundToI32 totalY) ++
          td.scrollAxis te cfgNat TouchAxis.x.scrollAxis (F32.roundToI32 totalX)) := by
  unfold scrollFrame
  simp only [scroll_total accel]
  rfl

theorem scrollFrame_image (te : TimedEvent) (cfgNat : Bool) (accel : ℚ) (k : ℕ)
    (h : ∀ a,InRange ((libraryMeter .scroll a).total (FrameMode.gain accel .scroll) td))
    (h' : ∀ a,InRange ((libraryMeter .scroll a).total (FrameMode.gain accel .scroll)
      (m.device k td))) : (m.device k td).scrollFrame te cfgNat =
    (m.device k (td.scrollFrame te cfgNat).1,(td.scrollFrame te cfgNat).2.map m.event) := by
  have hround := fun a => round_image (h a) (h' a)
  have hfits := fun a => fitsI32_roundToI32 (h a)
  have hfits' : ∀ a,FitsI32 (m.sign a * F32.roundToI32 ((libraryMeter .scroll a).total
      (FrameMode.gain accel .scroll) td)) := fun a => hround a ▸ fitsI32_roundToI32 (h' a)
  rw [scrollFrame_totals _ _ accel,scrollFrame_totals _ _ accel]
  dsimp only
  rw [hround,hround,total_image,total_image,List.map_append,
    scrollAxis_image te cfgNat .y k (hfits .y) (hfits' .y),
    scrollAxis_image te cfgNat .x k (hfits .x) (hfits' .x)]
  refine Prod.ext ?_ rfl
  dsimp only [PadMap.device]
  rw [← signed_intCast,← signed_sub,← signed_intCast,← signed_sub]
  rfl

theorem swipeFrame_image (te : TimedEvent) (n k : ℕ) :
    (m.device k td).swipeFrame te n = (td.swipeFrame te n).map m.event := by
  simp only [swipeFrame,List.map_singleton,LibinputEvent.swipeUpdate,LibinputEvent.gesture,
    PadMap.event,signed_mul,signed_ofI32]
  rfl

/-- What is rounded stays in range on both axes, whatever the mode of the frame. -/
def Ranged (td : TrackedDevice ℚ ℚ) (accel : ℚ) : Prop :=
  ∀ mode a,mode.Fits (max td.activeSlotCount td.touchFingers) →
    InRange ((libraryMeter mode a).total (mode.gain accel) td)

theorem movementFrame_image (te : TimedEvent) (cfgNat : Bool) (accel : ℚ) (k : ℕ)
    (h : td.Ranged accel) (h' : (m.device k td).Ranged accel) :
    (m.device k td).movementFrame te cfgNat accel =
      (m.device k (td.movementFrame te cfgNat accel).1,
        (td.movementFrame te cfgNat accel).2.map m.event) := by
  have hframe : ∀ r : TrackedDevice ℚ ℚ × List (LibinputEvent ℚ),
      ({ m.device k r.1 with currentDx := 0, currentDy := 0 } : TrackedDevice ℚ ℚ) =
        m.device k { r.1 with currentDx := 0, currentDy := 0 } := by
    intro r
    simp [PadMap.device]
  let moved : TrackedDevice ℚ ℚ := { td with tapEmitted := true }
  have hbody : (if max moved.activeSlotCount moved.touchFingers ≤ 1 then
      (m.device k moved).motionFrame te accel
      else if max moved.activeSlotCount moved.touchFingers = 2 then
        (m.device k moved).scrollFrame te cfgNat
      else (m.device k moved,(m.device k moved).swipeFrame te
        (max moved.activeSlotCount moved.touchFingers))) =
    Prod.map (m.device k) (List.map m.event)
      (if max moved.activeSlotCount moved.touchFingers ≤ 1 then moved.motionFrame te accel
      else if max moved.activeSlotCount moved.touchFingers = 2 then moved.scrollFrame te cfgNat
      else (moved,moved.swipeFrame te (max moved.activeSlotCount moved.touchFingers))) := by
    split_ifs with hone htwo
    · exact motionFrame_image te accel k (fun a => h .pointer a hone) fun a => h' .pointer a hone
    · exact scrollFrame_image te cfgNat accel k (fun a => h .scroll a htwo)
        fun a => h' .scroll a htwo
    · rw [swipeFrame_image]
      rfl
  have hclear := congrArg (fun r : TrackedDevice ℚ ℚ × List (LibinputEvent ℚ) =>
    (({ r.1 with currentDx := 0, currentDy := 0 } : TrackedDevice ℚ ℚ),r.2)) hbody
  exact hclear.trans (Prod.ext (hframe _) rfl)

/-- The range conditions of an event are those of the frame that it ends. -/
theorem NoOverflow.ranged {i : TouchInput ℚ} (h : td.NoOverflow i) (hreport : i.te.ev.IsReport)
    (hawake : i.dwtActive = false) (hclosed : td.pinchActive = false)
    (hmoved : td.currentDx ≠ 0 ∨ td.currentDy ≠ 0) : td.Ranged i.cfgAccel := by
  intro mode a hfits
  have hranges := h.2
  rw [rounded,if_pos ⟨hreport,hawake,hclosed,hmoved⟩,FrameMode.of_fits hfits] at hranges
  cases a with
  | x => exact hranges _ (by simp)
  | y => exact hranges _ (by simp)

theorem processSyn_image {i : TouchInput ℚ} {k : ℕ} (hsyn : i.te.ev.eventType = .synchronization)
    (h : td.NoOverflow i) (h' : (m.device k td).NoOverflow i) :
    (m.device k td).processSyn i.te i.cfgNat i.cfgAccel i.dwtActive =
      (m.device k (td.processSyn i.te i.cfgNat i.cfgAccel i.dwtActive).1,
        (td.processSyn i.te i.cfgNat i.cfgAccel i.dwtActive).2.map m.event) := by
  have hmoved : ((m.device k td).currentDx ≠ 0 ∨ (m.device k td).currentDy ≠ 0) ↔
      (td.currentDx ≠ 0 ∨ td.currentDy ≠ 0) := by
    simp [PadMap.device]
  have hpinch : (m.device k td).pinchActive = td.pinchActive := rfl
  unfold processSyn
  simp only [hmoved,hpinch]
  split_ifs with hcode hopen hdwt hdx
  · rfl
  · exact pinchFrame_image i.te k
  · have hzero : ∀ s : ℤˣ,signed s 0.0 = 0.0 := fun s => by norm_num
    simp [PadMap.device,hzero]
  · have hreport : i.te.ev.IsReport := ⟨hsyn,not_not.mp hcode⟩
    have hawake : i.dwtActive = false := Bool.eq_false_iff.mpr hdwt
    have hclosed : td.pinchActive = false := by simpa [hawake] using hopen
    exact movementFrame_image i.te i.cfgNat i.cfgAccel k (h.ranged hreport hawake hclosed hdx)
      (h'.ranged hreport hawake hclosed (hmoved.mpr hdx))
  · rfl

/-- The device as the branches find it: in the typing window the touch is no tap. -/
def guarded (dwt : Bool) (td : TrackedDevice ℚ ℚ) : TrackedDevice ℚ ℚ :=
  if dwt then { td with tapEmitted := true } else td

theorem guarded_image (dwt : Bool) (k : ℕ) :
    (m.device k td).guarded dwt = m.device k (td.guarded dwt) := by
  cases dwt <;> rfl

theorem noOverflow_guarded {i : TouchInput ℚ} (dwt : Bool) :
    (td.guarded dwt).NoOverflow i ↔ td.NoOverflow i := by
  cases dwt <;> rfl

theorem touchStep_guardedKey {i : TouchInput ℚ} (h : i.te.ev.eventType = .key) : td.touchStep i =
    (td.guarded i.dwtActive).processAbsoluteKey i.te i.cfgTap i.dwtActive := td.touchStep_key i h

theorem touchStep_guardedAxis {i : TouchInput ℚ} (h : i.te.ev.eventType = .absolute) :
    td.touchStep i = ((td.guarded i.dwtActive).processAbsoluteAxis i.te,[]) :=
  td.touchStep_absolute i h

theorem touchStep_guardedFrame {i : TouchInput ℚ} (h : i.te.ev.eventType = .synchronization) :
    td.touchStep i =
      (td.guarded i.dwtActive).processSyn i.te i.cfgNat i.cfgAccel i.dwtActive :=
  td.touchStep_synchronization i h

theorem touchStep_other {i : TouchInput ℚ} (hkey : i.te.ev.eventType ≠ .key)
    (habs : i.te.ev.eventType ≠ .absolute) (hsyn : i.te.ev.eventType ≠ .synchronization) :
    td.touchStep i = (td.guarded i.dwtActive,[]) := by
  unfold touchStep processAbsoluteEvent guarded
  cases htype : i.te.ev.eventType with
  | key => exact absurd htype hkey
  | absolute => exact absurd htype habs
  | synchronization => exact absurd htype hsyn
  | relative => rfl
  | other n => rfl

/-- Every event of the image does to the image what it does. -/
theorem touchStep_image {i : TouchInput ℚ} {k : ℕ} (h : td.NoOverflow i)
    (h' : (m.device k td).NoOverflow { i with te := m.timed k i.te }) :
    m.library.Commutes touchStep k td i := by
  change (m.device k td).touchStep { i with te := m.timed k i.te } =
    (m.device (PadMap.stretch k i.te.ev) (td.touchStep i).1,(td.touchStep i).2.map m.event)
  rw [← noOverflow_guarded i.dwtActive] at h h'
  rw [guarded_image] at h'
  by_cases habs : i.te.ev.eventType = .absolute
  · have hstretch : PadMap.stretch k i.te.ev = k :=
      PadMap.stretch_of_ne fun hkey => absurd (habs.symm.trans hkey.1) (by simp)
    rw [hstretch,touchStep_guardedAxis habs,
      touchStep_guardedAxis (show (m.timed k i.te).ev.eventType = _ from
        (m.input_eventType k i.te.ev).trans habs)]
    dsimp only
    rw [guarded_image,processAbsoluteAxis_image i.te k habs h.1 h'.1]
    rfl
  · have hte : m.timed k i.te = i.te :=
      m.timed_of_other (fun hx => habs hx.1) fun hy => habs hy.1
    rw [hte] at h' ⊢
    by_cases hkey : i.te.ev.eventType = .key
    · rw [touchStep_guardedKey hkey,touchStep_guardedKey hkey,guarded_image]
      exact processAbsoluteKey_image i.te i.cfgTap i.dwtActive k
    · rw [PadMap.stretch_of_ne fun h => hkey h.1]
      by_cases hsyn : i.te.ev.eventType = .synchronization
      · rw [touchStep_guardedFrame hsyn,touchStep_guardedFrame hsyn,guarded_image]
        exact processSyn_image hsyn h h'
      · rw [touchStep_other hkey habs hsyn,touchStep_other hkey habs hsyn,guarded_image]
        rfl

end TrackedDevice
end LibinputRs
