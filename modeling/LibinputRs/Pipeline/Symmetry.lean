import LibinputRs.Daemon.Outcomes
import LibinputRs.Pipeline.Reflection

/-! The daemon under the same reflections. Its tracking state is forgotten at a touch boundary as
well, except where a refused write cuts the lift short, so here the writes of the taps have to be
accepted. -/
namespace LibinputRs
open Automata

namespace PadMap
variable (m : PadMap)

/-- The sign of what a relative event reports. -/
def relSign (code : ℕ) : ℤˣ :=
  if code = RelativeAxisCode.relX then m.signX
  else if code = RelativeAxisCode.relY ∨ code = RelativeAxisCode.relWheel then m.signY
  else 1

/-- The image of an emitted event: only relative events are changed. -/
def emitted (ev : InputEvent) : InputEvent :=
  if ev.eventType = .relative then { ev with value := m.relSign ev.code*ev.value } else ev

def write (x : Write) : Write := { x with ev := m.emitted x.ev }

/-- The image of a wrapper in a stretch. -/
def wrapper (k : ℕ) (w : DeviceWrapper ℚ) : DeviceWrapper ℚ :=
  { w with
    lastX := w.lastX.map (m.pointX k)
    lastY := w.lastY.map (m.pointY k)
    currentDx := m.signX*w.currentDx
    currentDy := m.signY*w.currentDy
    remainderX := signed m.signX w.remainderX
    remainderY := signed m.signY w.remainderY }

/-- The image of a wrapper and the virtual device, which stays as it is. -/
def onWrapper (k : ℕ) (s : DeviceWrapper ℚ × VirtualDevice) : DeviceWrapper ℚ × VirtualDevice :=
  (m.wrapper k s.1,s.2)

/-- The image of the daemon on one touchpad. -/
def daemon : Relabeling (DeviceWrapper ℚ × VirtualDevice) WrapperInput Write ℕ where
  state := m.onWrapper
  input k i := { i with te := m.timed k i.te }
  output := m.write
  next k i := stretch k i.te.ev

theorem emitted_of_ne {ev : InputEvent} (h : ev.eventType ≠ .relative) : m.emitted ev = ev :=
  if_neg h

end PadMap

namespace DeviceWrapper
variable {m : PadMap} {w : DeviceWrapper ℚ} {cfg : InputConfig ℚ}

/-- Whether the last position event is more than 50 ms old. -/
def stalled (now : Instant) (w : DeviceWrapper ℚ) : Bool :=
  w.lastMovementTime.any fun last => decide (fromMillis 50 < last.elapsed now)

/-- The sums that a position event makes. -/
def summed (w : DeviceWrapper ℚ) (te : TimedEvent) : List ℤ :=
  if te.ev.AxisWith AbsoluteAxisCode.absX then
    sums w.currentDx (if w.stalled te.now then none else w.lastX) te.ev.value
  else if te.ev.AxisWith AbsoluteAxisCode.absY then
    sums w.currentDy (if w.stalled te.now then none else w.lastY) te.ev.value
  else []

/-- The numbers that the end of a frame rounds: no scrolling sideways here. -/
def rounded (cfg : InputConfig ℚ) (w : DeviceWrapper ℚ) (i : WrapperInput) : List ℚ :=
  let total := fun mode a => (daemonMeter cfg mode a).total (mode.gain cfg.pointerAcceleration) w
  if i.te.ev.IsReport ∧ dwtActive cfg i.typing i.te.now = false ∧
      (w.currentDx ≠ 0 ∨ w.currentDy ≠ 0) then
    match FrameMode.of w.touchFingers with
    | some .pointer => [total .pointer .x,total .pointer .y]
    | some .scroll => [total .scroll .y]
    | none => []
  else []

/-- No `i32` sum of the event overflows, and no rounding saturates. -/
def NoOverflow (cfg : InputConfig ℚ) (w : DeviceWrapper ℚ) (i : WrapperInput) : Prop :=
  (∀ z ∈ w.summed i.te,FitsI32 z) ∧ ∀ q ∈ w.rounded cfg i,InRange q

instance (cfg : InputConfig ℚ) (w : DeviceWrapper ℚ) (i : WrapperInput) :
    Decidable (w.NoOverflow cfg i) := inferInstanceAs (Decidable (_ ∧ _))

/-- The step does to the image what it does, writing the image of what it writes. -/
abbrev Reflects (m : PadMap) (k : ℕ) (p : Step ℚ) (s : DeviceWrapper ℚ × VirtualDevice) : Prop :=
  Fallible.Images (m.onWrapper k) m.write p p s

theorem emitRaw_image (ev : InputEvent) (k : ℕ) (s : DeviceWrapper ℚ × VirtualDevice) :
    Fallible.Images (m.onWrapper k) m.write (emitRaw ev) (emitRaw (m.emitted ev)) s := by
  have hwrite : ∀ ev v,Fallible.Images id m.write (VirtualDevice.writeRaw ev)
      (VirtualDevice.writeRaw (m.emitted ev)) v := fun ev v => rfl
  have hraw : Fallible.Images id m.write (VirtualDevice.emitRaw ev)
      (VirtualDevice.emitRaw (m.emitted ev)) s.2 :=
    (hwrite ev s.2).andThen (hwrite .synReport _)
  have hraw' : VirtualDevice.emitRaw (m.emitted ev) (m.onWrapper k s).2 = _ := hraw
  unfold Fallible.Images
  rw [emitRaw_apply,emitRaw_apply,hraw']
  rfl

/-- An event that is not relative is its own image. -/
theorem emitRaw_reflects {ev : InputEvent} (h : ev.eventType ≠ .relative) (k : ℕ)
    (s : DeviceWrapper ℚ × VirtualDevice) : Reflects m k (emitRaw ev) s := by
  have himage := emitRaw_image (m := m) ev k s
  rwa [m.emitted_of_ne h] at himage

theorem modify_image {f : DeviceWrapper ℚ → DeviceWrapper ℚ} {k : ℕ}
    (hf : ∀ w,f (m.wrapper k w) = m.wrapper k (f w)) (s : DeviceWrapper ℚ × VirtualDevice) :
    Reflects m k (modify f) s := Fallible.Images.update (Prod.ext (hf s.1) rfl)

/-- A lift that is not cut short forgets where the touch was, so the translation may change. -/
theorem touchUp_image (te : TimedEvent) (dwt : Bool) (k n : ℕ) {s : DeviceWrapper ℚ × VirtualDevice}
    (h : s.1.isTap cfg dwt te.now = true → ∀ n < 6,s.2.accepts n = true) :
    touchUp te cfg dwt (m.onWrapper k s) = (m.onWrapper n (touchUp te cfg dwt s).1,
      (touchUp te cfg dwt s).2.1.map m.write,(touchUp te cfg dwt s).2.2) := by
  let lifted : DeviceWrapper ℚ := { s.1 with touchActive := false }
  have hreset : (m.wrapper k lifted).resetTouch = m.wrapper n lifted.resetTouch := by
    simp [resetTouch,PadMap.wrapper]
  by_cases htap : s.1.isTap cfg dwt te.now = true
  · have hclick : tapWrites.map m.write = tapWrites := rfl
    rw [touchUp_tap te (s := m.onWrapper k s) htap (h htap),touchUp_tap te htap (h htap),hclick]
    exact Prod.ext (Prod.ext hreset rfl) rfl
  · rw [touchUp_quiet te (s := m.onWrapper k s) htap,touchUp_quiet te htap]
    exact Prod.ext (Prod.ext hreset rfl) rfl

theorem mapClick_image (code : ℕ) (value : ℤ) (k : ℕ) (w : DeviceWrapper ℚ) :
    (m.wrapper k w).mapClick code value =
      (m.wrapper k (w.mapClick code value).1,(w.mapClick code value).2) := by
  unfold mapClick
  by_cases hcode : code = KeyCode.btnLeft
  · rw [if_pos hcode,if_pos hcode]
    by_cases hvalue : value ≠ 0
    · rw [if_pos hvalue,if_pos hvalue]
      rfl
    · rw [if_neg hvalue,if_neg hvalue]
      rfl
  · rw [if_neg hcode,if_neg hcode]

theorem forwardButton_reflects (te : TimedEvent) (k : ℕ) (s : DeviceWrapper ℚ × VirtualDevice) :
    Reflects m k (forwardButton te) s := by
  have hemit : Reflects m k (emitRaw (.new .key (s.1.mapClick te.ev.code te.ev.value).2 te.ev.value))
      ((s.1.mapClick te.ev.code te.ev.value).1,s.2) :=
    emitRaw_reflects (by simp [InputEvent.new]) k _
  unfold Reflects Fallible.Images forwardButton
  rw [show (m.onWrapper k s).1 = m.wrapper k s.1 from rfl,mapClick_image]
  dsimp only
  split_ifs
  · exact hemit
  · rfl

/-- A key event does to the image what it does, the stretch of `BTN_TOUCH` being a new one. -/
theorem processKey_image (te : TimedEvent) (dwt : Bool) (k : ℕ)
    {s : DeviceWrapper ℚ × VirtualDevice} (hkey : te.ev.eventType = .key)
    (h : te.ev.KeyWith KeyCode.btnTouch → te.ev.value = 0 →
      s.1.isTap cfg dwt te.now = true → ∀ n < 6,s.2.accepts n = true) :
    processKey te cfg dwt (m.onWrapper k s) =
      (m.onWrapper (PadMap.stretch k te.ev) (processKey te cfg dwt s).1,
        (processKey te cfg dwt s).2.1.map m.write,(processKey te cfg dwt s).2.2) := by
  by_cases htouch : te.ev.code = KeyCode.btnTouch
  · rw [processKey,forwardButton_touch htouch,Fallible.andThen_skip,processTouchKey,if_pos htouch]
    split_ifs with hvalue
    · rfl
    · exact touchUp_image te dwt k _ (h ⟨hkey,htouch⟩ (not_not.mp hvalue))
  · rw [PadMap.stretch_of_ne fun hev => htouch hev.2]
    refine Fallible.Images.andThen ?_ (forwardButton_reflects te k _)
    rw [processTouchKey,if_neg htouch]
    refine .ite (modify_image ?_ s) (.ite (modify_image ?_ s) .skip) <;> exact fun _ => rfl

/-- What a position event finds of the last one. -/
theorem dropStalled_eq {te : TimedEvent} (h : te.ev.code = AbsoluteAxisCode.absX ∨
    te.ev.code = AbsoluteAxisCode.absY) : w.dropStalled te =
      { w with
        lastX := if w.stalled te.now then none else w.lastX
        lastY := if w.stalled te.now then none else w.lastY
        lastMovementTime := some te.now } := if_pos h

theorem summed_x {te : TimedEvent} (hx : te.ev.AxisWith AbsoluteAxisCode.absX) : w.summed te =
    sums w.currentDx (if w.stalled te.now then none else w.lastX) te.ev.value := if_pos hx

theorem summed_y {te : TimedEvent} (hy : te.ev.AxisWith AbsoluteAxisCode.absY) : w.summed te =
    sums w.currentDy (if w.stalled te.now then none else w.lastY) te.ev.value := by
  rw [summed,if_neg fun hx => hx.not_y hy,if_pos hy]

theorem processAxis_x {te : TimedEvent} (hx : te.ev.AxisWith AbsoluteAxisCode.absX) :
    w.processAxis te = { w with
      lastX := some te.ev.value
      lastY := if w.stalled te.now then none else w.lastY
      lastMovementTime := some te.now
      currentDx := TrackedDevice.accumulate w.currentDx
        (if w.stalled te.now then none else w.lastX) te.ev.value } := by
  unfold processAxis
  rw [dropStalled_eq (.inl hx.2)]
  exact if_pos hx.2

theorem processAxis_y {te : TimedEvent} (hy : te.ev.AxisWith AbsoluteAxisCode.absY) :
    w.processAxis te = { w with
      lastX := if w.stalled te.now then none else w.lastX
      lastY := some te.ev.value
      lastMovementTime := some te.now
      currentDy := TrackedDevice.accumulate w.currentDy
        (if w.stalled te.now then none else w.lastY) te.ev.value } := by
  unfold processAxis
  rw [dropStalled_eq (.inr hy.2)]
  exact (if_neg (by rw [hy.2]; decide)).trans (if_pos hy.2)

theorem processAxis_other {te : TimedEvent} (hx : te.ev.code ≠ AbsoluteAxisCode.absX)
    (hy : te.ev.code ≠ AbsoluteAxisCode.absY) : w.processAxis te = w := by
  unfold processAxis dropStalled
  rw [if_neg (not_or.mpr ⟨hx,hy⟩)]
  exact (if_neg hx).trans (if_neg hy)

theorem processAxis_image (te : TimedEvent) (k : ℕ) (habs : te.ev.eventType = .absolute)
    (h : ∀ z ∈ w.summed te,FitsI32 z) (h' : ∀ z ∈ (m.wrapper k w).summed (m.timed k te),FitsI32 z) :
    (m.wrapper k w).processAxis (m.timed k te) = m.wrapper k (w.processAxis te) := by
  have hother : ∀ {f : ℤ → ℤ} {o : Option ℤ},(if w.stalled te.now then none else o.map f) =
      (if w.stalled te.now then none else o).map f := by
    intro f o
    split_ifs <;> rfl
  by_cases hx : te.ev.AxisWith AbsoluteAxisCode.absX
  · rw [summed_x hx] at h
    rw [summed_x (m.axisWith_timed.mpr hx),m.timed_x hx] at h'
    have hsum := stalled_image m.signX (m.shiftX k) h h'
    rw [processAxis_x hx,processAxis_x (m.axisWith_timed.mpr hx),m.timed_x hx]
    refine (congrArg (fun z => ({ m.wrapper k w with
      lastX := some (m.pointX k te.ev.value)
      lastY := if w.stalled te.now then none else w.lastY.map (m.pointY k)
      lastMovementTime := some te.now
      currentDx := z } : DeviceWrapper ℚ)) hsum).trans ?_
    rw [hother]
    rfl
  · by_cases hy : te.ev.AxisWith AbsoluteAxisCode.absY
    · rw [summed_y hy] at h
      rw [summed_y (m.axisWith_timed.mpr hy),m.timed_y hy] at h'
      have hsum := stalled_image m.signY (m.shiftY k) h h'
      rw [processAxis_y hy,processAxis_y (m.axisWith_timed.mpr hy),m.timed_y hy]
      refine (congrArg (fun z => ({ m.wrapper k w with
        lastX := if w.stalled te.now then none else w.lastX.map (m.pointX k)
        lastY := some (m.pointY k te.ev.value)
        lastMovementTime := some te.now
        currentDy := z } : DeviceWrapper ℚ)) hsum).trans ?_
      rw [hother]
      rfl
    · have hcodeX : te.ev.code ≠ AbsoluteAxisCode.absX := fun hcode => hx ⟨habs,hcode⟩
      have hcodeY : te.ev.code ≠ AbsoluteAxisCode.absY := fun hcode => hy ⟨habs,hcode⟩
      rw [m.timed_of_other hx hy,processAxis_other hcodeX hcodeY,processAxis_other hcodeX hcodeY]

/-- A relative event of the image has the sign of its axis. -/
theorem emitRel_image {code : ℕ} (value : ℤ) (k : ℕ) (s : DeviceWrapper ℚ × VirtualDevice) :
    Fallible.Images (m.onWrapper k) m.write (emitRel code value)
      (emitRel code (m.relSign code*value)) s := by
  have hemit := emitRaw_image (m := m) (.new .relative code value) k s
  unfold emitRel
  simp only [ne_eq,sign_mul_eq_zero]
  exact .ite hemit .skip

theorem total_image (mode : FrameMode) (a : TouchAxis) (gain : ℚ) (k : ℕ) :
    (daemonMeter cfg mode a).total gain (m.wrapper k w) =
      signed (m.sign a) ((daemonMeter cfg mode a).total gain w) := by
  cases a
  · exact axis_total m.signX gain w.remainderX w.currentDx
  · exact axis_total m.signY gain w.remainderY w.currentDy

theorem round_image {mode : FrameMode} {a : TouchAxis} {gain : ℚ} {k : ℕ}
    (h : InRange ((daemonMeter cfg mode a).total gain w))
    (h' : InRange ((daemonMeter cfg mode a).total gain (m.wrapper k w))) :
    F32.roundToI32 ((daemonMeter cfg mode a).total gain (m.wrapper k w)) =
      m.sign a * F32.roundToI32 ((daemonMeter cfg mode a).total gain w) := by
  rw [total_image] at h' ⊢
  exact roundToI32_signed (m.sign a) h h'

theorem motionFrame_totals (s : DeviceWrapper ℚ × VirtualDevice) : motionFrame cfg s =
    let gain := FrameMode.gain cfg.pointerAcceleration .pointer
    let totalX := (daemonMeter cfg .pointer .x).total gain s.1
    let totalY := (daemonMeter cfg .pointer .y).total gain s.1
    (emitRel RelativeAxisCode.relX (F32.roundToI32 totalX)).andThen
      (emitRel RelativeAxisCode.relY (F32.roundToI32 totalY))
      ({ s.1 with
          remainderX := totalX - F32.roundToI32 totalX
          remainderY := totalY - F32.roundToI32 totalY },s.2) := by
  have htotal : ∀ (d : ℤ) (r : ℚ),F32.ofI32 d * hardwareScale * cfg.pointerAcceleration + r =
      FrameMode.gain cfg.pointerAcceleration .pointer * d + r :=
    fun d r => pointer_total cfg.pointerAcceleration r d
  unfold motionFrame
  simp only [htotal]
  rfl

theorem motionFrame_reflects (k : ℕ) {s : DeviceWrapper ℚ × VirtualDevice}
    (h : ∀ a,InRange ((daemonMeter cfg .pointer a).total
      (FrameMode.gain cfg.pointerAcceleration .pointer) s.1))
    (h' : ∀ a,InRange ((daemonMeter cfg .pointer a).total
      (FrameMode.gain cfg.pointerAcceleration .pointer) (m.wrapper k s.1))) :
    Reflects m k (motionFrame cfg) s := by
  have hround := fun a => round_image (h a) (h' a)
  unfold Reflects Fallible.Images
  rw [motionFrame_totals,motionFrame_totals]
  dsimp only
  rw [show (m.onWrapper k s).1 = m.wrapper k s.1 from rfl,hround,hround,total_image,total_image]
  refine Eq.trans (congrArg _ ?_) ((emitRel_image _ k _).andThen (emitRel_image _ k _))
  refine Prod.ext ?_ rfl
  dsimp only [PadMap.onWrapper,PadMap.wrapper]
  rw [← signed_intCast,← signed_sub,← signed_intCast,← signed_sub]
  rfl

/-- The wheel event of a rounded total. -/
def emitWheel (cfg : InputConfig ℚ) (emit : ℤ) : Step ℚ :=
  if emit ≠ 0 then
    emitRaw (.new .relative RelativeAxisCode.relWheel
      (if cfg.naturalScrolling then i32Wrap (-emit) else emit))
  else .skip

theorem emitWheel_image {emit : ℤ} (h : FitsI32 emit) (h' : FitsI32 (m.sign .y*emit)) (k : ℕ)
    (s : DeviceWrapper ℚ × VirtualDevice) : Fallible.Images (m.onWrapper k) m.write
      (emitWheel cfg emit) (emitWheel cfg (m.sign .y*emit)) s := by
  have hwheel := emitRaw_image (m := m) (.new .relative RelativeAxisCode.relWheel
    (if cfg.naturalScrolling then i32Wrap (-emit) else emit)) k s
  unfold emitWheel
  rw [naturalSign_signed (m.sign .y) cfg.naturalScrolling h h']
  simp only [ne_eq,sign_mul_eq_zero]
  exact .ite hwheel .skip

theorem scrollFrame_totals (s : DeviceWrapper ℚ × VirtualDevice) : scrollFrame cfg s =
    let totalY := (daemonMeter cfg .scroll .y).total
      (FrameMode.gain cfg.pointerAcceleration .scroll) s.1
    (emitWheel cfg (F32.roundToI32 totalY)).andThen
      (modify fun w : DeviceWrapper ℚ => { w with remainderX := 0.0 })
      ({ s.1 with remainderY := totalY - F32.roundToI32 totalY },s.2) := by
  have htotal : ∀ (d : ℤ) (r : ℚ),F32.ofI32 d * wheelScale + r =
      FrameMode.gain cfg.pointerAcceleration .scroll * d + r :=
    fun d r => scroll_total cfg.pointerAcceleration r d
  unfold scrollFrame
  simp only [htotal]
  rfl

theorem scrollFrame_reflects (k : ℕ) {s : DeviceWrapper ℚ × VirtualDevice}
    (h : InRange ((daemonMeter cfg .scroll .y).total
      (FrameMode.gain cfg.pointerAcceleration .scroll) s.1))
    (h' : InRange ((daemonMeter cfg .scroll .y).total
      (FrameMode.gain cfg.pointerAcceleration .scroll) (m.wrapper k s.1))) :
    Reflects m k (scrollFrame cfg) s := by
  have hround := round_image h h'
  have hfits := fitsI32_roundToI32 h
  have hfits' : FitsI32 (m.sign .y * F32.roundToI32 ((daemonMeter cfg .scroll .y).total
      (FrameMode.gain cfg.pointerAcceleration .scroll) s.1)) := hround ▸ fitsI32_roundToI32 h'
  have hdrop : ∀ w : DeviceWrapper ℚ,({ m.wrapper k w with remainderX := 0.0 } : DeviceWrapper ℚ) =
      m.wrapper k { w with remainderX := 0.0 } := by
    intro w
    have hzero : signed m.signX 0.0 = 0.0 := by norm_num
    simp [PadMap.wrapper,hzero]
  unfold Reflects Fallible.Images
  rw [scrollFrame_totals,scrollFrame_totals]
  dsimp only
  rw [show (m.onWrapper k s).1 = m.wrapper k s.1 from rfl,hround,total_image]
  refine Eq.trans (congrArg _ ?_) ((emitWheel_image hfits hfits' k _).andThen (modify_image hdrop _))
  refine Prod.ext ?_ rfl
  dsimp only [PadMap.onWrapper,PadMap.wrapper]
  rw [← signed_intCast,← signed_sub]
  rfl

/-- What a frame would round stays in range. -/
def Ranged (cfg : InputConfig ℚ) (w : DeviceWrapper ℚ) : Prop :=
  ∀ mode a,mode.Fits w.touchFingers → (mode = .scroll → a = .y) →
    InRange ((daemonMeter cfg mode a).total (mode.gain cfg.pointerAcceleration) w)

theorem movementFrame_reflects (k : ℕ) {s : DeviceWrapper ℚ × VirtualDevice}
    (h : s.1.Ranged cfg) (h' : (m.wrapper k s.1).Ranged cfg) :
    Reflects m k (movementFrame cfg) s := by
  have hclear : ∀ w : DeviceWrapper ℚ,
      (m.wrapper k w).clearDisplacement = m.wrapper k w.clearDisplacement := by
    intro w
    simp [PadMap.wrapper,clearDisplacement]
  let moved : DeviceWrapper ℚ × VirtualDevice := ({ s.1 with tapEmitted := true },s.2)
  have hframe : Reflects m k (if s.1.touchFingers ≤ 1 then motionFrame cfg
      else if s.1.touchFingers = 2 then scrollFrame cfg else .skip) moved := by
    split_ifs with hone htwo
    · exact motionFrame_reflects k (fun a => h .pointer a hone nofun)
        fun a => h' .pointer a hone nofun
    · exact scrollFrame_reflects k (h .scroll .y htwo fun _ => rfl)
        (h' .scroll .y htwo fun _ => rfl)
    · exact .skip
  exact hframe.andThen (modify_image hclear _)

theorem discardFrame_image (k : ℕ) (w : DeviceWrapper ℚ) :
    (m.wrapper k w).discardFrame = m.wrapper k w.discardFrame := by
  have hzero : ∀ s : ℤˣ,signed s 0.0 = 0.0 := fun s => by norm_num
  simp [PadMap.wrapper,discardFrame,hzero]

theorem moved_image (k : ℕ) (w : DeviceWrapper ℚ) :
    ((m.wrapper k w).currentDx ≠ 0 ∨ (m.wrapper k w).currentDy ≠ 0) ↔
      (w.currentDx ≠ 0 ∨ w.currentDy ≠ 0) := by
  simp [PadMap.wrapper]

theorem NoOverflow.ranged {i : WrapperInput} (h : w.NoOverflow cfg i) (hreport : i.te.ev.IsReport)
    (hawake : dwtActive cfg i.typing i.te.now = false)
    (hmoved : w.currentDx ≠ 0 ∨ w.currentDy ≠ 0) : w.Ranged cfg := by
  intro mode a hfits haxis
  have hranges := h.2
  rw [rounded,if_pos ⟨hreport,hawake,hmoved⟩,FrameMode.of_fits hfits] at hranges
  cases mode with
  | pointer =>
    cases a with
    | x => exact hranges _ (by simp)
    | y => exact hranges _ (by simp)
  | scroll =>
    obtain rfl := haxis rfl
    exact hranges _ (by simp)

theorem processSyn_reflects {i : WrapperInput} (k : ℕ) {s : DeviceWrapper ℚ × VirtualDevice}
    (hsyn : i.te.ev.eventType = .synchronization) (h : s.1.NoOverflow cfg i)
    (h' : (m.wrapper k s.1).NoOverflow cfg i) :
    Reflects m k (processSyn i.te cfg (dwtActive cfg i.typing i.te.now)) s := by
  have hemit : ∀ s,Reflects m k (emitRaw i.te.ev) s :=
    fun s => emitRaw_reflects (by simp [hsyn]) k s
  unfold Reflects Fallible.Images processSyn
  simp only [show (m.onWrapper k s).1 = m.wrapper k s.1 from rfl,moved_image]
  by_cases hcode : i.te.ev.code ≠ 0
  · rw [if_pos hcode,if_pos hcode]
    exact hemit s
  · rw [if_neg hcode,if_neg hcode]
    have hframe : Reflects m k (if dwtActive cfg i.typing i.te.now then modify discardFrame
        else if decide (s.1.currentDx ≠ 0 ∨ s.1.currentDy ≠ 0) then movementFrame cfg
        else .skip) s := by
      split_ifs with hdwt hmoved
      · exact modify_image (discardFrame_image k) s
      · have hreport : i.te.ev.IsReport := ⟨hsyn,not_not.mp hcode⟩
        have hawake := Bool.eq_false_iff.mpr hdwt
        have hmoved := of_decide_eq_true hmoved
        exact movementFrame_reflects k (h.ranged hreport hawake hmoved)
          (h'.ranged hreport hawake ((moved_image k s.1).mpr hmoved))
      · exact .skip
    exact hframe.andThen (.ite (hemit _) .skip)

theorem trackKey_image (te : TimedEvent) (k : ℕ) (w : DeviceWrapper ℚ) :
    (m.wrapper k w).trackKey te = m.wrapper k (w.trackKey te) := by
  unfold trackKey
  split_ifs <;> rfl

theorem guarded_image (dwt : Bool) (k : ℕ) (w : DeviceWrapper ℚ) :
    (m.wrapper k w).guarded dwt = m.wrapper k (w.guarded dwt) := by
  cases dwt <;> rfl

theorem noOverflow_guarded {i : WrapperInput} (dwt : Bool) :
    (w.guarded dwt).NoOverflow cfg i ↔ w.NoOverflow cfg i := by
  cases dwt <;> rfl

theorem processAbsolute_image {i : WrapperInput} {k : ℕ} {s : DeviceWrapper ℚ × VirtualDevice}
    (h : s.1.NoOverflow cfg i)
    (h' : (m.wrapper k s.1).NoOverflow cfg { i with te := m.timed k i.te })
    (htap : TapAccepted cfg s i) :
    processAbsolute (m.timed k i.te) cfg (dwtActive cfg i.typing i.te.now) (m.onWrapper k s) =
      (m.onWrapper (PadMap.stretch k i.te.ev)
        (processAbsolute i.te cfg (dwtActive cfg i.typing i.te.now) s).1,
        (processAbsolute i.te cfg (dwtActive cfg i.typing i.te.now) s).2.1.map m.write,
        (processAbsolute i.te cfg (dwtActive cfg i.typing i.te.now) s).2.2) := by
  rw [← noOverflow_guarded (dwtActive cfg i.typing i.te.now)] at h h'
  rw [guarded_image] at h'
  have hstart : ((m.onWrapper k s).1.guarded (dwtActive cfg i.typing i.te.now),
      (m.onWrapper k s).2) =
        m.onWrapper k (s.1.guarded (dwtActive cfg i.typing i.te.now),s.2) :=
    Prod.ext (guarded_image _ k s.1) rfl
  by_cases habs : i.te.ev.eventType = .absolute
  · have hstretch : PadMap.stretch k i.te.ev = k :=
      PadMap.stretch_of_ne fun hkey => absurd (habs.symm.trans hkey.1) (by simp)
    rw [hstretch,processAbsolute_absolute habs,
      processAbsolute_absolute (show (m.timed k i.te).ev.eventType = _ from
        (m.input_eventType k i.te.ev).trans habs)]
    exact Prod.ext (Prod.ext ((congrArg (processAxis _) (guarded_image _ k s.1)).trans
      (processAxis_image i.te k habs h.1 h'.1)) rfl) rfl
  · have hte : m.timed k i.te = i.te :=
      m.timed_of_other (fun hx => habs hx.1) fun hy => habs hy.1
    rw [hte] at h' ⊢
    by_cases hkey : i.te.ev.eventType = .key
    · rw [processAbsolute_key hkey,processAbsolute_key hkey,hstart]
      refine processKey_image i.te _ k hkey fun hev hvalue hclick => htap hev hvalue ?_
      rwa [isTap_guarded] at hclick
    · rw [PadMap.stretch_of_ne fun h => hkey h.1]
      by_cases hsyn : i.te.ev.eventType = .synchronization
      · rw [processAbsolute_synchronization hsyn,processAbsolute_synchronization hsyn,hstart]
        exact processSyn_reflects k hsyn h h'
      · rw [processAbsolute_other hkey habs hsyn,processAbsolute_other hkey habs hsyn,hstart]
        rfl

theorem noOverflow_trackKey (te : TimedEvent) {i : WrapperInput} :
    (w.trackKey te).NoOverflow cfg i ↔ w.NoOverflow cfg i := by
  unfold trackKey
  split_ifs <;> rfl

/-- Every event of the image does to the image what it does, unless a tap is cut short. -/
theorem writeStep_image {i : WrapperInput} {k : ℕ} {s : DeviceWrapper ℚ × VirtualDevice}
    (habs : s.1.isAbsolute = true) (h : s.1.NoOverflow cfg i)
    (h' : (m.wrapper k s.1).NoOverflow cfg { i with te := m.timed k i.te })
    (htap : TapAccepted cfg s i) : m.daemon.Commutes (writeStep cfg) k s i := by
  have htrack : (m.wrapper k s.1).trackKey (m.timed k i.te) = m.wrapper k (s.1.trackKey i.te) := by
    by_cases hkey : i.te.ev.eventType = .key
    · rw [m.timed_of_other (fun hx => absurd (hkey.symm.trans hx.1) (by simp))
        fun hy => absurd (hkey.symm.trans hy.1) (by simp)]
      exact trackKey_image i.te k s.1
    · rw [trackKey,if_neg (by rwa [show (m.timed k i.te).ev.eventType = _ from
        m.input_eventType k i.te.ev]),trackKey,if_neg hkey]
  have habsolute : ∀ te,(s.1.trackKey te).isAbsolute = true :=
    fun te => (congrArg (·.2.2.1) (trackKey_identity te s.1)).trans habs
  have hevent := processEvent_absolute cfg i.typing i.te habs
  have hevent' : processEvent cfg i.typing (m.timed k i.te) (m.onWrapper k s) =
      processAbsolute (m.timed k i.te) cfg (dwtActive cfg i.typing i.te.now)
        (m.onWrapper k (s.1.trackKey i.te,s.2)) := by
    unfold processEvent
    dsimp only
    rw [show (m.onWrapper k s).1 = m.wrapper k s.1 from rfl,htrack,
      show (m.wrapper k (s.1.trackKey i.te)).isAbsolute = true from habsolute i.te,Bool.not_true,
      if_neg Bool.false_ne_true]
    rfl
  have hbody := processAbsolute_image (s := (s.1.trackKey i.te,s.2))
    ((noOverflow_trackKey i.te).mpr h)
    (by rw [← htrack]; exact (noOverflow_trackKey _).mpr h')
    fun hev hvalue hclick => htap hev hvalue (by rwa [isTap_trackKey] at hclick)
  change ((processEvent cfg i.typing (m.timed k i.te) (m.onWrapper k s)).1,
    (processEvent cfg i.typing (m.timed k i.te) (m.onWrapper k s)).2.1) =
      (m.onWrapper (PadMap.stretch k i.te.ev) (processEvent cfg i.typing i.te s).1,
        (processEvent cfg i.typing i.te s).2.1.map m.write)
  rw [hevent,hevent',hbody]

end DeviceWrapper

/-- No event of the run overflows. -/
def TrackedDevice.Exact (td : TrackedDevice ℚ ℚ) (inputs : List (TouchInput ℚ)) : Prop :=
  AtEach (fun before i => TrackedDevice.NoOverflow (run TrackedDevice.touchStep td before).1 i)
    inputs

def DeviceWrapper.Exact (cfg : InputConfig ℚ) (s : DeviceWrapper ℚ × VirtualDevice)
    (events : List WrapperInput) : Prop :=
  AtEach (fun before i =>
    DeviceWrapper.NoOverflow cfg (run (DeviceWrapper.writeStep cfg) s before).1.1 i) events

instance (td : TrackedDevice ℚ ℚ) (inputs : List (TouchInput ℚ)) : Decidable (td.Exact inputs) :=
  decidableAtEach _ _

instance (cfg : InputConfig ℚ) (s : DeviceWrapper ℚ × VirtualDevice) (events : List WrapperInput) :
    Decidable (DeviceWrapper.Exact cfg s events) := decidableAtEach _ _

/-- The library answers the image of a stream with the image of its answer. The daemon does, as far
as no click of a tap is cut short by a write that is refused. -/
theorem pad_symmetric (m : PadMap) (device : EvdevDevice) (path : PathBuf) (d : DevicePtr)
    (inputs : List (TouchInput ℚ)) (hexact : TrackedDevice.Exact (.new device path d) inputs)
    (hexact' : TrackedDevice.Exact (.new device path d) (m.library.inputs 0 inputs))
    (cfg : InputConfig ℚ) (node : Device) (habs : node.probe.supports .absolute = true)
    (v : VirtualDevice) (events : List WrapperInput)
    (hevents : DeviceWrapper.Exact cfg (.new node path,v) events)
    (hevents' : DeviceWrapper.Exact cfg (.new node path,v) (m.daemon.inputs 0 events))
    (htaps : AtEach (fun before i => DeviceWrapper.TapAccepted cfg
      (run (DeviceWrapper.writeStep cfg) (.new node path,v) before).1 i) events) :
    (run TrackedDevice.touchStep (.new device path d) (m.library.inputs 0 inputs)).2 =
        (run TrackedDevice.touchStep (.new device path d) inputs).2.map m.event ∧
      (run (DeviceWrapper.writeStep cfg) (.new node path,v) (m.daemon.inputs 0 events)).2 =
        (run (DeviceWrapper.writeStep cfg) (.new node path,v) events).2.map m.write := by
  have hzero : ∀ s : ℤˣ,signed s 0.0 = 0.0 := fun s => by norm_num
  have hdevice : m.library.state 0 (.new device path d) = .new device path d := by
    simp [PadMap.library,PadMap.device,TrackedDevice.new,hzero]
  have hwrapper : m.daemon.state 0 (.new node path,v) = (.new node path,v) := by
    simp [PadMap.daemon,PadMap.onWrapper,PadMap.wrapper,DeviceWrapper.new,hzero]
  constructor
  · rw [TrackedDevice.Exact,← hdevice] at hexact'
    have hrun := Relabeling.run_inputs TrackedDevice.NoOverflow TrackedDevice.NoOverflow
      (fun k td i h h' => TrackedDevice.touchStep_image h h') hexact hexact'
    rw [hdevice] at hrun
    exact congrArg Prod.snd hrun
  · rw [DeviceWrapper.Exact,← hwrapper] at hevents'
    have hkeep : ∀ before,(run (DeviceWrapper.writeStep cfg) (.new node path,v) before).1.1.isAbsolute =
        true := fun before => (DeviceWrapper.run_isAbsolute _ before).trans habs
    have hrun := Relabeling.run_inputs
      (fun s i => s.1.isAbsolute = true ∧ s.1.NoOverflow cfg i ∧ DeviceWrapper.TapAccepted cfg s i)
      (fun s i => s.1.NoOverflow cfg i)
      (fun k s i h h' => DeviceWrapper.writeStep_image h.1 h.2.1 h' h.2.2)
      (fun before i back heq => ⟨hkeep before,hevents before i back heq,htaps before i back heq⟩)
      hevents'
    rw [hwrapper] at hrun
    exact congrArg Prod.snd hrun

/-- A pad turned over from left to right, and moved by 100 units at the lift. -/
def flipped : PadMap := ⟨-1,1,fun k => if k = 2 then 100 else 0,fun _ => 0⟩

/-- A touch, its first position, a motion, the lift, and a position that comes after it. -/
def lateStream (dx : ℤ) : List TimedEvent :=
  [⟨1,.key,KeyCode.btnTouch,1⟩,⟨2,.absolute,AbsoluteAxisCode.absX,0⟩,
    ⟨3,.absolute,AbsoluteAxisCode.absX,dx⟩,⟨4,.synchronization,0,0⟩,⟨5,.key,KeyCode.btnTouch,0⟩,
    ⟨6,.absolute,AbsoluteAxisCode.absX,0⟩,⟨7,.synchronization,0,0⟩].map fun ev => ⟨ev,0⟩

/-- Where the finger moves ten units to the right, its image moves ten to the left. -/
theorem late_position_symmetric :
    let inputs := (lateStream 10).map fun te => (⟨te,true,true,1,false⟩ : TouchInput ℚ)
    let events := (lateStream 10).map fun te => (⟨te,none⟩ : WrapperInput)
    let start : DeviceWrapper ℚ × VirtualDevice :=
      (.new ⟨plainTouchpad,5,true⟩ "/dev/input/event5",.reliable)
    (run TrackedDevice.touchStep (.new plainTouchpad "/dev/input/event5" 0)
        (flipped.library.inputs 0 inputs)).2 =
      (run TrackedDevice.touchStep (.new plainTouchpad "/dev/input/event5" 0) inputs).2.map
        flipped.event ∧
    (run (DeviceWrapper.writeStep .default) start (flipped.daemon.inputs 0 events)).2 =
      (run (DeviceWrapper.writeStep .default) start events).2.map flipped.write :=
  pad_symmetric flipped _ _ _ _ (by decide +kernel) (by decide +kernel) _ _ (by decide +kernel) _ _
    (by decide +kernel) (by decide +kernel) (by decide +kernel)

/-- When the click of a tap is refused the lift stops short of its reset, and the displacement of
the next frame is measured from the touch before. -/
theorem refused_tap_not_symmetric :
    let events := (lateStream 0).map fun te => (⟨te,none⟩ : WrapperInput)
    let start : DeviceWrapper ℚ × VirtualDevice :=
      (.new ⟨plainTouchpad,5,true⟩ "/dev/input/event5",⟨fun n => decide (n ≠ 2)⟩)
    DeviceWrapper.Exact .default start events ∧
      DeviceWrapper.Exact .default start (flipped.daemon.inputs 0 events) ∧
      (run (DeviceWrapper.writeStep .default) start (flipped.daemon.inputs 0 events)).2 ≠
        (run (DeviceWrapper.writeStep .default) start events).2.map flipped.write := by
  refine ⟨?_,?_,?_⟩ <;> decide +kernel

end LibinputRs
