import LibinputRs.Backend.Keyboard

/-! `BackendState::process_absolute_event`: touch and tap, pinch, physical clicks, slot and
position tracking, and the motion, scroll or swipe emitted at the end of a frame. Each branch
of the function is a definition of its own. -/
namespace LibinputRs

variable {F D : Type} [F32 F] [F64 D] [FloatCast F D]

namespace LibinputEvent

def gesture (eventType : LibinputEventType) (payload : GestureEvent D → EventPayload D)
    (d : DevicePtr) (timeUsec : ℕ) (fingerCount : ℤ) (dx dy scale angle : D) : LibinputEvent D :=
  ⟨eventType,payload ⟨timeUsec,fingerCount,dx,dy,scale,angle,false⟩,d⟩

def pinchBegin (d : DevicePtr) (timeUsec : ℕ) (fingerCount : ℤ) : LibinputEvent D :=
  .gesture .gesturePinchBegin .gesturePinchBegin d timeUsec fingerCount 0.0 0.0 1.0 0.0

def pinchUpdate (d : DevicePtr) (timeUsec : ℕ) (fingerCount : ℤ) (scale angle : D) :
    LibinputEvent D :=
  .gesture .gesturePinchUpdate .gesturePinchUpdate d timeUsec fingerCount 0.0 0.0 scale angle

def pinchEnd (d : DevicePtr) (timeUsec : ℕ) (fingerCount : ℤ) (scale angle : D) :
    LibinputEvent D :=
  .gesture .gesturePinchEnd .gesturePinchEnd d timeUsec fingerCount 0.0 0.0 scale angle

def swipeUpdate (d : DevicePtr) (timeUsec : ℕ) (fingerCount : ℤ) (dx dy : D) : LibinputEvent D :=
  .gesture .gestureSwipeUpdate .gestureSwipeUpdate d timeUsec fingerCount dx dy 1.0 0.0

end LibinputEvent

/-- The buttons of a touchpad that are forwarded. -/
def isTouchpadButton (code : ℕ) : Bool :=
  code = KeyCode.btnLeft || code = KeyCode.btnRight || code = KeyCode.btnMiddle

namespace TrackedDevice

/-- `dist / pinch_base_dist`, or one when the baseline is not positive. -/
def pinchScale (td : TrackedDevice F D) (dist : D) : D :=
  if F64.isPositive td.pinchBaseDist then dist / td.pinchBaseDist else 1.0

/-- `BTN_TOUCH` with a non-zero value; two contacts already down begin a pinch. -/
def touchDown (te : TimedEvent) (td : TrackedDevice F D) :
    TrackedDevice F D × List (LibinputEvent D) :=
  let td := { td with
    touchActive := true
    touchStartTime := some te.now
    tapEmitted := false
    touchFingers := max td.activeSlotCount 1
    lastX := none
    lastY := none }
  if 2 ≤ td.touchFingers ∧ td.pinchActive = false then
    match td.primarySlotDistance with
    | some dist =>
      ({ td with
          pinchActive := true
          pinchBaseDist := dist
          pinchBaseAngle := td.primarySlotAngle
          pinchFingers := td.touchFingers },
        [.pinchBegin td.libDevice (systimeToUsec te.ev.time) td.touchFingers])
    | none => (td,[])
  else (td,[])

/-- Whether the lift of `BTN_TOUCH` counts as a tap. -/
def isTap (now : Instant) (cfgTap dwtActive : Bool) (td : TrackedDevice F D) : Bool :=
  cfgTap && !td.tapEmitted && !dwtActive &&
    td.touchStartTime.any (fun start => decide (start.elapsed now < fromMillis 250)) &&
    decide (td.touchFingers ≤ 1)

/-- The end of an open pinch at the lift. -/
def liftPinch (te : TimedEvent) (td : TrackedDevice F D) : List (LibinputEvent D) :=
  if td.pinchActive then
    [.pinchEnd td.libDevice (systimeToUsec te.ev.time) td.pinchFingers
      ((td.primarySlotDistance.map td.pinchScale).getD 1.0)
      (td.primarySlotAngle - td.pinchBaseAngle)]
  else []

/-- `BTN_TOUCH` with value zero: end the pinch, synthesize the tap, reset the tracking. -/
def touchUp (te : TimedEvent) (cfgTap dwtActive : Bool) (td : TrackedDevice F D) :
    TrackedDevice F D × List (LibinputEvent D) :=
  let tsUsec := systimeToUsec te.ev.time
  ({ td with
      touchActive := false
      pinchActive := false
      lastX := none
      lastY := none
      currentDx := 0
      currentDy := 0
      touchStartTime := none
      touchFingers := 0 },
    td.liftPinch te ++
      if td.isTap te.now cfgTap dwtActive then
        [.button td.libDevice tsUsec KeyCode.btnLeft 1, .button td.libDevice tsUsec KeyCode.btnLeft 0]
      else [])

/-- The code a physical button event is reported under: `BTN_LEFT` is remapped by the number
of fingers at the press, and its release repeats the code of the press. -/
def mapClick (code : ℕ) (value : ℤ) (td : TrackedDevice F D) : TrackedDevice F D × ℕ :=
  if code = KeyCode.btnLeft then
    if value ≠ 0 then
      let mapped :=
        if td.touchFingers = 2 then KeyCode.btnRight
        else if 3 ≤ td.touchFingers then KeyCode.btnMiddle
        else code
      ({ td with activeClickButton := some mapped },mapped)
    else
      match td.activeClickButton with
      | some active => ({ td with activeClickButton := none },active)
      | none => (td,code)
  else (td,code)

def physicalClick (te : TimedEvent) (td : TrackedDevice F D) :
    TrackedDevice F D × List (LibinputEvent D) :=
  match td.mapClick te.ev.code te.ev.value with
  | (td,mapped) =>
    (td,
      if isTouchpadButton mapped then
        [.button td.libDevice (systimeToUsec te.ev.time) mapped (asU32 te.ev.value)]
      else [])

/-- The `EventType::KEY` branch. -/
def processAbsoluteKey (te : TimedEvent) (cfgTap dwtActive : Bool) (td : TrackedDevice F D) :
    TrackedDevice F D × List (LibinputEvent D) :=
  let code := te.ev.code
  let value := te.ev.value
  if code = KeyCode.btnTouch then
    if value ≠ 0 then td.touchDown te else td.touchUp te cfgTap dwtActive
  else if code = KeyCode.btnToolDoubletap then
    ({ td with touchFingers := if value ≠ 0 then 2 else 1 },[])
  else if code = KeyCode.btnToolTripletap then
    ({ td with touchFingers := if value ≠ 0 then 3 else 2 },[])
  else if code = KeyCode.btnToolQuadtap then
    ({ td with touchFingers := if value ≠ 0 then 4 else 3 },[])
  else td.physicalClick te

/-- Whether the last position event is more than 50 ms old. -/
def stalled (now : Instant) (td : TrackedDevice F D) : Bool :=
  td.lastMovementTime.any fun last => decide (fromMillis 50 < last.elapsed now)

/-- `current += val - previous` in `i32`, when there is a previous coordinate. -/
def accumulate (current : ℤ) (previous : Option ℤ) (val : ℤ) : ℤ :=
  match previous with
  | some p => i32Wrap (current + i32Wrap (val - p))
  | none => current

/-- `ABS_X`: a stall drops the stored coordinate of this axis only. -/
def positionX (te : TimedEvent) (td : TrackedDevice F D) : TrackedDevice F D :=
  let lastX := if td.stalled te.now then none else td.lastX
  { td with
    lastMovementTime := some te.now
    currentDx := accumulate td.currentDx lastX te.ev.value
    lastX := some te.ev.value }

/-- `ABS_Y`: a stall drops the stored coordinate of this axis only. -/
def positionY (te : TimedEvent) (td : TrackedDevice F D) : TrackedDevice F D :=
  let lastY := if td.stalled te.now then none else td.lastY
  { td with
    lastMovementTime := some te.now
    currentDy := accumulate td.currentDy lastY te.ev.value
    lastY := some te.ev.value }

/-- The `EventType::ABSOLUTE` branch; it queues nothing. -/
def processAbsoluteAxis (te : TimedEvent) (td : TrackedDevice F D) : TrackedDevice F D :=
  let code := te.ev.code
  let val := te.ev.value
  if code = AbsoluteAxisCode.absMtSlot then
    if asUsize val < td.mtSlots.length then { td with currentSlot := asUsize val } else td
  else if code = AbsoluteAxisCode.absMtTrackingId then
    td.modifySlot fun s => { s with active := decide (0 ≤ val), trackingId := val }
  else if code = AbsoluteAxisCode.absMtPositionX then
    td.modifySlot fun s => { s with x := F64.ofI32 val }
  else if code = AbsoluteAxisCode.absMtPositionY then
    td.modifySlot fun s => { s with y := F64.ofI32 val }
  else if code = AbsoluteAxisCode.absMtDistance then
    td.modifySlot fun s => { s with distance := F64.ofI32 val }
  else if code = AbsoluteAxisCode.absX then td.positionX te
  else if code = AbsoluteAxisCode.absY then td.positionY te
  else td

/-- Pinch update at the end of a frame; the displacement of the frame is discarded. -/
def pinchFrame (te : TimedEvent) (td : TrackedDevice F D) :
    TrackedDevice F D × List (LibinputEvent D) :=
  ({ td with currentDx := 0, currentDy := 0 },
    match td.primarySlotDistance with
    | some dist =>
      [.pinchUpdate td.libDevice (systimeToUsec te.ev.time) td.pinchFingers (td.pinchScale dist)
        (td.primarySlotAngle - td.pinchBaseAngle)]
    | none => [])

def hwScale : F := 0.18
def scrollScale : F := 0.02
def gestureScale : D := 0.18

/-- One finger: pointer motion with the fractional part carried to the next frame. -/
def motionFrame (te : TimedEvent) (cfgAccel : F) (td : TrackedDevice F D) :
    TrackedDevice F D × List (LibinputEvent D) :=
  let totalX := F32.ofI32 td.currentDx * hwScale * cfgAccel + td.remainderX
  let totalY := F32.ofI32 td.currentDy * hwScale * cfgAccel + td.remainderY
  let emitX := F32.roundToI32 totalX
  let emitY := F32.roundToI32 totalY
  ({ td with
      remainderX := totalX - F32.ofI32 emitX
      remainderY := totalY - F32.ofI32 emitY },
    if emitX ≠ 0 ∨ emitY ≠ 0 then
      [⟨.pointerMotion,.pointerMotion ⟨systimeToUsec te.ev.time,F64.ofI32 emitX,F64.ofI32 emitY,
        FloatCast.toF64 (F32.ofI32 td.currentDx * hwScale : F),
        FloatCast.toF64 (F32.ofI32 td.currentDy * hwScale : F)⟩,td.libDevice⟩]
    else [])

/-- The scroll event of one axis, if its rounded distance is not zero. -/
def scrollAxis (te : TimedEvent) (cfgNat : Bool) (axis : ℕ) (emit : ℤ) (td : TrackedDevice F D) :
    List (LibinputEvent D) :=
  if emit ≠ 0 then
    [.scroll .pointerScrollFinger td.libDevice (systimeToUsec te.ev.time) axis
      (if cfgNat then i32Wrap (-emit) else emit) 2]
  else []

/-- Two fingers: scrolling on both axes, the vertical event first. -/
def scrollFrame (te : TimedEvent) (cfgNat : Bool) (td : TrackedDevice F D) :
    TrackedDevice F D × List (LibinputEvent D) :=
  let totalY := F32.ofI32 td.currentDy * scrollScale + td.remainderY
  let totalX := F32.ofI32 td.currentDx * scrollScale + td.remainderX
  let emitY := F32.roundToI32 totalY
  let emitX := F32.roundToI32 totalX
  ({ td with
      remainderY := totalY - F32.ofI32 emitY
      remainderX := totalX - F32.ofI32 emitX },
    td.scrollAxis te cfgNat 0 emitY ++ td.scrollAxis te cfgNat 1 emitX)

/-- Three or more fingers: a swipe update. -/
def swipeFrame (te : TimedEvent) (nFingers : ℕ) (td : TrackedDevice F D) :
    List (LibinputEvent D) :=
  [.swipeUpdate td.libDevice (systimeToUsec te.ev.time) nFingers
    (F64.ofI32 td.currentDx * gestureScale) (F64.ofI32 td.currentDy * gestureScale)]

/-- The motion, scroll or swipe of a frame with displacement, which is then cleared. -/
def movementFrame (te : TimedEvent) (cfgNat : Bool) (cfgAccel : F) (td : TrackedDevice F D) :
    TrackedDevice F D × List (LibinputEvent D) :=
  let td := { td with tapEmitted := true }
  let nFingers := max td.activeSlotCount td.touchFingers
  let r :=
    if nFingers ≤ 1 then td.motionFrame te cfgAccel
    else if nFingers = 2 then td.scrollFrame te cfgNat
    else (td,td.swipeFrame te nFingers)
  ({ r.1 with currentDx := 0, currentDy := 0 },r.2)

/-- The `EventType::SYNCHRONIZATION` branch. -/
def processSyn (te : TimedEvent) (cfgNat : Bool) (cfgAccel : F) (dwtActive : Bool)
    (td : TrackedDevice F D) : TrackedDevice F D × List (LibinputEvent D) :=
  if te.ev.code ≠ 0 then (td,[])
  else if td.pinchActive && !dwtActive then td.pinchFrame te
  else if dwtActive then
    ({ td with
        currentDx := 0
        currentDy := 0
        remainderX := 0.0
        remainderY := 0.0
        tapEmitted := true },[])
  else if td.currentDx ≠ 0 ∨ td.currentDy ≠ 0 then td.movementFrame te cfgNat cfgAccel
  else (td,[])

/-- `BackendState::process_absolute_event`. -/
def processAbsoluteEvent (te : TimedEvent) (cfgTap cfgNat : Bool) (cfgAccel : F)
    (dwtActive : Bool) (td : TrackedDevice F D) : TrackedDevice F D × List (LibinputEvent D) :=
  let td := if dwtActive then { td with tapEmitted := true } else td
  match te.ev.eventType with
  | .key => td.processAbsoluteKey te cfgTap dwtActive
  | .absolute => (td.processAbsoluteAxis te,[])
  | .synchronization => td.processSyn te cfgNat cfgAccel dwtActive
  | _ => (td,[])

end TrackedDevice
end LibinputRs
