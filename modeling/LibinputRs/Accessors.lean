import LibinputRs.FfiTypes

/-! The accessors through which a client reads an event: the press counts of key and button events,
the axis, value and steps of scroll events, the times, and what else the payloads hold; each gives a
fixed value on an event of another kind. The casts by which a client finds out the family of an
event. -/
namespace LibinputRs

variable {D : Type}

namespace EventPayload

/-- The payload of a pointer motion, and so on for the groups of payloads that accessors read. -/
def asMotion : EventPayload D → Option (PointerMotionEvent D)
  | .pointerMotion m => some m
  | _ => none

def asAbsolute : EventPayload D → Option (PointerMotionAbsoluteEvent D)
  | .pointerMotionAbsolute m => some m
  | _ => none

def asButton : EventPayload D → Option PointerButtonEvent
  | .pointerButton b => some b
  | _ => none

def asAxis : EventPayload D → Option (PointerAxisEvent D)
  | .pointerAxis a => some a
  | _ => none

def asKey : EventPayload D → Option KeyboardKeyEvent
  | .keyboardKey k => some k
  | _ => none

def asTouchPoint : EventPayload D → Option (TouchEvent D)
  | .touchDown t => some t
  | .touchMotion t => some t
  | _ => none

def asGesture : EventPayload D → Option (GestureEvent D)
  | .gestureSwipeBegin g => some g
  | .gestureSwipeUpdate g => some g
  | .gestureSwipeEnd g => some g
  | .gesturePinchBegin g => some g
  | .gesturePinchUpdate g => some g
  | .gesturePinchEnd g => some g
  | _ => none

def asGestureUpdate : EventPayload D → Option (GestureEvent D)
  | .gestureSwipeUpdate g => some g
  | .gesturePinchUpdate g => some g
  | _ => none

def asScaled : EventPayload D → Option (GestureEvent D)
  | .gesturePinchUpdate g => some g
  | .gesturePinchEnd g => some g
  | _ => none

def asPinchUpdate : EventPayload D → Option (GestureEvent D)
  | .gesturePinchUpdate g => some g
  | _ => none

def asGestureEnd : EventPayload D → Option (GestureEvent D)
  | .gestureSwipeEnd g => some g
  | .gesturePinchEnd g => some g
  | _ => none

def asSwitch : EventPayload D → Option SwitchEvent
  | .switchToggle s => some s
  | _ => none

end EventPayload

namespace LibinputEvent

def libinputEventKeyboardGetSeatKeyCount (e : LibinputEvent D) : ℕ :=
  match e.payload with
  | .keyboardKey k => if 1 ≤ k.state then 1 else 0
  | _ => 0

def libinputEventPointerGetSeatButtonCount (e : LibinputEvent D) : ℕ :=
  match e.payload with
  | .pointerButton b => if b.state = 1 then 1 else 0
  | _ => 0

/-- The axis asked for is not looked at. -/
def libinputEventPointerHasAxis (e : LibinputEvent D) (_axis : ℕ) : Bool :=
  match e.payload with
  | .pointerAxis _ => true
  | _ => false

variable [F64 D]

/-- The axis asked for is not looked at. -/
def libinputEventPointerGetAxisValue (e : LibinputEvent D) (_axis : ℕ) : D :=
  match e.payload with
  | .pointerAxis a => a.value
  | _ => 0.0

def libinputEventPointerGetScrollValueV120 (e : LibinputEvent D) (axis : ℕ) : D :=
  e.libinputEventPointerGetAxisValue axis * 120.0

def libinputEventPointerGetDx (e : LibinputEvent D) : D :=
  e.payload.asMotion.elim 0.0 PointerMotionEvent.dx

def libinputEventPointerGetDy (e : LibinputEvent D) : D :=
  e.payload.asMotion.elim 0.0 PointerMotionEvent.dy

def libinputEventPointerGetDxUnaccelerated (e : LibinputEvent D) : D :=
  e.payload.asMotion.elim 0.0 PointerMotionEvent.dxUnaccel

def libinputEventPointerGetDyUnaccelerated (e : LibinputEvent D) : D :=
  e.payload.asMotion.elim 0.0 PointerMotionEvent.dyUnaccel

def libinputEventPointerGetAbsoluteX (e : LibinputEvent D) : D :=
  e.payload.asAbsolute.elim 0.0 PointerMotionAbsoluteEvent.absX

def libinputEventPointerGetAbsoluteY (e : LibinputEvent D) : D :=
  e.payload.asAbsolute.elim 0.0 PointerMotionAbsoluteEvent.absY

/-- The width asked for is not looked at. -/
def libinputEventPointerGetAbsoluteXTransformed (e : LibinputEvent D) (_width : ℕ) : D :=
  e.libinputEventPointerGetAbsoluteX

def libinputEventPointerGetAbsoluteYTransformed (e : LibinputEvent D) (_height : ℕ) : D :=
  e.libinputEventPointerGetAbsoluteY

/-- The axis asked for is not looked at. -/
def libinputEventPointerGetAxisValueDiscrete (e : LibinputEvent D) (_axis : ℕ) : D :=
  e.payload.asAxis.elim 0.0 fun a => F64.ofI32 a.valueDiscrete

def libinputEventPointerGetScrollValue (e : LibinputEvent D) (axis : ℕ) : D :=
  e.libinputEventPointerGetAxisValue axis

def libinputEventTouchGetX (e : LibinputEvent D) : D := e.payload.asTouchPoint.elim 0.0 TouchEvent.x

def libinputEventTouchGetY (e : LibinputEvent D) : D := e.payload.asTouchPoint.elim 0.0 TouchEvent.y

/-- The width asked for is not looked at. -/
def libinputEventTouchGetXTransformed (e : LibinputEvent D) (_width : ℕ) : D :=
  e.libinputEventTouchGetX

def libinputEventTouchGetYTransformed (e : LibinputEvent D) (_height : ℕ) : D :=
  e.libinputEventTouchGetY

def libinputEventGestureGetDx (e : LibinputEvent D) : D :=
  e.payload.asGestureUpdate.elim 0.0 GestureEvent.dx

def libinputEventGestureGetDy (e : LibinputEvent D) : D :=
  e.payload.asGestureUpdate.elim 0.0 GestureEvent.dy

/-- The displacement itself. -/
def libinputEventGestureGetDxUnaccelerated (e : LibinputEvent D) : D := e.libinputEventGestureGetDx

def libinputEventGestureGetDyUnaccelerated (e : LibinputEvent D) : D := e.libinputEventGestureGetDy

def libinputEventGestureGetScale (e : LibinputEvent D) : D :=
  e.payload.asScaled.elim 1.0 GestureEvent.scale

/-- The end of a pinch reads as no turn, whatever its angle. -/
def libinputEventGestureGetAngleDelta (e : LibinputEvent D) : D :=
  e.payload.asPinchUpdate.elim 0.0 GestureEvent.angle

omit [F64 D]

/-- A cast gives the event back if its type is one of the family, and null otherwise. -/
def castTo (family : List LibinputEventType) (e : LibinputEvent D) : Option (LibinputEvent D) :=
  if e.eventType ∈ family then some e else none

def libinputEventGetDeviceNotifyEvent (e : LibinputEvent D) : Option (LibinputEvent D) :=
  e.castTo [.deviceAdded,.deviceRemoved]

def libinputEventGetPointerEvent (e : LibinputEvent D) : Option (LibinputEvent D) :=
  e.castTo [.pointerMotion,.pointerMotionAbsolute,.pointerButton,.pointerAxis,.pointerScrollWheel,
    .pointerScrollFinger,.pointerScrollContinuous]

def libinputEventGetKeyboardEvent (e : LibinputEvent D) : Option (LibinputEvent D) :=
  e.castTo [.keyboardKey]

def libinputEventGetTouchEvent (e : LibinputEvent D) : Option (LibinputEvent D) :=
  e.castTo [.touchDown,.touchUp,.touchMotion,.touchCancel,.touchFrame]

def libinputEventGetGestureEvent (e : LibinputEvent D) : Option (LibinputEvent D) :=
  e.castTo [.gestureSwipeBegin,.gestureSwipeUpdate,.gestureSwipeEnd,.gesturePinchBegin,
    .gesturePinchUpdate,.gesturePinchEnd]

def libinputEventGetSwitchEvent (e : LibinputEvent D) : Option (LibinputEvent D) :=
  e.castTo [.switchToggle]

def libinputEventGetTabletPadEvent (e : LibinputEvent D) : Option (LibinputEvent D) :=
  e.castTo [.tabletPadButton,.tabletPadRing,.tabletPadStrip]

def libinputEventGetTabletToolEvent (e : LibinputEvent D) : Option (LibinputEvent D) :=
  e.castTo [.tabletToolAxis,.tabletToolProximity,.tabletToolTip,.tabletToolButton]

def libinputEventKeyboardGetTimeUsec (e : LibinputEvent D) : ℕ :=
  match e.payload with
  | .keyboardKey k => k.timeUsec
  | _ => 0

def libinputEventPointerGetTimeUsec (e : LibinputEvent D) : ℕ :=
  match e.payload with
  | .pointerMotion m => m.timeUsec
  | .pointerMotionAbsolute m => m.timeUsec
  | .pointerButton b => b.timeUsec
  | .pointerAxis a => a.timeUsec
  | _ => 0

def libinputEventGestureGetTimeUsec (e : LibinputEvent D) : ℕ :=
  match e.payload with
  | .gestureSwipeBegin g => g.timeUsec
  | .gestureSwipeUpdate g => g.timeUsec
  | .gestureSwipeEnd g => g.timeUsec
  | .gesturePinchBegin g => g.timeUsec
  | .gesturePinchUpdate g => g.timeUsec
  | .gesturePinchEnd g => g.timeUsec
  | _ => 0

/-- `(time_usec / 1000) as u32`. -/
def toMillis (timeUsec : ℕ) : ℕ := timeUsec / 1000 % 2^32

def libinputEventKeyboardGetTime (e : LibinputEvent D) : ℕ :=
  toMillis e.libinputEventKeyboardGetTimeUsec

def libinputEventPointerGetTime (e : LibinputEvent D) : ℕ :=
  toMillis e.libinputEventPointerGetTimeUsec

def libinputEventGestureGetTime (e : LibinputEvent D) : ℕ :=
  toMillis e.libinputEventGestureGetTimeUsec

def libinputEventTouchGetTimeUsec (e : LibinputEvent D) : ℕ :=
  match e.payload with
  | .touchDown t => t.timeUsec
  | .touchUp t => t.timeUsec
  | .touchMotion t => t.timeUsec
  | .touchCancel t => t.timeUsec
  | .touchFrame timeUsec => timeUsec
  | _ => 0

def libinputEventTouchGetTime (e : LibinputEvent D) : ℕ := toMillis e.libinputEventTouchGetTimeUsec

def libinputEventSwitchGetTimeUsec (e : LibinputEvent D) : ℕ :=
  e.payload.asSwitch.elim 0 SwitchEvent.timeUsec

def libinputEventSwitchGetTime (e : LibinputEvent D) : ℕ :=
  toMillis e.libinputEventSwitchGetTimeUsec

def libinputEventKeyboardGetKey (e : LibinputEvent D) : ℕ :=
  e.payload.asKey.elim 0 KeyboardKeyEvent.key

def libinputEventKeyboardGetKeyState (e : LibinputEvent D) : ℕ :=
  e.payload.asKey.elim 0 KeyboardKeyEvent.state

def libinputEventPointerGetButton (e : LibinputEvent D) : ℕ :=
  e.payload.asButton.elim 0 PointerButtonEvent.button

def libinputEventPointerGetButtonState (e : LibinputEvent D) : ℕ :=
  e.payload.asButton.elim 0 PointerButtonEvent.state

def libinputEventPointerGetAxisSource (e : LibinputEvent D) : ℕ :=
  e.payload.asAxis.elim 0 PointerAxisEvent.source

def libinputEventTouchGetSlot (e : LibinputEvent D) : ℤ :=
  e.payload.asTouchPoint.elim (-1) TouchEvent.slot

def libinputEventTouchGetSeatSlot (e : LibinputEvent D) : ℤ :=
  e.payload.asTouchPoint.elim (-1) TouchEvent.seatSlot

def libinputEventGestureGetFingerCount (e : LibinputEvent D) : ℤ :=
  e.payload.asGesture.elim 0 GestureEvent.fingerCount

def libinputEventGestureGetCancelled (e : LibinputEvent D) : Bool :=
  e.payload.asGestureEnd.elim false GestureEvent.cancelled

def libinputEventSwitchGetSwitch (e : LibinputEvent D) : ℕ :=
  e.payload.asSwitch.elim 0 SwitchEvent.switch

def libinputEventSwitchGetSwitchState (e : LibinputEvent D) : ℕ :=
  e.payload.asSwitch.elim 0 SwitchEvent.state

end LibinputEvent
end LibinputRs
