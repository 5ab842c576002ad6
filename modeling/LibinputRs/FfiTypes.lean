import LibinputRs.Evdev
import LibinputRs.Floats

/-! The types of the C interface: queued events with their payloads, devices with their
capabilities and settings, and the client's two callbacks. -/
namespace LibinputRs

/-- A `*mut LibinputDevice`. The context never frees a device before itself and appends each
new one to its list, so the position in that list stands for the pointer. -/
abbrev DevicePtr := ℕ

/-- Which of the two callbacks the client's `libinput_interface` supplies. -/
structure LibinputInterface where
  openRestricted : Bool
  closeRestricted : Bool
  deriving DecidableEq, Repr

inductive LibinputEventType
  | none
  | deviceAdded
  | deviceRemoved
  | keyboardKey
  | pointerMotion
  | pointerMotionAbsolute
  | pointerButton
  | pointerAxis
  | pointerScrollWheel
  | pointerScrollFinger
  | pointerScrollContinuous
  | touchDown
  | touchUp
  | touchMotion
  | touchCancel
  | touchFrame
  | gestureSwipeBegin
  | gestureSwipeUpdate
  | gestureSwipeEnd
  | gesturePinchBegin
  | gesturePinchUpdate
  | gesturePinchEnd
  | switchToggle
  | tabletToolAxis
  | tabletToolProximity
  | tabletToolTip
  | tabletToolButton
  | tabletPadButton
  | tabletPadRing
  | tabletPadStrip
  deriving DecidableEq, Repr

variable {F D : Type}

structure PointerMotionEvent (D : Type) where
  timeUsec : ℕ
  dx : D
  dy : D
  dxUnaccel : D
  dyUnaccel : D
  deriving DecidableEq, Repr

structure PointerMotionAbsoluteEvent (D : Type) where
  timeUsec : ℕ
  absX : D
  absY : D
  deriving DecidableEq, Repr

structure PointerButtonEvent where
  timeUsec : ℕ
  button : ℕ
  state : ℕ
  deriving DecidableEq, Repr

structure PointerAxisEvent (D : Type) where
  timeUsec : ℕ
  axis : ℕ
  value : D
  valueDiscrete : ℤ
  source : ℕ
  deriving DecidableEq, Repr

structure KeyboardKeyEvent where
  timeUsec : ℕ
  key : ℕ
  state : ℕ
  deriving DecidableEq, Repr

structure TouchEvent (D : Type) where
  timeUsec : ℕ
  slot : ℤ
  seatSlot : ℤ
  x : D
  y : D
  deriving DecidableEq, Repr

structure GestureEvent (D : Type) where
  timeUsec : ℕ
  fingerCount : ℤ
  dx : D
  dy : D
  scale : D
  angle : D
  cancelled : Bool
  deriving DecidableEq, Repr

structure SwitchEvent where
  timeUsec : ℕ
  switch : ℕ
  state : ℕ
  deriving DecidableEq, Repr

inductive EventPayload (D : Type)
  | pointerMotion (e : PointerMotionEvent D)
  | pointerMotionAbsolute (e : PointerMotionAbsoluteEvent D)
  | pointerButton (e : PointerButtonEvent)
  | pointerAxis (e : PointerAxisEvent D)
  | keyboardKey (e : KeyboardKeyEvent)
  | touchDown (e : TouchEvent D)
  | touchUp (e : TouchEvent D)
  | touchMotion (e : TouchEvent D)
  | touchCancel (e : TouchEvent D)
  | touchFrame (timeUsec : ℕ)
  | gestureSwipeBegin (e : GestureEvent D)
  | gestureSwipeUpdate (e : GestureEvent D)
  | gestureSwipeEnd (e : GestureEvent D)
  | gesturePinchBegin (e : GestureEvent D)
  | gesturePinchUpdate (e : GestureEvent D)
  | gesturePinchEnd (e : GestureEvent D)
  | switchToggle (e : SwitchEvent)
  | deviceAdded
  | deviceRemoved
  deriving DecidableEq, Repr

/-- A queued event. The model has one context, so the context pointer is left out. -/
structure LibinputEvent (D : Type) where
  eventType : LibinputEventType
  payload : EventPayload D
  device : DevicePtr
  deriving DecidableEq, Repr

namespace LibinputEvent

def added (d : DevicePtr) : LibinputEvent D := ⟨.deviceAdded,.deviceAdded,d⟩

def removed (d : DevicePtr) : LibinputEvent D := ⟨.deviceRemoved,.deviceRemoved,d⟩

def key (d : DevicePtr) (timeUsec code state : ℕ) : LibinputEvent D :=
  ⟨.keyboardKey,.keyboardKey ⟨timeUsec,code,state⟩,d⟩

def button (d : DevicePtr) (timeUsec code state : ℕ) : LibinputEvent D :=
  ⟨.pointerButton,.pointerButton ⟨timeUsec,code,state⟩,d⟩

@[simp] theorem added_eventType (d : DevicePtr) :
    (added d : LibinputEvent D).eventType = .deviceAdded := rfl
@[simp] theorem removed_eventType (d : DevicePtr) :
    (removed d : LibinputEvent D).eventType = .deviceRemoved := rfl
@[simp] theorem key_eventType (d : DevicePtr) (timeUsec code state : ℕ) :
    (key d timeUsec code state : LibinputEvent D).eventType = .keyboardKey := rfl
@[simp] theorem button_eventType (d : DevicePtr) (timeUsec code state : ℕ) :
    (button d timeUsec code state : LibinputEvent D).eventType = .pointerButton := rfl

/-- Everything but the two notifications about the device itself. -/
def isInput (e : LibinputEvent D) : Bool :=
  decide (e.eventType ≠ .deviceAdded ∧ e.eventType ≠ .deviceRemoved)

/-- The state an event reports for a key. -/
def keyState (code : ℕ) (e : LibinputEvent D) : Option ℕ :=
  match e.eventType,e.payload with
  | .keyboardKey,.keyboardKey k => if k.key = code then some k.state else none
  | _,_ => none

/-- The state an event reports for a button. -/
def buttonState (code : ℕ) (e : LibinputEvent D) : Option ℕ :=
  match e.eventType,e.payload with
  | .pointerButton,.pointerButton b => if b.button = code then some b.state else none
  | _,_ => none

end LibinputEvent

structure LibinputSeat where
  physicalName : String
  logicalName : String
  deriving DecidableEq, Repr

structure LibinputDevice (F D : Type) where
  name : String
  devnode : PathBuf
  hasKeyboard : Bool
  hasPointer : Bool
  hasTouch : Bool
  hasGesture : Bool
  hasSwitch : Bool
  hasTablet : Bool
  tapEnabled : Bool
  tapButtonMap : ℕ
  naturalScroll : Bool
  accelSpeed : D
  accelProfile : ℕ
  leftHanded : Bool
  scrollMethod : ℕ
  clickMethod : ℕ
  middleEmulation : Bool
  dwtEnabled : Bool
  calibration : Vector F 6
  deriving DecidableEq, Repr

def LibinputDevice.new [F32 F] [F64 D] (name : String) (devnode : PathBuf) :
    LibinputDevice F D where
  name := name
  devnode := devnode
  hasKeyboard := false
  hasPointer := true
  hasTouch := false
  hasGesture := false
  hasSwitch := false
  hasTablet := false
  tapEnabled := true
  tapButtonMap := 0
  naturalScroll := true
  accelSpeed := 0.0
  accelProfile := 1
  leftHanded := false
  scrollMethod := 2
  clickMethod := 1
  middleEmulation := false
  dwtEnabled := true
  calibration := #v[1.0,0.0,0.0,0.0,1.0,0.0]

end LibinputRs
