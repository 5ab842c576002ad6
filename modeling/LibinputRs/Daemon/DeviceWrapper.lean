import LibinputRs.Backend.Touchpad
import LibinputRs.Daemon.VirtualDevice

/-! `DeviceWrapper::process_event` of the daemon, and the opening of a device node. Every write
to the virtual device can fail, and a failed one ends the processing of the event where it
stands. -/
namespace LibinputRs
open Automata

/-- An open evdev handle: what probing reads, its descriptor, and whether it is grabbed. -/
structure Device where
  probe : EvdevDevice
  rawFd : RawFd
  grabbed : Bool
  deriving DecidableEq, Repr

structure DeviceWrapper (F : Type) where
  device : Device
  path : PathBuf
  isAbsolute : Bool
  isKeyboard : Bool
  touchActive : Bool
  touchFingers : ℕ
  lastX : Option ℤ
  lastY : Option ℤ
  currentDx : ℤ
  currentDy : ℤ
  remainderX : F
  remainderY : F
  touchStartTime : Option Instant
  tapEmitted : Bool
  lastTypingTime : Option Instant
  ctrlPressed : Bool
  altPressed : Bool
  lastMovementTime : Option Instant
  activeClickButton : Option ℕ
  deriving DecidableEq, Repr

/-- `is_keyboard`, as the wrapper and the open filter compute it. -/
def EvdevDevice.isDaemonKeyboard (d : EvdevDevice) : Bool := d.supports .key && d.hasKeyA

variable {F : Type} [F32 F]

namespace DeviceWrapper

def new (device : Device) (path : PathBuf) : DeviceWrapper F where
  device := device
  path := path
  isAbsolute := device.probe.supports .absolute
  isKeyboard := device.probe.isDaemonKeyboard
  touchActive := false
  touchFingers := 0
  lastX := none
  lastY := none
  currentDx := 0
  currentDy := 0
  remainderX := 0.0
  remainderY := 0.0
  touchStartTime := none
  tapEmitted := false
  lastTypingTime := none
  ctrlPressed := false
  altPressed := false
  lastMovementTime := none
  activeClickButton := none

omit [F32 F] in
/-- The bookkeeping of a key event that comes before any routing: the two modifiers, and the
typing time, which a press and a kernel repeat of any key set. -/
def trackKey (te : TimedEvent) (w : DeviceWrapper F) : DeviceWrapper F :=
  if te.ev.eventType = .key then
    let code := te.ev.code
    let down := decide (te.ev.value ≠ 0)
    { w with
      ctrlPressed :=
        if code = KeyCode.keyLeftctrl ∨ code = KeyCode.keyRightctrl then down else w.ctrlPressed
      altPressed :=
        if code = KeyCode.keyLeftalt ∨ code = KeyCode.keyRightalt then down else w.altPressed
      lastTypingTime := if w.isKeyboard && down then some te.now else w.lastTypingTime }
  else w

/-- A wrapper next to the virtual device it writes to. -/
abbrev Step (F : Type) := Fallible (DeviceWrapper F × VirtualDevice) Write

/-- `v_device.emit_raw(ev)?`. -/
def emitRaw (ev : InputEvent) : Step F := fun s =>
  match VirtualDevice.emitRaw ev s.2 with
  | (v,writes,ok) => ((s.1,v),writes,ok)

/-- A change of the wrapper alone. -/
def modify (f : DeviceWrapper F → DeviceWrapper F) : Step F := .update fun s => (f s.1,s.2)

/-- `BTN_TOUCH` with a non-zero value. -/
def touchDown (te : TimedEvent) (w : DeviceWrapper F) : DeviceWrapper F :=
  { w with
    touchActive := true
    touchStartTime := some te.now
    tapEmitted := false
    touchFingers := 1
    lastX := none
    lastY := none }

/-- Whether the lift of `BTN_TOUCH` counts as a tap. -/
def isTap (cfg : InputConfig F) (dwtActive : Bool) (now : Instant) (w : DeviceWrapper F) : Bool :=
  cfg.tapToClick && !w.tapEmitted && !dwtActive &&
    w.touchStartTime.any fun start => decide (start.elapsed now < fromMillis 250)

/-- The click of a tap: press, frame end, release. -/
def emitTap : Step F :=
  (emitRaw (.new .key KeyCode.btnLeft 1)).andThen
    ((emitRaw .synReport).andThen (emitRaw (.new .key KeyCode.btnLeft 0)))

/-- The reset of the tracking state when the finger is lifted. -/
def resetTouch (w : DeviceWrapper F) : DeviceWrapper F :=
  { w with
    lastX := none
    lastY := none
    currentDx := 0
    currentDy := 0
    touchStartTime := none
    touchFingers := 0 }

/-- `BTN_TOUCH` with value zero. -/
def touchUp (te : TimedEvent) (cfg : InputConfig F) (dwtActive : Bool) : Step F := fun s =>
  let w := { s.1 with touchActive := false }
  let tap := if w.isTap cfg dwtActive te.now then emitTap else .skip
  tap.andThen (modify resetTouch) (w,s.2)

/-- The touch and finger-count part of the `EventType::KEY` branch. -/
def processTouchKey (te : TimedEvent) (cfg : InputConfig F) (dwtActive : Bool) : Step F :=
  let code := te.ev.code
  let value := te.ev.value
  if code = KeyCode.btnTouch then
    if value ≠ 0 then modify (touchDown te) else touchUp te cfg dwtActive
  else if code = KeyCode.btnToolDoubletap then
    modify fun w => { w with touchFingers := if value ≠ 0 then 2 else 1 }
  else if code = KeyCode.btnToolTripletap then
    modify fun w => { w with touchFingers := if value ≠ 0 then 3 else 2 }
  else .skip

/-- The code a physical button event is forwarded under. -/
def mapClick (code : ℕ) (value : ℤ) (w : DeviceWrapper F) : DeviceWrapper F × ℕ :=
  if code = KeyCode.btnLeft then
    if value ≠ 0 then
      let mapped :=
        if w.touchFingers = 2 then KeyCode.btnRight
        else if w.touchFingers = 3 then KeyCode.btnMiddle
        else code
      ({ w with activeClickButton := some mapped },mapped)
    else ({ w with activeClickButton := none },w.activeClickButton.getD code)
  else (w,code)

/-- The forwarding part of the `EventType::KEY` branch; every key event comes to it. -/
def forwardButton (te : TimedEvent) : Step F := fun s =>
  match s.1.mapClick te.ev.code te.ev.value with
  | (w,code) =>
    if isTouchpadButton code then emitRaw (.new .key code te.ev.value) (w,s.2)
    else ((w,s.2),[],true)

/-- The `EventType::KEY` branch. -/
def processKey (te : TimedEvent) (cfg : InputConfig F) (dwtActive : Bool) : Step F :=
  (processTouchKey te cfg dwtActive).andThen (forwardButton te)

/-- A position event more than 50 ms after the last one drops both stored coordinates. -/
def dropStalled (te : TimedEvent) (w : DeviceWrapper F) : DeviceWrapper F :=
  if te.ev.code = AbsoluteAxisCode.absX ∨ te.ev.code = AbsoluteAxisCode.absY then
    let stalled := w.lastMovementTime.any fun last =>
      decide (fromMillis 50 < last.elapsed te.now)
    { w with
      lastX := if stalled then none else w.lastX
      lastY := if stalled then none else w.lastY
      lastMovementTime := some te.now }
  else w

/-- The `EventType::ABSOLUTE` branch. -/
def processAxis (te : TimedEvent) (w : DeviceWrapper F) : DeviceWrapper F :=
  let w := w.dropStalled te
  let val := te.ev.value
  if te.ev.code = AbsoluteAxisCode.absX then
    { w with
      currentDx := TrackedDevice.accumulate w.currentDx w.lastX val
      lastX := some val }
  else if te.ev.code = AbsoluteAxisCode.absY then
    { w with
      currentDy := TrackedDevice.accumulate w.currentDy w.lastY val
      lastY := some val }
  else w

/-- A relative event, unless its value is zero. -/
def emitRel (code : ℕ) (value : ℤ) : Step F :=
  if value ≠ 0 then emitRaw (.new .relative code value) else .skip

def hardwareScale : F := 0.18
def wheelScale : F := 0.02

/-- At most one finger: pointer motion. The remainders are stored before the first write. -/
def motionFrame (cfg : InputConfig F) : Step F := fun s =>
  let totalX := F32.ofI32 s.1.currentDx * hardwareScale * cfg.pointerAcceleration + s.1.remainderX
  let totalY := F32.ofI32 s.1.currentDy * hardwareScale * cfg.pointerAcceleration + s.1.remainderY
  let emitX := F32.roundToI32 totalX
  let emitY := F32.roundToI32 totalY
  (emitRel RelativeAxisCode.relX emitX).andThen (emitRel RelativeAxisCode.relY emitY)
    ({ s.1 with
        remainderX := totalX - F32.ofI32 emitX
        remainderY := totalY - F32.ofI32 emitY },s.2)

/-- Two fingers: vertical scrolling; a failed write leaves the horizontal remainder. -/
def scrollFrame (cfg : InputConfig F) : Step F := fun s =>
  let totalY := F32.ofI32 s.1.currentDy * wheelScale + s.1.remainderY
  let emitWheel := F32.roundToI32 totalY
  let wheel :=
    if emitWheel ≠ 0 then
      emitRaw (.new .relative RelativeAxisCode.relWheel
        (if cfg.naturalScrolling then i32Wrap (-emitWheel) else emitWheel))
    else .skip
  wheel.andThen
    (modify fun w => { w with remainderX := 0.0 })
    ({ s.1 with remainderY := totalY - F32.ofI32 emitWheel },s.2)

omit [F32 F] in
def clearDisplacement (w : DeviceWrapper F) : DeviceWrapper F :=
  { w with currentDx := 0, currentDy := 0 }

/-- A frame with displacement; it is cleared only after the last write. -/
def movementFrame (cfg : InputConfig F) : Step F := fun s =>
  let frame :=
    if s.1.touchFingers ≤ 1 then motionFrame cfg
    else if s.1.touchFingers = 2 then scrollFrame cfg
    else .skip
  frame.andThen (modify clearDisplacement) ({ s.1 with tapEmitted := true },s.2)

/-- A frame in the typing window throws its displacement away. -/
def discardFrame (w : DeviceWrapper F) : DeviceWrapper F :=
  { w with
    currentDx := 0
    currentDy := 0
    remainderX := 0.0
    remainderY := 0.0
    tapEmitted := true }

/-- The `EventType::SYNCHRONIZATION` branch. -/
def processSyn (te : TimedEvent) (cfg : InputConfig F) (dwtActive : Bool) : Step F := fun s =>
  if te.ev.code ≠ 0 then emitRaw te.ev s
  else
    let hasMovement := decide (s.1.currentDx ≠ 0 ∨ s.1.currentDy ≠ 0)
    let frame :=
      if dwtActive then modify discardFrame
      else if hasMovement then movementFrame cfg
      else .skip
    frame.andThen (if hasMovement || !dwtActive then emitRaw te.ev else .skip) s

omit [F32 F] in
/-- The typing window of the daemon, from the shared typing time. -/
def dwtActive (cfg : InputConfig F) (typing : Option Instant) (now : Instant) : Bool :=
  cfg.disableWhileTyping && typing.any fun t => decide (t.elapsed now < fromMillis 500)

/-- The part of `process_event` for absolute devices. -/
def processAbsolute (te : TimedEvent) (cfg : InputConfig F) (dwtActive : Bool) : Step F := fun s =>
  let w := if dwtActive then { s.1 with tapEmitted := true } else s.1
  match te.ev.eventType with
  | .key => processKey te cfg dwtActive (w,s.2)
  | .absolute => ((w.processAxis te,s.2),[],true)
  | .synchronization => processSyn te cfg dwtActive (w,s.2)
  | _ => ((w,s.2),[],true)

/-- `DeviceWrapper::process_event`. -/
def processEvent (cfg : InputConfig F) (typing : Option Instant) (te : TimedEvent) : Step F :=
  fun s =>
    let w := s.1.trackKey te
    if !w.isAbsolute then emitRaw te.ev (w,s.2)
    else processAbsolute te cfg (dwtActive cfg typing te.now) (w,s.2)

end DeviceWrapper

/-- What opening a node gives the daemon: what probing reads, the descriptor, and whether the
kernel grants the grab. -/
structure NodeOpen where
  probe : Option EvdevDevice
  rawFd : RawFd
  grabs : Bool
  deriving DecidableEq, Repr

/-- The name filter for pointer hardware. -/
def isPointerName (name : String) : Bool :=
  strContains name "touchpad" || strContains name "trackpoint" || strContains name "elan" ||
    strContains name "synaptics" || strContains name "mouse"

/-- `try_open_device`: pointer hardware must be grabbed, a keyboard is only monitored. -/
def tryOpenDevice (path : PathBuf) (r : NodeOpen) : Option (DeviceWrapper F) :=
  r.probe.bind fun probe =>
    let name := probe.nameOrUnknown
    if isOwnVirtualDevice name then none
    else if isPointerName name then
      if r.grabs then some (.new ⟨probe,r.rawFd,true⟩ path) else none
    else if probe.isDaemonKeyboard then some (.new ⟨probe,r.rawFd,false⟩ path)
    else none

/-- `scan_input_devices`. -/
def scanInputDevices (nodes : List (PathBuf × NodeOpen)) : List (DeviceWrapper F) :=
  nodes.filterMap fun n => tryOpenDevice n.1 n.2

end LibinputRs
