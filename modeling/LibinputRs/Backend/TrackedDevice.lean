import LibinputRs.FfiTypes
import Mathlib.Data.List.Basic

/-! Per-device tracking state of the library backend: classification at opening, the
multi-touch slot table, and the two contacts a pinch compares. -/
namespace LibinputRs

def repeatDelayMs : ℕ := 200
def repeatIntervalMs : ℕ := 25

structure MtSlot (D : Type) where
  active : Bool
  trackingId : ℤ
  x : D
  y : D
  distance : D
  deriving DecidableEq, Repr

structure HeldKey where
  code : ℕ
  tsUsec : ℕ
  lastFire : Instant
  initialFired : Bool
  deriving DecidableEq, Repr

structure TrackedDevice (F D : Type) where
  device : EvdevDevice
  path : PathBuf
  isAbsolute : Bool
  isKeyboard : Bool
  isPointer : Bool
  remainderX : F
  remainderY : F
  touchActive : Bool
  touchFingers : ℕ
  lastX : Option ℤ
  lastY : Option ℤ
  currentDx : ℤ
  currentDy : ℤ
  tapEmitted : Bool
  touchStartTime : Option Instant
  lastMovementTime : Option Instant
  activeClickButton : Option ℕ
  mtSlots : List (MtSlot D)
  currentSlot : ℕ
  pinchActive : Bool
  pinchBaseDist : D
  pinchBaseAngle : D
  pinchFingers : ℤ
  heldKeys : List HeldKey
  lastTypingTime : Option Instant
  libDevice : DevicePtr
  deriving DecidableEq, Repr

variable {F D : Type} [F32 F] [F64 D]

def MtSlot.default : MtSlot D := ⟨false,0,0.0,0.0,0.0⟩

namespace TrackedDevice

def new (device : EvdevDevice) (path : PathBuf) (libDevice : DevicePtr) : TrackedDevice F D where
  device := device
  path := path
  isAbsolute := device.supports .absolute
  isKeyboard := device.hasKeyA
  isPointer := device.hasProperty .pointer || device.hasProperty .buttonpad ||
    (!device.hasKeyA && device.supports .relative)
  remainderX := 0.0
  remainderY := 0.0
  touchActive := false
  touchFingers := 0
  lastX := none
  lastY := none
  currentDx := 0
  currentDy := 0
  tapEmitted := false
  touchStartTime := none
  lastMovementTime := none
  activeClickButton := none
  mtSlots := List.replicate 10 MtSlot.default
  currentSlot := 0
  pinchActive := false
  pinchBaseDist := 0.0
  pinchBaseAngle := 0.0
  pinchFingers := 0
  heldKeys := []
  lastTypingTime := none
  libDevice := libDevice

/-- `self.mt_slots.iter().filter(|s| s.active)`, in slot order. -/
def activeSlots (td : TrackedDevice F D) : List (MtSlot D) := td.mtSlots.filter MtSlot.active

def activeSlotCount (td : TrackedDevice F D) : ℕ := td.activeSlots.length

/-- Distance between the two primary active slots. -/
def primarySlotDistance (td : TrackedDevice F D) : Option D :=
  match td.activeSlots with
  | a :: b :: _ =>
    let dx := a.x - b.x
    let dy := a.y - b.y
    some (F64.sqrt (dx*dx + dy*dy))
  | _ => none

/-- Angle, in degrees, of the vector between the two primary active slots. -/
def primarySlotAngle (td : TrackedDevice F D) : D :=
  match td.activeSlots with
  | a :: b :: _ => F64.atan2Degrees (b.y - a.y) (b.x - a.x)
  | _ => 0.0

/-- Apply a change to the selected slot; a selection outside the table changes nothing. -/
def modifySlot (td : TrackedDevice F D) (f : MtSlot D → MtSlot D) : TrackedDevice F D :=
  { td with mtSlots := td.mtSlots.modify td.currentSlot f }

end TrackedDevice
end LibinputRs
