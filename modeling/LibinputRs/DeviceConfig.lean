import LibinputRs.Api

/-! The `libinput_device_config_*` functions of the C interface that set an option of a device or
read one. A setter answers with a status: zero is success and one is "unsupported". -/
namespace LibinputRs

variable {F D : Type}

structure AreaRectangle (D : Type) where
  x1 : D
  y1 : D
  x2 : D
  y2 : D
  deriving DecidableEq, Repr

namespace LibinputDeviceConfig

/-- The device argument; `none` is the null pointer. -/
abbrev Handle (F D : Type) := Option (LibinputDevice F D)

/-- A setter that writes a field of the device; a null device is refused. -/
def store (f : LibinputDevice F D → LibinputDevice F D) (dev : Handle F D) : Handle F D × ℕ :=
  match dev with
  | none => (none,1)
  | some d => (some (f d),0)

/-- A setter that answers with success and writes nothing. -/
def accept (dev : Handle F D) : Handle F D × ℕ := store id dev

/-- A setter of an option that is not supported. -/
def unsupported (dev : Handle F D) : Handle F D × ℕ := (dev,1)

/-- A getter that reads a field of the device; a null device reads as zero. -/
def readField {α : Type} (null : α) (f : LibinputDevice F D → α) (dev : Handle F D) : α :=
  (dev.map f).getD null

/-- `as u32` or `as c_int` on a flag. -/
def flag {α : Type} [Zero α] [One α] (b : Bool) : α := if b then 1 else 0

def tapSetEnabled (enabled : ℕ) : Handle F D → Handle F D × ℕ :=
  store fun d => { d with tapEnabled := decide (enabled ≠ 0) }

def tapGetEnabled : Handle F D → ℕ := readField 0 fun d => flag d.tapEnabled

def tapSetDragEnabled (_e : ℕ) : Handle F D → Handle F D × ℕ := accept

def tapGetDragEnabled (_dev : Handle F D) : ℕ := 1

def tapSetDragLockEnabled (_e : ℕ) : Handle F D → Handle F D × ℕ := accept

def tapGetDragLockEnabled (_dev : Handle F D) : ℕ := 0

def tapSetButtonMap (map : ℕ) : Handle F D → Handle F D × ℕ :=
  store fun d => { d with tapButtonMap := map }

def tapGetButtonMap : Handle F D → ℕ := readField 0 LibinputDevice.tapButtonMap

def threeFgDragSetEnabled (_enable : ℕ) : Handle F D → Handle F D × ℕ := unsupported

def threeFgDragGetEnabled (_dev : Handle F D) : ℕ := 0

def accelSetSpeed [F64 D] (speed : D) : Handle F D → Handle F D × ℕ :=
  store fun d => { d with accelSpeed := F64.clamp speed (-1.0) 1.0 }

def accelGetSpeed [F64 D] : Handle F D → D := readField 0.0 LibinputDevice.accelSpeed

def accelSetProfile (profile : ℕ) : Handle F D → Handle F D × ℕ :=
  store fun d => { d with accelProfile := profile }

def accelGetProfile : Handle F D → ℕ := readField 0 LibinputDevice.accelProfile

def scrollHasNaturalScroll : Handle F D → ℤ := readField 0 fun d => flag d.hasPointer

def scrollSetNaturalScrollEnabled (enabled : ℤ) : Handle F D → Handle F D × ℕ :=
  store fun d => { d with naturalScroll := decide (enabled ≠ 0) }

def scrollGetNaturalScrollEnabled : Handle F D → ℤ := readField 0 fun d => flag d.naturalScroll

def leftHandedSet (enabled : ℤ) : Handle F D → Handle F D × ℕ :=
  store fun d => { d with leftHanded := decide (enabled ≠ 0) }

def leftHandedGet : Handle F D → ℤ := readField 0 fun d => flag d.leftHanded

def scrollSetMethod (method : ℕ) : Handle F D → Handle F D × ℕ :=
  store fun d => { d with scrollMethod := method }

def scrollGetMethod : Handle F D → ℕ := readField 0 LibinputDevice.scrollMethod

def scrollSetButton (_button : ℕ) : Handle F D → Handle F D × ℕ := accept

def scrollGetButton (_dev : Handle F D) : ℕ := 0

def scrollSetButtonLock (_state : ℕ) : Handle F D → Handle F D × ℕ := unsupported

def scrollGetButtonLock (_dev : Handle F D) : ℕ := 0

def clickSetMethod (method : ℕ) : Handle F D → Handle F D × ℕ :=
  store fun d => { d with clickMethod := method }

def clickGetMethod : Handle F D → ℕ := readField 0 LibinputDevice.clickMethod

def clickSetClickfingerButtonMap (_map : ℕ) : Handle F D → Handle F D × ℕ := unsupported

def clickGetClickfingerButtonMap (_dev : Handle F D) : ℕ := 0

def middleEmulationSetEnabled (enabled : ℕ) : Handle F D → Handle F D × ℕ :=
  store fun d => { d with middleEmulation := decide (enabled ≠ 0) }

def middleEmulationGetEnabled : Handle F D → ℕ := readField 0 fun d => flag d.middleEmulation

def dwtSetEnabled (enabled : ℕ) : Handle F D → Handle F D × ℕ :=
  store fun d => { d with dwtEnabled := decide (enabled ≠ 0) }

def dwtGetEnabled : Handle F D → ℕ := readField 0 fun d => flag d.dwtEnabled

def dwtSetTimeout (_millis : ℕ) : Handle F D → Handle F D × ℕ := unsupported

def dwtGetTimeout (_dev : Handle F D) : ℕ := 500

def dwtpSetEnabled (_enabled : ℕ) : Handle F D → Handle F D × ℕ := unsupported

def dwtpGetEnabled (_dev : Handle F D) : ℕ := 0

def dwtpSetTimeout (_millis : ℕ) : Handle F D → Handle F D × ℕ := unsupported

def dwtpGetTimeout (_dev : Handle F D) : ℕ := 500

/-- A null matrix is refused, like a null device. -/
def calibrationSetMatrix (matrix : Option (Vector F 6)) (dev : Handle F D) : Handle F D × ℕ :=
  match matrix with
  | none => (dev,1)
  | some m => store (fun d => { d with calibration := m }) dev

/-- What the caller's matrix receives; nothing from a null device. -/
def calibrationGetMatrix (dev : Handle F D) : Option (Vector F 6) :=
  dev.map LibinputDevice.calibration

def areaSetRectangle (_rect : AreaRectangle D) : Handle F D → Handle F D × ℕ := accept

def areaGetRectangle [F64 D] (_dev : Handle F D) : AreaRectangle D := ⟨0.0,0.0,1.0,1.0⟩

def rotationSetAngle (_degreesCw : ℕ) : Handle F D → Handle F D × ℕ := accept

def rotationGetAngle (_dev : Handle F D) : ℕ := 0

def sendEventsSetMode (_mode : ℕ) : Handle F D → Handle F D × ℕ := accept

def sendEventsGetMode (_dev : Handle F D) : ℕ := 0

end LibinputDeviceConfig
end LibinputRs
