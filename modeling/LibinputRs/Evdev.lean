import Mathlib.Algebra.Ring.Int.Defs
import Mathlib.Algebra.Ring.Nat
import Mathlib.Data.Int.Notation
import Mathlib.Data.List.Basic

/-! What the library reads from the kernel: input events, the capabilities of an opened
node, and the monotonic clock. Event codes keep the numbers of the vendored crate. -/
namespace LibinputRs

/-- A reading of the monotonic clock, in nanoseconds. -/
abbrev Instant := ℕ

/-- `Duration::from_millis`, in nanoseconds. -/
def fromMillis (n : ℕ) : ℕ := n*1000000

/-- `Instant::elapsed` and `Instant::duration_since` saturate at zero, as truncated
subtraction does. -/
def Instant.elapsed (start now : Instant) : ℕ := now - start

/-- Signed 32-bit arithmetic wraps. -/
def i32Wrap (z : ℤ) : ℤ := Int.bmod z (2^32)

theorem i32Wrap_add_wrap (a b : ℤ) : i32Wrap (a + i32Wrap b) = i32Wrap (a + b) :=
  Int.add_bmod_bmod

theorem i32Wrap_wrap_add (a b : ℤ) : i32Wrap (i32Wrap a + b) = i32Wrap (a + b) :=
  Int.bmod_add_bmod

theorem i32Wrap_wrap_sub (a b : ℤ) : i32Wrap (i32Wrap a - b) = i32Wrap (a - b) :=
  Int.bmod_sub_bmod

@[simp] theorem i32Wrap_i32Wrap (a : ℤ) : i32Wrap (i32Wrap a) = i32Wrap a := Int.bmod_bmod

/-- The integer is one of 32 signed bits. -/
def FitsI32 (z : ℤ) : Prop := -2^31 ≤ z ∧ z ≤ 2^31 - 1

instance (z : ℤ) : Decidable (FitsI32 z) := inferInstanceAs (Decidable (_ ∧ _))

theorem i32Wrap_of_fits {z : ℤ} (h : FitsI32 z) : i32Wrap z = z := by
  obtain ⟨hlow,hhigh⟩ := h
  unfold i32Wrap
  rw [Int.bmod_def]
  split_ifs <;> omega

theorem fitsI32_i32Wrap (z : ℤ) : FitsI32 (i32Wrap z) := by
  unfold i32Wrap FitsI32
  rw [Int.bmod_def]
  split_ifs <;> omega

/-- `value as u32`. -/
def asU32 (z : ℤ) : ℕ := (z % 2^32).toNat

/-- `value as usize`, on a 64-bit target. -/
def asUsize (z : ℤ) : ℕ := (z % 2^64).toNat

abbrev RawFd := ℤ

/-- A path as `PathBuf` compares it, by its components: repeated and trailing slashes and a `.`
elsewhere than at the start of a relative path make no difference. -/
structure PathBuf where
  hasRoot : Bool
  components : List (List Char)
  deriving DecidableEq, Repr

/-- The name of a file in a directory, which is one component of a path. -/
structure FileName where
  text : String
  valid : text ≠ "" ∧ text ≠ "." ∧ text ≠ ".." ∧ '/' ∉ text.toList
  deriving DecidableEq, Repr

namespace PathBuf

/-- `PathBuf::from`, up to the spelling of the path. -/
def ofString (s : String) : PathBuf :=
  let parts := s.toList.splitOn '/'
  ⟨decide (s.toList.head? = some '/'),
    (parts.take 1).filter (· = ['.']) ++ parts.filter fun part => part ≠ [] ∧ part ≠ ['.']⟩

instance : Coe String PathBuf := ⟨ofString⟩

/-- `Path::join` with the name of a file. -/
def join (p : PathBuf) (name : FileName) : PathBuf :=
  { p with components := p.components ++ [name.text.toList] }

/-- `CString::new` refuses the path. -/
def HasNul (p : PathBuf) : Prop := ∃ part ∈ p.components,'\x00' ∈ part

instance (p : PathBuf) : Decidable p.HasNul := inferInstanceAs (Decidable (∃ part ∈ _,_))

theorem join_injective (p : PathBuf) {name name' : FileName} (h : p.join name = p.join name') :
    name = name' := by
  obtain ⟨text,valid⟩ := name
  obtain ⟨text',valid'⟩ := name'
  have hparts := congrArg components h
  simp only [join,List.append_cancel_left_eq,List.cons.injEq,and_true,String.toList_inj] at hparts
  subst hparts
  rfl

example : (("/dev//input/./event3/" : String) : PathBuf) = "/dev/input/event3" := by decide

end PathBuf

namespace FileName

/-- Three names of nodes, for the runs on fixed inputs. -/
def event3 : FileName := ⟨"event3",by decide⟩
def event4 : FileName := ⟨"event4",by decide⟩
def event5 : FileName := ⟨"event5",by decide⟩

end FileName

inductive EventType
  | synchronization
  | key
  | relative
  | absolute
  | other (number : ℕ)
  deriving DecidableEq, Repr

inductive PropType
  | pointer
  | buttonpad
  | other (number : ℕ)
  deriving DecidableEq, Repr

/-- One kernel event; `time` counts microseconds from the epoch. -/
structure InputEvent where
  time : ℤ
  eventType : EventType
  code : ℕ
  value : ℤ
  deriving DecidableEq, Repr

namespace InputEvent

/-- The event is a `SYN_REPORT`. -/
def IsReport (ev : InputEvent) : Prop := ev.eventType = .synchronization ∧ ev.code = 0

/-- The event is a `SYN_DROPPED`. -/
def IsSynDropped (ev : InputEvent) : Prop := ev.eventType = .synchronization ∧ ev.code = 3

instance (ev : InputEvent) : Decidable ev.IsReport := inferInstanceAs (Decidable (_ ∧ _))

instance (ev : InputEvent) : Decidable ev.IsSynDropped := inferInstanceAs (Decidable (_ ∧ _))

end InputEvent

namespace KeyCode
def keyR : ℕ := 19
def keyLeftctrl : ℕ := 29
def keyA : ℕ := 30
def keyLeftalt : ℕ := 56
def keyRightctrl : ℕ := 97
def keyRightalt : ℕ := 100
def btnLeft : ℕ := 0x110
def btnRight : ℕ := 0x111
def btnMiddle : ℕ := 0x112
def btnSide : ℕ := 0x113
def btnExtra : ℕ := 0x114
def btnTouch : ℕ := 0x14a
def btnToolDoubletap : ℕ := 0x14d
def btnToolTripletap : ℕ := 0x14e
def btnToolQuadtap : ℕ := 0x14f
end KeyCode

namespace RelativeAxisCode
def relX : ℕ := 0x00
def relY : ℕ := 0x01
def relHwheel : ℕ := 0x06
def relWheel : ℕ := 0x08
end RelativeAxisCode

namespace AbsoluteAxisCode
def absX : ℕ := 0x00
def absY : ℕ := 0x01
def absMtSlot : ℕ := 0x2f
def absMtPositionX : ℕ := 0x35
def absMtPositionY : ℕ := 0x36
def absMtTrackingId : ℕ := 0x39
def absMtDistance : ℕ := 0x3b
end AbsoluteAxisCode

/-- `systime_to_usec`: instants before the epoch become zero, and the count is cut to 64 bits. -/
def systimeToUsec (time : ℤ) : ℕ := time.toNat % 2^64

/-- What probing an opened node yields: its name and the capabilities the code asks for. -/
structure EvdevDevice where
  name : Option String
  supportedEvents : List EventType
  supportedKeys : Option (List ℕ)
  properties : List PropType
  deriving DecidableEq, Repr

namespace EvdevDevice

/-- `device.name().unwrap_or("Unknown")`. -/
def nameOrUnknown (d : EvdevDevice) : String := d.name.getD "Unknown"

def supports (d : EvdevDevice) (t : EventType) : Bool := decide (t ∈ d.supportedEvents)

def hasProperty (d : EvdevDevice) (p : PropType) : Bool := decide (p ∈ d.properties)

/-- `supported_keys().is_some_and(|k| k.contains(KEY_A))`. -/
def hasKeyA (d : EvdevDevice) : Bool := d.supportedKeys.any (fun k => decide (KeyCode.keyA ∈ k))

end EvdevDevice

/-- What probing reads from three plain devices, for the runs on fixed inputs. -/
def plainKeyboard : EvdevDevice := ⟨some "AT keyboard",[.key],some [KeyCode.keyA],[]⟩

def plainMouse : EvdevDevice := ⟨some "Optical mouse",[.key,.relative],some [KeyCode.btnLeft],[]⟩

def plainTouchpad : EvdevDevice :=
  ⟨some "Synaptics touchpad",[.key,.absolute],some [KeyCode.btnTouch],[.pointer,.buttonpad]⟩

/-- `str::contains`. -/
def strContains (s pattern : String) : Bool :=
  s.toList.tails.any fun rest => pattern.toList.isPrefixOf rest

/-- The filter that keeps both programs away from the daemon's virtual device. -/
def isOwnVirtualDevice (name : String) : Bool :=
  strContains name "virtual pointer" || strContains name "libinput-rs"

/-- A kernel event together with the clock reading at the moment it is processed. -/
structure TimedEvent where
  ev : InputEvent
  now : Instant
  deriving DecidableEq, Repr

end LibinputRs
