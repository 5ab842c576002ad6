import LibinputRs.Automata.Fallible
import LibinputRs.Evdev
import LibinputRs.Floats

/-! The daemon's configuration and its virtual device. Whether the kernel accepts a write is
not for the program to decide, so the virtual device carries the outcomes to come. -/
namespace LibinputRs
open Automata

structure InputConfig (F : Type) where
  tapToClick : Bool
  naturalScrolling : Bool
  pointerAcceleration : F
  disableWhileTyping : Bool
  deriving DecidableEq, Repr

/-- `InputConfig::default`. -/
def InputConfig.default {F : Type} [OfScientific F] : InputConfig F := ⟨true,true,1.0,true⟩

/-- `InputEvent::new`; the time of such an event is zero. -/
def InputEvent.new (eventType : EventType) (code : ℕ) (value : ℤ) : InputEvent :=
  ⟨0,eventType,code,value⟩

/-- The `SYN_REPORT` that ends a frame. -/
def InputEvent.synReport : InputEvent := .new .synchronization 0 0

/-- One write to the uinput descriptor, and whether the kernel accepted it. -/
structure Write where
  ev : InputEvent
  accepted : Bool
  deriving DecidableEq, Repr

/-- The uinput device, as the outcomes of the writes still to come. -/
structure VirtualDevice where
  accepts : ℕ → Bool

namespace VirtualDevice

/-- The keys that `VirtualDevice::new` declares. -/
def keys : List ℕ := [KeyCode.btnLeft,KeyCode.btnRight,KeyCode.btnMiddle]

/-- The relative axes that it declares. -/
def relAxes : List ℕ := [RelativeAxisCode.relX,RelativeAxisCode.relY,RelativeAxisCode.relWheel]

/-- Whether the kernel passes an event of the virtual device on. -/
def declares (eventType : EventType) (code : ℕ) : Bool :=
  match eventType with
  | .synchronization => true
  | .key => decide (code ∈ keys)
  | .relative => decide (code ∈ relAxes)
  | _ => false

/-- `write_raw` of a single event. -/
def writeRaw (ev : InputEvent) : Fallible VirtualDevice Write := fun v =>
  (⟨fun n => v.accepts (n + 1)⟩,[⟨ev,v.accepts 0⟩],v.accepts 0)

/-- `VirtualDevice::emit_raw`: `emit` writes the event and then a `SYN_REPORT` of its own. -/
def emitRaw (ev : InputEvent) : Fallible VirtualDevice Write :=
  (writeRaw ev).andThen (writeRaw .synReport)

/-- A virtual device whose every write succeeds. -/
def reliable : VirtualDevice := ⟨fun _ => true⟩

/-- Whatever the outcomes, only the event and a `SYN_REPORT` are written. -/
theorem emitRaw_ev (ev : InputEvent) (v : VirtualDevice) :
    ∀ w ∈ (emitRaw ev v).2.1, w.ev = ev ∨ w.ev = .synReport := by
  have hwrite : ∀ ev', ev' = ev ∨ ev' = .synReport →
      (writeRaw ev').Ensures (fun _ => True) fun w => w.ev = ev ∨ w.ev = .synReport :=
    fun ev' hev' v _ => ⟨trivial,List.forall_mem_singleton.mpr hev'⟩
  exact ((hwrite _ (.inl rfl)).andThen (hwrite _ (.inr rfl)) v trivial).2

end VirtualDevice
end LibinputRs
