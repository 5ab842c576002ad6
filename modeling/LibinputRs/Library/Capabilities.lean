import LibinputRs.Automata.Sessions
import LibinputRs.Library.Advertised

/-! Advertised capabilities against the routing of events. `try_open` advertises, `new`
classifies and the drain loop routes by three different formulas, which agree on keyboards,
mice and touchpads and part on devices that are two of these at once. -/
namespace LibinputRs
open Automata

variable {F D : Type}

/-- What an opened device is handed: a kernel event with the settings and the two typing times
it is processed under, or the repeat pass. -/
inductive DeviceInput (F : Type)
  | event (cfg : Settings F) (typing live : Option Instant) (te : TimedEvent)
  | repeats (now : Instant)

/-- The kernel event of an input. -/
def DeviceInput.kernelEvent : DeviceInput F → Option InputEvent
  | .event _ _ _ te => some te.ev
  | .repeats _ => none

/-- The `BTN_` codes among the key codes of the vendored crate. -/
def isButtonCode (code : ℕ) : Bool :=
  decide ((0x100 ≤ code ∧ code ≤ 0x151) ∨ (0x220 ≤ code ∧ code ≤ 0x223) ∨
    (0x2c0 ≤ code ∧ code ≤ 0x2e7))

namespace InputEvent

/-- The press or the release of a key that is not a button. -/
def PressesOrReleasesKey (ev : InputEvent) : Prop :=
  ev.eventType = .key ∧ (ev.value = 1 ∨ ev.value = 0) ∧ isButtonCode ev.code = false

/-- A motion or a wheel step. -/
def MovesOrScrolls (ev : InputEvent) : Prop :=
  ev.eventType = .relative ∧ (ev.code = RelativeAxisCode.relX ∨ ev.code = RelativeAxisCode.relY ∨
    ev.code = RelativeAxisCode.relWheel ∨ ev.code = RelativeAxisCode.relHwheel)

end InputEvent

namespace EvdevDevice

/-- The device can send the event: it has the key, or events of the type. -/
def Sends (device : EvdevDevice) (ev : InputEvent) : Prop :=
  match ev.eventType with
  | .key => ∃ keys, device.supportedKeys = some keys ∧ ev.code ∈ keys
  | .synchronization => True
  | t => device.supports t = true

/-- Two kinds of device in one node: a keyboard with absolute axes, or relative axes next to
either. -/
def IsHybrid (device : EvdevDevice) : Prop :=
  (device.hasKeyA = true ∧ device.supports .absolute = true) ∨
    (device.supports .relative = true ∧
      (device.supports .absolute = true ∨ device.hasKeyA = true))

instance (device : EvdevDevice) : Decidable device.IsHybrid :=
  inferInstanceAs (Decidable (_ ∨ _))

end EvdevDevice

namespace LibinputEventType

def isPointer : LibinputEventType → Bool
  | .pointerMotion | .pointerMotionAbsolute | .pointerButton | .pointerAxis => true
  | .pointerScrollWheel | .pointerScrollFinger | .pointerScrollContinuous => true
  | _ => false

def isGesture : LibinputEventType → Bool
  | .gestureSwipeBegin | .gestureSwipeUpdate | .gestureSwipeEnd => true
  | .gesturePinchBegin | .gesturePinchUpdate | .gesturePinchEnd => true
  | _ => false

end LibinputEventType

/-- What an input made the backend queue agrees with what the device object advertises. -/
structure LibinputDevice.Agrees (dev : LibinputDevice F D) (td : TrackedDevice F D)
    (i : DeviceInput F) (out : List (LibinputEvent D)) : Prop where
  key : dev.hasKeyboard = true → ∀ ev ∈ i.kernelEvent, ev.PressesOrReleasesKey →
    out = [.key td.libDevice (systimeToUsec ev.time) ev.code (asU32 ev.value)]
  relative : dev.hasPointer = true → td.device.supports .relative = true →
    ∀ ev ∈ i.kernelEvent, ev.MovesOrScrolls →
      ∃ e, out = [e] ∧ e.device = td.libDevice ∧ e.eventType.isPointer = true
  advertised : ∀ e ∈ out, (e.eventType = .keyboardKey → dev.hasKeyboard = true) ∧
    (e.eventType.isPointer = true → dev.hasPointer = true) ∧
    (e.eventType.isGesture = true → dev.hasGesture = true)

namespace TrackedDevice
variable [F32 F] [F64 D]

section Routes

omit [F32 F] [F64 D] in
theorem processKeyboardEvent_key (te : TimedEvent) (td : TrackedDevice F D) (t : Option Instant)
    (hev : te.ev.PressesOrReleasesKey) : (td.processKeyboardEvent te t).2.2 =
      [.key td.libDevice (systimeToUsec te.ev.time) te.ev.code (asU32 te.ev.value)] := by
  obtain ⟨htype,hvalue,-⟩ := hev
  rcases td.processKeyboardEvent_cases te t with ⟨_,hone,h⟩ | ⟨_,hzero,h⟩ | ⟨hother,_⟩
  · rw [h,hone]
    rfl
  · rw [h,hzero]
    rfl
  · exact absurd ⟨htype,hvalue⟩ hother

omit [F32 F] in
theorem processRelativeEvent_moves (te : TimedEvent) (td : TrackedDevice F D)
    (hev : te.ev.MovesOrScrolls) : ∃ e, td.processRelativeEvent te = [e] ∧
      e.device = td.libDevice ∧ e.eventType.isPointer = true := by
  obtain ⟨htype,hcode⟩ := hev
  unfold processRelativeEvent
  rw [htype]
  rcases hcode with hcode | hcode | hcode | hcode <;> rw [hcode]
  · exact ⟨_,rfl,rfl,rfl⟩
  · exact ⟨_,rfl,rfl,rfl⟩
  · exact ⟨_,rfl,rfl,rfl⟩
  · exact ⟨_,rfl,rfl,rfl⟩

omit [F32 F] in
theorem processRelativeEvent_pointer (te : TimedEvent) (td : TrackedDevice F D) :
    ∀ e ∈ td.processRelativeEvent te, e.eventType.isPointer = true := by
  intro e he
  unfold processRelativeEvent at he
  dsimp only at he
  split at he
  · split_ifs at he
    all_goals simp only [List.mem_singleton,List.not_mem_nil] at he
    all_goals rw [he]; rfl
  · split_ifs at he
    · rw [List.mem_singleton.mp he]
      rfl
    · cases he
  · cases he

end Routes

variable [FloatCast F D]

/-- What one input does to an opened device. -/
def handle (td : TrackedDevice F D) : DeviceInput F → TrackedDevice F D × List (LibinputEvent D)
  | .event cfg typing live te =>
    match processEvent cfg typing (td,live) te with
    | ((td,_),out) => (td,out)
  | .repeats now => td.emitKeyRepeats now

theorem handle_identity (td : TrackedDevice F D) (i : DeviceInput F) :
    (td.handle i).1.identity = td.identity := by
  cases i with
  | event cfg typing live te => exact processEvent_identity cfg typing (td,live) te
  | repeats now => exact emitKeyRepeats_identity now td

/-- Nothing an opened device is handed changes what it was opened as. -/
theorem run_handle_identity (td : TrackedDevice F D) (inputs : List (DeviceInput F)) :
    (run handle td inputs).1.identity = td.identity :=
  run_invariant handle (fun td' => td'.identity = td.identity)
    (fun td' i _ h => (td'.handle_identity i).trans h) rfl

/-- A device that does not take the mouse route queues nothing for relative events. -/
theorem handle_relative (td : TrackedDevice F D) (i : DeviceInput F) {ev : InputEvent}
    (hev : ev ∈ i.kernelEvent) (htype : ev.eventType = .relative)
    (hroute : td.isAbsolute = true ∨ td.isKeyboard = true) : (td.handle i).2 = [] := by
  cases i with
  | repeats now => cases hev
  | event cfg typing live te =>
    obtain rfl := Option.some.inj hev
    change (processEvent cfg typing (td,live) te).2 = []
    rcases processEvent_cases cfg typing (td,live) te with
      ⟨_,_,h⟩ | ⟨hkey,habs,_⟩ | ⟨_,dwt,_,h⟩ | ⟨_,_,_,h⟩
    · rw [h]
      rcases td.processKeyboardEvent_cases te live with ⟨hkey,_⟩ | ⟨hkey,_⟩ | ⟨_,h⟩
      · rw [htype] at hkey
        cases hkey
      · rw [htype] at hkey
        cases hkey
      · exact congrArg (·.2.2) h
    · exact absurd hroute (by simp_all)
    · rw [h]
      simp [processAbsoluteEvent,htype]
    · rw [h]

/-- A device with absolute axes queues pointer and gesture events only. -/
theorem handle_absolute (td : TrackedDevice F D) (i : DeviceInput F) {ev : InputEvent}
    (hev : ev ∈ i.kernelEvent) (habs : td.isAbsolute = true) :
    ∀ e ∈ (td.handle i).2, e.eventType ≠ .keyboardKey := by
  cases i with
  | repeats now => cases hev
  | event cfg typing live te =>
    change ∀ e ∈ (processEvent cfg typing (td,live) te).2, _
    intro e he hkey
    rcases processEvent_cases cfg typing (td,live) te with
      ⟨_,hplain,_⟩ | ⟨_,hplain,_⟩ | ⟨_,dwt,_,h⟩ | ⟨_,_,_,h⟩
    · simp [habs] at hplain
    · simp [habs] at hplain
    · rw [h] at he
      have htype := ((processAbsoluteEvent_step te _ _ _ _ td).out e he).2
      rw [hkey] at htype
      cases htype
    · rw [h] at he
      cases he

end TrackedDevice

section Agreement

/-- The three formulas say the same: the node is a keyboard, a mouse or a touchpad. -/
structure OneKind (dev : LibinputDevice F D) (td : TrackedDevice F D) : Prop where
  keyboard : dev.hasKeyboard = td.isKeyboard
  gesture : dev.hasGesture = (td.isAbsolute && dev.hasPointer)
  pointer : td.isKeyboard = false → td.isPointer = true ∧ dev.hasPointer = true
  keys : td.isKeyboard = true → td.isAbsolute = false
  relative : td.device.supports .relative = true → td.isAbsolute = false ∧ td.isKeyboard = false

namespace OneKind
variable {dev : LibinputDevice F D} {td : TrackedDevice F D}

/-- Key events of a keyboard are advertised. -/
theorem keyOf (h : OneKind dev td) (hkey : td.isKeyboard = true) {out : List (LibinputEvent D)}
    (hout : ∀ e ∈ out, e.KeyOf td.libDevice) : ∀ e ∈ out,
      (e.eventType = .keyboardKey → dev.hasKeyboard = true) ∧
      (e.eventType.isPointer = true → dev.hasPointer = true) ∧
      (e.eventType.isGesture = true → dev.hasGesture = true) := by
  intro e he
  obtain ⟨t,code,state,rfl⟩ := hout e he
  exact ⟨fun _ => h.keyboard.trans hkey,nofun,nofun⟩

variable [F32 F] [F64 D]

theorem of_not_hybrid
    (hclass : td.identity = (.new td.device td.path td.libDevice : TrackedDevice F D).identity)
    (hpass : passesFilters td.device = true)
    (hcap : dev.capabilities = (.ofEvdev td.device td.path : LibinputDevice F D).capabilities)
    (hsingle : ¬ td.device.IsHybrid) : OneKind dev td := by
  simp only [TrackedDevice.identity,TrackedDevice.new,Prod.mk.injEq] at hclass
  obtain ⟨-,-,habs,hkey,hpointer,-⟩ := hclass
  simp only [LibinputDevice.capabilities,LibinputDevice.ofEvdev,Prod.mk.injEq] at hcap
  obtain ⟨hkeyboard,hhasPointer,-,hgesture⟩ := hcap
  simp only [EvdevDevice.IsHybrid,not_or,not_and,Bool.not_eq_true] at hsingle
  have hkinds : advertisedPointer td.device = true ∨ td.device.hasKeyA = true :=
    Bool.or_eq_true_iff.mp (Bool.and_eq_true_iff.mp hpass).2
  rw [← habs,← hkey] at hsingle
  refine ⟨hkeyboard.trans hkey.symm,?_,fun hplain => ?_,hsingle.1,hsingle.2⟩
  · rw [hgesture,habs,hhasPointer]
  · have hA : td.device.hasKeyA = false := hkey.symm.trans hplain
    have hadvertised : advertisedPointer td.device = true := by simpa [hA] using hkinds
    refine ⟨?_,hhasPointer.trans hadvertised⟩
    simpa [hpointer,hA,advertisedPointer] using hadvertised

omit [F32 F] [F64 D] in
theorem agrees_keyboard (h : OneKind dev td) (hkey : td.isKeyboard = true) (cfg : Settings F)
    (typing live : Option Instant) (te : TimedEvent) :
    dev.Agrees td (.event cfg typing live te) (td.processKeyboardEvent te live).2.2 := by
  refine ⟨fun _ ev hev hpress => ?_,fun _ hrel => ?_,h.keyOf hkey (td.processKeyboardEvent_out te live)⟩
  · obtain rfl := Option.some.inj hev
    exact td.processKeyboardEvent_key te live hpress
  · exact absurd hkey (by simp [(h.relative hrel).2])

omit [F32 F] in
theorem agrees_mouse (h : OneKind dev td) (hkey : td.isKeyboard = false) (cfg : Settings F)
    (typing live : Option Instant) (te : TimedEvent) :
    dev.Agrees td (.event cfg typing live te) (td.processRelativeEvent te) := by
  refine ⟨fun hdev => ?_,fun _ _ ev hev hmoves => ?_,fun e he => ?_⟩
  · simp [h.keyboard,hkey] at hdev
  · obtain rfl := Option.some.inj hev
    exact td.processRelativeEvent_moves te hmoves
  · have htype := td.processRelativeEvent_pointer te e he
    refine ⟨fun hk => ?_,fun _ => (h.pointer hkey).2,fun hg => ?_⟩
    · simp [hk,LibinputEventType.isPointer] at htype
    · cases ht : e.eventType <;> simp [ht,LibinputEventType.isPointer,LibinputEventType.isGesture]
        at htype hg

variable [FloatCast F D]

theorem agrees_touchpad (h : OneKind dev td) (habs : td.isAbsolute = true) (cfg : Settings F)
    (typing live : Option Instant) (te : TimedEvent) (dwt : Bool) :
    dev.Agrees td (.event cfg typing live te)
      (td.processAbsoluteEvent te cfg.cfgTap cfg.cfgNat cfg.cfgAccel dwt).2 := by
  have hkey : td.isKeyboard = false := by
    by_contra hkey
    exact absurd (h.keys (by simpa using hkey)) (by simp [habs])
  have hpointer := (h.pointer hkey).2
  refine ⟨fun hdev => ?_,fun _ hrel => ?_,fun e he => ?_⟩
  · simp [h.keyboard,hkey] at hdev
  · exact absurd habs (by simp [(h.relative hrel).1])
  · have htype := ((TrackedDevice.processAbsoluteEvent_step te _ _ _ _ td).out e he).2
    refine ⟨fun hk => ?_,fun _ => hpointer,fun _ => ?_⟩
    · simp [hk,LibinputEventType.isPointerOrGesture] at htype
    · rw [h.gesture,habs,hpointer]
      rfl

/-- Whatever a device of one kind is handed, it is routed by what it advertises. -/
theorem agrees (h : OneKind dev td) (i : DeviceInput F) : dev.Agrees td i (td.handle i).2 := by
  cases i with
  | repeats now =>
    refine ⟨nofun,nofun,?_⟩
    by_cases hkey : td.isKeyboard = true
    · apply h.keyOf hkey
      intro e he
      obtain ⟨hk,_,rfl⟩ := td.emitKeyRepeats_out now e he
      exact ⟨_,_,_,rfl⟩
    · simp [TrackedDevice.handle,TrackedDevice.emitKeyRepeats,hkey]
  | event cfg typing live te =>
    change dev.Agrees td _ (TrackedDevice.processEvent cfg typing (td,live) te).2
    rcases TrackedDevice.processEvent_cases cfg typing (td,live) te with
      ⟨hkey,_,heq⟩ | ⟨hkey,_,_,heq⟩ | ⟨habs,dwt,_,heq⟩ | ⟨hkey,_,hpointer,_⟩
    · rw [heq]
      exact h.agrees_keyboard hkey cfg typing live te
    · rw [heq]
      exact h.agrees_mouse hkey cfg typing live te
    · rw [heq]
      exact h.agrees_touchpad habs cfg typing live te dwt
    · simp [(h.pointer hkey).1] at hpointer

end OneKind
variable [F32 F] [F64 D] [FloatCast F D]

/-- A hybrid device sends an event that is routed against what it advertises. -/
theorem hybrid_disagrees (device : EvdevDevice) (path : PathBuf) (d : DevicePtr)
    (hhybrid : device.IsHybrid) : ∃ i : DeviceInput F, (∀ ev ∈ i.kernelEvent, device.Sends ev) ∧
      ¬ (LibinputDevice.ofEvdev device path).Agrees (.new device path d) i
        ((.new device path d : TrackedDevice F D).handle i).2 := by
  rcases hhybrid with ⟨hA,habs⟩ | ⟨hrel,hroute⟩
  · refine ⟨.event ⟨true,true,true,1.0⟩ none none ⟨⟨0,.key,KeyCode.keyA,1⟩,0⟩,fun ev hev => ?_,?_⟩
    · obtain rfl := Option.some.inj hev
      simpa [EvdevDevice.hasKeyA,Option.any_eq_true,EvdevDevice.Sends] using hA
    · intro h
      have hkey := h.key hA _ rfl ⟨rfl,.inl rfl,rfl⟩
      have hquiet := TrackedDevice.handle_absolute (.new device path d : TrackedDevice F D)
        (.event ⟨true,true,true,1.0⟩ none none ⟨⟨0,.key,KeyCode.keyA,1⟩,0⟩) rfl habs
      rw [hkey] at hquiet
      exact hquiet _ (List.mem_singleton_self _) rfl
  · refine ⟨.event ⟨true,true,true,1.0⟩ none none ⟨⟨0,.relative,RelativeAxisCode.relX,1⟩,0⟩,
      fun ev hev => ?_,?_⟩
    · obtain rfl := Option.some.inj hev
      exact hrel
    · intro h
      have hpointer : advertisedPointer device = true := by simp [advertisedPointer,hrel]
      obtain ⟨e,he,_⟩ := h.relative hpointer hrel _ rfl ⟨rfl,.inl rfl⟩
      have hquiet := TrackedDevice.handle_relative (.new device path d : TrackedDevice F D)
        (.event ⟨true,true,true,1.0⟩ none none ⟨⟨0,.relative,RelativeAxisCode.relX,1⟩,0⟩)
        rfl rfl hroute
      rw [hquiet] at he
      cases he

/-- Over every stream that an opened device can send, advertised capabilities and routing agree
exactly when the device is not a hybrid. -/
theorem capabilities_agree_iff (device : EvdevDevice) (path : PathBuf) (d : DevicePtr)
    (hpass : passesFilters device = true) :
    (∀ inputs : List (DeviceInput F), (∀ i ∈ inputs, ∀ ev ∈ i.kernelEvent, device.Sends ev) →
      AtEach (fun before i =>
        let td := (run TrackedDevice.handle (.new device path d : TrackedDevice F D) before).1
        (LibinputDevice.ofEvdev device path).Agrees td i (td.handle i).2) inputs) ↔
      ¬ device.IsHybrid := by
  constructor
  · intro h hhybrid
    obtain ⟨i,hsends,hbad⟩ := hybrid_disagrees (F := F) (D := D) device path d hhybrid
    exact hbad (atEach_singleton.mp (h [i] (by simpa using hsends)))
  · intro hsingle inputs _ before i back _
    have hid := TrackedDevice.run_handle_identity (.new device path d : TrackedDevice F D) before
    have hdevice : (run TrackedDevice.handle (.new device path d : TrackedDevice F D) before).1.device =
        device := congrArg (·.1) hid
    have hpath := TrackedDevice.path_of_identity hid
    have hpointer := TrackedDevice.libDevice_of_identity hid
    refine (OneKind.of_not_hybrid ?_ ?_ ?_ ?_).agrees i
    · rw [hid,hdevice,hpath,hpointer]
      rfl
    · rwa [hdevice]
    · rw [hdevice,hpath]
      rfl
    · rwa [hdevice]

/-- In every state a run reaches, a tracked device of one kind is routed by what its device
object advertises. -/
theorem LibinputContext.runCalls_agrees (interface : LibinputInterface) (inotify : Bool)
    (calls : List (Call D)) {fd : RawFd} {td : TrackedDevice F D}
    (ht : ((new (F := F) interface inotify).runCalls calls).1.tracked fd = some td)
    (hsingle : ¬ td.device.IsHybrid) : ∃ dev,
      ((new (F := F) interface inotify).runCalls calls).1.devices[td.libDevice]? = some dev ∧
      ∀ i, dev.Agrees td i (td.handle i).2 := by
  have hopened := runCalls_advertised (F := F) interface inotify calls fd td ht
  obtain ⟨dev,hdev,hcap⟩ := hopened.advertised
  exact ⟨dev,hdev,(OneKind.of_not_hybrid hopened.classified hopened.passes hcap hsingle).agrees⟩

/-- A mouse: the motion is queued. -/
theorem mouse_motion_agrees :
    AtEach (fun before i =>
      let td := (run TrackedDevice.handle (.new plainMouse "/dev/input/event3" 0 : TrackedDevice ℚ ℚ)
        before).1
      (LibinputDevice.ofEvdev plainMouse "/dev/input/event3").Agrees td i (td.handle i).2)
      [.event ⟨true,true,true,1⟩ none none ⟨⟨1,.relative,RelativeAxisCode.relX,1⟩,0⟩] :=
  (capabilities_agree_iff plainMouse "/dev/input/event3" 0 (by decide +kernel)).mpr
    (by decide +kernel) _ (by
      intro i hi ev hev
      obtain rfl := List.mem_singleton.mp hi
      obtain rfl := Option.some.inj hev
      rfl)

/-- A keyboard with a volume wheel. -/
def dialKeyboard : EvdevDevice :=
  ⟨some "Keyboard with dial",[.key,.relative],some [KeyCode.keyA],[]⟩

/-- The wheel of the keyboard is turned, and nothing is queued. -/
theorem wheel_of_keyboard_dropped :
    passesFilters dialKeyboard = true ∧
    dialKeyboard.Sends ⟨1,.relative,RelativeAxisCode.relWheel,1⟩ ∧
    ¬ AtEach (fun before i =>
      let td := (run TrackedDevice.handle
        (.new dialKeyboard "/dev/input/event3" 0 : TrackedDevice ℚ ℚ) before).1
      (LibinputDevice.ofEvdev dialKeyboard "/dev/input/event3").Agrees td i (td.handle i).2)
      [.event ⟨true,true,true,1⟩ none none ⟨⟨1,.relative,RelativeAxisCode.relWheel,1⟩,0⟩] := by
  refine ⟨by decide +kernel,rfl,fun h => ?_⟩
  obtain ⟨e,he,_⟩ := (atEach_singleton.mp h).relative rfl rfl _ rfl ⟨rfl,.inr (.inr (.inl rfl))⟩
  cases he

end Agreement
end LibinputRs
