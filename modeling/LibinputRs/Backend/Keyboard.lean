import LibinputRs.Backend.TrackedDevice

/-! Keyboards and mice: presses and releases, the synthetic repeats of held keys, and the
direct translation of relative events. -/
namespace LibinputRs

variable {F D : Type}

namespace TrackedDevice

/-- `BackendState::process_keyboard_event`, with the shared typing time threaded through. -/
def processKeyboardEvent (te : TimedEvent) (td : TrackedDevice F D)
    (globalTypingTime : Option Instant) :
    TrackedDevice F D × Option Instant × List (LibinputEvent D) :=
  let tsUsec := systimeToUsec te.ev.time
  if te.ev.eventType ≠ .key then (td,globalTypingTime,[])
  else if te.ev.value = 1 then
    ({ td with
        lastTypingTime := some te.now
        heldKeys := td.heldKeys ++ [⟨te.ev.code,tsUsec,te.now,false⟩] },
      some te.now, [.key td.libDevice tsUsec te.ev.code 1])
  else if te.ev.value = 0 then
    ({ td with heldKeys := td.heldKeys.filter fun k => k.code ≠ te.ev.code },
      globalTypingTime, [.key td.libDevice tsUsec te.ev.code 0])
  else (td,globalTypingTime,[])

end TrackedDevice

/-- The delay a held key waits for its next repeat. -/
def HeldKey.delay (hk : HeldKey) : ℕ :=
  if hk.initialFired then fromMillis repeatIntervalMs else fromMillis repeatDelayMs

/-- One turn of the repeat loop over the held keys of a device. -/
def HeldKey.fire (libDevice : DevicePtr) (now : Instant) (hk : HeldKey) :
    HeldKey × List (LibinputEvent D) :=
  if hk.delay ≤ hk.lastFire.elapsed now then
    ({ hk with lastFire := now, initialFired := true }, [.key libDevice hk.tsUsec hk.code 2])
  else (hk,[])

namespace TrackedDevice

/-- The body of `BackendState::emit_key_repeats` for one device. -/
def emitKeyRepeats (now : Instant) (td : TrackedDevice F D) :
    TrackedDevice F D × List (LibinputEvent D) :=
  if !td.isKeyboard then (td,[])
  else
    ({ td with heldKeys := td.heldKeys.map fun hk => (hk.fire (D := D) td.libDevice now).1 },
      td.heldKeys.flatMap fun hk => (hk.fire td.libDevice now).2)

end TrackedDevice

variable [F64 D]

namespace LibinputEvent

/-- A motion along one axis of a relative device. -/
def relativeMotion (d : DevicePtr) (timeUsec : ℕ) (dx dy : D) : LibinputEvent D :=
  ⟨.pointerMotion,.pointerMotion ⟨timeUsec,dx,dy,dx,dy⟩,d⟩

def scroll (eventType : LibinputEventType) (d : DevicePtr) (timeUsec axis : ℕ) (v : ℤ)
    (source : ℕ) : LibinputEvent D :=
  ⟨eventType,.pointerAxis ⟨timeUsec,axis,F64.ofI32 v * 15.0,v,source⟩,d⟩

end LibinputEvent

/-- The buttons of a mouse that are forwarded. -/
def isMouseButton (code : ℕ) : Bool :=
  code = KeyCode.btnLeft || code = KeyCode.btnRight || code = KeyCode.btnMiddle ||
    code = KeyCode.btnSide || code = KeyCode.btnExtra

namespace TrackedDevice

/-- `BackendState::process_relative_event`; the device state is not touched. -/
def processRelativeEvent (te : TimedEvent) (td : TrackedDevice F D) : List (LibinputEvent D) :=
  let tsUsec := systimeToUsec te.ev.time
  let code := te.ev.code
  let val := te.ev.value
  match te.ev.eventType with
  | .relative =>
    if code = RelativeAxisCode.relX then
      [.relativeMotion td.libDevice tsUsec (F64.ofI32 val) 0.0]
    else if code = RelativeAxisCode.relY then
      [.relativeMotion td.libDevice tsUsec 0.0 (F64.ofI32 val)]
    else if code = RelativeAxisCode.relWheel then
      [.scroll .pointerScrollWheel td.libDevice tsUsec 0 val 1]
    else if code = RelativeAxisCode.relHwheel then
      [.scroll .pointerScrollWheel td.libDevice tsUsec 1 val 1]
    else []
  | .key => if isMouseButton code then [.button td.libDevice tsUsec code (asU32 val)] else []
  | _ => []

end TrackedDevice
end LibinputRs
