import LibinputRs.Backend.Drain

/-! The entry points of the C interface that touch the backend and the queue, and a run of a
context as a sequence of calls. -/
namespace LibinputRs

variable {F D : Type} [F32 F] [F64 D] [FloatCast F D]

/-- The setters of the device settings that the backend reads. -/
inductive SettingCall (D : Type)
  | tapSetEnabled (enabled : ℕ)
  | scrollSetNaturalScrollEnabled (enabled : ℤ)
  | dwtSetEnabled (enabled : ℕ)
  | accelSetSpeed (speed : D)
  deriving DecidableEq, Repr

def SettingCall.apply (c : SettingCall D) (dev : LibinputDevice F D) : LibinputDevice F D :=
  match c with
  | .tapSetEnabled enabled => { dev with tapEnabled := decide (enabled ≠ 0) }
  | .scrollSetNaturalScrollEnabled enabled => { dev with naturalScroll := decide (enabled ≠ 0) }
  | .dwtSetEnabled enabled => { dev with dwtEnabled := decide (enabled ≠ 0) }
  | .accelSetSpeed speed => { dev with accelSpeed := F64.clamp speed (-1.0) 1.0 }

namespace LibinputContext

/-- Append what an entry point made the backend produce to the queue. -/
def enqueue (r : LibinputContext F D × List (Obs F D)) : LibinputContext F D × List (Obs F D) :=
  ({ r.1 with eventQueue := r.1.eventQueue ++ produced r.2 },r.2)

def libinputUdevAssignSeat (ctx : LibinputContext F D) (seatName : String)
    (nodes : List (PathBuf × OpenResult)) : LibinputContext F D × List (Obs F D) :=
  enqueue (scanAndOpen { ctx with seat := { ctx.seat with logicalName := seatName } } nodes)

/-- `libinput_path_add_device`; the pointer it returns is `addedDevice` of the new context. -/
def libinputPathAddDevice (ctx : LibinputContext F D) (path : PathBuf) (r : OpenResult) :
    LibinputContext F D × List (Obs F D) :=
  enqueue (ctx.tryOpen path r)

/-- `ctx.devices.last()`, null when there is no device. -/
def addedDevice (ctx : LibinputContext F D) : Option DevicePtr :=
  if ctx.devices.length = 0 then none else some (ctx.devices.length - 1)

def libinputPathRemoveDevice (ctx : LibinputContext F D) (d : DevicePtr) : LibinputContext F D :=
  { ctx with devices := ctx.devices.modify d fun dev => { dev with name := "" } }

/-- `libinput_dispatch`: `populate_events`; the result of `epoll_wait` is not used. -/
def libinputDispatch (ctx : LibinputContext F D) (inp : Dispatch) :
    LibinputContext F D × List (Obs F D) :=
  enqueue (ctx.drainIntoQueue inp)

def libinputGetEvent (ctx : LibinputContext F D) : LibinputContext F D × Option (LibinputEvent D) :=
  match ctx.eventQueue with
  | [] => (ctx,none)
  | e :: rest => ({ ctx with eventQueue := rest },some e)

def libinputNextEventType (ctx : LibinputContext F D) : LibinputEventType :=
  (ctx.eventQueue.head?.map LibinputEvent.eventType).getD .none

def configure (ctx : LibinputContext F D) (d : DevicePtr) (c : SettingCall D) :
    LibinputContext F D :=
  { ctx with devices := ctx.devices.modify d c.apply }

/-- `libinput_ref`. The count is an `AtomicI32`, which wraps around. -/
def libinputRef (ctx : LibinputContext F D) : LibinputContext F D :=
  { ctx with refcount := i32Wrap (ctx.refcount + 1) }

/-- Dropping the context drops the backend, and with it every tracked device's handle. -/
def dropContext (ctx : LibinputContext F D) : List (Obs F D) :=
  ctx.backend.devices.keys.map fun fd => .fd (.dropped fd)

/-- `libinput_unref`: the context is gone when its count reaches zero. -/
def libinputUnref (ctx : LibinputContext F D) : Option (LibinputContext F D) × List (Obs F D) :=
  if i32Wrap (ctx.refcount - 1) = 0 then (none,ctx.dropContext)
  else (some { ctx with refcount := i32Wrap (ctx.refcount - 1) },[])

end LibinputContext

/-- A client call on a live context. -/
inductive Call (D : Type)
  | assignSeat (seatName : String) (nodes : List (PathBuf × OpenResult))
  | addDevice (path : PathBuf) (r : OpenResult)
  | removeDevice (d : DevicePtr)
  | dispatch (inp : Dispatch)
  | getEvent
  | nextEventType
  | configure (d : DevicePtr) (c : SettingCall D)

namespace LibinputContext

/-- The effect of one call. -/
def call (ctx : LibinputContext F D) : Call D → LibinputContext F D × List (Obs F D)
  | .assignSeat seatName nodes => ctx.libinputUdevAssignSeat seatName nodes
  | .addDevice path r => ctx.libinputPathAddDevice path r
  | .removeDevice d => (ctx.libinputPathRemoveDevice d,[])
  | .dispatch inp => ctx.libinputDispatch inp
  | .getEvent =>
    match ctx.libinputGetEvent with
    | (ctx,some e) => (ctx,[.delivered e])
    | (ctx,none) => (ctx,[])
  | .nextEventType => (ctx,[])
  | .configure d c => (ctx.configure d c,[])

/-- A run of a context: the state reached and everything observed on the way. -/
def runCalls (ctx : LibinputContext F D) (calls : List (Call D)) :
    LibinputContext F D × List (Obs F D) :=
  Automata.run call ctx calls

end LibinputContext
end LibinputRs
