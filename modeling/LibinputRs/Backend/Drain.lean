import LibinputRs.Backend.Context

/-! `BackendState::drain_into_queue`: hotplug, synthetic repeats, one batch of every open
device in the iteration order of the map, and the removal of the devices found dead. -/
namespace LibinputRs

variable {F D : Type} [F32 F] [F64 D] [FloatCast F D]

/-- One inotify record, with what opening the node it names would give. -/
structure InotifyEvent where
  name : Option FileName
  node : OpenResult
  deriving DecidableEq, Repr

/-- The result of `fetch_events` on one descriptor; `gone` is `ENODEV` or end of file. -/
inductive Fetch
  | batch (events : List TimedEvent)
  | wouldBlock
  | gone
  | failed
  deriving DecidableEq, Repr

/-- The events that a fetch gives. -/
def Fetch.events : Fetch → List TimedEvent
  | .batch events => events
  | _ => []

/-- All that one call of `drain_into_queue` reads from its surroundings. -/
structure Dispatch where
  /-- What `read_events` yields; `none` is an error. -/
  inotify : Option (List InotifyEvent)
  /-- The clock reading of the repeat pass. -/
  now : Instant
  /-- A preference for the iteration order of the device map. -/
  order : List RawFd
  fetch : RawFd → Fetch

/-- The order in which a map with the given keys is iterated: any permutation is reached by
preferring it, and every preference gives a permutation. -/
def iterationOrder (order keys : List RawFd) : List RawFd :=
  (order.filter (· ∈ keys)).dedup ++ keys.filter (· ∉ order)

/-- `PathBuf::from("/dev/input").join(name)`. -/
def devInput (name : FileName) : PathBuf := PathBuf.join "/dev/input" name

theorem devInput_injective {name name' : FileName} (h : devInput name = devInput name') :
    name = name' := PathBuf.join_injective _ h

/-- `dwt_active`: the setting, and a key press less than 500 ms old. -/
def dwtActive (cfgDwt : Bool) (typing : Option Instant) (now : Instant) : Bool :=
  cfgDwt && typing.any fun t => decide (t.elapsed now < fromMillis 500)

namespace TrackedDevice

/-- Routing of one kernel event. `typing` is the typing time read when the batch was started;
the live one is threaded through next to the device. -/
def processEvent (cfg : Settings F) (typing : Option Instant)
    (s : TrackedDevice F D × Option Instant) (te : TimedEvent) :
    (TrackedDevice F D × Option Instant) × List (LibinputEvent D) :=
  if s.1.isKeyboard && !s.1.isAbsolute then
    match s.1.processKeyboardEvent te s.2 with
    | (td,globalTypingTime,out) => ((td,globalTypingTime),out)
  else if !s.1.isAbsolute && s.1.isPointer then (s,s.1.processRelativeEvent te)
  else if s.1.isAbsolute then
    match s.1.processAbsoluteEvent te cfg.cfgTap cfg.cfgNat cfg.cfgAccel
      (dwtActive cfg.cfgDwt typing te.now) with
    | (td,out) => ((td,s.2),out)
  else (s,[])

/-- The same step, recorded. -/
def observeEvent (cfg : Settings F) (typing : Option Instant)
    (s : TrackedDevice F D × Option Instant) (te : TimedEvent) :
    (TrackedDevice F D × Option Instant) × List (Obs F D) :=
  match processEvent cfg typing s te with
  | (t,out) => (t,[.processed ⟨s.1.libDevice,te,cfg,typing,out⟩])

end TrackedDevice

namespace LibinputContext

/-- The device object behind a pointer. -/
def libDevice (ctx : LibinputContext F D) (d : DevicePtr) : LibinputDevice F D :=
  ctx.devices.getD d (.new "" "")

/-- The settings `drain_into_queue` copies from a device object before a batch. -/
def settings (ctx : LibinputContext F D) (d : DevicePtr) : Settings F where
  cfgTap := (ctx.libDevice d).tapEnabled
  cfgNat := (ctx.libDevice d).naturalScroll
  cfgDwt := (ctx.libDevice d).dwtEnabled
  cfgAccel := FloatCast.toF32 (ctx.libDevice d).accelSpeed + 1.0

/-- The nodes a hotplug pass opens: names whose path no tracked device has, decided for the
whole list before the first node is opened. -/
def newPaths (ctx : LibinputContext F D) (ievents : List InotifyEvent) :
    List (PathBuf × OpenResult) :=
  ievents.filterMap fun iev =>
    iev.name.bind fun name =>
      if ctx.backend.devices.entries.any fun e => e.2.path = devInput name then none
      else some (devInput name,iev.node)

/-- `BackendState::handle_hotplug`. -/
def handleHotplug (ctx : LibinputContext F D) (inotify : Option (List InotifyEvent)) :
    LibinputContext F D × List (Obs F D) :=
  if ctx.backend.inotify then
    match inotify with
    | some ievents => ctx.openAll (ctx.newPaths ievents)
    | none => (ctx,[])
  else (ctx,[])

/-- One turn of `BackendState::emit_key_repeats`. -/
def repeatDevice (now : Instant) (ctx : LibinputContext F D) (fd : RawFd) :
    LibinputContext F D × List (Obs F D) :=
  match ctx.tracked fd with
  | none => (ctx,[])
  | some td =>
    match td.emitKeyRepeats now with
    | (td,out) => (ctx.setTracked fd td,out.map .queued)

/-- One turn of the device loop; the second component collects `dead_fds`. -/
def drainDevice (fetch : RawFd → Fetch) (s : LibinputContext F D × List RawFd) (fd : RawFd) :
    (LibinputContext F D × List RawFd) × List (Obs F D) :=
  match s.1.tracked fd with
  | none => (s,[])
  | some td =>
    match fetch fd with
    | .wouldBlock => (s,[])
    | .failed => (s,[])
    | .gone => ((s.1,s.2 ++ [fd]),[])
    | .batch events =>
      let typing := s.1.backend.globalTypingTime
      match Automata.run (TrackedDevice.observeEvent (s.1.settings td.libDevice) typing)
        (td,typing) events with
      | ((td,globalTypingTime),obs) =>
        (((s.1.setTracked fd td).setTyping globalTypingTime,s.2),obs)

/-- One turn of the removal loop. The client closes the descriptor, then the tracked device
goes out of scope and its handle closes it as well. -/
def removeDead (ctx : LibinputContext F D) (fd : RawFd) :
    LibinputContext F D × List (Obs F D) :=
  match ctx.tracked fd with
  | none => (ctx,[])
  | some td => (ctx.eraseTracked fd,
      .fd (.epollDel fd) :: (if ctx.interface.closeRestricted then [.fd (.closeRestricted fd)] else [])
        ++ [.queued (.removed td.libDevice),.fd (.dropped fd)])

/-- `BackendState::drain_into_queue`. -/
def drainIntoQueue (ctx : LibinputContext F D) (inp : Dispatch) :
    LibinputContext F D × List (Obs F D) :=
  let hotplug := ctx.handleHotplug inp.inotify
  let fds := iterationOrder inp.order hotplug.1.backend.devices.keys
  let repeats := Automata.run (repeatDevice inp.now) hotplug.1 fds
  let events := Automata.run (drainDevice inp.fetch) (repeats.1,[]) fds
  let removals := Automata.run removeDead events.1.1 events.1.2
  (removals.1,hotplug.2 ++ repeats.2 ++ events.2 ++ removals.2)

end LibinputContext
end LibinputRs
