import LibinputRs.Automata.Machine
import LibinputRs.Backend.Touchpad
import Mathlib.Data.List.AList

/-! The library context, what can be observed of it, and the opening of a device node. -/
namespace LibinputRs

variable {F D : Type}

structure BackendState (F D : Type) where
  devices : AList (fun _ : RawFd => TrackedDevice F D)
  inotify : Bool
  globalTypingTime : Option Instant

structure LibinputContext (F D : Type) where
  interface : LibinputInterface
  eventQueue : List (LibinputEvent D)
  devices : List (LibinputDevice F D)
  seat : LibinputSeat
  refcount : ℤ
  backend : BackendState F D

/-- What happens to a descriptor: the client's callbacks, the epoll set, and the close that
dropping the owning handle performs. -/
inductive FdAction
  | opened (fd : RawFd)
  | closeRestricted (fd : RawFd)
  | dropped (fd : RawFd)
  | epollAdd (fd : RawFd)
  | epollDel (fd : RawFd)
  deriving DecidableEq, Repr

/-- The settings of a device that one batch of its events is processed under. -/
structure Settings (F : Type) where
  cfgTap : Bool
  cfgNat : Bool
  cfgDwt : Bool
  cfgAccel : F
  deriving DecidableEq, Repr

/-- The record of one kernel event being processed: for which device, under which settings and
typing time, and what it made the backend queue. -/
structure Processed (F D : Type) where
  device : DevicePtr
  event : TimedEvent
  cfg : Settings F
  typing : Option Instant
  out : List (LibinputEvent D)
  deriving DecidableEq, Repr

/-- The observable steps of the library, in order: descriptor actions, kernel events processed,
events queued by the backend on its own account, events handed to the client. -/
inductive Obs (F D : Type)
  | fd (action : FdAction)
  | processed (p : Processed F D)
  | queued (e : LibinputEvent D)
  | delivered (e : LibinputEvent D)
  deriving DecidableEq, Repr

namespace Obs

/-- The events one observation adds to the queue. -/
def queuedEvents : Obs F D → List (LibinputEvent D)
  | .processed p => p.out
  | .queued e => [e]
  | _ => []

def deliveredEvent : Obs F D → Option (LibinputEvent D)
  | .delivered e => some e
  | _ => none

def fdAction : Obs F D → Option FdAction
  | .fd a => some a
  | _ => none

end Obs

/-- All events the backend queued, in queue order. -/
def produced (l : List (Obs F D)) : List (LibinputEvent D) := l.flatMap Obs.queuedEvents

/-- All events the client obtained, in order. -/
def delivered (l : List (Obs F D)) : List (LibinputEvent D) := l.filterMap Obs.deliveredEvent

/-- Everything that happened to descriptors, in order. -/
def fdActions (l : List (Obs F D)) : List FdAction := l.filterMap Obs.fdAction

@[simp] theorem produced_nil : produced ([] : List (Obs F D)) = [] := rfl
@[simp] theorem produced_cons (o : Obs F D) (l : List (Obs F D)) :
    produced (o :: l) = o.queuedEvents ++ produced l := rfl
@[simp] theorem produced_append (l m : List (Obs F D)) :
    produced (l ++ m) = produced l ++ produced m := List.flatMap_append
@[simp] theorem delivered_nil : delivered ([] : List (Obs F D)) = [] := rfl
@[simp] theorem delivered_append (l m : List (Obs F D)) :
    delivered (l ++ m) = delivered l ++ delivered m := List.filterMap_append
@[simp] theorem fdActions_nil : fdActions ([] : List (Obs F D)) = [] := rfl
@[simp] theorem fdActions_append (l m : List (Obs F D)) :
    fdActions (l ++ m) = fdActions l ++ fdActions m := List.filterMap_append
@[simp] theorem produced_map_queued (l : List (LibinputEvent D)) :
    produced (l.map (Obs.queued (F := F))) = l := by
  simp [produced, List.flatMap_map, Obs.queuedEvents]
@[simp] theorem fdActions_map_queued (l : List (LibinputEvent D)) :
    fdActions (l.map (Obs.queued (F := F))) = [] := by
  simp [fdActions, List.filterMap_map, Function.comp_def, Obs.fdAction]

/-- What opening a node gives: the descriptor that `open_restricted` (or the library's own
`open`) returns, negative on failure, and what probing it reads, if the probe succeeds. -/
structure OpenResult where
  rawFd : RawFd
  probe : Option EvdevDevice
  deriving DecidableEq, Repr

/-- The capabilities `try_open` advertises for an opened node. -/
def advertisedPointer (device : EvdevDevice) : Bool :=
  device.hasProperty .pointer || device.hasProperty .buttonpad || device.supports .relative

/-- The name and classification filters of `try_open`. -/
def passesFilters (device : EvdevDevice) : Bool :=
  !isOwnVirtualDevice device.nameOrUnknown && (advertisedPointer device || device.hasKeyA)

variable [F32 F] [F64 D]

/-- The device object `try_open` allocates for an opened node. -/
def LibinputDevice.ofEvdev (device : EvdevDevice) (path : PathBuf) : LibinputDevice F D :=
  { LibinputDevice.new device.nameOrUnknown path with
    hasPointer := advertisedPointer device
    hasKeyboard := device.hasKeyA
    hasTouch := device.supports .absolute && advertisedPointer device
    hasGesture := device.supports .absolute && advertisedPointer device }

namespace LibinputContext

/-- `LibinputContext::new`, given whether the inotify watch could be installed. -/
def new (interface : LibinputInterface) (inotify : Bool) : LibinputContext F D where
  interface := interface
  eventQueue := []
  devices := []
  seat := ⟨"seat0","default"⟩
  refcount := 1
  backend := ⟨∅,inotify,none⟩

/-- The tracked device under a descriptor. -/
def tracked (ctx : LibinputContext F D) (fd : RawFd) : Option (TrackedDevice F D) :=
  ctx.backend.devices.lookup fd

def setTracked (ctx : LibinputContext F D) (fd : RawFd) (td : TrackedDevice F D) :
    LibinputContext F D :=
  { ctx with backend := { ctx.backend with devices := ctx.backend.devices.insert fd td } }

def eraseTracked (ctx : LibinputContext F D) (fd : RawFd) : LibinputContext F D :=
  { ctx with backend := { ctx.backend with devices := ctx.backend.devices.erase fd } }

def setTyping (ctx : LibinputContext F D) (t : Option Instant) : LibinputContext F D :=
  { ctx with backend := { ctx.backend with globalTypingTime := t } }

/-- The part of `try_open` after a successful probe. Every early return drops the handle. -/
def openProbed (ctx : LibinputContext F D) (path : PathBuf) (fd : RawFd) (device : EvdevDevice) :
    LibinputContext F D × List (Obs F D) :=
  if isOwnVirtualDevice device.nameOrUnknown then (ctx,[.fd (.dropped fd)])
  else if !advertisedPointer device && !device.hasKeyA then (ctx,[.fd (.dropped fd)])
  else
    let libDev := ctx.devices.length
    let ctx := { ctx with devices := ctx.devices ++ [.ofEvdev device path] }
    if (ctx.tracked fd).isSome then (ctx,[.fd (.dropped fd)])
    else (ctx.setTracked fd (.new device path libDev),
      [.fd (.epollAdd fd),.queued (.added libDev)])

/-- `BackendState::try_open`. When the probe fails, `from_fd` drops the descriptor before
the client's callback is given its number. -/
def tryOpen (ctx : LibinputContext F D) (path : PathBuf) (r : OpenResult) :
    LibinputContext F D × List (Obs F D) :=
  if ctx.interface.openRestricted then
    if path.HasNul ∨ r.rawFd < 0 then (ctx,[])
    else
      match r.probe with
      | none => (ctx, .fd (.opened r.rawFd) :: .fd (.dropped r.rawFd) ::
          if ctx.interface.closeRestricted then [.fd (.closeRestricted r.rawFd)] else [])
      | some device =>
        match ctx.openProbed path r.rawFd device with
        | (ctx,obs) => (ctx, .fd (.opened r.rawFd) :: obs)
  else
    match r.probe with
    | none => (ctx,[])
    | some device => if r.rawFd < 0 then (ctx,[]) else ctx.openProbed path r.rawFd device

/-- Open a list of nodes one after the other. -/
def openAll (ctx : LibinputContext F D) (nodes : List (PathBuf × OpenResult)) :
    LibinputContext F D × List (Obs F D) :=
  Automata.run (fun ctx node => ctx.tryOpen node.1 node.2) ctx nodes

/-- `BackendState::scan_and_open`, given the nodes that the enumeration yields. -/
def scanAndOpen (ctx : LibinputContext F D) (nodes : List (PathBuf × OpenResult)) :
    LibinputContext F D × List (Obs F D) := ctx.openAll nodes

end LibinputContext
end LibinputRs
