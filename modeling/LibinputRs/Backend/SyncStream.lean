import LibinputRs.Automata.Machine
import LibinputRs.Evdev

/-! What the vendored `evdev::Device` makes of the events of the kernel. It returns them in blocks
up to a SYN_REPORT. A block in which the kernel dropped events is left out, and the next call
returns, ahead of what is still buffered, the values that changed meanwhile, stamped with the time
of that call. -/
namespace LibinputRs
open Automata

/-- A returned event, and whether `compensate_events` made it. -/
structure SyncedEvent where
  ev : InputEvent
  compensated : Bool
  deriving DecidableEq, Repr

/-- What a call of `fetch_events` meets: the wall clock, the type, code and value of all that
changed, unless an ioctl fails, and the events of the ring buffer, unless reading fails. -/
structure FetchCall where
  now : ℤ
  changed : Option (List (EventType × ℕ × ℤ))
  read : Option (List InputEvent)
  deriving DecidableEq, Repr

/-- The events that the call takes from the kernel. -/
def FetchCall.fresh (call : FetchCall) : List InputEvent := call.read.getD []

/-- The times that the kernel gave the events do not decrease. -/
def FreshOrdered (calls : List FetchCall) : Prop :=
  ((calls.flatMap FetchCall.fresh).map InputEvent.time).Pairwise (· ≤ ·)

instance (calls : List FetchCall) : Decidable (FreshOrdered calls) :=
  inferInstanceAs (Decidable (List.Pairwise _ _))

/-- The part of `evdev::Device` that decides what is returned and when. -/
structure SyncStream where
  eventBuf : List InputEvent
  blockDropped : Bool
  deriving DecidableEq, Repr

namespace SyncStream

/-- `Device::open`. -/
def opened : SyncStream := ⟨[],false⟩

/-- `sync_events`, until it ends, with the events of the block so far: what it returns, what stays
buffered, and whether it met a block with dropped events. -/
def syncEvents (block : List InputEvent) (dropped : Bool) :
    List InputEvent → List InputEvent × List InputEvent × Bool
  | [] => ([],block,false)
  | ev :: rest =>
    if ev.IsReport then
      if dropped then ([],rest,true)
      else
        let later := syncEvents [] false rest
        (block ++ ev :: later.1,later.2)
    else syncEvents (block ++ [ev]) (dropped || decide ev.IsSynDropped) rest

/-- `compensate_events`, until it ends. -/
def compensateEvents (now : ℤ) (changed : List (EventType × ℕ × ℤ)) : List InputEvent :=
  changed.map (fun (eventType,code,value) => ⟨now,eventType,code,value⟩) ++
    [⟨now,.synchronization,0,0⟩]

/-- `fetch_events_inner`: what is to be returned first; an error returns nothing at all. -/
def fetchEventsInner (dev : SyncStream) (call : FetchCall) : Option (List InputEvent) := do
  let compensation ←
    if dev.blockDropped then call.changed.map (compensateEvents call.now) else some []
  let _ ← call.read
  return compensation

/-- `fetch_events`, with all its events collected. -/
def fetchEvents (dev : SyncStream) (call : FetchCall) : SyncStream × List SyncedEvent :=
  match dev.fetchEventsInner call with
  | none => (⟨dev.eventBuf,false⟩,[])
  | some compensation =>
    let (events,left,dropped) := syncEvents [] false (dev.eventBuf ++ call.fresh)
    (⟨left,dropped⟩,compensation.map (⟨·,true⟩) ++ events.map (⟨·,false⟩))

/-- All that a device returns from the moment it is opened. -/
def returned (calls : List FetchCall) : List SyncedEvent := (run fetchEvents opened calls).2

end SyncStream

/-- The events of the kernel among them. -/
def kernelEvents (l : List SyncedEvent) : List InputEvent :=
  (l.filter fun e => ¬ e.compensated).map SyncedEvent.ev

@[simp] theorem kernelEvents_append (l m : List SyncedEvent) :
    kernelEvents (l ++ m) = kernelEvents l ++ kernelEvents m := by
  simp [kernelEvents]

@[simp] theorem kernelEvents_compensation (l : List InputEvent) :
    kernelEvents (l.map (⟨·,true⟩)) = [] := by
  simp [kernelEvents]

@[simp] theorem kernelEvents_kernel (l : List InputEvent) :
    kernelEvents (l.map (⟨·,false⟩)) = l := by
  simp [kernelEvents,List.filter_map,Function.comp_def]

/-- Each event that was made up is in the order of its time among the others. -/
def CompensationInPlace (l : List SyncedEvent) : Prop :=
  l.Pairwise fun a b => a.compensated ∨ b.compensated → a.ev.time ≤ b.ev.time

instance (l : List SyncedEvent) : Decidable (CompensationInPlace l) :=
  inferInstanceAs (Decidable (l.Pairwise _))

/-- Events in the order of the kernel with the compensation in place have ordered times. -/
theorem CompensationInPlace.ordered {l : List SyncedEvent} (hplace : CompensationInPlace l)
    (hkernel : ((kernelEvents l).map InputEvent.time).Pairwise (· ≤ ·)) :
    ((l.map SyncedEvent.ev).map InputEvent.time).Pairwise (· ≤ ·) := by
  rw [kernelEvents,List.pairwise_map,List.pairwise_map,List.pairwise_filter] at hkernel
  rw [List.pairwise_map,List.pairwise_map]
  refine hplace.imp₂ (fun a b hab hkernel => ?_) hkernel
  by_cases hmade : a.compensated ∨ b.compensated
  · exact hab hmade
  · obtain ⟨ha,hb⟩ := not_or.mp hmade
    exact hkernel (by simpa using ha) (by simpa using hb)

namespace SyncStream

/-- What `sync_events` returns and what it leaves are events of the buffer, in order. -/
theorem syncEvents_sublist (block : List InputEvent) (dropped : Bool) (buf : List InputEvent) :
    ((syncEvents block dropped buf).1 ++ (syncEvents block dropped buf).2.1).Sublist
      (block ++ buf) := by
  induction buf generalizing block dropped with
  | nil => simp [syncEvents]
  | cons ev rest ih =>
    unfold syncEvents
    split_ifs
    · exact (List.sublist_cons_self ev rest).trans (List.sublist_append_right _ _)
    · simpa [List.append_assoc] using (ih [] false).cons_cons ev
    · simpa [List.append_assoc] using ih (block ++ [ev]) _

/-- The events of the kernel that a call returns and those it leaves buffered were buffered or
read, and keep their order. -/
theorem fetchEvents_sublist (dev : SyncStream) (call : FetchCall) :
    (kernelEvents (dev.fetchEvents call).2 ++ (dev.fetchEvents call).1.eventBuf).Sublist
      (dev.eventBuf ++ call.fresh) := by
  unfold fetchEvents
  cases dev.fetchEventsInner call with
  | none => exact List.sublist_append_left _ _
  | some compensation => simpa using syncEvents_sublist [] false (dev.eventBuf ++ call.fresh)

/-- So it is over all calls. -/
theorem returned_sublist (calls : List FetchCall) :
    (kernelEvents (returned calls)).Sublist (calls.flatMap FetchCall.fresh) := by
  suffices hall : ∀ dev : SyncStream, (kernelEvents (run fetchEvents dev calls).2).Sublist
      (dev.eventBuf ++ calls.flatMap FetchCall.fresh) from hall opened
  induction calls with
  | nil => exact fun dev => List.nil_sublist _
  | cons call calls ih =>
    intro dev
    rw [run_cons,kernelEvents_append,List.flatMap_cons,← List.append_assoc]
    refine List.Sublist.trans ?_ ((dev.fetchEvents_sublist call).append_right _)
    rw [List.append_assoc]
    exact (ih _).append_left _

/-- Where the times of the kernel do not decrease, those of the returned events do not either, as
long as the compensation is in place. -/
theorem returned_ordered {calls : List FetchCall}
    (hkernel : FreshOrdered calls) (hplace : CompensationInPlace (returned calls)) :
    (((returned calls).map SyncedEvent.ev).map InputEvent.time).Pairwise (· ≤ ·) :=
  hplace.ordered (hkernel.sublist ((returned_sublist calls).map InputEvent.time))

end SyncStream
end LibinputRs
