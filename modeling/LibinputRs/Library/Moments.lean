import LibinputRs.Library.Paths

/-! The moments of a dispatch: one for each kernel event it processes, with the context in which
the batch was started and the device as the events handled before left it. -/
namespace LibinputRs
open Automata

variable {F D : Type}

/-- Not the record of a processed event. -/
def Obs.NoRecord (o : Obs F D) : Prop := ∀ p, o ≠ .processed p

theorem Obs.noRecord_of_silent {o : Obs F D} (h : o.Silent) : o.NoRecord := by
  rintro p rfl
  exact h

theorem Obs.noRecord_fd (a : FdAction) : (Obs.fd a : Obs F D).NoRecord :=
  Obs.noRecord_of_silent trivial

theorem Obs.noRecord_queued (e : LibinputEvent D) : (Obs.queued e : Obs F D).NoRecord := by
  intro p h
  cases h

variable [F32 F] [F64 D] [FloatCast F D]

namespace LibinputContext

omit [FloatCast F D] in
theorem tryOpen_noRecord (ctx : LibinputContext F D) (path : PathBuf) (r : OpenResult) :
    ∀ o ∈ (ctx.tryOpen path r).2, o.NoRecord := by
  have hopened : ∀ o ∈ ctx.view.opened r.rawFd, o.NoRecord :=
    fun o ho => Obs.noRecord_of_silent (opened_silent ctx.view r.rawFd o ho)
  rcases tryOpen_cases ctx path r with ⟨_,h⟩ | ⟨_,_,h⟩ | ⟨device,_,_,h⟩ <;> rw [h]
  · exact List.forall_mem_nil _
  · refine List.forall_mem_cons.mpr ⟨Obs.noRecord_fd _,List.forall_mem_cons.mpr
      ⟨Obs.noRecord_fd _,fun o ho => ?_⟩⟩
    exact Obs.noRecord_of_silent (closed_silent ctx.view r.rawFd o ho)
  · refine List.forall_mem_append.mpr ⟨hopened,?_⟩
    rcases openProbed_cases ctx path r.rawFd device with ⟨_,h⟩ | ⟨_,_,h⟩ | ⟨_,_,h⟩ <;> rw [h]
    · exact List.forall_mem_singleton.mpr (Obs.noRecord_fd _)
    · exact List.forall_mem_singleton.mpr (Obs.noRecord_fd _)
    · exact List.forall_mem_cons.mpr ⟨Obs.noRecord_fd _,
        List.forall_mem_singleton.mpr (Obs.noRecord_queued _)⟩

omit [FloatCast F D] in
theorem handleHotplug_noRecord (ctx : LibinputContext F D) (inotify : Option (List InotifyEvent)) :
    ∀ o ∈ (ctx.handleHotplug inotify).2, o.NoRecord := by
  unfold handleHotplug
  split_ifs
  · cases inotify with
    | none => exact List.forall_mem_nil _
    | some ievents =>
      exact run_outputs (fun (ctx : LibinputContext F D) (node : PathBuf × OpenResult) =>
        ctx.tryOpen node.1 node.2) (fun _ => True) Obs.NoRecord (fun _ _ _ => trivial)
        (fun ctx node _ => tryOpen_noRecord ctx node.1 node.2) trivial (ctx.newPaths ievents)
  · exact List.forall_mem_nil _

omit [F32 F] [F64 D] [FloatCast F D] in
theorem repeats_noRecord (now : Instant) (ctx : LibinputContext F D) (fds : List RawFd) :
    ∀ o ∈ (run (repeatDevice now) ctx fds).2, o.NoRecord := by
  refine run_outputs (repeatDevice now) (fun _ => True) Obs.NoRecord (fun _ _ _ => trivial)
    (fun ctx fd _ => ?_) trivial fds
  unfold repeatDevice
  cases ctx.tracked fd with
  | none => exact List.forall_mem_nil _
  | some td =>
    intro o ho
    obtain ⟨e,_,rfl⟩ := List.mem_map.mp ho
    exact Obs.noRecord_queued e

omit [F32 F] [F64 D] [FloatCast F D] in
theorem removals_noRecord (ctx : LibinputContext F D) (fds : List RawFd) :
    ∀ o ∈ (run removeDead ctx fds).2, o.NoRecord := by
  refine run_outputs removeDead (fun _ => True) Obs.NoRecord (fun _ _ _ => trivial)
    (fun ctx fd _ => ?_) trivial fds
  unfold removeDead
  cases ctx.tracked fd with
  | none => exact List.forall_mem_nil _
  | some td =>
    dsimp only
    split_ifs <;> simp [Obs.NoRecord]

/-- A dispatch up to the batch of a device: the hotplug pass, the repeats, and the batches of the
given devices. -/
def beforeBatch (ctx : LibinputContext F D) (inp : Dispatch) (fds : List RawFd) :
    (LibinputContext F D × List RawFd) × List (Obs F D) :=
  let hotplug := ctx.handleHotplug inp.inotify
  let repeats := run (repeatDevice inp.now) hotplug.1
    (iterationOrder inp.order hotplug.1.backend.devices.keys)
  let events := run (drainDevice inp.fetch) (repeats.1,[]) fds
  (events.1,hotplug.2 ++ repeats.2 ++ events.2)

/-- The moment in a dispatch at which one kernel event is about to be processed. -/
structure Moment (ctx : LibinputContext F D) (inp : Dispatch) where
  before : List RawFd
  fd : RawFd
  after : List RawFd
  td : TrackedDevice F D
  handled : List TimedEvent
  te : TimedEvent
  pending : List TimedEvent
  order : iterationOrder inp.order (ctx.handleHotplug inp.inotify).1.backend.devices.keys =
    before ++ fd :: after
  tracked : (ctx.beforeBatch inp before).1.1.tracked fd = some td
  fetch : inp.fetch fd = .batch (handled ++ te :: pending)

namespace Moment
variable {ctx : LibinputContext F D} {inp : Dispatch}

/-- The context in which the batch is started. -/
def start (m : Moment ctx inp) : LibinputContext F D := (ctx.beforeBatch inp m.before).1.1

/-- What was observed of the dispatch before the batch. -/
def seen (m : Moment ctx inp) : List (Obs F D) := (ctx.beforeBatch inp m.before).2

def cfg (m : Moment ctx inp) : Settings F := m.start.settings m.td.libDevice

/-- The typing time read for the batch. -/
def typing (m : Moment ctx inp) : Option Instant := m.start.backend.globalTypingTime

/-- The device and the live typing time as the events handled before left them. -/
def state (m : Moment ctx inp) : TrackedDevice F D × Option Instant :=
  (run (TrackedDevice.observeEvent m.cfg m.typing) (m.td,m.typing) m.handled).1

/-- What processing the event queues. -/
def out (m : Moment ctx inp) : List (LibinputEvent D) :=
  (TrackedDevice.processEvent m.cfg m.typing m.state m.te).2

theorem state_identity (m : Moment ctx inp) : m.state.1.identity = m.td.identity :=
  batch_identity m.cfg m.typing (m.td,m.typing) m.handled

theorem seen_turns (m : Moment ctx inp) : Turns ctx m.seen m.start := by
  have hhotplug := handleHotplug_turns ctx inp.inotify
  have hrepeats := run_turns id (repeatDevice_turns inp.now) (ctx.handleHotplug inp.inotify).1
    (iterationOrder inp.order (ctx.handleHotplug inp.inotify).1.backend.devices.keys)
  exact (hhotplug.trans hrepeats).trans (run_turns Prod.fst (drainDevice_turns inp.fetch) (_,[]) _)

end Moment

end LibinputContext
end LibinputRs
