import LibinputRs.Library.DrainLoops
import LibinputRs.Library.Moments
import LibinputRs.Library.Translation

/-! From the descriptors to the devices. A dispatch asks each descriptor in its table for one batch,
also those that its own hotplug pass opened, and every event of the batch is processed for the
device that the descriptor is of, once and in order, whatever the order of the map. -/
namespace LibinputRs
open Automata

variable {F D : Type}

/-- One entry at most counts, so the order of the list does not. -/
theorem flatMap_perm_of_unique {α β : Type*} {f : α → List β} {l m : List α} (h : l.Perm m)
    (hunique : ∀ a ∈ l, ∀ b ∈ l, f a ≠ [] → f b ≠ [] → a = b) (hl : l.Nodup) :
    l.flatMap f = m.flatMap f := by
  induction h with
  | nil => rfl
  | cons a h ih =>
    rw [List.flatMap_cons,List.flatMap_cons,
      ih (fun b hb c hc => hunique b (List.mem_cons_of_mem _ hb) c (List.mem_cons_of_mem _ hc))
        hl.of_cons]
  | swap a b l =>
    have hne : b ≠ a := fun heq => (List.nodup_cons.mp hl).1 (heq ▸ List.mem_cons_self)
    have hnil : f b = [] ∨ f a = [] := by
      by_contra hboth
      rw [not_or] at hboth
      exact hne (hunique b List.mem_cons_self a (List.mem_cons_of_mem _ List.mem_cons_self)
        hboth.1 hboth.2)
    rcases hnil with hb | ha
    · simp [hb]
    · simp [ha]
  | trans h h' ih ih' =>
    rw [ih hunique hl,ih' (fun a ha b hb => hunique a (h.mem_iff.mpr ha) b (h.mem_iff.mpr hb))
      (h.nodup hl)]

variable [F32 F] [F64 D] [FloatCast F D]

namespace LibinputContext

/-- The events of a batch, if it is one of the device's. -/
def batchOf (d : DevicePtr) (ctx : LibinputContext F D) (fetch : RawFd → Fetch) (fd : RawFd) :
    List TimedEvent :=
  if (ctx.tracked fd).map TrackedDevice.libDevice = some d then (fetch fd).events else []

/-- The events that a call fetches for a device: a dispatch reads the table that its hotplug pass
leaves. -/
def fetchedBy (d : DevicePtr) (ctx : LibinputContext F D) : Call D → List TimedEvent
  | .dispatch inp =>
    let table := (ctx.handleHotplug inp.inotify).1
    table.backend.devices.keys.flatMap (table.batchOf d inp.fetch)
  | _ => []

/-- The events that the calls fetch for a device. -/
def fetched (d : DevicePtr) (ctx : LibinputContext F D) (calls : List (Call D)) :
    List TimedEvent :=
  (run (fun ctx c => ((ctx.call c).1,ctx.fetchedBy d c)) ctx calls).2

section Dispatch

omit [F32 F] [F64 D] [FloatCast F D] in
theorem records_of_noRecord {d : DevicePtr} {o : List (Obs F D)} (h : ∀ x ∈ o, x.NoRecord) :
    records d o = [] := by
  refine List.filterMap_eq_nil_iff.mpr fun x hx => ?_
  cases x with
  | processed p => exact absurd rfl (h _ hx p)
  | _ => rfl

/-- The records of a batch are its events. -/
theorem records_batch (cfg : Settings F) (typing : Option Instant) (d : DevicePtr)
    (s : TrackedDevice F D × Option Instant) (events : List TimedEvent) :
    (records d (run (TrackedDevice.observeEvent cfg typing) s events).2).map Processed.event =
      if s.1.libDevice = d then events else [] := by
  induction events generalizing s with
  | nil => simp
  | cons te events ih =>
    have hdevice := TrackedDevice.libDevice_of_identity
      (TrackedDevice.processEvent_identity cfg typing s te)
    rw [run_cons,records_append,List.map_append,ih]
    change _ ++ (if (TrackedDevice.processEvent cfg typing s te).1.1.libDevice = d then _ else _) =
      _
    rw [hdevice]
    by_cases hd : s.1.libDevice = d <;>
      simp [records,TrackedDevice.observeEvent,Obs.recordOf,hd]

/-- The descriptors keep their devices. -/
def SameDevices (ctx ctx' : LibinputContext F D) : Prop :=
  ∀ fd, (ctx'.tracked fd).map TrackedDevice.libDevice =
    (ctx.tracked fd).map TrackedDevice.libDevice

omit [F32 F] [F64 D] [FloatCast F D] in
theorem SameDevices.trans {ctx ctx' ctx'' : LibinputContext F D} (h : ctx.SameDevices ctx')
    (h' : ctx'.SameDevices ctx'') : ctx.SameDevices ctx'' :=
  fun fd => (h' fd).trans (h fd)

omit [F32 F] [F64 D] [FloatCast F D] in
theorem SameDevices.batchOf {ctx ctx' : LibinputContext F D} (h : ctx.SameDevices ctx')
    (d : DevicePtr) (fetch : RawFd → Fetch) : ctx'.batchOf d fetch = ctx.batchOf d fetch := by
  funext fd
  rw [LibinputContext.batchOf,LibinputContext.batchOf,h fd]

omit [F32 F] [F64 D] [FloatCast F D] in
/-- An entry changes, but not which device it is of. -/
theorem SameDevices.of_update {ctx ctx' : LibinputContext F D} {fd : RawFd}
    {td td' : TrackedDevice F D} (ht : ctx.tracked fd = some td)
    (hdevice : td'.libDevice = td.libDevice)
    (h : ctx'.tracked = Function.update ctx.tracked fd (some td')) : ctx.SameDevices ctx' := by
  intro fd'
  rw [h]
  by_cases hfd : fd' = fd
  · rw [hfd,Function.update_self,ht]
    exact congrArg some hdevice
  · rw [Function.update_of_ne hfd]

omit [F32 F] [F64 D] [FloatCast F D] in
theorem repeatDevice_sameDevices (now : Instant) (ctx : LibinputContext F D) (fd : RawFd) :
    ctx.SameDevices (repeatDevice now ctx fd).1 := by
  unfold repeatDevice
  cases ht : ctx.tracked fd with
  | none => exact fun _ => rfl
  | some td =>
    exact .of_update ht (TrackedDevice.libDevice_of_identity (td.emitKeyRepeats_identity now))
      (setTracked_tracked ctx fd _)

/-- A batch is recorded for the device whose it is, and changes no descriptor's device. -/
theorem drainDevice_records (d : DevicePtr) (fetch : RawFd → Fetch)
    (s : LibinputContext F D × List RawFd) (fd : RawFd) :
    (records d (drainDevice fetch s fd).2).map Processed.event = s.1.batchOf d fetch fd ∧
      s.1.SameDevices (drainDevice fetch s fd).1.1 := by
  unfold drainDevice batchOf
  cases ht : s.1.tracked fd with
  | none => exact ⟨rfl,fun _ => rfl⟩
  | some td =>
    cases hfetch : fetch fd with
    | batch events =>
      refine ⟨?_,?_⟩
      · dsimp only
        rw [records_batch]
        simp [Fetch.events]
      · have hid : (run (TrackedDevice.observeEvent (s.1.settings td.libDevice)
            s.1.backend.globalTypingTime) (td,s.1.backend.globalTypingTime) events).1.1.libDevice =
            td.libDevice :=
          run_invariant (TrackedDevice.observeEvent (s.1.settings td.libDevice)
            s.1.backend.globalTypingTime) (fun t => t.1.libDevice = td.libDevice)
            (fun t te _ h => (TrackedDevice.libDevice_of_identity
              (TrackedDevice.processEvent_identity _ _ t te)).trans h) rfl
        exact .of_update ht hid (setTracked_tracked s.1 fd _)
    | wouldBlock => exact ⟨by simp [Fetch.events],fun _ => rfl⟩
    | gone => exact ⟨by simp [Fetch.events],fun _ => rfl⟩
    | failed => exact ⟨by simp [Fetch.events],fun _ => rfl⟩

/-- The device loop records the batches of the table in which it started. -/
theorem drain_records (d : DevicePtr) (fetch : RawFd → Fetch)
    (s : LibinputContext F D × List RawFd) (fds : List RawFd) :
    (records d (run (drainDevice fetch) s fds).2).map Processed.event =
      fds.flatMap (s.1.batchOf d fetch) := by
  induction fds generalizing s with
  | nil => rfl
  | cons fd fds ih =>
    obtain ⟨hfirst,hsame⟩ := drainDevice_records d fetch s fd
    rw [run_cons,records_append,List.map_append,hfirst,ih,hsame.batchOf,List.flatMap_cons]

omit [F32 F] [F64 D] [FloatCast F D] in
/-- Only one descriptor of the table is that of the device. -/
theorem batchOf_unique {ctx : LibinputContext F D} (hw : ctx.view.WellFormed) (d : DevicePtr)
    (fetch : RawFd → Fetch) {fd fd' : RawFd} (h : ctx.batchOf d fetch fd ≠ [])
    (h' : ctx.batchOf d fetch fd' ≠ []) : fd = fd' := by
  have htracked : ∀ {fd}, ctx.batchOf d fetch fd ≠ [] →
      ∃ td, ctx.view.tracked fd = some td ∧ td.libDevice = d := by
    intro fd hne
    unfold batchOf at hne
    split_ifs at hne with hdevice
    · exact Option.map_eq_some_iff.mp hdevice
    · exact absurd rfl hne
  obtain ⟨td,ht,hd⟩ := htracked h
  obtain ⟨td',ht',hd'⟩ := htracked h'
  exact hw.distinct fd fd' td td' ht ht' (hd.trans hd'.symm)

/-- A dispatch. -/
theorem drainIntoQueue_records {ctx : LibinputContext F D} (hw : ctx.view.WellFormed)
    (inp : Dispatch) (d : DevicePtr) :
    (records d (ctx.drainIntoQueue inp).2).map Processed.event =
      ctx.fetchedBy d (.dispatch inp) := by
  have hkeys := fun order => nodup_iterationOrder order
    (ctx.handleHotplug inp.inotify).1.backend.devices.nodupKeys
  have hwell : (ctx.handleHotplug inp.inotify).1.view.WellFormed :=
    handleHotplug_wellFormed hw inp.inotify
  have hsame : (ctx.handleHotplug inp.inotify).1.SameDevices (run (repeatDevice inp.now)
      (ctx.handleHotplug inp.inotify).1 (iterationOrder inp.order
        (ctx.handleHotplug inp.inotify).1.backend.devices.keys)).1 :=
    run_invariant (repeatDevice inp.now) (ctx.handleHotplug inp.inotify).1.SameDevices
      (fun c fd _ h => h.trans (repeatDevice_sameDevices inp.now c fd)) fun _ => rfl
  unfold drainIntoQueue fetchedBy
  extract_lets hotplug fds repeats events removals
  rw [records_append,records_append,records_append,
    records_of_noRecord (handleHotplug_noRecord ctx inp.inotify),
    records_of_noRecord (repeats_noRecord inp.now hotplug.1 fds),
    records_of_noRecord (removals_noRecord events.1.1 events.1.2),List.nil_append,List.nil_append,
    List.append_nil,drain_records,hsame.batchOf]
  refine flatMap_perm_of_unique ?_ (fun fd _ fd' _ h h' => batchOf_unique hwell d inp.fetch h h')
    (hkeys inp.order)
  exact (List.perm_ext_iff_of_nodup (hkeys inp.order) hotplug.1.backend.devices.nodupKeys).mpr
    (mem_iterationOrder inp.order _)

/-- The other calls record nothing. -/
theorem call_records {ctx : LibinputContext F D} (hw : ctx.view.WellFormed) (c : Call D)
    (d : DevicePtr) :
    (records d (ctx.call c).2).map Processed.event = ctx.fetchedBy d c := by
  cases c with
  | assignSeat seatName nodes =>
    refine congrArg _ (records_of_noRecord (run_outputs (fun (ctx : LibinputContext F D)
      (node : PathBuf × OpenResult) => ctx.tryOpen node.1 node.2) (fun _ => True) Obs.NoRecord
        (fun _ _ _ => trivial) (fun ctx node _ => tryOpen_noRecord ctx node.1 node.2) trivial
          nodes))
  | addDevice path r => exact congrArg _ (records_of_noRecord (tryOpen_noRecord ctx path r))
  | removeDevice d => rfl
  | dispatch inp => exact drainIntoQueue_records hw inp d
  | getEvent =>
    unfold call libinputGetEvent
    cases ctx.eventQueue <;> rfl
  | nextEventType => rfl
  | configure d s => rfl

end Dispatch

/-- Whatever a client calls, the events processed for a device are those that were fetched from its
descriptor, each once and in the order in which they were fetched. -/
theorem records_eq_fetched (interface : LibinputInterface) (inotify : Bool)
    (calls : List (Call D)) (d : DevicePtr) :
    (records d ((new (F := F) interface inotify).runCalls calls).2).map Processed.event =
      fetched d (new (F := F) interface inotify) calls := by
  induction calls using List.reverseRecOn with
  | nil => rfl
  | append_singleton calls c ih =>
    have hwell := runCalls_wellFormed (F := F) interface inotify calls
    have hstate : (run (fun (ctx : LibinputContext F D) c => ((ctx.call c).1,ctx.fetchedBy d c))
        (new interface inotify) calls).1 = ((new interface inotify).runCalls calls).1 :=
      run_state call _ _ calls
    rw [runCalls,run_append,run_singleton,records_append,List.map_append]
    rw [fetched,run_append,run_singleton,hstate]
    exact congrArg₂ _ ih (call_records hwell c d)

end LibinputContext
end LibinputRs
