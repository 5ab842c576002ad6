import LibinputRs.Library.Paths

/-! The loops of a dispatch, turn by turn: the repeat pass, the batches of the devices, the removal
of the dead ones. A device leaves the table exactly when its batch found it gone. -/
namespace LibinputRs
open Automata

variable {F D : Type} [F32 F] [F64 D] [FloatCast F D]

namespace TrackedDevice

/-- What a batch does to its device, and what it queues. -/
def batch (cfg : Settings F) (typing live : Option Instant) (td : TrackedDevice F D)
    (events : List TimedEvent) : TrackedDevice F D × List (LibinputEvent D) :=
  ((run (observeEvent cfg typing) (td,live) events).1.1,
    produced (run (observeEvent cfg typing) (td,live) events).2)

theorem batch_cons (cfg : Settings F) (typing live : Option Instant) (td : TrackedDevice F D)
    (te : TimedEvent) (events : List TimedEvent) :
    td.batch cfg typing live (te :: events) =
      let r := processEvent cfg typing (td,live) te
      ((r.1.1.batch cfg typing r.1.2 events).1,r.2 ++ (r.1.1.batch cfg typing r.1.2 events).2) := by
  simp only [batch,run_cons,produced_append]
  congr 2
  exact List.append_nil _

end TrackedDevice

namespace LibinputContext

section Loops

omit [F32 F] [F64 D] [FloatCast F D] in
/-- What was queued by a loop was queued by one of its rounds. -/
theorem mem_produced_run {σ ι : Type*} {step : σ → ι → σ × List (Obs F D)} {s : σ} {is : List ι}
    {e : LibinputEvent D} (he : e ∈ produced (run step s is).2) :
    ∃ before i back, is = before ++ i :: back ∧
      e ∈ produced (step (run step s before).1 i).2 := by
  obtain ⟨o,ho,he⟩ := List.mem_flatMap.mp he
  obtain ⟨before,i,back,heq,ho⟩ := (mem_run_iff step s is o).mp ho
  exact ⟨before,i,back,heq,List.mem_flatMap.mpr ⟨o,ho,he⟩⟩

omit [F32 F] [F64 D] [FloatCast F D] in
theorem repeatDevice_tracked (now : Instant) (ctx : LibinputContext F D) (fd : RawFd) :
    (repeatDevice now ctx fd).1.tracked fd =
      (ctx.tracked fd).map fun td => (td.emitKeyRepeats (D := D) now).1 := by
  unfold repeatDevice
  cases ht : ctx.tracked fd with
  | none => exact ht
  | some td =>
    dsimp only
    rw [setTracked_tracked,Function.update_self]
    rfl

omit [F32 F] [F64 D] [FloatCast F D] in
/-- The repeat pass over other entries leaves an entry alone. -/
theorem repeats_frame_entry (now : Instant) (ctx : LibinputContext F D) {fds : List RawFd}
    {fd : RawFd} (hfd : fd ∉ fds) :
    (run (repeatDevice now) ctx fds).1.tracked fd = ctx.tracked fd := by
  refine run_invariant (repeatDevice now) (fun c => c.tracked fd = ctx.tracked fd)
    (fun c fd' hmem h => ?_) rfl
  have hne : fd ≠ fd' := by
    rintro rfl
    exact hfd hmem
  unfold repeatDevice
  cases ht : c.tracked fd' with
  | none => exact h
  | some td =>
    dsimp only
    rw [setTracked_tracked,Function.update_of_ne hne]
    exact h

omit [F32 F] [F64 D] [FloatCast F D] in
theorem repeats_shrinks (now : Instant) (ctx : LibinputContext F D) (fds : List RawFd) :
    DeviceTable.Shrinks ctx.tracked (run (repeatDevice now) ctx fds).1.tracked :=
  run_shrinks tracked (repeatDevice_shrinks now) ctx fds

/-- The turn of the device loop at a tracked device with a batch. -/
theorem drainDevice_batch (fetch : RawFd → Fetch) (s : LibinputContext F D × List RawFd)
    {fd : RawFd} {td : TrackedDevice F D} {events : List TimedEvent}
    (ht : s.1.tracked fd = some td) (hfetch : fetch fd = .batch events) :
    (drainDevice fetch s fd).1.1.tracked = Function.update s.1.tracked fd
        (some (td.batch (s.1.settings td.libDevice) s.1.backend.globalTypingTime
          s.1.backend.globalTypingTime events).1) ∧
      produced (drainDevice fetch s fd).2 = (td.batch (s.1.settings td.libDevice)
        s.1.backend.globalTypingTime s.1.backend.globalTypingTime events).2 ∧
      (drainDevice fetch s fd).1.1.backend.globalTypingTime =
        (run (TrackedDevice.observeEvent (s.1.settings td.libDevice)
          s.1.backend.globalTypingTime) (td,s.1.backend.globalTypingTime) events).1.2 ∧
      (drainDevice fetch s fd).1.2 = s.2 := by
  unfold drainDevice
  rw [ht,hfetch]
  refine ⟨?_,rfl,rfl,rfl⟩
  change (s.1.setTracked fd _).tracked = _
  rw [setTracked_tracked]
  rfl

/-- The turn of the device loop at any other entry: only the list of dead devices may grow. -/
theorem drainDevice_nobatch (fetch : RawFd → Fetch) (s : LibinputContext F D × List RawFd)
    {fd : RawFd} (h : ∀ td events, s.1.tracked fd = some td → fetch fd ≠ .batch events) :
    (drainDevice fetch s fd).1.1 = s.1 ∧ (drainDevice fetch s fd).2 = [] ∧
      (drainDevice fetch s fd).1.2 =
        if (s.1.tracked fd).isSome = true ∧ fetch fd = .gone then s.2 ++ [fd] else s.2 := by
  unfold drainDevice
  cases ht : s.1.tracked fd with
  | none => exact ⟨rfl,rfl,by simp⟩
  | some td =>
    cases hfetch : fetch fd with
    | batch events => exact absurd hfetch (h td events ht)
    | wouldBlock => exact ⟨rfl,rfl,by simp⟩
    | gone => exact ⟨rfl,rfl,by simp⟩
    | failed => exact ⟨rfl,rfl,by simp⟩

theorem drainDevice_devices (fetch : RawFd → Fetch) (s : LibinputContext F D × List RawFd)
    (fd : RawFd) : (drainDevice fetch s fd).1.1.devices = s.1.devices := by
  unfold drainDevice
  cases s.1.tracked fd with
  | none => rfl
  | some td => cases fetch fd <;> rfl

theorem drainDevice_isSome (fetch : RawFd → Fetch) (s : LibinputContext F D × List RawFd)
    (fd fd' : RawFd) :
    ((drainDevice fetch s fd).1.1.tracked fd').isSome = (s.1.tracked fd').isSome := by
  by_cases hbatch : ∃ td events, s.1.tracked fd = some td ∧ fetch fd = .batch events
  · obtain ⟨td,events,ht,hfetch⟩ := hbatch
    rw [(drainDevice_batch fetch s ht hfetch).1]
    by_cases hfd : fd' = fd
    · rw [hfd,Function.update_self,ht]
      rfl
    · rw [Function.update_of_ne hfd]
  · rw [(drainDevice_nobatch fetch s fun td events ht hfetch => hbatch ⟨td,events,ht,hfetch⟩).1]

/-- The dead devices are the tracked ones found gone, in the order of the loop. -/
theorem deadFds_eq (fetch : RawFd → Fetch) (s : LibinputContext F D × List RawFd)
    (fds : List RawFd) : (run (drainDevice fetch) s fds).1.2 =
      s.2 ++ fds.filter fun fd => (s.1.tracked fd).isSome && decide (fetch fd = .gone) := by
  induction fds generalizing s with
  | nil => exact (List.append_nil _).symm
  | cons fd fds ih =>
    have hdead : (drainDevice fetch s fd).1.2 =
        s.2 ++ if (s.1.tracked fd).isSome = true ∧ fetch fd = .gone then [fd] else [] := by
      by_cases hbatch : ∃ td events, s.1.tracked fd = some td ∧ fetch fd = .batch events
      · obtain ⟨td,events,ht,hfetch⟩ := hbatch
        rw [(drainDevice_batch fetch s ht hfetch).2.2.2,hfetch]
        simp
      · rw [(drainDevice_nobatch fetch s
          fun td events ht hfetch => hbatch ⟨td,events,ht,hfetch⟩).2.2]
        split_ifs <;> simp
    rw [run_cons]
    simp only [ih,drainDevice_isSome,hdead,List.filter_cons,Bool.and_eq_true,decide_eq_true_eq]
    split_ifs <;> simp

/-- The three loops of a dispatch over the given descriptors. -/
def dispatchLoops (ctx : LibinputContext F D) (now : Instant) (fetch : RawFd → Fetch)
    (fds : List RawFd) : LibinputContext F D × List (Obs F D) :=
  let repeats := run (repeatDevice now) ctx fds
  let events := run (drainDevice fetch) (repeats.1,[]) fds
  let removals := run removeDead events.1.1 events.1.2
  (removals.1,repeats.2 ++ events.2 ++ removals.2)

/-- The loops open nothing. -/
theorem dispatchLoops_devices (ctx : LibinputContext F D) (now : Instant) (fetch : RawFd → Fetch)
    (fds : List RawFd) : (ctx.dispatchLoops now fetch fds).1.devices = ctx.devices := by
  refine run_invariant removeDead (fun c => c.devices = ctx.devices) (fun c fd _ h => ?_) ?_
  · unfold removeDead
    cases c.tracked fd <;> exact h
  · refine run_invariant (drainDevice fetch) (fun s => s.1.devices = ctx.devices)
      (fun s fd _ h => (drainDevice_devices fetch s fd).trans h) ?_
    refine run_invariant (repeatDevice now) (fun c => c.devices = ctx.devices) (fun c fd _ h => ?_) rfl
    unfold repeatDevice
    cases c.tracked fd <;> exact h

theorem drainIntoQueue_eq (ctx : LibinputContext F D) (inp : Dispatch) :
    ctx.drainIntoQueue inp =
      (((ctx.handleHotplug inp.inotify).1.dispatchLoops inp.now inp.fetch (iterationOrder inp.order
        (ctx.handleHotplug inp.inotify).1.backend.devices.keys)).1,
      (ctx.handleHotplug inp.inotify).2 ++ ((ctx.handleHotplug inp.inotify).1.dispatchLoops
        inp.now inp.fetch (iterationOrder inp.order
          (ctx.handleHotplug inp.inotify).1.backend.devices.keys)).2) := by
  simp only [drainIntoQueue,dispatchLoops,List.append_assoc]

theorem nodup_iterationOrder (order : List RawFd) {keys : List RawFd} (h : keys.Nodup) :
    (iterationOrder order keys).Nodup := by
  refine List.nodup_append.mpr ⟨List.nodup_dedup _,h.filter _,fun a ha b hb => ?_⟩
  have hmem := (List.mem_filter.mp (List.mem_dedup.mp ha)).1
  have hnot := (List.mem_filter.mp hb).2
  rintro rfl
  simp [hmem] at hnot

theorem mem_iterationOrder (order keys : List RawFd) (fd : RawFd) :
    fd ∈ iterationOrder order keys ↔ fd ∈ keys := by
  by_cases h : fd ∈ order <;> simp [iterationOrder,h]

omit [F32 F] [F64 D] [FloatCast F D] in
theorem repeats_frame (now : Instant) (ctx : LibinputContext F D) (fds : List RawFd) :
    (run (repeatDevice now) ctx fds).1.devices = ctx.devices ∧
      (run (repeatDevice now) ctx fds).1.backend.globalTypingTime = ctx.backend.globalTypingTime := by
  refine run_invariant (repeatDevice now) (fun c => c.devices = ctx.devices ∧
    c.backend.globalTypingTime = ctx.backend.globalTypingTime) (fun c fd _ h => ?_) ⟨rfl,rfl⟩
  unfold repeatDevice
  cases c.tracked fd with
  | none => exact h
  | some td => exact h

end Loops

section Openings

omit [FloatCast F D] in
/-- What an open queues: the addition of the node it admits, or nothing. -/
theorem produced_tryOpen (ctx : LibinputContext F D) (path : PathBuf) (r : OpenResult) :
    (¬ (OpensNode ctx.interface (path,r) ∧ ctx.tracked r.rawFd = none) ∧
      produced (ctx.tryOpen path r).2 = []) ∨
    ((OpensNode ctx.interface (path,r) ∧ ctx.tracked r.rawFd = none) ∧
      produced (ctx.tryOpen path r).2 = [.added ctx.devices.length]) := by
  rcases tryOpen_outcomes ctx path r with ⟨hnot,_,h⟩ | ⟨_,ht,_,_,h⟩ | ⟨hopens,ht,_,_,h⟩
  · exact .inl ⟨fun hboth => hnot hboth.1,h⟩
  · exact .inl ⟨fun hboth => ht hboth.2,h⟩
  · exact .inr ⟨⟨hopens,ht⟩,h⟩

omit [FloatCast F D] in
/-- Opening a list of nodes queues additions only. -/
theorem produced_openAll_added (ctx : LibinputContext F D) (nodes : List (PathBuf × OpenResult)) :
    ∀ e ∈ produced (ctx.openAll nodes).2, ∃ d, e = .added d := by
  intro e he
  obtain ⟨before,node,_,_,he⟩ := mem_produced_run he
  generalize (run (fun ctx node => tryOpen ctx node.1 node.2) ctx before).1 = ctx' at he
  rcases produced_tryOpen ctx' node.1 node.2 with ⟨_,h⟩ | ⟨_,h⟩
  · rw [h] at he
    cases he
  · rw [h] at he
    exact ⟨_,List.mem_singleton.mp he⟩

/-- Opening a list of nodes leaves the tracked devices alone, and new ones hold no keys and have new
pointers. -/
theorem openAll_entry (nodes : List (PathBuf × OpenResult)) (ctx : LibinputContext F D)
    (fd : RawFd) : (ctx.openAll nodes).1.tracked fd = ctx.tracked fd ∨
      (ctx.tracked fd = none ∧ ∃ td, (ctx.openAll nodes).1.tracked fd = some td ∧
        td.heldKeys = [] ∧ ctx.devices.length ≤ td.libDevice) := by
  induction nodes generalizing ctx with
  | nil => exact .inl rfl
  | cons node nodes ih =>
    obtain ⟨path,r⟩ := node
    change ((ctx.tryOpen path r).1.openAll nodes).1.tracked fd = _ ∨
      (_ ∧ ∃ td, ((ctx.tryOpen path r).1.openAll nodes).1.tracked fd = some td ∧ _)
    have hdevices : ctx.devices.length ≤ (ctx.tryOpen path r).1.devices.length :=
      (tryOpen_turns ctx path r).ticks.devices_le
    have hrest : ((ctx.tryOpen path r).1.openAll nodes).1.tracked fd =
        (ctx.tryOpen path r).1.tracked fd ∨ ((ctx.tryOpen path r).1.tracked fd = none ∧
          ∃ td, ((ctx.tryOpen path r).1.openAll nodes).1.tracked fd = some td ∧
            td.heldKeys = [] ∧ ctx.devices.length ≤ td.libDevice) := by
      rcases ih (ctx.tryOpen path r).1 with hsame | ⟨hnone,td,ht,hkeys,hd⟩
      · exact .inl hsame
      · exact .inr ⟨hnone,td,ht,hkeys,hdevices.trans hd⟩
    rcases tryOpen_tracked ctx path r with ⟨_,htracked⟩ | ⟨⟨_,hnone⟩,td,_,⟨hkeys,hd⟩,htracked⟩
    · rwa [htracked] at hrest
    · rw [htracked] at hrest
      by_cases hfd : fd = r.rawFd
      · subst hfd
        rw [Function.update_self] at hrest
        rcases hrest with hsame | ⟨hfree,_⟩
        · exact .inr ⟨hnone,td,hsame,hkeys,hd.ge⟩
        · cases hfree
      · rwa [Function.update_of_ne hfd] at hrest

omit [FloatCast F D] in
theorem handleHotplug_added (ctx : LibinputContext F D) (inotify : Option (List InotifyEvent)) :
    ∀ e ∈ produced (ctx.handleHotplug inotify).2, ∃ d, e = .added d := by
  unfold handleHotplug
  split_ifs
  · cases inotify with
    | none => exact List.forall_mem_nil _
    | some ievents => exact produced_openAll_added ctx _
  · exact List.forall_mem_nil _

theorem handleHotplug_entry (ctx : LibinputContext F D) (inotify : Option (List InotifyEvent))
    (fd : RawFd) : (ctx.handleHotplug inotify).1.tracked fd = ctx.tracked fd ∨
      (ctx.tracked fd = none ∧ ∃ td, (ctx.handleHotplug inotify).1.tracked fd = some td ∧
        td.heldKeys = [] ∧ ctx.devices.length ≤ td.libDevice) := by
  unfold handleHotplug
  split_ifs
  · cases inotify with
    | none => exact .inl rfl
    | some ievents => exact openAll_entry _ ctx fd
  · exact .inl rfl

/-- The hotplug pass leaves a tracked device alone. -/
theorem handleHotplug_kept (ctx : LibinputContext F D) (inotify : Option (List InotifyEvent))
    {fd : RawFd} {td : TrackedDevice F D} (ht : ctx.tracked fd = some td) :
    (ctx.handleHotplug inotify).1.tracked fd = some td := by
  rcases handleHotplug_entry ctx inotify fd with hsame | ⟨hnone,_⟩
  · exact hsame.trans ht
  · cases hnone.symm.trans ht

end Openings

section Table

omit [F32 F] [F64 D] [FloatCast F D] in
theorem repeatDevice_isSome (now : Instant) (ctx : LibinputContext F D) (fd fd' : RawFd) :
    ((repeatDevice now ctx fd).1.tracked fd').isSome = (ctx.tracked fd').isSome := by
  unfold repeatDevice
  cases ht : ctx.tracked fd with
  | none => rfl
  | some td =>
    dsimp only
    rw [setTracked_tracked]
    by_cases hfd : fd' = fd
    · rw [hfd,Function.update_self,ht]
      rfl
    · rw [Function.update_of_ne hfd]

omit [F32 F] [F64 D] [FloatCast F D] in
/-- The removal loop erases the entries of its list. -/
theorem removals_isSome (ctx : LibinputContext F D) (fds : List RawFd) (fd : RawFd) :
    ((run removeDead ctx fds).1.tracked fd).isSome = true ↔
      (ctx.tracked fd).isSome = true ∧ fd ∉ fds := by
  induction fds generalizing ctx with
  | nil => simp
  | cons fd' fds ih =>
    have hfirst : ((removeDead ctx fd').1.tracked fd).isSome = true ↔
        (ctx.tracked fd).isSome = true ∧ fd ≠ fd' := by
      unfold removeDead
      cases ht : ctx.tracked fd' with
      | none =>
        refine ⟨fun h => ⟨h,?_⟩,(·.1)⟩
        rintro rfl
        simp [ht] at h
      | some td =>
        dsimp only
        rw [eraseTracked_tracked]
        by_cases hfd : fd = fd'
        · simp [hfd]
        · simp [hfd]
    rw [run_cons,ih,hfirst,List.mem_cons,not_or,and_assoc]

/-- A dispatch leaves the devices of the hotplug pass that it did not find gone. -/
theorem drainIntoQueue_isSome (ctx : LibinputContext F D) (inp : Dispatch) (fd : RawFd) :
    ((ctx.drainIntoQueue inp).1.tracked fd).isSome = true ↔
      ((ctx.handleHotplug inp.inotify).1.tracked fd).isSome = true ∧ inp.fetch fd ≠ .gone := by
  rw [drainIntoQueue_eq]
  set hotplug := (ctx.handleHotplug inp.inotify).1
  set fds := iterationOrder inp.order hotplug.backend.devices.keys with hfds
  unfold dispatchLoops
  extract_lets repeats events removals
  have hrepeats : ∀ fd', (repeats.1.tracked fd').isSome = (hotplug.tracked fd').isSome :=
    run_invariant (repeatDevice inp.now)
      (fun c => ∀ fd', (c.tracked fd').isSome = (hotplug.tracked fd').isSome)
      (fun c fd _ h fd' => (repeatDevice_isSome inp.now c fd fd').trans (h fd')) fun _ => rfl
  have hevents : ∀ fd', (events.1.1.tracked fd').isSome = (repeats.1.tracked fd').isSome :=
    run_invariant (drainDevice inp.fetch)
      (fun s => ∀ fd', (s.1.tracked fd').isSome = (repeats.1.tracked fd').isSome)
      (fun s fd _ h fd' => (drainDevice_isSome inp.fetch s fd fd').trans (h fd')) fun _ => rfl
  have hdead : fd ∈ events.1.2 ↔ (hotplug.tracked fd).isSome = true ∧ inp.fetch fd = .gone := by
    rw [deadFds_eq,List.nil_append,List.mem_filter,hfds,mem_iterationOrder,mem_keys_iff,
      hrepeats]
    simp
  rw [removals_isSome,hevents,hrepeats,hdead]
  tauto

end Table

section Additions

omit [F32 F] [F64 D] [FloatCast F D] in
theorem repeatDevice_adds_nothing (now : Instant) (ctx : LibinputContext F D) (fd : RawFd) :
    ∀ e ∈ produced (repeatDevice now ctx fd).2, e.eventType ≠ .deviceAdded := by
  unfold repeatDevice
  cases ht : ctx.tracked fd with
  | none => exact List.forall_mem_nil _
  | some td =>
    intro e he
    rw [produced_map_queued] at he
    obtain ⟨hk,_,rfl⟩ := td.emitKeyRepeats_out now e he
    simp

theorem drainDevice_adds_nothing (fetch : RawFd → Fetch) (s : LibinputContext F D × List RawFd)
    (fd : RawFd) : ∀ e ∈ produced (drainDevice fetch s fd).2, e.eventType ≠ .deviceAdded := by
  unfold drainDevice
  cases ht : s.1.tracked fd with
  | none => exact List.forall_mem_nil _
  | some td =>
    cases fetch fd with
    | batch events =>
      intro e he
      obtain ⟨_,te,_,_,he⟩ := mem_produced_run he
      rw [TrackedDevice.produced_observeEvent] at he
      have hinput := (TrackedDevice.processEvent_out _ _ _ te e he).2
      exact (decide_eq_true_iff.mp hinput).1
    | wouldBlock => exact List.forall_mem_nil _
    | gone => exact List.forall_mem_nil _
    | failed => exact List.forall_mem_nil _

omit [F32 F] [F64 D] [FloatCast F D] in
theorem removeDead_adds_nothing (ctx : LibinputContext F D) (fd : RawFd) :
    ∀ e ∈ produced (removeDead ctx fd).2, e.eventType ≠ .deviceAdded := by
  unfold removeDead
  cases ht : ctx.tracked fd with
  | none => exact List.forall_mem_nil _
  | some td =>
    intro e he
    change e ∈ produced (.fd (.epollDel fd) :: ctx.view.closed fd ++
      [.queued (.removed td.libDevice),.fd (.dropped fd)]) at he
    rw [produced_removal,List.mem_singleton] at he
    simp [he]

end Additions
end LibinputContext
end LibinputRs
