import LibinputRs.Automata.Sessions
import LibinputRs.Backend.Ticks

/-! Device-node paths of the tracked devices. The table is keyed by descriptor, so a path can
be tracked twice; it is not as long as every call opens only nodes that are not open yet. -/
namespace LibinputRs
open Automata

variable {F D : Type}

/-- The device table as a function of the descriptor. -/
abbrev DeviceTable (F D : Type) := RawFd → Option (TrackedDevice F D)

namespace DeviceTable

/-- No two tracked devices have the same device node. -/
def DistinctPaths (t : DeviceTable F D) : Prop :=
  ∀ fd fd' td td', t fd = some td → t fd' = some td' → td.path = td'.path → fd = fd'

/-- Every device of the second table is one of the first, up to tracking state. -/
def Shrinks (t t' : DeviceTable F D) : Prop :=
  ∀ fd td', t' fd = some td' → ∃ td, t fd = some td ∧ td'.identity = td.identity

theorem update_cases {t : DeviceTable F D} {fd fd' : RawFd} {x : Option (TrackedDevice F D)}
    {td : TrackedDevice F D} (h : Function.update t fd x fd' = some td) :
    (fd' = fd ∧ x = some td) ∨ (fd' ≠ fd ∧ t fd' = some td) := by
  by_cases hfd : fd' = fd
  · subst hfd
    exact .inl ⟨rfl,by simpa using h⟩
  · exact .inr ⟨hfd,by simpa [Function.update_of_ne hfd] using h⟩

/-- A list of the descriptors of a table stays one when both get a new entry. -/
theorem update_none_iff {t : DeviceTable F D} {fds : List RawFd}
    (h : ∀ fd, t fd = none ↔ fd ∉ fds) (fd : RawFd) (td : TrackedDevice F D) (fd' : RawFd) :
    Function.update t fd (some td) fd' = none ↔ fd' ∉ fd :: fds := by
  rw [List.mem_cons,not_or]
  by_cases hfd : fd' = fd
  · simp [hfd]
  · rw [Function.update_of_ne hfd,h]
    simp [hfd]

/-- A new path keeps the paths distinct. -/
theorem DistinctPaths.insert {t : DeviceTable F D} (h : t.DistinctPaths) (fd : RawFd)
    {td : TrackedDevice F D} (hnew : ∀ fd' td', t fd' = some td' → td'.path ≠ td.path) :
    DistinctPaths (Function.update t fd (some td)) := by
  intro fd₁ fd₂ td₁ td₂ h₁ h₂ hpath
  rcases update_cases h₁ with ⟨hfd₁,heq₁⟩ | ⟨_,h₁⟩ <;>
    rcases update_cases h₂ with ⟨hfd₂,heq₂⟩ | ⟨_,h₂⟩
  · exact hfd₁.trans hfd₂.symm
  · obtain rfl := Option.some.inj heq₁
    exact absurd hpath.symm (hnew fd₂ td₂ h₂)
  · obtain rfl := Option.some.inj heq₂
    exact absurd hpath (hnew fd₁ td₁ h₁)
  · exact h fd₁ fd₂ td₁ td₂ h₁ h₂ hpath

namespace Shrinks

theorem refl (t : DeviceTable F D) : t.Shrinks t := fun _ td h => ⟨td,h,rfl⟩

theorem trans {t u v : DeviceTable F D} (h : t.Shrinks u) (h' : u.Shrinks v) : t.Shrinks v := by
  intro fd td hv
  obtain ⟨td',hu,hid⟩ := h' fd td hv
  obtain ⟨td₀,ht,hid'⟩ := h fd td' hu
  exact ⟨td₀,ht,hid.trans hid'⟩

theorem update {t : DeviceTable F D} {fd : RawFd} {td td' : TrackedDevice F D}
    (ht : t fd = some td) (hid : td'.identity = td.identity) :
    t.Shrinks (Function.update t fd (some td')) := by
  intro fd₁ td₁ h₁
  rcases update_cases h₁ with ⟨rfl,heq⟩ | ⟨_,h₁⟩
  · obtain rfl := Option.some.inj heq
    exact ⟨td,ht,hid⟩
  · exact ⟨td₁,h₁,rfl⟩

theorem erase (t : DeviceTable F D) (fd : RawFd) : t.Shrinks (Function.update t fd none) := by
  intro fd₁ td₁ h₁
  rcases update_cases h₁ with ⟨_,heq⟩ | ⟨_,h₁⟩
  · cases heq
  · exact ⟨td₁,h₁,rfl⟩

theorem distinctPaths {t t' : DeviceTable F D} (h : t.Shrinks t') (ht : t.DistinctPaths) :
    t'.DistinctPaths := by
  intro fd fd' td td' h₁ h₂ hpath
  obtain ⟨td₀,h₀,hid₀⟩ := h fd td h₁
  obtain ⟨td₁,h₁,hid₁⟩ := h fd' td' h₂
  apply ht fd fd' td₀ td₁ h₀ h₁
  rw [← TrackedDevice.path_of_identity hid₀,← TrackedDevice.path_of_identity hid₁,hpath]

end Shrinks
end DeviceTable

variable [F32 F] [F64 D] [FloatCast F D]

namespace LibinputContext

/-- The paths of the tracked devices. -/
def paths (ctx : LibinputContext F D) : List PathBuf :=
  ctx.backend.devices.entries.map fun e => e.2.path

/-- Whether opening a node gives a device that passes the filters. -/
def OpensNode (interface : LibinputInterface) (node : PathBuf × OpenResult) : Prop :=
  Reaches interface node.1 node.2.rawFd ∧ node.2.probe.any passesFilters = true

instance (interface : LibinputInterface) : DecidablePred (OpensNode interface) :=
  fun _ => inferInstanceAs (Decidable (_ ∧ _))

/-- The paths of a list of nodes that come to be tracked, when the given descriptors are taken:
the node is opened, and its descriptor is not taken. -/
def admittedPaths (interface : LibinputInterface) : List RawFd → List (PathBuf × OpenResult) →
    List PathBuf
  | _, [] => []
  | fds, node :: nodes =>
    if OpensNode interface node ∧ node.2.rawFd ∉ fds then
      node.1 :: admittedPaths interface (node.2.rawFd :: fds) nodes
    else admittedPaths interface fds nodes

/-- The nodes a call opens, decided in the state before the call. -/
def callNodes (ctx : LibinputContext F D) : Call D → List (PathBuf × OpenResult)
  | .assignSeat _ nodes => nodes
  | .addDevice path r => [(path,r)]
  | .dispatch inp => if ctx.backend.inotify then ctx.newPaths (inp.inotify.getD []) else []
  | _ => []

/-- The call opens no node twice and none that is tracked already. -/
def FreshCall (ctx : LibinputContext F D) (c : Call D) : Prop :=
  (admittedPaths ctx.interface ctx.backend.devices.keys (ctx.callNodes c)).Nodup ∧
    ∀ path ∈ admittedPaths ctx.interface ctx.backend.devices.keys (ctx.callNodes c),
      path ∉ ctx.paths

instance (ctx : LibinputContext F D) (c : Call D) : Decidable (ctx.FreshCall c) :=
  inferInstanceAs (Decidable (_ ∧ _))

omit [F32 F] [F64 D] [FloatCast F D] in
theorem mem_paths_iff (ctx : LibinputContext F D) (path : PathBuf) :
    path ∈ ctx.paths ↔ ∃ fd td, ctx.tracked fd = some td ∧ td.path = path := by
  simp only [paths,List.mem_map]
  constructor
  · rintro ⟨⟨fd,td⟩,hmem,rfl⟩
    exact ⟨fd,td,AList.mem_lookup_iff.mpr hmem,rfl⟩
  · rintro ⟨fd,td,ht,rfl⟩
    exact ⟨⟨fd,td⟩,AList.mem_lookup_iff.mp ht,rfl⟩

omit [F32 F] [F64 D] [FloatCast F D] in
theorem mem_keys_iff (ctx : LibinputContext F D) (fd : RawFd) :
    fd ∈ ctx.backend.devices.keys ↔ (ctx.tracked fd).isSome :=
  AList.mem_keys.symm.trans AList.lookup_isSome.symm

omit [F32 F] [F64 D] [FloatCast F D] in
theorem tracked_none_iff (ctx : LibinputContext F D) (fd : RawFd) :
    ctx.tracked fd = none ↔ fd ∉ ctx.backend.devices.keys := by
  rw [mem_keys_iff,Option.not_isSome_iff_eq_none]

omit [FloatCast F D] in
/-- What an open comes to: nothing when no node opens, a device object alone when the descriptor
is tracked already, and otherwise a device that is listed, tracked and announced. -/
theorem tryOpen_outcomes (ctx : LibinputContext F D) (path : PathBuf) (r : OpenResult) :
    (¬ OpensNode ctx.interface (path,r) ∧ (ctx.tryOpen path r).1 = ctx ∧
      produced (ctx.tryOpen path r).2 = []) ∨
    (OpensNode ctx.interface (path,r) ∧ ctx.tracked r.rawFd ≠ none ∧ ∃ device : EvdevDevice,
      (ctx.tryOpen path r).1 = { ctx with devices := ctx.devices ++ [.ofEvdev device path] } ∧
      produced (ctx.tryOpen path r).2 = []) ∨
    (OpensNode ctx.interface (path,r) ∧ ctx.tracked r.rawFd = none ∧ ∃ device : EvdevDevice,
      (ctx.tryOpen path r).1 = ({ ctx with devices := ctx.devices ++ [.ofEvdev device path] } :
        LibinputContext F D).setTracked r.rawFd (.new device path ctx.devices.length) ∧
      produced (ctx.tryOpen path r).2 = [.added ctx.devices.length]) := by
  have hopened := produced_of_silent (opened_silent ctx.view r.rawFd)
  rcases tryOpen_cases ctx path r with ⟨hfail,h⟩ | ⟨hprobe,_,h⟩ | ⟨device,hprobe,hreach,h⟩
  · refine .inl ⟨fun hopens => ?_,by rw [h],by rw [h]; rfl⟩
    rcases hfail with hfail | hfail
    · exact hfail hopens.1
    · simpa [hfail] using hopens.2
  · refine .inl ⟨fun hopens => by simpa [hprobe] using hopens.2,by rw [h],?_⟩
    rw [h,produced_cons,produced_cons,produced_of_silent (closed_silent ctx.view r.rawFd)]
    rfl
  · have hnode : OpensNode ctx.interface (path,r) ↔ passesFilters device = true := by
      simp [OpensNode,hreach,hprobe]
    rw [h,produced_append,hopened,hnode]
    rcases openProbed_cases ctx path r.rawFd device with ⟨hpass,hp⟩ | ⟨hpass,ht,hp⟩ | ⟨hpass,ht,hp⟩
    · exact .inl ⟨by simp [hpass],by rw [hp],by rw [hp]; rfl⟩
    · refine .inr (.inl ⟨hpass,fun hnone => ?_,device,by rw [hp],by rw [hp]; rfl⟩)
      rw [hnone] at ht
      cases ht
    · exact .inr (.inr ⟨hpass,ht,device,by rw [hp],by rw [hp]; rfl⟩)

omit [FloatCast F D] in
/-- What an open does to the table. -/
theorem tryOpen_tracked (ctx : LibinputContext F D) (path : PathBuf) (r : OpenResult) :
    (¬ (OpensNode ctx.interface (path,r) ∧ ctx.tracked r.rawFd = none) ∧
      (ctx.tryOpen path r).1.tracked = ctx.tracked) ∨
    ((OpensNode ctx.interface (path,r) ∧ ctx.tracked r.rawFd = none) ∧
      ∃ td : TrackedDevice F D, td.path = path ∧
        (td.heldKeys = [] ∧ td.libDevice = ctx.devices.length) ∧
        (ctx.tryOpen path r).1.tracked = Function.update ctx.tracked r.rawFd (some td)) := by
  rcases tryOpen_outcomes ctx path r with ⟨hnot,h,_⟩ | ⟨_,ht,device,h,_⟩ | ⟨hopens,ht,device,h,_⟩
  · exact .inl ⟨fun hboth => hnot hboth.1,by rw [h]⟩
  · exact .inl ⟨fun hboth => ht hboth.2,by rw [h]; rfl⟩
  · refine .inr ⟨⟨hopens,ht⟩,.new device path ctx.devices.length,rfl,⟨rfl,rfl⟩,?_⟩
    rw [h]
    exact congrArg World.tracked (view_setTracked _ r.rawFd _)

theorem tryOpen_interface (ctx : LibinputContext F D) (path : PathBuf) (r : OpenResult) :
    (ctx.tryOpen path r).1.interface = ctx.interface :=
  (tryOpen_turns ctx path r).ticks.history (fun _ w => w.interface = ctx.interface)
    (fun _ _ _ _ hI ht => ht.interface.trans hI) rfl

/-- Opening nodes with new and distinct paths keeps the paths distinct. The induction carries
the descriptors taken so far. -/
theorem openAll_distinctPaths (nodes : List (PathBuf × OpenResult)) (ctx : LibinputContext F D)
    (fds : List RawFd) (hfds : ∀ fd, ctx.tracked fd = none ↔ fd ∉ fds)
    (hw : DeviceTable.DistinctPaths ctx.tracked)
    (hnodup : (admittedPaths ctx.interface fds nodes).Nodup)
    (hnew : ∀ path ∈ admittedPaths ctx.interface fds nodes, path ∉ ctx.paths) :
    DeviceTable.DistinctPaths (ctx.openAll nodes).1.tracked := by
  induction nodes generalizing ctx fds with
  | nil => exact hw
  | cons node nodes ih =>
    obtain ⟨path,r⟩ := node
    have hinterface := tryOpen_interface ctx path r
    change DeviceTable.DistinctPaths ((ctx.tryOpen path r).1.openAll nodes).1.tracked
    rcases tryOpen_tracked ctx path r with ⟨hnot,htracked⟩ | ⟨hopens,td,hpath,_,htracked⟩
    · have hpaths : ∀ p, p ∈ (ctx.tryOpen path r).1.paths ↔ p ∈ ctx.paths := by
        simp only [mem_paths_iff,htracked,implies_true]
      have hcons : admittedPaths ctx.interface fds ((path,r) :: nodes) =
          admittedPaths ctx.interface fds nodes :=
        if_neg fun h => hnot ⟨h.1,(hfds _).mpr h.2⟩
      rw [hcons] at hnodup hnew
      refine ih (ctx.tryOpen path r).1 fds (by simpa [htracked] using hfds) (htracked ▸ hw)
        (hinterface ▸ hnodup) fun p hp => ?_
      rw [hpaths]
      exact hnew p (hinterface ▸ hp)
    · have hcons : admittedPaths ctx.interface fds ((path,r) :: nodes) =
          path :: admittedPaths ctx.interface (r.rawFd :: fds) nodes :=
        if_pos ⟨hopens.1,(hfds _).mp hopens.2⟩
      rw [hcons] at hnodup hnew
      rw [List.nodup_cons] at hnodup
      have hfresh := hnew path List.mem_cons_self
      have hfds' : ∀ fd, (ctx.tryOpen path r).1.tracked fd = none ↔ fd ∉ r.rawFd :: fds :=
        htracked ▸ DeviceTable.update_none_iff hfds r.rawFd td
      have hw' : DeviceTable.DistinctPaths (ctx.tryOpen path r).1.tracked := by
        rw [htracked]
        refine hw.insert r.rawFd fun fd' td' ht' heq => hfresh ?_
        exact (mem_paths_iff ctx path).mpr ⟨fd',td',ht',heq.trans hpath⟩
      refine ih (ctx.tryOpen path r).1 (r.rawFd :: fds) hfds' hw' (hinterface ▸ hnodup.2)
        fun p hp hmem => ?_
      rw [hinterface] at hp
      obtain ⟨fd',td',ht',rfl⟩ := (mem_paths_iff _ _).mp hmem
      rw [htracked] at ht'
      rcases DeviceTable.update_cases ht' with ⟨_,heq⟩ | ⟨_,ht'⟩
      · obtain rfl := Option.some.inj heq
        exact hnodup.1 (hpath ▸ hp)
      · exact hnew _ (List.mem_cons_of_mem _ hp) ((mem_paths_iff ctx _).mpr ⟨fd',td',ht',rfl⟩)

section Drain

omit [F32 F] [F64 D] [FloatCast F D] in
theorem setTracked_tracked (ctx : LibinputContext F D) (fd : RawFd) (td : TrackedDevice F D) :
    (ctx.setTracked fd td).tracked = Function.update ctx.tracked fd (some td) :=
  congrArg World.tracked (view_setTracked ctx fd td)

omit [F32 F] [F64 D] [FloatCast F D] in
theorem eraseTracked_tracked (ctx : LibinputContext F D) (fd : RawFd) :
    (ctx.eraseTracked fd).tracked = Function.update ctx.tracked fd none :=
  congrArg World.tracked (view_eraseTracked ctx fd)

omit [F32 F] [F64 D] [FloatCast F D] in
theorem repeatDevice_shrinks (now : Instant) (ctx : LibinputContext F D) (fd : RawFd) :
    DeviceTable.Shrinks ctx.tracked (repeatDevice now ctx fd).1.tracked := by
  unfold repeatDevice
  cases ht : ctx.tracked fd with
  | none => exact .refl _
  | some td =>
    dsimp only
    rw [setTracked_tracked]
    exact .update ht (TrackedDevice.emitKeyRepeats_identity now td)

theorem batch_identity (cfg : Settings F) (typing : Option Instant)
    (s : TrackedDevice F D × Option Instant) (events : List TimedEvent) :
    (run (TrackedDevice.observeEvent cfg typing) s events).1.1.identity = s.1.identity :=
  run_invariant (TrackedDevice.observeEvent cfg typing)
    (fun t : TrackedDevice F D × Option Instant => t.1.identity = s.1.identity)
    (fun t te _ h => (TrackedDevice.processEvent_identity cfg typing t te).trans h) rfl

theorem drainDevice_shrinks (fetch : RawFd → Fetch) (s : LibinputContext F D × List RawFd)
    (fd : RawFd) : DeviceTable.Shrinks s.1.tracked (drainDevice fetch s fd).1.1.tracked := by
  unfold drainDevice
  cases ht : s.1.tracked fd with
  | none => exact .refl _
  | some td =>
    cases fetch fd with
    | batch events =>
      change DeviceTable.Shrinks s.1.tracked (s.1.setTracked fd _).tracked
      rw [setTracked_tracked]
      exact .update ht (batch_identity _ _ _ events)
    | wouldBlock => exact .refl _
    | gone => exact .refl _
    | failed => exact .refl _

omit [F32 F] [F64 D] [FloatCast F D] in
theorem removeDead_shrinks (ctx : LibinputContext F D) (fd : RawFd) :
    DeviceTable.Shrinks ctx.tracked (ctx.removeDead fd).1.tracked := by
  unfold removeDead
  cases ht : ctx.tracked fd with
  | none => exact .refl _
  | some td =>
    dsimp only
    rw [eraseTracked_tracked]
    exact .erase ctx.tracked fd

omit [F32 F] [F64 D] [FloatCast F D] in
/-- A loop whose turns only shrink the table only shrinks the table. -/
theorem run_shrinks {σ ι : Type*} {ω : Type} (table : σ → DeviceTable F D) {step : σ → ι → σ × List ω}
    (hstep : ∀ s i, (table s).Shrinks (table (step s i).1)) (s : σ) (is : List ι) :
    (table s).Shrinks (table (run step s is).1) := by
  induction is generalizing s with
  | nil => exact .refl _
  | cons i is ih => exact (hstep s i).trans (ih _)

/-- Everything after the hotplug pass only shrinks the table. -/
theorem drainIntoQueue_shrinks (ctx : LibinputContext F D) (inp : Dispatch) :
    DeviceTable.Shrinks (ctx.handleHotplug inp.inotify).1.tracked
      (ctx.drainIntoQueue inp).1.tracked := by
  unfold drainIntoQueue
  extract_lets hotplug fds repeats events removals
  have hrepeats : DeviceTable.Shrinks hotplug.1.tracked repeats.1.tracked :=
    run_shrinks tracked (repeatDevice_shrinks inp.now) hotplug.1 fds
  have hevents : DeviceTable.Shrinks repeats.1.tracked events.1.1.tracked :=
    run_shrinks (fun s => tracked s.1) (drainDevice_shrinks inp.fetch) (repeats.1,[]) fds
  have hremovals : DeviceTable.Shrinks events.1.1.tracked removals.1.tracked :=
    run_shrinks tracked removeDead_shrinks events.1.1 events.1.2
  exact (hrepeats.trans hevents).trans hremovals

end Drain

/-- A call that opens only new nodes keeps the paths distinct. -/
theorem call_distinctPaths (ctx : LibinputContext F D) (c : Call D) (hfresh : ctx.FreshCall c)
    (hw : DeviceTable.DistinctPaths ctx.tracked) :
    DeviceTable.DistinctPaths (ctx.call c).1.tracked := by
  have hopen : ∀ nodes, ctx.callNodes c = nodes →
      DeviceTable.DistinctPaths (ctx.openAll nodes).1.tracked := by
    rintro nodes rfl
    exact openAll_distinctPaths _ ctx _ (tracked_none_iff ctx) hw hfresh.1 hfresh.2
  cases c with
  | assignSeat seatName nodes =>
    exact openAll_distinctPaths nodes { ctx with seat := { ctx.seat with logicalName := seatName } }
      _ (tracked_none_iff ctx) hw hfresh.1 hfresh.2
  | addDevice path r => exact hopen _ rfl
  | removeDevice d => exact hw
  | dispatch inp =>
    apply (drainIntoQueue_shrinks ctx inp).distinctPaths
    unfold handleHotplug
    by_cases hino : ctx.backend.inotify
    · rw [if_pos hino]
      cases hevents : inp.inotify with
      | none => exact hw
      | some ievents => exact hopen _ (by simp [callNodes,hino,hevents])
    · rw [if_neg hino]
      exact hw
  | getEvent =>
    unfold call libinputGetEvent
    cases ctx.eventQueue <;> exact hw
  | nextEventType => exact hw
  | configure d c => exact hw

/-- In every run whose calls open only new nodes, no two tracked devices have the same device
node, in any state reached. -/
theorem paths_distinct_of_freshCalls (interface : LibinputInterface) (inotify : Bool)
    (calls : List (Call D))
    (hfresh : AtEach (fun before c =>
      ((new (F := F) interface inotify).runCalls before).1.FreshCall c) calls) :
    ∀ before after, calls = before ++ after →
      DeviceTable.DistinctPaths ((new (F := F) interface inotify).runCalls before).1.tracked := by
  intro before
  induction before using List.reverseRecOn with
  | nil =>
    intro after _ fd fd' td td' h
    cases h
  | append_singleton before c ih =>
    intro after hcalls
    have hprev := ih (c :: after) (by simpa using hcalls)
    have hrun : ((new (F := F) interface inotify).runCalls (before ++ [c])).1 =
        (((new interface inotify).runCalls before).1.call c).1 := by
      simp [runCalls,run_append]
    rw [hrun]
    exact call_distinctPaths _ c (hfresh before c after (by simpa using hcalls)) hprev

/-- A keyboard added by path and a mouse plugged in later keep their paths apart. -/
theorem keyboard_and_mouse_paths_distinct :
    DeviceTable.DistinctPaths ((new (F := ℚ) (D := ℚ) ⟨true,true⟩ true).runCalls
      [.addDevice "/dev/input/event3" ⟨5,some plainKeyboard⟩,
        .dispatch ⟨some [⟨some .event4,⟨6,some plainMouse⟩⟩],0,[],fun _ => .wouldBlock⟩]).1.tracked :=
  paths_distinct_of_freshCalls ⟨true,true⟩ true _
    (atEach_cons.mpr ⟨by decide +kernel,atEach_cons.mpr ⟨by decide +kernel,atEach_nil⟩⟩) _ []
    (List.append_nil _).symm

/-- Two notifications for one new node in one read: the node is opened and tracked twice. -/
theorem hotplug_tracks_path_twice :
    ¬ DeviceTable.DistinctPaths ((new (F := ℚ) (D := ℚ) ⟨true,true⟩ true).runCalls
      [.dispatch ⟨some [⟨some .event3,⟨5,some plainKeyboard⟩⟩,⟨some .event3,⟨6,some plainKeyboard⟩⟩],
        0,[],fun _ => .wouldBlock⟩]).1.tracked := by
  intro h
  exact absurd (h 5 6 (.new plainKeyboard "/dev/input/event3" 0) (.new plainKeyboard "/dev/input/event3" 1)
    (by decide +kernel) (by decide +kernel) rfl) (by decide)

end LibinputContext
end LibinputRs
