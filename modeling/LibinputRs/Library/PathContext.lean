import LibinputRs.Library.DrainLoops
import LibinputRs.Library.Lifecycle

/-! Ownership in a path context: input comes from the devices that the client added and has not
removed. The hotplug pass runs in every dispatch whoever made the context, and removing a device
reaches no further than its name. -/
namespace LibinputRs
open Automata

variable {F D : Type} [F32 F] [F64 D] [FloatCast F D]

namespace LibinputContext

section Queued

/-- The events a call queues after the given calls. -/
def queuedBy (ctx : LibinputContext F D) (before : List (Call D)) (c : Call D) :
    List (LibinputEvent D) :=
  produced ((ctx.runCalls before).1.call c).2

theorem produced_runCalls_append (ctx : LibinputContext F D) (before : List (Call D)) (c : Call D) :
    produced (ctx.runCalls (before ++ [c])).2 =
      produced (ctx.runCalls before).2 ++ ctx.queuedBy before c := by
  rw [runCalls,run_append,run_singleton,produced_append]
  rfl

theorem produced_runCalls_split (ctx : LibinputContext F D) (before : List (Call D)) (c : Call D)
    (back : List (Call D)) : produced (ctx.runCalls (before ++ c :: back)).2 =
      produced (ctx.runCalls (before ++ [c])).2 ++
        produced ((ctx.runCalls (before ++ [c])).1.runCalls back).2 := by
  rw [← produced_append,runCalls,List.append_cons,run_append]
  rfl

/-- Before an event of a device its removal was not queued, and before an input event its
addition was. -/
theorem life_before (interface : LibinputInterface) (inotify : Bool) (calls : List (Call D))
    {front back : List (LibinputEvent D)} {e : LibinputEvent D}
    (h : produced ((new (F := F) interface inotify).runCalls calls).2 = front ++ e :: back) :
    .removed e.device ∉ front ∧ (e.isInput = true → .added e.device ∈ front) := by
  obtain ⟨inputs,hinputs,hfront⟩ := produced_life (F := F) interface inotify calls e.device
  have hself : eventsOf e.device (e :: back) = e :: eventsOf e.device back := by
    simp [eventsOf]
  obtain ⟨rest,hlife⟩ := hfront
  rw [h,eventsOf_append,hself,List.append_assoc,List.cons_append,List.cons_append] at hlife
  have hmem : ∀ e' ∈ front, e'.device = e.device → e' ∈ eventsOf e.device front :=
    fun e' he' hd => List.mem_filter.mpr ⟨he',by simpa using hd⟩
  cases hfront : eventsOf e.device front with
  | nil =>
    rw [hfront] at hlife hmem
    refine ⟨fun hrem => List.not_mem_nil (hmem _ hrem rfl),fun hinput => ?_⟩
    have hadded : e = .added e.device := (List.cons.inj hlife).1
    rw [hadded] at hinput
    cases hinput
  | cons first before =>
    rw [hfront,List.cons_append] at hlife
    obtain ⟨hadded,hlife⟩ := List.cons.inj hlife
    have hfirst : first ∈ front := (List.mem_filter.mp (hfront ▸ List.mem_cons_self)).1
    refine ⟨fun hrem => ?_,fun _ => hadded ▸ hfirst⟩
    rw [hfront] at hmem
    rcases List.mem_cons.mp (hmem _ hrem rfl) with heq | hbefore
    · rw [← heq] at hadded
      cases hadded
    · rcases List.append_eq_append_iff.mp hlife with ⟨mid,hin,_⟩ | ⟨mid,hbef,hlast⟩
      · have := (hinputs _ (hin ▸ List.mem_append_left _ hbefore)).2
        cases this
      · cases mid with
        | nil =>
          rw [List.append_nil] at hbef
          have := (hinputs _ (hbef ▸ hbefore)).2
          cases this
        | cons m mid => simp at hlast

end Queued
section Admission

/-- Nodes none of which is admitted queue nothing. -/
theorem produced_openAll_eq_nil (nodes : List (PathBuf × OpenResult)) (ctx : LibinputContext F D)
    (fds : List RawFd) (hfds : ∀ fd, ctx.tracked fd = none ↔ fd ∉ fds)
    (h : admittedPaths ctx.interface fds nodes = []) : produced (ctx.openAll nodes).2 = [] := by
  induction nodes generalizing ctx with
  | nil => rfl
  | cons node nodes ih =>
    obtain ⟨path,r⟩ := node
    by_cases hadmit : OpensNode ctx.interface (path,r) ∧ r.rawFd ∉ fds
    · rw [admittedPaths,if_pos hadmit] at h
      cases h
    · rw [admittedPaths,if_neg hadmit] at h
      have hnot : ¬ (OpensNode ctx.interface (path,r) ∧ ctx.tracked r.rawFd = none) := by
        rwa [hfds]
      change produced ((ctx.tryOpen path r).2 ++ ((ctx.tryOpen path r).1.openAll nodes).2) = []
      have hfirst : produced (ctx.tryOpen path r).2 = [] :=
        (produced_tryOpen ctx path r).elim (·.2) fun hopens => absurd hopens.1 hnot
      have htracked : (ctx.tryOpen path r).1.tracked = ctx.tracked :=
        (tryOpen_tracked ctx path r).elim (·.2) fun hopens => absurd hopens.1 hnot
      rw [produced_append,hfirst,ih (ctx.tryOpen path r).1 (by simpa [htracked] using hfds)
        ((tryOpen_interface ctx path r).symm ▸ h)]
      rfl

/-- Additions of a dispatch come from its hotplug pass. -/
theorem added_of_dispatch {ctx : LibinputContext F D} {inp : Dispatch} {e : LibinputEvent D}
    (he : e ∈ produced (ctx.drainIntoQueue inp).2) (htype : e.eventType = .deviceAdded) :
    e ∈ produced (ctx.handleHotplug inp.inotify).2 := by
  unfold drainIntoQueue at he
  extract_lets hotplug fds repeats events removals at he
  simp only [produced_append,List.mem_append] at he
  rcases he with ((he | he) | he) | he
  · exact he
  · obtain ⟨_,fd,_,_,he⟩ := mem_produced_run he
    exact absurd htype (repeatDevice_adds_nothing _ _ fd e he)
  · obtain ⟨_,fd,_,_,he⟩ := mem_produced_run he
    exact absurd htype (drainDevice_adds_nothing _ _ fd e he)
  · obtain ⟨_,fd,_,_,he⟩ := mem_produced_run he
    exact absurd htype (removeDead_adds_nothing _ fd e he)

end Admission
section Ownership

/-- The client added the device and has not removed it since. -/
def Owns (ctx : LibinputContext F D) (before : List (Call D)) (d : DevicePtr) : Prop :=
  ∃ front path r back, before = front ++ .addDevice path r :: back ∧
    .added d ∈ ctx.queuedBy front (.addDevice path r) ∧ .removeDevice d ∉ back

/-- Input comes from devices the client owns, and a removal queues the notification and ends
the events of the device. -/
structure PathLaw (ctx : LibinputContext F D) (calls : List (Call D)) : Prop where
  input : ∀ before c back, calls = before ++ c :: back → ∀ e ∈ ctx.queuedBy before c,
    e.isInput = true → ctx.Owns before e.device
  removal : ∀ before d back, calls = before ++ .removeDevice d :: back →
    .removed d ∈ produced (ctx.runCalls (before ++ [.removeDevice d])).2
  silence : ∀ before d back, calls = before ++ .removeDevice d :: back →
    ∀ e ∈ produced ((ctx.runCalls (before ++ [.removeDevice d])).1.runCalls back).2, e.device ≠ d

/-- The calls a client makes on a path context. -/
def IsPathCall : Call D → Prop
  | .assignSeat _ _ => False
  | _ => True

/-- The hotplug pass of the call admits no node, and a device the call removes is gone already. -/
def ClientOnly (ctx : LibinputContext F D) (before : List (Call D)) (c : Call D) : Prop :=
  match c with
  | .dispatch inp => admittedPaths (ctx.runCalls before).1.interface
      (ctx.runCalls before).1.backend.devices.keys
      ((ctx.runCalls before).1.callNodes (.dispatch inp)) = []
  | .removeDevice d => .removed d ∈ produced (ctx.runCalls before).2
  | _ => True

theorem produced_handleHotplug_eq_nil (ctx : LibinputContext F D) (inp : Dispatch)
    (h : admittedPaths ctx.interface ctx.backend.devices.keys (ctx.callNodes (.dispatch inp)) = []) :
    produced (ctx.handleHotplug inp.inotify).2 = [] := by
  change admittedPaths _ _ (if ctx.backend.inotify then ctx.newPaths (inp.inotify.getD []) else []) =
    [] at h
  unfold handleHotplug
  split_ifs at h ⊢
  · cases hinp : inp.inotify with
    | none => rfl
    | some ievents =>
      rw [hinp] at h
      exact produced_openAll_eq_nil _ ctx _ (tracked_none_iff ctx) h
  · rfl

/-- Only an addition by the client queues an addition. -/
theorem added_queuedBy {ctx : LibinputContext F D} {before : List (Call D)} {c : Call D}
    {d : DevicePtr} (hpath : IsPathCall c) (hc : ctx.ClientOnly before c)
    (hadded : .added d ∈ ctx.queuedBy before c) : ∃ path r, c = .addDevice path r := by
  cases c with
  | assignSeat seatName nodes => exact hpath.elim
  | addDevice path r => exact ⟨path,r,rfl⟩
  | dispatch inp =>
    have hhotplug := added_of_dispatch hadded rfl
    rw [produced_handleHotplug_eq_nil _ inp hc] at hhotplug
    cases hhotplug
  | removeDevice d => cases hadded
  | nextEventType => cases hadded
  | configure d' setting => cases hadded
  | getEvent =>
    unfold queuedBy call at hadded
    dsimp only at hadded
    split at hadded <;> cases hadded

/-- An addition queues no input. -/
theorem isInput_queuedBy_addDevice {ctx : LibinputContext F D} {before : List (Call D)}
    {path : PathBuf} {r : OpenResult} {e : LibinputEvent D}
    (he : e ∈ ctx.queuedBy before (.addDevice path r)) : e.isInput = false := by
  change e ∈ produced ((ctx.runCalls before).1.tryOpen path r).2 at he
  rcases produced_tryOpen (ctx.runCalls before).1 path r with ⟨_,h⟩ | ⟨_,h⟩
  · rw [h] at he
    cases he
  · rw [h,List.mem_singleton] at he
    rw [he]
    rfl

/-- A device that was announced and whose removal was not is owned by the client. -/
theorem owns_of_added {ctx : LibinputContext F D} {before : List (Call D)} {d : DevicePtr}
    (hpath : ∀ c ∈ before, IsPathCall c) (hstep : AtEach ctx.ClientOnly before)
    (hadded : .added d ∈ produced (ctx.runCalls before).2)
    (hremoved : .removed d ∉ produced (ctx.runCalls before).2) : ctx.Owns before d := by
  obtain ⟨front,c,back,heq,hqueued⟩ := mem_produced_run hadded
  have hc : c ∈ before := by simp [heq]
  obtain ⟨path,r,rfl⟩ := added_queuedBy (hpath c hc) (hstep front c back heq) hqueued
  refine ⟨front,path,r,back,heq,hqueued,fun hmem => hremoved ?_⟩
  obtain ⟨mid,rest,rfl⟩ := List.append_of_mem hmem
  have hsplit : before = (front ++ .addDevice path r :: mid) ++ .removeDevice d :: rest := by
    simp [heq]
  have hgone : .removed d ∈ produced (ctx.runCalls (front ++ .addDevice path r :: mid)).2 :=
    hstep _ _ rest hsplit
  rw [hsplit,produced_runCalls_split,produced_runCalls_append]
  exact List.mem_append_left _ (List.mem_append_left _ hgone)

/-- In every run of a path context whose hotplug passes admit nothing, and in which only devices
that are gone are removed, input comes from the devices the client owns, and a removed device
has its notification and stays silent. -/
theorem pathLaw_of_clientOnly (interface : LibinputInterface) (inotify : Bool)
    (calls : List (Call D)) (hpath : ∀ c ∈ calls, IsPathCall c)
    (hstep : AtEach (new (F := F) interface inotify).ClientOnly calls) :
    (new (F := F) interface inotify).PathLaw calls := by
  refine ⟨fun before c back heq e he hinput => ?_,fun before d back heq => ?_,
    fun before d back heq e he hd => ?_⟩
  · obtain ⟨front,rest,hqueued⟩ := List.append_of_mem he
    obtain ⟨hremoved,hadded⟩ := life_before (F := F) interface inotify (before ++ [c])
      (by rw [produced_runCalls_append,hqueued,← List.append_assoc])
    rw [heq] at hpath hstep
    rcases List.mem_append.mp (hadded hinput) with hbefore | hfront
    · apply owns_of_added (fun c' hc' => hpath c' (List.mem_append_left _ hc'))
        (atEach_append.mp hstep).1 hbefore
      exact fun hmem => hremoved (List.mem_append_left _ hmem)
    · obtain ⟨path,r,rfl⟩ := added_queuedBy (hpath c (by simp)) (hstep before c back rfl)
        (hqueued ▸ List.mem_append_left _ hfront)
      rw [isInput_queuedBy_addDevice he] at hinput
      cases hinput
  · rw [produced_runCalls_append]
    exact List.mem_append_left _ (hstep before _ back heq)
  · obtain ⟨front,rest,hqueued⟩ := List.append_of_mem he
    obtain ⟨hremoved,_⟩ := life_before (F := F) interface inotify calls
      (by rw [heq,produced_runCalls_split,hqueued,← List.append_assoc])
    rw [hd,produced_runCalls_append] at hremoved
    exact hremoved (List.mem_append_left _ (List.mem_append_left _ (hstep before _ back heq)))

/-- A keyboard that is added, used, unplugged and then removed. -/
theorem unplugged_keyboard_removed :
    (new (F := ℚ) (D := ℚ) ⟨true,true⟩ true).PathLaw
      [.addDevice "/dev/input/event3" ⟨5,some plainKeyboard⟩,
        .dispatch ⟨some [],0,[],fun _ => .batch [⟨⟨1,.key,KeyCode.keyA,1⟩,0⟩]⟩,
        .dispatch ⟨some [],1,[],fun _ => .gone⟩,.removeDevice 0] := by
  apply pathLaw_of_clientOnly
  · simp [IsPathCall]
  · refine atEach_cons.mpr ⟨trivial,atEach_cons.mpr ⟨?_,atEach_cons.mpr ⟨?_,
      atEach_cons.mpr ⟨?_,atEach_nil⟩⟩⟩⟩
    · change admittedPaths _ _ _ = []
      decide +kernel
    · change admittedPaths _ _ _ = []
      decide +kernel
    · change .removed 0 ∈ produced _
      decide +kernel

/-- A key of a keyboard that the hotplug pass opened is queued, and so is a key of a keyboard
after its removal. -/
theorem input_of_unowned_keyboards :
    ¬ (new (F := ℚ) (D := ℚ) ⟨true,true⟩ true).PathLaw
      [.dispatch ⟨some [⟨some .event3,⟨5,some plainKeyboard⟩⟩],0,[],fun _ =>
        .batch [⟨⟨1,.key,KeyCode.keyA,1⟩,0⟩]⟩] ∧
    ¬ (new (F := ℚ) (D := ℚ) ⟨true,true⟩ true).PathLaw
      [.addDevice "/dev/input/event3" ⟨5,some plainKeyboard⟩,.removeDevice 0,
        .dispatch ⟨some [],0,[],fun _ => .batch [⟨⟨1,.key,KeyCode.keyA,1⟩,0⟩]⟩] := by
  constructor
  · intro h
    obtain ⟨front,_,_,_,heq,_⟩ := h.input [] _ [] rfl (.key 0 1 KeyCode.keyA 1) (by decide +kernel)
      rfl
    simp at heq
  · intro h
    exact h.silence [_] 0 [_] rfl (.key 0 1 KeyCode.keyA 1) (by decide +kernel) rfl

end Ownership
end LibinputContext
end LibinputRs
