import LibinputRs.Library.DrainLoops

/-! The descriptor a client polls. `libinput_get_fd` gives an epoll set, level-triggered and filled
by `register_fd`; a descriptor leaves it by `unregister_fd` and, in the kernel, by being closed. The
set is that of the inotify watch and the tracked devices as long as no descriptor is handed out that
is in use, and so it polls readable exactly when one of these has something to read. -/
namespace LibinputRs
open Automata

variable {F D : Type}

/-- What an action on descriptors leaves of the epoll set. -/
def FdAction.interest (w : RawFd → Bool) : FdAction → RawFd → Bool
  | .opened _ => w
  | .closeRestricted fd => Function.update w fd false
  | .dropped fd => Function.update w fd false
  | .epollAdd fd => Function.update w fd true
  | .epollDel fd => Function.update w fd false

def watchedAfter (w : RawFd → Bool) (l : List FdAction) : RawFd → Bool :=
  l.foldl FdAction.interest w

/-- The set that `LibinputContext::new` leaves: the inotify descriptor, if there is one. -/
def watchedAtStart (inotifyFd : Option RawFd) (fd : RawFd) : Bool := decide (inotifyFd = some fd)

/-- A level-triggered set polls readable while one of its descriptors has something pending. -/
def Readable (w pending : RawFd → Bool) : Prop := ∃ fd, w fd = true ∧ pending fd = true

theorem watchedAfter_append (w : RawFd → Bool) (l m : List FdAction) :
    watchedAfter w (l ++ m) = watchedAfter (watchedAfter w l) m := List.foldl_append

variable [F32 F] [F64 D] [FloatCast F D]

namespace LibinputContext

/-- The kernel gives out no descriptor that is in use: one that an open obtains is that of no
tracked device and not the one of the inotify watch. -/
def OpensUnused (inotifyFd : Option RawFd) (ctx : LibinputContext F D) :
    List (PathBuf × OpenResult) → Prop
  | [] => True
  | node :: nodes =>
    (0 ≤ node.2.rawFd → ctx.tracked node.2.rawFd = none ∧ inotifyFd ≠ some node.2.rawFd) ∧
      OpensUnused inotifyFd (ctx.tryOpen node.1 node.2).1 nodes

omit [FloatCast F D] in
instance decidableOpensUnused (inotifyFd : Option RawFd) : (ctx : LibinputContext F D) →
    (nodes : List (PathBuf × OpenResult)) → Decidable (ctx.OpensUnused inotifyFd nodes)
  | _,[] => isTrue trivial
  | ctx,node :: nodes =>
    have : Decidable (OpensUnused inotifyFd (ctx.tryOpen node.1 node.2).1 nodes) :=
      decidableOpensUnused inotifyFd _ nodes
    inferInstanceAs (Decidable (_ ∧ _))

omit [FloatCast F D] in
/-- An open that fails does nothing. -/
theorem tryOpen_of_neg (ctx : LibinputContext F D) (path : PathBuf) {r : OpenResult}
    (hneg : r.rawFd < 0) : ctx.tryOpen path r = (ctx,[]) := by
  unfold tryOpen
  by_cases hcb : ctx.interface.openRestricted = true
  · rw [if_pos hcb,if_pos (.inr hneg)]
  · rw [if_neg hcb]
    cases r.probe with
    | none => rfl
    | some device => exact if_pos hneg

omit [FloatCast F D] in
/-- The descriptors in the table after an open. -/
theorem tryOpen_isSome (ctx : LibinputContext F D) (path : PathBuf) (r : OpenResult) (fd : RawFd) :
    ((ctx.tryOpen path r).1.tracked fd).isSome = true ↔
      (ctx.tracked fd).isSome = true ∨ OpensNode ctx.interface (path,r) ∧ fd = r.rawFd := by
  rcases tryOpen_tracked ctx path r with ⟨hnot,h⟩ | ⟨⟨hopens,hnone⟩,td,_,_,h⟩
  · rw [h]
    refine ⟨.inl,fun hor => hor.elim id ?_⟩
    rintro ⟨hopens,rfl⟩
    exact Option.isSome_iff_ne_none.mpr fun hnone => hnot ⟨hopens,hnone⟩
  · rw [h]
    by_cases heq : fd = r.rawFd
    · subst heq
      simp [hopens]
    · simp [heq]

/-- Only the descriptors in the table matter to it. -/
theorem OpensUnused.congr {inotifyFd : Option RawFd} {ctx ctx' : LibinputContext F D}
    {nodes : List (PathBuf × OpenResult)} (h : ctx.OpensUnused inotifyFd nodes)
    (hinterface : ctx'.interface = ctx.interface)
    (hsome : ∀ fd, (ctx'.tracked fd).isSome = true ↔ (ctx.tracked fd).isSome = true) :
    ctx'.OpensUnused inotifyFd nodes := by
  induction nodes generalizing ctx ctx' with
  | nil => trivial
  | cons node nodes ih =>
    refine ⟨fun hfd => ⟨?_,(h.1 hfd).2⟩,ih h.2 ?_ fun fd => ?_⟩
    · refine Option.not_isSome_iff_eq_none.mp fun hc => ?_
      rw [hsome,(h.1 hfd).1] at hc
      cases hc
    · rw [tryOpen_interface,tryOpen_interface,hinterface]
    · rw [tryOpen_isSome,tryOpen_isSome,hsome,hinterface]

/-- The epoll set is that of the inotify watch and the tracked devices. -/
structure Watches (inotifyFd : Option RawFd) (w : RawFd → Bool) (ctx : LibinputContext F D) :
    Prop where
  watched : ∀ fd, w fd = true ↔ inotifyFd = some fd ∨ (ctx.tracked fd).isSome = true
  apart : ∀ fd, inotifyFd = some fd → ctx.tracked fd = none

namespace Watches
variable {inotifyFd : Option RawFd} {w : RawFd → Bool} {ctx : LibinputContext F D}

omit [F32 F] [F64 D] [FloatCast F D] in
/-- Closing a descriptor that is in use by neither changes nothing. -/
theorem close (h : Watches inotifyFd w ctx) {fd : RawFd} (hfd : ctx.tracked fd = none)
    (hino : inotifyFd ≠ some fd) : Function.update w fd false = w := by
  refine Function.update_eq_self_iff.mpr (Eq.symm (Bool.eq_false_iff.mpr fun hw => ?_))
  rcases (h.watched fd).mp hw with heq | hsome
  · exact hino heq
  · rw [hfd] at hsome
    cases hsome

omit [F32 F] [F64 D] [FloatCast F D] in
/-- What leaves the descriptors in the table alone leaves the set right. -/
theorem congr (h : Watches inotifyFd w ctx) {ctx' : LibinputContext F D}
    (hsome : ∀ fd, (ctx'.tracked fd).isSome = (ctx.tracked fd).isSome) :
    Watches inotifyFd w ctx' := by
  refine ⟨fun fd => by rw [hsome,h.watched],fun fd hfd => ?_⟩
  have hnone := hsome fd
  rw [h.apart fd hfd] at hnone
  exact Option.not_isSome_iff_eq_none.mp (by rw [hnone]; simp)

omit [FloatCast F D] in
/-- An open watches the device it admits, and closes what it does not. -/
theorem tryOpen (h : Watches inotifyFd w ctx) (path : PathBuf) {r : OpenResult}
    (hunused : 0 ≤ r.rawFd → ctx.tracked r.rawFd = none ∧ inotifyFd ≠ some r.rawFd) :
    Watches inotifyFd (watchedAfter w (fdActions (ctx.tryOpen path r).2)) (ctx.tryOpen path r).1 := by
  by_cases hneg : r.rawFd < 0
  · rw [tryOpen_of_neg ctx path hneg]
    exact h
  obtain ⟨hfd,hino⟩ := hunused (not_lt.mp hneg)
  have hclose := h.close hfd hino
  have hopened : fdActions (ctx.view.opened r.rawFd) = [] ∨
      fdActions (ctx.view.opened r.rawFd) = [.opened r.rawFd] := by
    unfold World.opened
    split_ifs
    · exact .inr rfl
    · exact .inl rfl
  have hclosed : watchedAfter w (fdActions (ctx.view.closed r.rawFd)) = w := by
    unfold World.closed
    split_ifs
    · exact hclose
    · rfl
  have hafter : ∀ l : List FdAction, watchedAfter w (fdActions (ctx.view.opened r.rawFd) ++ l) =
      watchedAfter w l := by
    intro l
    rcases hopened with heq | heq <;> rw [heq] <;> rfl
  rcases tryOpen_cases ctx path r with ⟨_,hr⟩ | ⟨_,_,hr⟩ | ⟨device,_,_,hr⟩
  · rw [hr]
    exact h
  · rw [hr]
    change Watches inotifyFd (watchedAfter (Function.update w r.rawFd false)
      (fdActions (ctx.view.closed r.rawFd))) ctx
    rw [hclose,hclosed]
    exact h
  · rw [hr]
    dsimp only
    rw [fdActions_append,hafter]
    rcases openProbed_cases ctx path r.rawFd device with ⟨_,hp⟩ | ⟨_,hsome,hp⟩ | ⟨_,_,hp⟩
    · rw [hp]
      change Watches inotifyFd (Function.update w r.rawFd false) ctx
      rw [hclose]
      exact h
    · rw [hfd] at hsome
      cases hsome
    · rw [hp]
      change Watches inotifyFd (Function.update w r.rawFd true) _
      have htracked : ∀ fd, ((({ ctx with devices := ctx.devices ++ [.ofEvdev device path] } :
          LibinputContext F D).setTracked r.rawFd (.new device path ctx.devices.length)).tracked
            fd).isSome = true ↔ fd = r.rawFd ∨ (ctx.tracked fd).isSome = true := by
        intro fd
        rw [setTracked_tracked]
        by_cases heq : fd = r.rawFd
        · simp [heq]
        · rw [Function.update_of_ne heq]
          simp only [heq,false_or]
          rfl
      refine ⟨fun fd => ?_,fun fd heq => ?_⟩
      · rw [htracked]
        by_cases heq : fd = r.rawFd
        · simp [heq]
        · rw [Function.update_of_ne heq,h.watched]
          simp [heq]
      · have hne : fd ≠ r.rawFd := by
          rintro rfl
          exact hino heq
        rw [setTracked_tracked,Function.update_of_ne hne]
        exact h.apart fd heq

omit [FloatCast F D] in
theorem openAll (h : Watches inotifyFd w ctx) {nodes : List (PathBuf × OpenResult)}
    (hunused : ctx.OpensUnused inotifyFd nodes) :
    Watches inotifyFd (watchedAfter w (fdActions (ctx.openAll nodes).2)) (ctx.openAll nodes).1 := by
  induction nodes generalizing ctx w with
  | nil => exact h
  | cons node nodes ih =>
    have hrest := ih (h.tryOpen node.1 hunused.1) hunused.2
    rw [← watchedAfter_append,← fdActions_append] at hrest
    exact hrest

omit [F32 F] [F64 D] [FloatCast F D] in
/-- A removal takes the device out of the set before its descriptor is closed. -/
theorem removeDead (h : Watches inotifyFd w ctx) (fd : RawFd) :
    Watches inotifyFd (watchedAfter w (fdActions (ctx.removeDead fd).2)) (ctx.removeDead fd).1 := by
  unfold LibinputContext.removeDead
  cases ht : ctx.tracked fd with
  | none => exact h
  | some td =>
    have hafter : watchedAfter w (fdActions (.fd (.epollDel fd) :: (if ctx.interface.closeRestricted
        then [.fd (.closeRestricted fd)] else []) ++ [.queued (.removed td.libDevice),
          (.fd (.dropped fd) : Obs F D)])) = Function.update w fd false := by
      split_ifs
      · change Function.update (Function.update (Function.update w fd false) fd false) fd false = _
        rw [Function.update_idem,Function.update_idem]
      · exact Function.update_idem _ _ _
    dsimp only
    rw [hafter]
    refine ⟨fun fd' => ?_,fun fd' hino => ?_⟩ <;> rw [eraseTracked_tracked] <;>
      by_cases heq : fd' = fd
    · subst heq
      have hne : inotifyFd ≠ some fd' := fun hino => by simp [h.apart fd' hino] at ht
      simp [hne]
    · rw [Function.update_of_ne heq,Function.update_of_ne heq,h.watched]
    · rw [heq,Function.update_self]
    · rw [Function.update_of_ne heq]
      exact h.apart fd' hino

omit [F32 F] [F64 D] [FloatCast F D] in
/-- What does nothing to descriptors and keeps the table's. -/
theorem run_quiet {σ ι : Type*} (context : σ → LibinputContext F D)
    (step : σ → ι → σ × List (Obs F D)) (hout : ∀ s i, fdActions (step s i).2 = [])
    (hsome : ∀ s i fd, ((context (step s i).1).tracked fd).isSome = ((context s).tracked fd).isSome)
    {s : σ} (h : Watches inotifyFd w (context s)) (is : List ι) :
    fdActions (run step s is).2 = [] ∧ Watches inotifyFd w (context (run step s is).1) := by
  induction is generalizing s with
  | nil => exact ⟨rfl,h⟩
  | cons i is ih =>
    obtain ⟨hrest,hw⟩ := ih (h.congr fun fd => hsome s i fd)
    rw [run_cons,fdActions_append,hout,hrest]
    exact ⟨rfl,hw⟩

omit [F32 F] [F64 D] [FloatCast F D] in
theorem repeatDevice_fdActions (now : Instant) (ctx : LibinputContext F D) (fd : RawFd) :
    fdActions (repeatDevice now ctx fd).2 = [] := by
  unfold repeatDevice
  cases ctx.tracked fd with
  | none => rfl
  | some td => exact fdActions_map_queued _

theorem drainDevice_fdActions (fetch : RawFd → Fetch) (s : LibinputContext F D × List RawFd)
    (fd : RawFd) : fdActions (LibinputContext.drainDevice fetch s fd).2 = [] := by
  unfold LibinputContext.drainDevice
  cases s.1.tracked fd with
  | none => rfl
  | some td =>
    cases fetch fd with
    | batch events =>
      refine List.filterMap_eq_nil_iff.mpr ?_
      refine run_outputs _ (fun _ => True) (fun o => Obs.fdAction o = none) (fun _ _ _ => trivial)
        (fun _ _ _ o ho => ?_) trivial events
      obtain rfl := List.mem_singleton.mp ho
      rfl
    | wouldBlock => rfl
    | gone => rfl
    | failed => rfl

/-- A dispatch whose hotplug pass opens unused descriptors. -/
theorem drainIntoQueue (h : Watches inotifyFd w ctx) {inp : Dispatch}
    (hunused : ctx.OpensUnused inotifyFd (ctx.callNodes (.dispatch inp))) :
    Watches inotifyFd (watchedAfter w (fdActions (ctx.drainIntoQueue inp).2))
      (ctx.drainIntoQueue inp).1 := by
  have hhot : Watches inotifyFd (watchedAfter w (fdActions (ctx.handleHotplug inp.inotify).2))
      (ctx.handleHotplug inp.inotify).1 := by
    unfold handleHotplug
    simp only [callNodes] at hunused
    by_cases hino : ctx.backend.inotify = true
    · rw [if_pos hino] at hunused ⊢
      cases hevents : inp.inotify with
      | none => exact h
      | some ievents =>
        rw [hevents] at hunused
        exact h.openAll hunused
    · rw [if_neg hino]
      exact h
  unfold LibinputContext.drainIntoQueue
  extract_lets hotplug fds repeats events removals
  have hrepeats : fdActions repeats.2 = [] ∧
      Watches inotifyFd (watchedAfter w (fdActions hotplug.2)) repeats.1 :=
    run_quiet id (repeatDevice inp.now) (repeatDevice_fdActions inp.now)
      (repeatDevice_isSome inp.now) hhot fds
  have hevents : fdActions events.2 = [] ∧
      Watches inotifyFd (watchedAfter w (fdActions hotplug.2)) events.1.1 :=
    run_quiet Prod.fst (drainDevice inp.fetch) (drainDevice_fdActions inp.fetch)
      (drainDevice_isSome inp.fetch) (s := (repeats.1,[])) hrepeats.2 fds
  have hremovals : ∀ (fds : List RawFd) {w : RawFd → Bool} {ctx : LibinputContext F D},
      Watches inotifyFd w ctx → Watches inotifyFd (watchedAfter w
        (fdActions (run LibinputContext.removeDead ctx fds).2))
        (run LibinputContext.removeDead ctx fds).1 := by
    intro fds
    induction fds with
    | nil => exact fun h => h
    | cons fd fds ih =>
      intro w ctx h
      have hrest := ih (h.removeDead fd)
      rw [← watchedAfter_append,← fdActions_append] at hrest
      exact hrest
  have hfinal := hremovals events.1.2 hevents.2
  rw [fdActions_append,fdActions_append,fdActions_append,hrepeats.1,hevents.1,List.append_nil,
    List.append_nil,watchedAfter_append]
  exact hfinal

end Watches

/-- A call that opens unused descriptors. -/
theorem call_watches {inotifyFd : Option RawFd} {w : RawFd → Bool} {ctx : LibinputContext F D}
    (h : Watches inotifyFd w ctx) {c : Call D}
    (hunused : ctx.OpensUnused inotifyFd (ctx.callNodes c)) :
    Watches inotifyFd (watchedAfter w (fdActions (ctx.call c).2)) (ctx.call c).1 := by
  cases c with
  | assignSeat seatName nodes =>
    have hseat : Watches inotifyFd w { ctx with seat := { ctx.seat with logicalName := seatName } } :=
      h.congr fun _ => rfl
    exact (hseat.openAll (hunused.congr rfl fun _ => .rfl)).congr fun _ => rfl
  | addDevice path r => exact (h.tryOpen path hunused.1).congr fun _ => rfl
  | removeDevice d => exact h.congr fun _ => rfl
  | dispatch inp => exact (h.drainIntoQueue hunused).congr fun _ => rfl
  | getEvent =>
    unfold call libinputGetEvent
    cases ctx.eventQueue with
    | nil => exact h
    | cons e rest => exact h.congr fun _ => rfl
  | nextEventType => exact h
  | configure d c => exact h.congr fun _ => rfl

/-- Every run whose opens obtain unused descriptors keeps the epoll set that of the inotify watch
and the tracked devices. -/
theorem runCalls_watches (interface : LibinputInterface) (inotifyFd : Option RawFd)
    (calls : List (Call D)) (hunused : AtEach (fun before c =>
      let ctx := ((new (F := F) interface inotifyFd.isSome).runCalls before).1
      ctx.OpensUnused inotifyFd (ctx.callNodes c)) calls) :
    Watches inotifyFd (watchedAfter (watchedAtStart inotifyFd)
        (fdActions ((new (F := F) interface inotifyFd.isSome).runCalls calls).2))
      ((new (F := F) interface inotifyFd.isSome).runCalls calls).1 := by
  induction calls using List.reverseRecOn with
  | nil =>
    refine ⟨fun fd => ?_,fun fd _ => rfl⟩
    change watchedAtStart inotifyFd fd = true ↔
      inotifyFd = some fd ∨ (none : Option (TrackedDevice F D)).isSome = true
    simp [watchedAtStart]
  | append_singleton calls c ih =>
    rw [atEach_append,atEach_singleton,List.append_nil] at hunused
    rw [runCalls,run_append,run_singleton,fdActions_append,watchedAfter_append]
    exact call_watches (ih hunused.1) hunused.2

/-- The descriptor of a context polls readable exactly when the inotify watch or a tracked device
has something to be read. A key that is held makes nothing readable: a client that dispatches only
when it is told to gets the repeats of the key with the next input. -/
theorem getFd_readable_iff (interface : LibinputInterface) (inotifyFd : Option RawFd)
    (calls : List (Call D)) (hunused : AtEach (fun before c =>
      let ctx := ((new (F := F) interface inotifyFd.isSome).runCalls before).1
      ctx.OpensUnused inotifyFd (ctx.callNodes c)) calls) (pending : RawFd → Bool) :
    Readable (watchedAfter (watchedAtStart inotifyFd)
        (fdActions ((new (F := F) interface inotifyFd.isSome).runCalls calls).2)) pending ↔
      (∃ fd, inotifyFd = some fd ∧ pending fd = true) ∨
        ∃ fd td, ((new (F := F) interface inotifyFd.isSome).runCalls calls).1.tracked fd = some td ∧
          pending fd = true := by
  have h := runCalls_watches interface inotifyFd calls hunused
  simp only [Readable,h.watched,or_and_right,exists_or,Option.isSome_iff_exists,
    exists_and_right]

/-- A keyboard added beside the inotify watch makes the descriptor readable with its input. -/
theorem keyboard_input_readable : Readable (watchedAfter (watchedAtStart (some 4))
    (fdActions ((new (F := ℚ) (D := ℚ) ⟨true,true⟩ true).runCalls
      [.addDevice "/dev/input/event3" ⟨5,some plainKeyboard⟩,
        .dispatch ⟨some [],0,[],fun _ => .wouldBlock⟩]).2)) fun fd => decide (fd = 5) := by
  refine (getFd_readable_iff ⟨true,true⟩ (some 4) _ ?_ _).mpr
    (.inr ⟨5,.new plainKeyboard "/dev/input/event3" 0,?_,rfl⟩)
  · decide +kernel
  · decide +kernel

end LibinputContext
end LibinputRs
