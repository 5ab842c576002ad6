import LibinputRs.Library.Paths

/-! Who closes the descriptors that `open_restricted` returned. A close through the client
always stands next to a close by the handle that owns the descriptor, so no descriptor is
handed back once and closed by nothing else. Whether a run obtains one at all is seen from the
nodes its calls name: until then no device is tracked that could hold a node back. -/
namespace LibinputRs
open Automata

variable {F D : Type}

/-- From the moment a descriptor is obtained until its number is obtained again, the client
closes it exactly once and nothing else closes it. -/
def HandedBackOnce (fd : RawFd) (back : List FdAction) : Prop :=
  let life := back.takeWhile fun a => decide (a ≠ .opened fd)
  life.count (.closeRestricted fd) = 1 ∧ .dropped fd ∉ life

/-- Every descriptor obtained in the sequence is handed back once and not closed otherwise. -/
def AllHandedBack (l : List FdAction) : Prop :=
  ∀ front fd back, l = front ++ .opened fd :: back → HandedBackOnce fd back

/-- Every close through the client has a close by the owning handle beside it. -/
def ClosesBesideDrops (l : List FdAction) : Prop :=
  ∀ front fd back, l = front ++ .closeRestricted fd :: back →
    (∃ before, front = before ++ [.dropped fd]) ∨ ∃ after, back = .dropped fd :: after

namespace ClosesBesideDrops

theorem append {l m : List FdAction} (hl : ClosesBesideDrops l) (hm : ClosesBesideDrops m) :
    ClosesBesideDrops (l ++ m) := by
  intro front fd back heq
  rcases List.append_eq_append_iff.mp heq with ⟨mid,rfl,rfl⟩ | ⟨mid,rfl,hmid⟩
  · rcases hm mid fd back rfl with ⟨before,rfl⟩ | hafter
    · exact .inl ⟨l ++ before,by simp⟩
    · exact .inr hafter
  · cases mid with
    | nil =>
      rcases hm [] fd back (by simpa using hmid.symm) with ⟨before,hbefore⟩ | hafter
      · simp at hbefore
      · exact .inr hafter
    | cons a mid =>
      obtain ⟨rfl,rfl⟩ := List.cons.inj hmid
      rcases hl front fd mid rfl with hbefore | ⟨after,rfl⟩
      · exact .inl hbefore
      · exact .inr ⟨after ++ m,rfl⟩

theorem of_no_close {l : List FdAction} (h : ∀ fd, .closeRestricted fd ∉ l) :
    ClosesBesideDrops l := by
  rintro front fd back rfl
  exact absurd (by simp) (h fd)

theorem close_drop (fd : RawFd) : ClosesBesideDrops [.closeRestricted fd,.dropped fd] := by
  intro front fd' back heq
  rcases front with _ | ⟨a,_ | ⟨b,front⟩⟩
  · simp only [List.nil_append,List.cons.injEq,FdAction.closeRestricted.injEq] at heq
    exact .inr ⟨[],by rw [← heq.2,heq.1]⟩
  · simp at heq
  · simp at heq

theorem drop_close (fd : RawFd) : ClosesBesideDrops [.dropped fd,.closeRestricted fd] := by
  intro front fd' back heq
  rcases front with _ | ⟨a,_ | ⟨b,front⟩⟩
  · simp at heq
  · simp only [List.cons_append,List.nil_append,List.cons.injEq,
      FdAction.closeRestricted.injEq] at heq
    exact .inl ⟨[],by rw [← heq.1,heq.2.1,List.nil_append]⟩
  · simp at heq

/-- Such a sequence never hands a descriptor back once and for all: the close beside the
client's is within the same life. -/
theorem not_handedBackOnce {front back : List FdAction} {fd : RawFd}
    (h : ClosesBesideDrops (front ++ .opened fd :: back)) : ¬ HandedBackOnce fd back := by
  rintro ⟨hcount,hdrop⟩
  set p : FdAction → Bool := fun a => decide (a ≠ .opened fd) with hp
  have hmem : .closeRestricted fd ∈ back.takeWhile p := List.count_pos_iff.mp (by omega)
  obtain ⟨a,b,hlife⟩ := List.append_of_mem hmem
  have hback : back = a ++ .closeRestricted fd :: (b ++ back.dropWhile p) := by
    rw [← List.cons_append,← List.append_assoc,← hlife,List.takeWhile_append_dropWhile]
  rcases h (front ++ .opened fd :: a) fd (b ++ back.dropWhile p)
    (by rw [List.append_assoc,List.cons_append,← hback]) with ⟨before,hbefore⟩ | ⟨after,hafter⟩
  · rcases a.eq_nil_or_concat with rfl | ⟨a',x,rfl⟩
    · simpa using (List.append_inj' hbefore rfl).2
    · have hlast : (front ++ .opened fd :: a') ++ [x] = before ++ [.dropped fd] := by
        simpa using hbefore
      obtain rfl := List.singleton_inj.mp (List.append_inj' hlast rfl).2
      exact hdrop (by simp [hlife])
  · cases b with
    | nil =>
      have hhead := List.head?_dropWhile_not p back
      rw [List.nil_append] at hafter
      rw [hafter] at hhead
      simp [hp] at hhead
    | cons x b =>
      obtain ⟨rfl,_⟩ := List.cons.inj hafter
      exact hdrop (by simp [hlife])

end ClosesBesideDrops

variable [F32 F] [F64 D] [FloatCast F D]

theorem Tick.closesBesideDrops {w w' : World F D} {o : List (Obs F D)} (h : Tick w o w') :
    ClosesBesideDrops (fdActions o) := by
  cases h with
  | probeFailed fd hopen =>
    by_cases hclose : w.interface.closeRestricted
    · simp only [World.closed,hclose]
      exact .append (l := [.opened fd]) (.of_no_close (by simp)) (.drop_close fd)
    · simp only [World.closed,hclose]
      exact .of_no_close (by simp [fdActions,Obs.fdAction])
  | filtered fd device hfail =>
    refine .of_no_close fun fd' => ?_
    unfold World.opened
    split_ifs <;> simp [fdActions,Obs.fdAction]
  | alreadyTracked fd device hpass ht =>
    refine .of_no_close fun fd' => ?_
    unfold World.opened
    split_ifs <;> simp [fdActions,Obs.fdAction]
  | admitted fd device path hpass ht =>
    refine .of_no_close fun fd' => ?_
    unfold World.opened
    split_ifs <;> simp [fdActions,Obs.fdAction]
  | repeats fd td now ht =>
    rw [fdActions_map_queued]
    exact .of_no_close (by simp)
  | event fd td cfg typing live te ht => exact .of_no_close (fun fd' h => by cases h)
  | removed fd td ht =>
    by_cases hclose : w.interface.closeRestricted
    · simp only [World.closed,hclose]
      exact .append (l := [.epollDel fd]) (.of_no_close (by simp)) (.close_drop fd)
    · simp only [World.closed,hclose]
      exact .of_no_close (by simp [fdActions,Obs.fdAction])
  | delivered e => exact .of_no_close (fun fd' h => by cases h)

namespace LibinputContext

theorem runCalls_closesBesideDrops (ctx : LibinputContext F D) (calls : List (Call D)) :
    ClosesBesideDrops (fdActions (ctx.runCalls calls).2) := by
  refine (runCalls_ticks ctx calls).history (fun out _ => ClosesBesideDrops (fdActions out))
    (fun out w o w' hI ht => ?_) (.of_no_close (by simp))
  rw [fdActions_append]
  exact hI.append ht.closesBesideDrops

/-- The calls of a client and the release of its reference. -/
def completeRun (ctx : LibinputContext F D) (calls : List (Call D)) : List (Obs F D) :=
  (ctx.runCalls calls).2 ++ (ctx.runCalls calls).1.libinputUnref.2

/-- No call gives the client's reference away, so the release ends a new context. -/
theorem libinputUnref_new (interface : LibinputInterface) (inotify : Bool)
    (calls : List (Call D)) :
    ((new (F := F) interface inotify).runCalls calls).1.libinputUnref.1.isNone := by
  have href : ((new (F := F) interface inotify).runCalls calls).1.refcount = 1 :=
    runCalls_history (fun _ w => w.refcount = 1) interface inotify rfl
      (fun _ _ _ _ _ hI ht => ht.refcount.trans hI) calls
  simp [libinputUnref,href,i32Wrap]

theorem completeRun_closesBesideDrops (ctx : LibinputContext F D) (calls : List (Call D)) :
    ClosesBesideDrops (fdActions (ctx.completeRun calls)) := by
  rw [completeRun,fdActions_append]
  refine (runCalls_closesBesideDrops ctx calls).append (.of_no_close fun fd => ?_)
  unfold libinputUnref
  split_ifs
  · simp [dropContext,fdActions,List.filterMap_map,Function.comp_def,Obs.fdAction]
  · simp

/-- The client's callback is asked for the node and returns a descriptor. -/
def Obtains (interface : LibinputInterface) (node : PathBuf × OpenResult) : Prop :=
  interface.openRestricted = true ∧ Reaches interface node.1 node.2.rawFd

instance (interface : LibinputInterface) : DecidablePred (Obtains interface) :=
  fun _ => inferInstanceAs (Decidable (_ ∧ _))

/-- The nodes a call names, whatever is tracked. -/
def namedNodes (inotify : Bool) : Call D → List (PathBuf × OpenResult)
  | .assignSeat _ nodes => nodes
  | .addDevice path r => [(path,r)]
  | .dispatch inp =>
    if inotify then (inp.inotify.getD []).filterMap fun iev =>
      iev.name.map fun name => (devInput name,iev.node)
    else []
  | _ => []

/-- Some descriptor was obtained. -/
def Obtained (l : List (Obs F D)) : Prop := ∃ fd, .fd (.opened fd) ∈ l

omit [F32 F] [F64 D] [FloatCast F D] in
theorem obtained_append {l m : List (Obs F D)} : Obtained (l ++ m) ↔ Obtained l ∨ Obtained m := by
  simp only [Obtained,List.mem_append,exists_or]

omit [F32 F] [F64 D] [FloatCast F D] in
theorem mem_fdActions {l : List (Obs F D)} {a : FdAction} : a ∈ fdActions l ↔ .fd a ∈ l := by
  rw [fdActions,List.mem_filterMap]
  constructor
  · rintro ⟨o,ho,heq⟩
    cases o with
    | fd b => exact Option.some.inj heq ▸ ho
    | _ => cases heq
  · exact fun h => ⟨_,h,rfl⟩

omit [FloatCast F D] in
theorem openProbed_not_obtained (ctx : LibinputContext F D) (path : PathBuf) (fd : RawFd)
    (device : EvdevDevice) : ¬ Obtained (ctx.openProbed path fd device).2 := by
  rcases openProbed_cases ctx path fd device with ⟨_,h⟩ | ⟨_,_,h⟩ | ⟨_,_,h⟩ <;> rw [h] <;>
    simp [Obtained]

omit [FloatCast F D] in
theorem tryOpen_obtained (ctx : LibinputContext F D) (path : PathBuf) (r : OpenResult) :
    Obtained (ctx.tryOpen path r).2 ↔ Obtains ctx.interface (path,r) := by
  unfold tryOpen Obtains Reaches
  by_cases hcb : ctx.interface.openRestricted = true
  · rw [if_pos hcb]
    by_cases hfail : path.HasNul ∨ r.rawFd < 0
    · rw [if_pos hfail]
      refine iff_of_false (by simp [Obtained]) fun h => ?_
      exact hfail.elim (h.2.1 hcb) (not_lt.mpr h.2.2)
    · rw [if_neg hfail]
      rw [not_or,not_lt] at hfail
      refine iff_of_true ⟨r.rawFd,?_⟩ ⟨hcb,fun _ => hfail.1,hfail.2⟩
      cases r.probe <;> exact List.mem_cons_self
  · rw [if_neg hcb]
    refine iff_of_false ?_ fun h => hcb h.1
    cases r.probe with
    | none => simp [Obtained]
    | some device =>
      dsimp only
      split_ifs
      · simp [Obtained]
      · exact openProbed_not_obtained ctx path r.rawFd device

theorem openAll_obtained (ctx : LibinputContext F D) (nodes : List (PathBuf × OpenResult)) :
    Obtained (ctx.openAll nodes).2 ↔ ∃ node ∈ nodes, Obtains ctx.interface node := by
  induction nodes generalizing ctx with
  | nil => simp [openAll,Obtained]
  | cons node nodes ih =>
    have hrest := ih (ctx.tryOpen node.1 node.2).1
    rw [tryOpen_interface] at hrest
    change Obtained ((ctx.tryOpen node.1 node.2).2 ++ ((ctx.tryOpen node.1 node.2).1.openAll nodes).2) ↔ _
    rw [obtained_append,tryOpen_obtained,hrest]
    simp only [List.mem_cons,exists_eq_or_imp]

omit [F32 F] [F64 D] [FloatCast F D] in
/-- A loop whose turns obtain nothing obtains nothing. -/
theorem run_not_obtained {σ ι : Type*} {step : σ → ι → σ × List (Obs F D)}
    (hstep : ∀ s i, ¬ Obtained (step s i).2) (s : σ) (is : List ι) :
    ¬ Obtained (run step s is).2 := by
  rintro ⟨fd,hmem⟩
  exact run_outputs step (fun _ => True) (fun o => ∀ fd, o ≠ .fd (.opened fd))
    (fun _ _ _ => trivial) (fun s i _ o ho fd heq => hstep s i ⟨fd,heq ▸ ho⟩) trivial is _ hmem fd rfl

omit [F32 F] [F64 D] [FloatCast F D] in
theorem repeatDevice_not_obtained (now : Instant) (ctx : LibinputContext F D) (fd : RawFd) :
    ¬ Obtained (repeatDevice now ctx fd).2 := by
  unfold repeatDevice
  cases ctx.tracked fd <;> simp [Obtained]

theorem drainDevice_not_obtained (fetch : RawFd → Fetch) (s : LibinputContext F D × List RawFd)
    (fd : RawFd) : ¬ Obtained (drainDevice fetch s fd).2 := by
  unfold drainDevice
  cases s.1.tracked fd with
  | none => simp [Obtained]
  | some td =>
    cases fetch fd with
    | batch events =>
      refine run_not_obtained (fun s te => ?_) _ events
      simp [TrackedDevice.observeEvent,Obtained]
    | wouldBlock => simp [Obtained]
    | gone => simp [Obtained]
    | failed => simp [Obtained]

omit [F32 F] [F64 D] [FloatCast F D] in
theorem removeDead_not_obtained (ctx : LibinputContext F D) (fd : RawFd) :
    ¬ Obtained (ctx.removeDead fd).2 := by
  unfold removeDead
  cases ctx.tracked fd with
  | none => simp [Obtained]
  | some td =>
    dsimp only
    split_ifs <;> simp [Obtained]

/-- Everything after the hotplug pass obtains nothing. -/
theorem drainIntoQueue_obtained (ctx : LibinputContext F D) (inp : Dispatch) :
    Obtained (ctx.drainIntoQueue inp).2 ↔ Obtained (ctx.handleHotplug inp.inotify).2 := by
  unfold drainIntoQueue
  simp only [obtained_append,run_not_obtained (repeatDevice_not_obtained _),
    run_not_obtained (drainDevice_not_obtained _),run_not_obtained removeDead_not_obtained,or_false]

/-- A call obtains a descriptor for the nodes it opens. -/
theorem call_obtained (ctx : LibinputContext F D) (c : Call D) :
    Obtained (ctx.call c).2 ↔ ∃ node ∈ ctx.callNodes c, Obtains ctx.interface node := by
  cases c with
  | assignSeat seatName nodes =>
    exact openAll_obtained { ctx with seat := { ctx.seat with logicalName := seatName } } nodes
  | addDevice path r =>
    apply (tryOpen_obtained ctx path r).trans
    simp [callNodes]
  | dispatch inp =>
    apply (drainIntoQueue_obtained ctx inp).trans
    unfold handleHotplug
    by_cases hino : ctx.backend.inotify
    · rw [if_pos hino]
      cases hevents : inp.inotify with
      | none => simp [callNodes,hevents,newPaths,Obtained]
      | some ievents => simpa [callNodes,hino,hevents] using openAll_obtained ctx (ctx.newPaths ievents)
    · simp [callNodes,hino,Obtained]
  | getEvent =>
    unfold call libinputGetEvent
    cases ctx.eventQueue <;> simp [callNodes,Obtained]
  | _ => simp [call,callNodes,Obtained]

omit [F32 F] [F64 D] [FloatCast F D] in
/-- With nothing tracked a call opens all the nodes it names. -/
theorem callNodes_of_untracked {ctx : LibinputContext F D} (h : ∀ fd, ctx.tracked fd = none)
    (c : Call D) : ctx.callNodes c = namedNodes ctx.backend.inotify c := by
  cases c with
  | dispatch inp =>
    have hempty : ctx.backend.devices.entries = [] := by
      refine List.eq_nil_iff_forall_not_mem.mpr fun e he => ?_
      have hsome : ctx.tracked e.1 = some e.2 := AList.mem_lookup_iff.mpr he
      rw [h] at hsome
      cases hsome
    simp only [callNodes,namedNodes,newPaths,hempty,List.any_nil,Bool.false_eq_true,if_false,
      Option.map_eq_bind]
    rfl
  | _ => rfl

/-- As long as no descriptor was obtained from the client's callback, nothing is tracked. -/
theorem runCalls_untracked {interface : LibinputInterface} {inotify : Bool}
    (hopen : interface.openRestricted = true) (calls : List (Call D))
    (hnone : ¬ Obtained ((new (F := F) interface inotify).runCalls calls).2) (fd : RawFd) :
    ((new (F := F) interface inotify).runCalls calls).1.tracked fd = none := by
  refine (runCalls_history (fun out w => w.interface = interface ∧
    (¬ Obtained out → ∀ fd, w.tracked fd = none)) interface inotify ⟨rfl,fun _ _ => rfl⟩ ?_
    calls).2 hnone fd
  rintro out w o w' - ⟨hinterface,hI⟩ ht
  refine ⟨ht.interface.trans hinterface,fun hnone => ?_⟩
  rw [obtained_append,not_or] at hnone
  have hw := hI hnone.1
  have hnot : ∀ {fd td}, w.tracked fd ≠ some td := fun h => by simp [hw] at h
  cases ht.kind with
  | silent o w' hsilent htracked hdevices => exact fun fd => (congrFun htracked fd).trans (hw fd)
  | admitted fd device path hfree =>
    refine absurd ⟨fd,?_⟩ hnone.2
    simp [World.opened,hinterface,hopen]
  | repeats fd td now htd => exact absurd htd hnot
  | event fd td cfg typing live te htd => exact absurd htd hnot
  | removed fd td htd => exact absurd htd hnot

/-- A run obtains a descriptor exactly when one of its calls names a node that the client's
callback opens. As long as it has not, nothing is tracked. -/
theorem runCalls_obtained (interface : LibinputInterface) (inotify : Bool)
    (calls : List (Call D)) :
    Obtained ((new (F := F) interface inotify).runCalls calls).2 ↔
      ∃ c ∈ calls, ∃ node ∈ namedNodes inotify c, Obtains interface node := by
  induction calls using List.reverseRecOn with
  | nil => simp [runCalls,Obtained]
  | append_singleton calls c ih =>
    set ctx := ((new (F := F) interface inotify).runCalls calls).1 with hctx
    have hrun : ((new (F := F) interface inotify).runCalls (calls ++ [c])).2 =
        ((new interface inotify).runCalls calls).2 ++ (ctx.call c).2 := by
      simp [runCalls,run_append,hctx]
    have hinterface : ctx.interface = interface :=
      runCalls_history (fun _ w => w.interface = interface) interface inotify rfl
        (fun _ _ _ _ _ hI ht => ht.interface.trans hI) calls
    have hinotify : ctx.backend.inotify = inotify :=
      runCalls_history (fun _ w => w.inotify = inotify) interface inotify rfl
        (fun _ _ _ _ _ hI ht => ht.inotify.trans hI) calls
    rw [hrun,obtained_append,call_obtained,hinterface,ih]
    simp only [List.mem_append,List.mem_singleton,or_and_right,exists_or,exists_eq_left]
    by_cases hbefore : ∃ c ∈ calls, ∃ node ∈ namedNodes inotify c, Obtains interface node
    · exact iff_of_true (.inl hbefore) (.inl hbefore)
    by_cases hopen : interface.openRestricted = true
    · have huntracked : ∀ fd, ctx.tracked fd = none :=
        runCalls_untracked hopen calls (ih.not.mpr hbefore)
      rw [callNodes_of_untracked huntracked,hinotify]
    · have hnever : ∀ node, ¬ Obtains interface node := fun node h => hopen h.1
      simp only [hnever,and_false,exists_false]

/-- A complete run hands every descriptor it obtained back to the client, and closes it in no
other way, exactly when it obtained none: no call names a node that the client's callback
opens. -/
theorem allHandedBack_iff (interface : LibinputInterface) (inotify : Bool)
    (calls : List (Call D)) :
    AllHandedBack (fdActions ((new (F := F) interface inotify).completeRun calls)) ↔
      ∀ c ∈ calls, ∀ node ∈ namedNodes inotify c, ¬ Obtains interface node := by
  have hobtained := runCalls_obtained (F := F) interface inotify calls
  have hopened : ∀ fd, .opened fd ∈ fdActions ((new (F := F) interface inotify).completeRun calls) ↔
      .fd (.opened fd) ∈ ((new (F := F) interface inotify).runCalls calls).2 := by
    intro fd
    rw [mem_fdActions,completeRun,List.mem_append,or_iff_left]
    unfold libinputUnref dropContext
    split_ifs <;> simp
  constructor
  · intro h c hc node hnode hopens
    obtain ⟨fd,hmem⟩ := hobtained.mpr ⟨c,hc,node,hnode,hopens⟩
    obtain ⟨front,back,heq⟩ := List.append_of_mem ((hopened fd).mpr hmem)
    have hclose := completeRun_closesBesideDrops (new (F := F) interface inotify) calls
    rw [heq] at hclose
    exact hclose.not_handedBackOnce (h front fd back heq)
  · intro h front fd back heq
    have hmem := (hopened fd).mp (by simp [heq])
    obtain ⟨c,hc,node,hnode,hopens⟩ := hobtained.mp ⟨fd,hmem⟩
    exact absurd hopens (h c hc node hnode)

end LibinputContext

/-- One keyboard opened and the context released: the handle closes the descriptor, and the
client never gets it back. -/
theorem keyboard_descriptor_dropped :
    ¬ AllHandedBack (fdActions ((LibinputContext.new (F := ℚ) (D := ℚ) ⟨true,true⟩ false).completeRun
      [.addDevice "/dev/input/event3" ⟨5,some plainKeyboard⟩])) := by
  have hrun : fdActions ((LibinputContext.new (F := ℚ) (D := ℚ) ⟨true,true⟩ false).completeRun
      [.addDevice "/dev/input/event3" ⟨5,some plainKeyboard⟩]) =
      [.opened 5,.epollAdd 5,.dropped 5] := by decide +kernel
  rw [hrun]
  intro h
  have hback := h [] 5 _ rfl
  exact absurd hback.1 (by decide)

end LibinputRs
