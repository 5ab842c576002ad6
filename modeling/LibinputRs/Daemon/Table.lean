import LibinputRs.Automata.Handles
import LibinputRs.Automata.Ledger
import LibinputRs.Daemon.LoopTicks

/-! The device table of the loop is a table of handles: tokens are drawn from a counter, paths tell
the wrappers apart, and a readiness event finds under its token the wrapper that was registered
there or nothing. -/
namespace LibinputRs
open Automata

variable {F : Type}

/-- `usize::MAX`, the token of the inotify descriptor. -/
def inotifyToken : ℕ := 2 ^ 64 - 1

/-- A registration: the token and the descriptor. -/
def LoopObs.registration : LoopObs F → Option (ℕ × RawFd)
  | .registered token rawFd => some (token,rawFd)
  | _ => none

def registrations (l : List (LoopObs F)) : List (ℕ × RawFd) := l.filterMap LoopObs.registration

theorem mem_registrations {l : List (LoopObs F)} {token : ℕ} {rawFd : RawFd} :
    (token,rawFd) ∈ registrations l ↔ .registered token rawFd ∈ l := by
  constructor
  · intro h
    obtain ⟨o,ho,heq⟩ := List.mem_filterMap.mp h
    cases o with
    | registered t fd => cases heq; exact ho
    | handled h => cases heq
    | resetRequested => cases heq
    | released w => cases heq
  · exact fun h => List.mem_filterMap.mpr ⟨_,h,rfl⟩

/-- The output is about the wrapper with this identity under this token, or about no wrapper. -/
def LoopObs.Concerns (token : ℕ) (identity : Device × PathBuf × Bool × Bool) : LoopObs F → Prop
  | .registered _ _ => False
  | .handled h => h.token = token ∧ h.wrapper.identity = identity
  | .resetRequested => True
  | .released w => w.identity = identity

namespace EventLoop

/-- The table of the loop as a table of handles. -/
def handles (l : EventLoop F) : Handles (Device × PathBuf × Bool × Bool) :=
  ⟨fun t => (l.wrapper t).map DeviceWrapper.identity,l.nextToken⟩

/-- The part of a binding that its registration shows. -/
def shown (b : ℕ × Device × PathBuf × Bool × Bool) : ℕ × RawFd := (b.1,b.2.1.rawFd)

theorem handles_insert (l : EventLoop F) (token : ℕ) (w : DeviceWrapper F) :
    (l.insert token w).handles =
      ⟨Function.update l.handles.table token (some w.identity),l.nextToken⟩ := by
  refine congrArg₂ Handles.mk (funext fun t => ?_) rfl
  rw [wrapper_insert,Function.update_apply]
  split_ifs <;> rfl

theorem handles_erase (l : EventLoop F) (token : ℕ) :
    (l.erase token).handles = ⟨Function.update l.handles.table token none,l.nextToken⟩ := by
  refine congrArg₂ Handles.mk (funext fun t => ?_) rfl
  rw [wrapper_erase,Function.update_apply]
  split_ifs <;> rfl

theorem register_handles {l : EventLoop F} (registers : Bool) {w : DeviceWrapper F}
    (huntracked : l.Untracked w.path) :
    ∃ evs, Handles.Ticks (fun a => a.2.1) l.handles evs (l.register registers w).1.handles ∧
      (Handles.bindings evs).map shown = registrations (l.register registers w).2 := by
  cases registers with
  | false => exact ⟨[],.single (.waste _),rfl⟩
  | true =>
    have hhandles : (l.register true w).1.handles =
        ⟨Function.update l.handles.table l.nextToken (some w.identity),l.nextToken + 1⟩ :=
      handles_insert { l with nextToken := l.nextToken + 1 } l.nextToken w
    rw [hhandles]
    refine ⟨_,.single (.bind l.handles w.identity fun t a ha => ?_),rfl⟩
    obtain ⟨w',hw',rfl⟩ := Option.map_eq_some_iff.mp ha
    exact huntracked t w' hw'

variable [F32 F]

/-- A batch makes the loop handle events, and at its end maybe request a reset. -/
theorem processBatch_outputs (cfg : InputConfig F) (l : EventLoop F) (token : ℕ)
    (w : DeviceWrapper F) (events : List TimedEvent) :
    ∀ o ∈ (l.processBatch cfg token w events).2, (∃ h, o = .handled h) ∨ o = .resetRequested := by
  intro o ho
  rcases List.mem_append.mp ho with ho | ho
  · refine .inl (run_outputs (Batch.handle cfg token) (fun _ => True) (fun o => ∃ h, o = .handled h)
      (fun _ _ _ => trivial) (fun b te _ o ho => ?_) trivial events o ho)
    exact ⟨_,List.mem_singleton.mp ho⟩
  · split_ifs at ho
    · exact .inr (List.mem_singleton.mp ho)
    · cases ho

theorem processBatch_registrations (cfg : InputConfig F) (l : EventLoop F) (token : ℕ)
    (w : DeviceWrapper F) (events : List TimedEvent) :
    registrations (l.processBatch cfg token w events).2 = [] := by
  refine List.filterMap_eq_nil_iff.mpr fun o ho => ?_
  rcases processBatch_outputs cfg l token w events o ho with ⟨h,rfl⟩ | rfl <;> rfl

/-- Every small step of the loop is steps of the table of handles, with the same registrations. -/
theorem LoopTick.handles {cfg : InputConfig F} {l l' : EventLoop F} {out : List (LoopObs F)}
    (h : LoopTick cfg l out l') :
    ∃ evs, Handles.Ticks (fun a => a.2.1) l.handles evs l'.handles ∧
      (Handles.bindings evs).map shown = registrations out := by
  cases h with
  | opened registers w huntracked => exact register_handles registers huntracked
  | batch token w events hw =>
    have hhandles : (l.processBatch cfg token w events).1.handles = l.handles :=
      congrArg₂ Handles.mk (funext (processBatch_wrapper cfg l hw events)) rfl
    rw [hhandles,processBatch_registrations]
    exact ⟨[],.refl _,rfl⟩
  | gone token w hw =>
    rw [handles_erase]
    exact ⟨_,.single (.remove l.handles token w.identity (congrArg (Option.map _) hw)),rfl⟩
  | resetDone => exact ⟨[],.refl _,rfl⟩

theorem LoopTicks.handles {cfg : InputConfig F} {l l' : EventLoop F} {out : List (LoopObs F)}
    (h : LoopTicks cfg l out l') :
    ∃ evs, Handles.Ticks (fun a => a.2.1) l.handles evs l'.handles ∧
      (Handles.bindings evs).map shown = registrations out := by
  refine h.history (fun out l' => ∃ evs, Handles.Ticks (fun a => a.2.1) l.handles evs l'.handles ∧
    (Handles.bindings evs).map shown = registrations out) ?_ ⟨[],.refl _,rfl⟩
  rintro out m o n ⟨evs,hticks,hshown⟩ hlast
  obtain ⟨evs',hticks',hshown'⟩ := hlast.handles
  refine ⟨evs ++ evs',hticks.trans hticks',?_⟩
  rw [Handles.bindings,registrations,List.filterMap_append,List.filterMap_append,List.map_append]
  exact congrArg₂ _ hshown hshown'

section Growth

omit [F32 F] in
/-- What opening nodes does: the wrappers already there stay, and what is registered is there. -/
structure Grows (l : EventLoop F) (out : List (LoopObs F)) (l' : EventLoop F) : Prop where
  next : l'.nextToken = l.nextToken + out.length
  keeps : ∀ t < l.nextToken, l'.wrapper t = l.wrapper t
  registered : ∀ b ∈ registrations out, b.1 < l'.nextToken ∧
    ∃ w, l'.wrapper b.1 = some w ∧ w.device.rawFd = b.2

omit [F32 F] in
theorem Grows.refl (l : EventLoop F) : Grows l [] l := ⟨rfl,fun _ _ => rfl,List.forall_mem_nil _⟩

omit [F32 F] in
theorem Grows.trans {l m n : EventLoop F} {out o : List (LoopObs F)} (h : Grows l out m)
    (h' : Grows m o n) : Grows l (out ++ o) n := by
  have hle : l.nextToken ≤ m.nextToken := h.next ▸ Nat.le_add_right _ _
  have hle' : m.nextToken ≤ n.nextToken := h'.next ▸ Nat.le_add_right _ _
  refine ⟨?_,fun t ht => ?_,fun b hb => ?_⟩
  · rw [h'.next,h.next,List.length_append,Nat.add_assoc]
  · exact (h'.keeps t (ht.trans_le hle)).trans (h.keeps t ht)
  · rw [registrations,List.filterMap_append] at hb
    rcases List.mem_append.mp hb with hb | hb
    · obtain ⟨hlt,w,hw,hfd⟩ := h.registered b hb
      exact ⟨hlt.trans_le hle',w,(h'.keeps _ hlt).trans hw,hfd⟩
    · exact h'.registered b hb

omit [F32 F] in
theorem register_grows (l : EventLoop F) (registers : Bool) (w : DeviceWrapper F) :
    Grows l (l.register registers w).2 (l.register registers w).1 := by
  cases registers with
  | false => exact ⟨rfl,fun _ _ => rfl,List.forall_mem_nil _⟩
  | true =>
    refine ⟨rfl,fun t ht => (l.register_wrapper w t).trans (if_neg ht.ne),fun b hb => ?_⟩
    obtain rfl := List.mem_singleton.mp hb
    exact ⟨Nat.lt_succ_self _,w,(l.register_wrapper w _).trans (if_pos rfl),rfl⟩

omit [F32 F] in
theorem run_grows {ι : Type} {turn : EventLoop F → ι → EventLoop F × List (LoopObs F)}
    (hturn : ∀ l i, Grows l (turn l i).2 (turn l i).1) (l : EventLoop F) (is : List ι) :
    Grows l (run turn l is).2 (run turn l is).1 :=
  run_history turn (fun _ out l' => Grows l out l') (fun _ _ _ i h => h.trans (hturn _ i))
    (.refl l) is

theorem hotplug_grows (l : EventLoop F) (iev : HotplugEvent) :
    Grows l (l.hotplug iev).2 (l.hotplug iev).1 := by
  rcases l.hotplug_cases iev with h | ⟨_,w,_,_,_,h⟩ <;> rw [h]
  · exact .refl l
  · exact register_grows l iev.registers w

/-- The nodes opened in a step: each of them is registered, or released where epoll refuses. -/
def opensIn (cfg : InputConfig F) (l : EventLoop F) : LoopInput → ℕ
  | .inotify events => (l.step cfg (.inotify events)).2.length
  | _ => 0

/-- The nodes opened in a run: the initial ones and the hotplugged ones. -/
def opens (cfg : InputConfig F) (v : VirtualDevice) (devices : List (DeviceWrapper F))
    (inputs : List LoopInput) : ℕ :=
  devices.length + tally (step cfg) (opensIn cfg) (start v devices).1 inputs

/-- What one input does to the tokens already drawn: their wrappers stay, but for one that is
gone. -/
theorem step_tokens (cfg : InputConfig F) (l : EventLoop F) (i : LoopInput) :
    (l.step cfg i).1.nextToken = l.nextToken + opensIn cfg l i ∧
      (∀ t < l.nextToken, i ≠ .ready t .gone → ((l.step cfg i).1.wrapper t).map DeviceWrapper.identity
        = (l.wrapper t).map DeviceWrapper.identity) ∧
      ∀ b ∈ registrations (l.step cfg i).2, b.1 < (l.step cfg i).1.nextToken ∧
        ∃ w, (l.step cfg i).1.wrapper b.1 = some w ∧ w.device.rawFd = b.2 := by
  have hidle : ∀ i, l.step cfg i = (l,[]) → opensIn cfg l i = 0 := by
    intro i h
    cases i with
    | inotify events => exact congrArg (·.2.length) h
    | ready token fetch => rfl
    | resetDone => rfl
  rcases l.step_cases cfg i with ⟨ievents,rfl,h⟩ | ⟨token,events,w,rfl,hw,h⟩ | ⟨token,w,rfl,hw,h⟩ |
    ⟨rfl,h⟩ | h
  · have hgrows := run_grows hotplug_grows l ievents
    rw [← h] at hgrows
    exact ⟨hgrows.next,fun t ht _ => congrArg _ (hgrows.keeps t ht),hgrows.registered⟩
  · rw [h,processBatch_registrations]
    exact ⟨rfl,fun t _ _ => processBatch_wrapper cfg l hw events t,List.forall_mem_nil _⟩
  · rw [h]
    refine ⟨rfl,fun t _ hne => ?_,List.forall_mem_nil _⟩
    rw [wrapper_erase,if_neg]
    rintro rfl
    exact hne rfl
  · rw [h]
    exact ⟨rfl,fun _ _ _ => rfl,List.forall_mem_nil _⟩
  · rw [h,hidle i h]
    exact ⟨rfl,fun _ _ _ => rfl,List.forall_mem_nil _⟩

omit [F32 F] in
theorem start_nextToken (v : VirtualDevice) (devices : List (DeviceWrapper F)) :
    (start v devices).1.nextToken = devices.length := by
  induction devices using List.reverseRecOn with
  | nil => rfl
  | append_singleton devices last ih =>
    rw [start,run_append,run_singleton,List.length_append]
    exact congrArg (· + 1) ih

/-- The counter stands at the number of nodes opened. -/
theorem runLoop_nextToken (cfg : InputConfig F) (v : VirtualDevice) (devices : List (DeviceWrapper F))
    (inputs : List LoopInput) :
    (runLoop cfg v devices inputs).1.nextToken = opens cfg v devices inputs := by
  rw [opens,← start_nextToken v devices]
  exact run_counted (step cfg) nextToken (opensIn cfg) (fun l i => (step_tokens cfg l i).1) _ inputs

end Growth

section Fates

/-- All that the loop did, the initial registrations included. -/
def observed (cfg : InputConfig F) (v : VirtualDevice) (devices : List (DeviceWrapper F))
    (inputs : List LoopInput) : List (LoopObs F) :=
  (start v devices).2 ++ (runLoop cfg v devices inputs).2

/-- The wrapper was registered under the token, at the start or in one step of the run. -/
def RegisteredAs (cfg : InputConfig F) (v : VirtualDevice) (devices : List (DeviceWrapper F))
    (before : List LoopInput) (token : ℕ) (w : DeviceWrapper F) : Prop :=
  (.registered token w.device.rawFd ∈ (start v devices).2 ∧
    (start v devices).1.wrapper token = some w) ∨
  ∃ front i back, before = front ++ i :: back ∧
    .registered token w.device.rawFd ∈ ((runLoop cfg v devices front).1.step cfg i).2 ∧
      ((runLoop cfg v devices front).1.step cfg i).1.wrapper token = some w

/-- The wrapper under the token is the one given, whatever events it has had since. -/
def TrackedAs (l : EventLoop F) (token : ℕ) (w₀ : DeviceWrapper F) : Prop :=
  ∃ w, l.wrapper token = some w ∧ w.identity = w₀.identity

omit [F32 F] in
theorem trackedAs_iff {l : EventLoop F} {token : ℕ} {w₀ : DeviceWrapper F} :
    l.TrackedAs token w₀ ↔ (l.wrapper token).map DeviceWrapper.identity = some w₀.identity :=
  Option.map_eq_some_iff.symm

/-- The wrapper was under the token until its device was gone. -/
def DisconnectedIn (cfg : InputConfig F) (v : VirtualDevice) (devices : List (DeviceWrapper F))
    (before : List LoopInput) (token : ℕ) (w₀ : DeviceWrapper F) : Prop :=
  (runLoop cfg v devices before).1.wrapper token = none ∧
    ∃ front back, before = front ++ .ready token .gone :: back ∧
      (runLoop cfg v devices front).1.TrackedAs token w₀

/-- The readiness event is handled for this wrapper alone: what is done concerns it, a batch is
handled event by event, and the wrapper leaves the table exactly if its device is gone. -/
structure HandledFor (cfg : InputConfig F) (l : EventLoop F) (token : ℕ) (fetch : Fetch)
    (w₀ : DeviceWrapper F) : Prop where
  tracked : l.TrackedAs token w₀
  concerns : ∀ o ∈ (l.step cfg (.ready token fetch)).2, o.Concerns token w₀.identity
  batch : ∀ events, fetch = .batch events →
    (handledEvents (l.step cfg (.ready token fetch)).2).map Handled.event = events
  leaves : (l.step cfg (.ready token fetch)).1.TrackedAs token w₀ ↔ fetch ≠ .gone
  others : ∀ t, t ≠ token → (l.step cfg (.ready token fetch)).1.wrapper t = l.wrapper t

theorem runLoop_concat (cfg : InputConfig F) (v : VirtualDevice) (devices : List (DeviceWrapper F))
    (inputs : List LoopInput) (i : LoopInput) :
    runLoop cfg v devices (inputs ++ [i]) = (((runLoop cfg v devices inputs).1.step cfg i).1,
      (runLoop cfg v devices inputs).2 ++ ((runLoop cfg v devices inputs).1.step cfg i).2) := by
  rw [runLoop,run_append,run_singleton]
  rfl

/-- The outputs of a batch are about its wrapper. -/
theorem processBatch_concerns (cfg : InputConfig F) (l : EventLoop F) (token : ℕ)
    (w : DeviceWrapper F) (events : List TimedEvent) :
    ∀ o ∈ (l.processBatch cfg token w events).2, o.Concerns token w.identity := by
  obtain ⟨_,_,hall⟩ := batch_handled cfg token ⟨w,l.vDevice,l.lastGlobalTypingTime,false⟩ events
  intro o ho
  rcases processBatch_outputs cfg l token w events o ho with ⟨h,rfl⟩ | rfl
  · rcases List.mem_append.mp ho with ho | ho
    · exact hall h (List.mem_filterMap.mpr ⟨_,ho,rfl⟩)
    · split_ifs at ho
      · cases List.mem_singleton.mp ho
      · cases ho
  · trivial

/-- The events of a batch are handled, all of them and in order. -/
theorem processBatch_events (cfg : InputConfig F) (l : EventLoop F) (token : ℕ)
    (w : DeviceWrapper F) (events : List TimedEvent) :
    (handledEvents (l.processBatch cfg token w events).2).map Handled.event = events := by
  obtain ⟨_,hevents,_⟩ := batch_handled cfg token ⟨w,l.vDevice,l.lastGlobalTypingTime,false⟩ events
  refine Eq.trans ?_ hevents
  refine congrArg (List.map _) (List.filterMap_append.trans ?_)
  refine (congrArg _ ?_).trans (List.append_nil _)
  split_ifs <;> rfl

/-- A readiness event of a tracked wrapper is handled for it. -/
theorem handledFor_of_tracked (cfg : InputConfig F) {l : EventLoop F} {token : ℕ}
    {w₀ : DeviceWrapper F} (h : l.TrackedAs token w₀) (fetch : Fetch) :
    HandledFor cfg l token fetch w₀ := by
  obtain ⟨w,hw,hid⟩ := h
  have htracked : l.TrackedAs token w₀ := ⟨w,hw,hid⟩
  cases fetch with
  | batch events =>
    have hstep : l.step cfg (.ready token (.batch events)) = l.processBatch cfg token w events := by
      simp only [step,hw]
    refine ⟨htracked,?_,fun events' hevents => ?_,?_,fun t ht => ?_⟩ <;> rw [hstep]
    · exact hid ▸ processBatch_concerns cfg l token w events
    · obtain rfl := Fetch.batch.inj hevents
      exact processBatch_events cfg l token w events
    · refine iff_of_true (trackedAs_iff.mpr ?_) Fetch.noConfusion
      exact (processBatch_wrapper cfg l hw events token).trans (trackedAs_iff.mp htracked)
    · rw [wrapper_processBatch,if_neg ht]
  | gone =>
    have hstep : l.step cfg (.ready token .gone) = (l.erase token,[.released w]) := by
      simp only [step,hw]
    refine ⟨htracked,?_,fun _ h => Fetch.noConfusion h,?_,fun t ht => ?_⟩ <;> rw [hstep]
    · exact List.forall_mem_singleton.mpr hid
    · refine iff_of_false ?_ (not_not.mpr rfl)
      rintro ⟨w',hw',_⟩
      rw [wrapper_erase,if_pos rfl] at hw'
      cases hw'
    · rw [wrapper_erase,if_neg ht]
  | wouldBlock =>
    have hstep : l.step cfg (.ready token .wouldBlock) = (l,[]) := by simp only [step,hw]
    refine ⟨htracked,?_,fun _ h => Fetch.noConfusion h,?_,fun t ht => ?_⟩ <;> rw [hstep]
    · exact List.forall_mem_nil _
    · exact iff_of_true htracked Fetch.noConfusion
  | failed =>
    have hstep : l.step cfg (.ready token .failed) = (l,[]) := by simp only [step,hw]
    refine ⟨htracked,?_,fun _ h => Fetch.noConfusion h,?_,fun t ht => ?_⟩ <;> rw [hstep]
    · exact List.forall_mem_nil _
    · exact iff_of_true htracked Fetch.noConfusion

/-- Whatever was registered is still under its token, or its device is gone. -/
theorem registered_fate (cfg : InputConfig F) (v : VirtualDevice) (devices : List (DeviceWrapper F))
    (before : List LoopInput) {token : ℕ} {rawFd : RawFd}
    (hreg : (token,rawFd) ∈ registrations (observed cfg v devices before)) :
    token < (runLoop cfg v devices before).1.nextToken ∧
      ∃ w₀, RegisteredAs cfg v devices before token w₀ ∧ w₀.device.rawFd = rawFd ∧
        ((runLoop cfg v devices before).1.TrackedAs token w₀ ∨
          DisconnectedIn cfg v devices before token w₀) := by
  induction before using List.reverseRecOn with
  | nil =>
    have hgrows := run_grows (fun l w => register_grows l true w) (blank v) devices
    rw [observed,show (runLoop cfg v devices []).2 = [] from rfl,List.append_nil] at hreg
    obtain ⟨hlt,w,hw,hfd⟩ := hgrows.registered _ hreg
    exact ⟨hlt,w,.inl ⟨mem_registrations.mp (hfd ▸ hreg),hw⟩,hfd,.inl ⟨w,hw,rfl⟩⟩
  | append_singleton before i ih =>
    obtain ⟨hnext,hkeeps,hregistered⟩ := step_tokens cfg (runLoop cfg v devices before).1 i
    have hrun := runLoop_concat cfg v devices before i
    rw [observed,hrun,← List.append_assoc,registrations,List.filterMap_append] at hreg
    rcases List.mem_append.mp hreg with hold | hnew
    · obtain ⟨hlt,w₀,hwas,hfd,hfate⟩ := ih hold
      have hwas' : RegisteredAs cfg v devices (before ++ [i]) token w₀ := by
        rcases hwas with h | ⟨front,j,back,rfl,h⟩
        · exact .inl h
        · exact .inr ⟨front,j,back ++ [i],by simp,h⟩
      refine ⟨?_,w₀,hwas',hfd,?_⟩
      · rw [hrun,hnext]
        exact Nat.lt_add_right _ hlt
      · by_cases hgone : i = .ready token .gone
        · have hnone : (runLoop cfg v devices (before ++ [i])).1.wrapper token = none := by
            rw [hrun,hgone]
            exact wrapper_of_gone cfg _ token
          refine .inr ⟨hnone,?_⟩
          rcases hfate with htracked | ⟨_,front,back,rfl,htracked⟩
          · exact ⟨before,[],by rw [hgone],htracked⟩
          · exact ⟨front,back ++ [i],by simp,htracked⟩
        · have hstays := hkeeps token hlt hgone
          rw [← (Prod.ext_iff.mp hrun).1] at hstays
          rcases hfate with htracked | ⟨hnone,front,back,rfl,htracked⟩
          · exact .inl (trackedAs_iff.mpr (hstays.trans (trackedAs_iff.mp htracked)))
          · rw [hnone] at hstays
            exact .inr ⟨Option.map_eq_none_iff.mp hstays,front,back ++ [i],by simp,htracked⟩
    · obtain ⟨hlt,w,hw,hfd⟩ := hregistered _ hnew
      refine ⟨by rw [hrun]; exact hlt,w,.inr ⟨before,i,[],rfl,?_,hw⟩,hfd,.inl ⟨w,?_,rfl⟩⟩
      · exact mem_registrations.mp (hfd ▸ hnew)
      · rw [hrun]
        exact hw

end Fates

/-- The device table is kept through the run: paths tell the wrappers apart, tokens only grow and
stay below that of inotify, and a readiness event is handled for the wrapper that was registered
under its token or, once that is disconnected, ignored. -/
structure TableKept (cfg : InputConfig F) (v : VirtualDevice) (devices : List (DeviceWrapper F))
    (inputs : List LoopInput) : Prop where
  paths : ∀ before, before <+: inputs → ∀ t t' w w',
    (runLoop cfg v devices before).1.wrapper t = some w →
      (runLoop cfg v devices before).1.wrapper t' = some w' → w.path = w'.path → t = t'
  tokens : (registrations (observed cfg v devices inputs)).Pairwise fun b c => b.1 < c.1
  reserved : ∀ b ∈ registrations (observed cfg v devices inputs), b.1 < inotifyToken
  ready : AtEach (fun before i => ∀ token fetch rawFd, i = .ready token fetch →
    (token,rawFd) ∈ registrations (observed cfg v devices before) →
      ∃ w₀, RegisteredAs cfg v devices before token w₀ ∧ w₀.device.rawFd = rawFd ∧
        (HandledFor cfg (runLoop cfg v devices before).1 token fetch w₀ ∨
          DisconnectedIn cfg v devices before token w₀ ∧
            (runLoop cfg v devices before).1.step cfg i =
              ((runLoop cfg v devices before).1,[]))) inputs

theorem runLoop_sound (cfg : InputConfig F) (v : VirtualDevice) {devices : List (DeviceWrapper F)}
    (hpaths : devices.Pairwise fun a b => a.path ≠ b.path) (inputs : List LoopInput) :
    ∃ evs, Handles.Sound (fun a => a.2.1) evs (runLoop cfg v devices inputs).1.handles ∧
      (Handles.bindings evs).map shown = registrations (observed cfg v devices inputs) := by
  have hticks : LoopTicks cfg (blank v) (observed cfg v devices inputs)
      (runLoop cfg v devices inputs).1 :=
    (start_ticks cfg v hpaths).trans (run_ticks (step_ticks cfg) _ inputs)
  obtain ⟨evs,hhandles,hshown⟩ := LoopTicks.handles hticks
  exact ⟨evs,Handles.Ticks.sound hhandles,hshown⟩

/-- From initial devices with different paths, and with fewer opens than tokens, every run of the
loop keeps its device table. -/
theorem table_kept (cfg : InputConfig F) (v : VirtualDevice) (devices : List (DeviceWrapper F))
    (inputs : List LoopInput) (hpaths : devices.Pairwise fun a b => a.path ≠ b.path)
    (hopens : opens cfg v devices inputs < 2 ^ 64 - 1) : TableKept cfg v devices inputs := by
  obtain ⟨evs,hsound,hshown⟩ := runLoop_sound cfg v hpaths inputs
  refine ⟨fun before _ t t' w w' hw hw' hpath => ?_,?_,?_,?_⟩
  · obtain ⟨_,hbefore,_⟩ := runLoop_sound cfg v hpaths before
    exact hbefore.named t t' w.identity w'.identity (congrArg (Option.map _) hw)
      (congrArg (Option.map _) hw') hpath
  · rw [← hshown]
    exact List.pairwise_map.mpr hsound.ordered
  · intro b hb
    rw [← hshown] at hb
    obtain ⟨a,ha,rfl⟩ := List.mem_map.mp hb
    have hlt : a.1 < (runLoop cfg v devices inputs).1.nextToken := hsound.below a ha
    rw [runLoop_nextToken] at hlt
    exact hlt.trans hopens
  · rintro before i _ _ token fetch rawFd rfl hreg
    obtain ⟨_,w₀,hwas,hfd,htracked | hgone⟩ := registered_fate cfg v devices before hreg
    · exact ⟨w₀,hwas,hfd,.inl (handledFor_of_tracked cfg htracked fetch)⟩
    · refine ⟨w₀,hwas,hfd,.inr ⟨hgone,?_⟩⟩
      simp only [step,hgone.1]

/-- A touchpad is unplugged and plugged in again with the same path and descriptor, while an event
of its old token is still to be handled. -/
theorem table_kept_over_replug : TableKept (F := ℚ) .default .reliable
    [.new ⟨plainTouchpad,7,true⟩ "/dev/input/event5"]
    [.ready 0 .gone,.inotify (some [⟨some .event5,⟨some plainTouchpad,7,true⟩,true⟩]),
      .ready 0 .wouldBlock,.ready 1 (.batch [⟨⟨0,.key,KeyCode.btnTouch,1⟩,0⟩])] :=
  table_kept _ _ _ _ (by decide) (by decide +kernel)

end EventLoop
end LibinputRs
