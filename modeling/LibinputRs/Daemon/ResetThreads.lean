import LibinputRs.Automata.Gates
import LibinputRs.Daemon.LoopTicks

/-! The threads that restart the hardware. `RESETTING` is swapped to true by the loop before it
spawns one, and stored false by the thread after its commands and its sleep; the loop, the threads
and the clock take their steps in any order. -/
namespace LibinputRs
open Automata

variable {F : Type}

/-- Where a thread stands: before a command, in `output()` of one, or in its sleep. -/
inductive ResetPhase
  | forgectl
  | forgectlOutput
  | systemctl
  | systemctlOutput
  | sleeping (since : Instant)
  deriving DecidableEq, Repr

structure ResetThread where
  id : ℕ
  phase : ResetPhase
  deriving DecidableEq, Repr

/-- `Command::new(program)` with `start libinput-elan-reset`, called by a thread. -/
structure Launch where
  thread : ℕ
  program : String
  time : Instant
  deriving DecidableEq, Repr

/-- The length of the sleep. -/
def resetRest : ℕ := fromMillis 2500

/-- The next step of a thread, where `ok` is whether the command could be started, or whether its
output could be read; `none` is the store that ends it. -/
def ResetThread.step (now : Instant) (ok : Bool) (t : ResetThread) :
    Option ResetThread × List Launch :=
  match t.phase with
  | .forgectl =>
    (some { t with phase := if ok then .forgectlOutput else .systemctl },[⟨t.id,"forgectl",now⟩])
  | .forgectlOutput => (some { t with phase := if ok then .sleeping now else .systemctl },[])
  | .systemctl =>
    (some { t with phase := if ok then .systemctlOutput else .sleeping now },
      [⟨t.id,"systemctl",now⟩])
  | .systemctlOutput => (some { t with phase := .sleeping now },[])
  | .sleeping since => (if since + resetRest ≤ now then none else some t,[])

/-- The commands of a thread at each of its phases. -/
def ResetPhase.Called : ResetPhase → List String → Prop
  | .forgectl,ps => ps = []
  | .forgectlOutput,ps => ps = ["forgectl"]
  | .systemctl,ps => ps = ["forgectl"]
  | .systemctlOutput,ps => ps = ["forgectl","systemctl"]
  | .sleeping _,ps => ps = ["forgectl"] ∨ ps = ["forgectl","systemctl"]

/-- A step of a thread calls at most one command, now; it falls asleep now or sleeps on, or it ends
after its rest. -/
theorem ResetThread.step_cases (now : Instant) (ok : Bool) (t : ResetThread) :
    (∃ phase ls, t.step now ok = (some { t with phase := phase },ls) ∧
      (∀ l ∈ ls, l.thread = t.id ∧ l.time = now) ∧ ls.length ≤ 1 ∧
      (∀ since, phase = .sleeping since → since = now ∨ (t.phase = .sleeping since ∧ ls = [])) ∧
      ∀ ps, t.phase.Called ps → phase.Called (ps ++ ls.map Launch.program)) ∨
    (∃ since, t.phase = .sleeping since ∧ since + resetRest ≤ now ∧ t.step now ok = (none,[])) := by
  unfold step
  cases hphase : t.phase with
  | sleeping since =>
    dsimp only
    split_ifs with hrest
    · exact .inr ⟨since,rfl,hrest,rfl⟩
    · exact .inl ⟨.sleeping since,[],by rw [← hphase],List.forall_mem_nil _,Nat.zero_le _,
        fun _ h => .inr ⟨h,rfl⟩,fun ps h => by simpa using h⟩
  | forgectl =>
    refine .inl ⟨_,_,rfl,by simp,le_rfl,?_,?_⟩ <;> cases ok <;> simp [ResetPhase.Called]
  | forgectlOutput =>
    refine .inl ⟨_,_,rfl,by simp,Nat.zero_le _,?_,?_⟩ <;> cases ok <;>
      simp +contextual [ResetPhase.Called]
  | systemctl =>
    refine .inl ⟨_,_,rfl,by simp,le_rfl,?_,?_⟩ <;> cases ok <;>
      simp +contextual [ResetPhase.Called]
  | systemctlOutput =>
    refine .inl ⟨_,_,rfl,by simp,Nat.zero_le _,?_,?_⟩ <;> simp +contextual [ResetPhase.Called]

inductive ResetObs (F : Type)
  | loop (o : LoopObs F)
  | launched (l : Launch)
  deriving DecidableEq, Repr

def ResetObs.loopObs : ResetObs F → Option (LoopObs F)
  | .loop o => some o
  | .launched _ => none

def ResetObs.launch : ResetObs F → Option Launch
  | .loop _ => none
  | .launched l => some l

def loopOutputs (out : List (ResetObs F)) : List (LoopObs F) := out.filterMap ResetObs.loopObs
def launches (out : List (ResetObs F)) : List Launch := out.filterMap ResetObs.launch

/-- What happens next: the loop takes up a readiness event, a thread makes a step, or time
passes. -/
inductive ResetInput
  | inotify (events : Option (List HotplugEvent))
  | ready (token : ℕ) (fetch : Fetch)
  | thread (k : ℕ) (ok : Bool)
  | elapse (dt : ℕ)

/-- The loop next to the threads that it spawned; `spawned` counts them. -/
structure ResetWorld (F : Type) where
  loop : EventLoop F
  threads : List ResetThread
  spawned : ℕ
  now : Instant

def LoopObs.isRequest : LoopObs F → Bool
  | .resetRequested => true
  | _ => false

/-- The requests for a restart, each the spawning of a thread. -/
def requests (out : List (LoopObs F)) : ℕ := out.countP LoopObs.isRequest

@[simp] theorem requests_nil : requests ([] : List (LoopObs F)) = 0 := rfl

theorem requests_append (out out' : List (LoopObs F)) :
    requests (out ++ out') = requests out + requests out' := List.countP_append

namespace ResetWorld

/-- A turn of the loop; the threads it spawns stand before their first command. -/
def spawn (w : ResetWorld F) (r : EventLoop F × List (LoopObs F)) :
    ResetWorld F × List (ResetObs F) :=
  ({ w with
      loop := r.1
      threads := w.threads ++
        (List.range (requests r.2)).map fun k => ⟨w.spawned + k,.forgectl⟩
      spawned := w.spawned + requests r.2 },
    r.2.map .loop)

variable [F32 F]

def step (cfg : InputConfig F) (w : ResetWorld F) :
    ResetInput → ResetWorld F × List (ResetObs F)
  | .inotify events => w.spawn (w.loop.step cfg (.inotify events))
  | .ready token fetch => w.spawn (w.loop.step cfg (.ready token fetch))
  | .thread k ok =>
    match w.threads[k]? with
    | none => (w,[])
    | some t =>
      match t.step w.now ok with
      | (some t',ls) => ({ w with threads := w.threads.set k t' },ls.map .launched)
      | (none,ls) =>
        ({ w with
            loop := (w.loop.step cfg .resetDone).1
            threads := w.threads.eraseIdx k },
          ls.map .launched)
  | .elapse dt => ({ w with now := w.now + dt },[])

omit [F32 F] in
/-- The daemon as it enters the loop, at some time. -/
def start (v : VirtualDevice) (devices : List (DeviceWrapper F)) (now : Instant) : ResetWorld F :=
  ⟨(EventLoop.start v devices).1,[],0,now⟩

def runWorld (cfg : InputConfig F) (v : VirtualDevice) (devices : List (DeviceWrapper F))
    (now : Instant) (inputs : List ResetInput) : ResetWorld F × List (ResetObs F) :=
  run (step cfg) (start v devices now) inputs

section Requests

/-- What a turn of the loop may do about a restart: nothing, or request one where none is going
on. -/
def Requests (l : EventLoop F) (out : List (LoopObs F)) (l' : EventLoop F) : Prop :=
  (requests out = 0 ∧ l'.resetting = l.resetting) ∨
    (requests out = 1 ∧ l.resetting = false ∧ l'.resetting = true)

omit [F32 F] in
theorem requests_eq_zero {out : List (LoopObs F)} (h : .resetRequested ∉ out) :
    requests out = 0 := by
  refine List.countP_eq_zero.mpr fun o ho hreq => ?_
  cases o with
  | resetRequested => exact h ho
  | registered _ _ => cases hreq
  | handled _ => cases hreq
  | released _ => cases hreq

omit [F32 F] in
theorem register_quiet (l : EventLoop F) (registers : Bool) (w : DeviceWrapper F) :
    requests (l.register registers w).2 = 0 ∧
      (l.register registers w).1.resetting = l.resetting := by
  cases registers <;> exact ⟨rfl,rfl⟩

theorem hotplug_quiet (l : EventLoop F) (iev : HotplugEvent) :
    requests (l.hotplug iev).2 = 0 ∧ (l.hotplug iev).1.resetting = l.resetting := by
  rcases l.hotplug_cases iev with h | ⟨_,w,_,_,_,h⟩ <;> rw [h]
  · exact ⟨rfl,rfl⟩
  · exact register_quiet l iev.registers w

theorem processBatch_requests (cfg : InputConfig F) (l : EventLoop F) (token : ℕ)
    (w : DeviceWrapper F) (events : List TimedEvent) :
    Requests l (l.processBatch cfg token w events).2 (l.processBatch cfg token w events).1 := by
  have hhandled : requests
      (run (Batch.handle cfg token) ⟨w,l.vDevice,l.lastGlobalTypingTime,false⟩ events).2 = 0 := by
    refine requests_eq_zero fun hmem => ?_
    obtain ⟨_,_,_,_,hmem⟩ := (mem_run_iff _ _ _ _).mp hmem
    cases List.mem_singleton.mp hmem
  simp only [Requests,EventLoop.processBatch,requests_append,hhandled]
  cases (run (Batch.handle cfg token) ⟨w,l.vDevice,l.lastGlobalTypingTime,false⟩
    events).1.triggerReset <;> cases l.resetting <;> simp [requests,LoopObs.isRequest]

/-- Readiness events request a restart only where none is going on. -/
theorem step_requests (cfg : InputConfig F) (l : EventLoop F) {i : LoopInput}
    (hi : i ≠ .resetDone) : Requests l (l.step cfg i).2 (l.step cfg i).1 := by
  rcases l.step_cases cfg i with ⟨ievents,_,h⟩ | ⟨token,events,w,_,_,h⟩ | ⟨token,w,_,_,h⟩ |
    ⟨hdone,_⟩ | h
  · rw [h]
    refine .inl (run_history EventLoop.hotplug
      (fun _ out l' => requests out = 0 ∧ l'.resetting = l.resetting) (fun _ out m iev hm => ?_)
      ⟨rfl,rfl⟩ ievents)
    have hquiet := hotplug_quiet m iev
    exact ⟨by rw [requests_append,hm.1,hquiet.1],hquiet.2.trans hm.2⟩
  · rw [h]
    exact processBatch_requests cfg l token w events
  · rw [h]
    exact .inl ⟨rfl,rfl⟩
  · exact absurd hdone hi
  · rw [h]
    exact .inl ⟨rfl,rfl⟩

end Requests

section Threads

/-- What a thread called so far. -/
def called (id : ℕ) (out : List (ResetObs F)) : List String :=
  ((launches out).filter fun l => l.thread = id).map Launch.program

omit [F32 F] in
theorem launches_append (out out' : List (ResetObs F)) :
    launches (out ++ out') = launches out ++ launches out' := List.filterMap_append

omit [F32 F] in
@[simp] theorem launches_loop (out : List (LoopObs F)) :
    launches (out.map ResetObs.loop) = [] := List.filterMap_eq_nil_iff.mpr (by simp [ResetObs.launch])

omit [F32 F] in
@[simp] theorem launches_launched (ls : List Launch) :
    launches (ls.map (ResetObs.launched (F := F))) = ls := by
  induction ls with
  | nil => rfl
  | cons l ls ih => exact congrArg (l :: ·) ih

/-- The gate that `RESETTING` is. -/
def gate (w : ResetWorld F) (out : List (ResetObs F)) : Gate :=
  ⟨w.now,w.loop.resetting,w.threads.map ResetThread.id,
    (launches out).map fun l => ⟨l.thread,l.time⟩⟩

/-- What holds of the threads throughout a run. -/
structure Kept (w : ResetWorld F) (out : List (ResetObs F)) : Prop where
  exclusive : (w.gate out).Exclusive resetRest
  past : ∀ l ∈ launches out, l.time ≤ w.now
  asleep : ∀ t ∈ w.threads, ∀ since, t.phase = .sleeping since → since ≤ w.now ∧
    ∀ l ∈ launches out, l.thread = t.id → l.time ≤ since
  numbered : (∀ t ∈ w.threads, t.id < w.spawned) ∧ ∀ l ∈ launches out, l.thread < w.spawned
  live : ∀ t ∈ w.threads, t.phase.Called (called t.id out)
  ended : ∀ id < w.spawned, id ∉ w.threads.map ResetThread.id →
    called id out = ["forgectl"] ∨ called id out = ["forgectl","systemctl"]

omit [F32 F] in
theorem called_append (id : ℕ) (out out' : List (ResetObs F)) :
    called id (out ++ out') = called id out ++ called id out' := by
  simp [called,launches_append]

omit [F32 F] in
/-- What no thread called changes nothing. -/
theorem called_append_of_ne {id : ℕ} {ls : List Launch} (h : ∀ l ∈ ls, l.thread ≠ id)
    (out : List (ResetObs F)) : called id (out ++ ls.map .launched) = called id out := by
  have hnone : (ls.filter fun l => l.thread = id) = [] :=
    List.filter_eq_nil_iff.mpr fun l hl hid => h l hl (of_decide_eq_true hid)
  rw [called_append,called,called,launches_launched,hnone,List.map_nil,List.append_nil]

omit [F32 F] in
theorem called_append_of_eq {id : ℕ} {ls : List Launch} (h : ∀ l ∈ ls, l.thread = id)
    (out : List (ResetObs F)) :
    called id (out ++ ls.map .launched) = called id out ++ ls.map Launch.program := by
  have hall : (ls.filter fun l => l.thread = id) = ls :=
    List.filter_eq_self.mpr fun l hl => decide_eq_true (h l hl)
  rw [called_append,called,called,launches_launched,hall]

omit [F32 F] in
/-- A thread that is there is there alone. -/
theorem Kept.alone {w : ResetWorld F} {out : List (ResetObs F)} (h : w.Kept out) {k : ℕ}
    {t : ResetThread} (ht : w.threads[k]? = some t) :
    k = 0 ∧ w.threads = [t] ∧ w.loop.resetting = true := by
  obtain ⟨hk,hget⟩ := List.getElem?_eq_some_iff.mp ht
  have hsingle : w.threads.length = if w.loop.resetting then 1 else 0 :=
    (List.length_map _).symm.trans h.exclusive.single
  split_ifs at hsingle with hflag
  · obtain ⟨t',ht'⟩ := List.length_eq_one_iff.mp hsingle
    obtain rfl : k = 0 := by omega
    rw [ht'] at ht
    exact ⟨rfl,by rw [ht',Option.some.inj ht],hflag⟩
  · omega

omit [F32 F] in
theorem Kept.elapse {w : ResetWorld F} {out : List (ResetObs F)} (h : w.Kept out) (dt : ℕ) :
    Kept { w with now := w.now + dt } out where
  exclusive := h.exclusive.tick (.wait _ dt)
  past l hl := (h.past l hl).trans (Nat.le_add_right _ _)
  asleep t ht since hs := ⟨(h.asleep t ht since hs).1.trans (Nat.le_add_right _ _),
    (h.asleep t ht since hs).2⟩
  numbered := h.numbered
  live := h.live
  ended := h.ended

omit [F32 F] in
/-- A turn of the loop spawns a thread only where none is. -/
theorem Kept.spawn {w : ResetWorld F} {out : List (ResetObs F)} (h : w.Kept out)
    {r : EventLoop F × List (LoopObs F)} (hr : Requests w.loop r.2 r.1) :
    (w.spawn r).1.Kept (out ++ (w.spawn r).2) := by
  have hlaunches : launches (out ++ (w.spawn r).2) = launches out := by
    rw [launches_append,ResetWorld.spawn,launches_loop,List.append_nil]
  have hcalled : ∀ id, called id (out ++ (w.spawn r).2) = called id out := by
    intro id
    rw [called,called,hlaunches]
  rcases hr with ⟨hnone,hflag⟩ | ⟨hone,hclear,hset⟩
  · have hthreads : (w.spawn r).1.threads = w.threads := by simp [ResetWorld.spawn,hnone]
    have hspawned : (w.spawn r).1.spawned = w.spawned := by simp [ResetWorld.spawn,hnone]
    have hgate : (w.spawn r).1.gate (out ++ (w.spawn r).2) = w.gate out := by
      rw [gate,gate,hthreads,hlaunches]
      exact congrArg (Gate.mk w.now · _ _) hflag
    refine ⟨hgate ▸ h.exclusive,?_,?_,?_,?_,?_⟩
    · rw [hlaunches]
      exact h.past
    · rw [hthreads,hlaunches]
      exact h.asleep
    · rw [hthreads,hlaunches,hspawned]
      exact h.numbered
    · rw [hthreads]
      exact fun t ht => hcalled t.id ▸ h.live t ht
    · rw [hthreads,hspawned]
      exact fun id hid hout => hcalled id ▸ h.ended id hid hout
  · have hthreads : (w.spawn r).1.threads = w.threads ++ [⟨w.spawned,.forgectl⟩] := by
      simp [ResetWorld.spawn,hone]
    have hspawned : (w.spawn r).1.spawned = w.spawned + 1 := by simp [ResetWorld.spawn,hone]
    have hgate : (w.spawn r).1.gate (out ++ (w.spawn r).2) =
        { w.gate out with taken := true, inside := (w.gate out).inside ++ [w.spawned] } := by
      rw [gate,hthreads,hlaunches,List.map_append]
      exact congrArg (Gate.mk w.now · _ _) hset
    have hfresh : called w.spawned out = [] := by
      refine List.map_eq_nil_iff.mpr (List.filter_eq_nil_iff.mpr fun l hl hid => ?_)
      exact (h.numbered.2 l hl).ne (of_decide_eq_true hid)
    refine ⟨hgate ▸ h.exclusive.tick (.enter _ w.spawned hclear),?_,?_,?_,?_,?_⟩
    · rw [hlaunches]
      exact h.past
    · rw [hthreads,hlaunches]
      intro t ht since hs
      rcases List.mem_append.mp ht with ht | ht
      · exact h.asleep t ht since hs
      · rw [List.mem_singleton.mp ht] at hs
        cases hs
    · rw [hthreads,hlaunches,hspawned]
      refine ⟨fun t ht => ?_,fun l hl => (h.numbered.2 l hl).trans (Nat.lt_succ_self _)⟩
      rcases List.mem_append.mp ht with ht | ht
      · exact (h.numbered.1 t ht).trans (Nat.lt_succ_self _)
      · rw [List.mem_singleton.mp ht]
        exact Nat.lt_succ_self _
    · rw [hthreads]
      intro t ht
      rw [hcalled]
      rcases List.mem_append.mp ht with ht | ht
      · exact h.live t ht
      · rw [List.mem_singleton.mp ht]
        exact hfresh
    · rw [hthreads,hspawned]
      intro id hid hout
      rw [List.map_append,List.mem_append,not_or] at hout
      rw [hcalled]
      exact h.ended id (by simp at hout; omega) hout.1

/-- A thread makes its next step. -/
theorem Kept.thread {w : ResetWorld F} {out : List (ResetObs F)} (h : w.Kept out)
    (cfg : InputConfig F) (k : ℕ) (ok : Bool) :
    (w.step cfg (.thread k ok)).1.Kept (out ++ (w.step cfg (.thread k ok)).2) := by
  cases ht : w.threads[k]? with
  | none => simpa only [step,ht,List.append_nil] using h
  | some t =>
    obtain ⟨rfl,hthreads,hflag⟩ := h.alone ht
    have hmem : t ∈ w.threads := hthreads ▸ List.mem_singleton_self t
    rcases t.step_cases w.now ok with ⟨phase,ls,hstep,hls,hone,hsleep,hcalls⟩ |
      ⟨since,hphase,hrest,hstep⟩
    · simp only [step,ht,hstep]
      have hset : w.threads.set 0 { t with phase := phase } = [{ t with phase := phase }] := by
        rw [hthreads]
        rfl
      rw [hset]
      refine ⟨?_,?_,?_,?_,?_,?_⟩
      · have hgate : w.gate out = ⟨w.now,w.loop.resetting,[t.id],
            (launches out).map fun l => ⟨l.thread,l.time⟩⟩ := by
          rw [gate,hthreads]
          rfl
        rw [gate,launches_append,launches_launched,List.map_append]
        have hex := h.exclusive
        rw [hgate] at hex
        match ls,hls,hone with
        | [],_,_ => simpa using hex
        | [l],hls,_ =>
          obtain ⟨hid,htime⟩ := hls l (List.mem_singleton_self l)
          have := hex.tick (.work _ t.id (List.mem_singleton_self _))
          simpa [hid,htime] using this
      · rw [launches_append,launches_launched]
        refine List.forall_mem_append.mpr ⟨h.past,fun l hl => (hls l hl).2.le⟩
      · rw [launches_append,launches_launched]
        refine List.forall_mem_singleton.mpr fun since hs => ?_
        rcases hsleep since hs with rfl | ⟨hold,rfl⟩
        · refine ⟨le_rfl,List.forall_mem_append.mpr ⟨fun l hl _ => h.past l hl,?_⟩⟩
          exact fun l hl _ => (hls l hl).2.le
        · rw [List.append_nil]
          exact h.asleep t hmem since hold
      · rw [launches_append,launches_launched]
        have hid := h.numbered.1 t hmem
        refine ⟨List.forall_mem_singleton.mpr hid,List.forall_mem_append.mpr ⟨h.numbered.2,?_⟩⟩
        exact fun l hl => (hls l hl).1 ▸ hid
      · refine List.forall_mem_singleton.mpr ?_
        rw [called_append_of_eq fun l hl => (hls l hl).1]
        exact hcalls _ (h.live t hmem)
      · intro id hid hout
        have hne : id ≠ t.id := by simpa using hout
        rw [called_append_of_ne fun l hl => (hls l hl).1 ▸ hne.symm]
        exact h.ended id hid (by simpa [hthreads] using hne)
    · simp only [step,ht,hstep]
      have herase : w.threads.eraseIdx 0 = [] := by
        rw [hthreads]
        rfl
      rw [herase]
      simp only [List.map_nil,List.append_nil]
      refine ⟨?_,h.past,List.forall_mem_nil _,⟨List.forall_mem_nil _,h.numbered.2⟩,
        List.forall_mem_nil _,fun id hid _ => ?_⟩
      · refine h.exclusive.tick (.leave _ [] [] t.id ?_ fun m hm hworker => ?_)
        · rw [gate,hthreads]
          rfl
        · obtain ⟨l,hl,rfl⟩ := List.mem_map.mp hm
          exact (Nat.add_le_add_right ((h.asleep t hmem since hphase).2 l hl hworker) _).trans hrest
      · by_cases hthis : id = t.id
        · have hlive := h.live t hmem
          rw [hphase] at hlive
          exact hthis ▸ hlive
        · exact h.ended id hid (by simpa [hthreads] using hthis)

theorem Kept.step {w : ResetWorld F} {out : List (ResetObs F)} (h : w.Kept out)
    (cfg : InputConfig F) (i : ResetInput) :
    (w.step cfg i).1.Kept (out ++ (w.step cfg i).2) := by
  cases i with
  | inotify events => exact h.spawn (step_requests cfg w.loop (by simp))
  | ready token fetch => exact h.spawn (step_requests cfg w.loop (by simp))
  | thread k ok => exact h.thread cfg k ok
  | elapse dt => simpa only [ResetWorld.step,List.append_nil] using h.elapse dt

omit [F32 F] in
theorem start_resetting (v : VirtualDevice) (devices : List (DeviceWrapper F)) :
    (EventLoop.start v devices).1.resetting = false := by
  refine run_invariant (fun l w => EventLoop.register l true w) (fun l => l.resetting = false)
    (fun l w _ hl => ?_) rfl
  exact (register_quiet l true w).2.trans hl

theorem runWorld_kept (cfg : InputConfig F) (v : VirtualDevice) (devices : List (DeviceWrapper F))
    (now : Instant) (inputs : List ResetInput) :
    (runWorld cfg v devices now inputs).1.Kept (runWorld cfg v devices now inputs).2 := by
  refine run_history (step cfg) (fun _ out w => w.Kept out) (fun _ _ _ i h => h.step cfg i) ?_ inputs
  have hgate : (start v devices now).gate [] = ⟨now,false,[],[]⟩ := by
    rw [gate,start,start_resetting]
    rfl
  exact ⟨hgate ▸ .start _ now,List.forall_mem_nil _,List.forall_mem_nil _,
    ⟨List.forall_mem_nil _,List.forall_mem_nil _⟩,List.forall_mem_nil _,
    fun _ hid => absurd hid (Nat.not_lt_zero _)⟩

end Threads

section Loop

omit [F32 F] in
theorem loopOutputs_append (out out' : List (ResetObs F)) :
    loopOutputs (out ++ out') = loopOutputs out ++ loopOutputs out' := List.filterMap_append

omit [F32 F] in
@[simp] theorem loopOutputs_loop (out : List (LoopObs F)) :
    loopOutputs (out.map ResetObs.loop) = out := by
  induction out with
  | nil => rfl
  | cons o out ih => exact congrArg (o :: ·) ih

omit [F32 F] in
@[simp] theorem loopOutputs_launched (ls : List Launch) :
    loopOutputs (ls.map (ResetObs.launched (F := F))) = [] :=
  List.filterMap_eq_nil_iff.mpr (by simp [ResetObs.loopObs])

/-- A step of the world is a step of the loop, or none. -/
theorem step_loop (cfg : InputConfig F) (w : ResetWorld F) (i : ResetInput) :
    (∃ j, w.loop.step cfg j = ((w.step cfg i).1.loop,loopOutputs (w.step cfg i).2)) ∨
      ((w.step cfg i).1.loop = w.loop ∧ loopOutputs (w.step cfg i).2 = []) := by
  cases i with
  | inotify events => exact .inl ⟨.inotify events,Prod.ext rfl (loopOutputs_loop _).symm⟩
  | ready token fetch => exact .inl ⟨.ready token fetch,Prod.ext rfl (loopOutputs_loop _).symm⟩
  | thread k ok =>
    cases ht : w.threads[k]? with
    | none => exact .inr (by simp [step,ht,loopOutputs])
    | some t =>
      cases hstep : t.step w.now ok with
      | mk next ls =>
        cases next with
        | none => exact .inl ⟨.resetDone,by simp [step,ht,hstep,EventLoop.step]⟩
        | some t' => exact .inr (by simp [step,ht,hstep])
  | elapse dt => exact .inr ⟨rfl,rfl⟩

/-- The loop among its threads runs as the loop by itself, told of the ends of the threads. -/
theorem runWorld_loop (cfg : InputConfig F) (v : VirtualDevice) (devices : List (DeviceWrapper F))
    (now : Instant) (inputs : List ResetInput) :
    ∃ loopInputs, EventLoop.runLoop cfg v devices loopInputs =
      ((runWorld cfg v devices now inputs).1.loop,
        loopOutputs (runWorld cfg v devices now inputs).2) := by
  refine run_history (step cfg) (fun _ out w => ∃ is, EventLoop.runLoop cfg v devices is =
    (w.loop,loopOutputs out)) (fun _ out w i h => ?_) ⟨[],rfl⟩ inputs
  obtain ⟨is,his⟩ := h
  rcases step_loop cfg w i with ⟨j,hj⟩ | ⟨hloop,hout⟩
  · refine ⟨is ++ [j],?_⟩
    rw [EventLoop.runLoop] at his ⊢
    rw [run_append,his,run_singleton,hj,loopOutputs_append]
  · exact ⟨is,by rw [his,hloop,loopOutputs_append,hout,List.append_nil]⟩

end Loop

section Recovery

/-- The calls that a thread still has before it, at most. -/
def ResetThread.stepsLeft (t : ResetThread) : ℕ :=
  match t.phase with
  | .forgectl => 4
  | .forgectlOutput => 3
  | .systemctl => 2
  | .systemctlOutput => 1
  | .sleeping _ => 0

theorem ResetThread.step_left (now : Instant) (ok : Bool) {t t' : ResetThread} {ls : List Launch}
    (h : t.step now ok = (some t',ls)) : stepsLeft t' ≤ stepsLeft t - 1 := by
  unfold ResetThread.step at h
  cases hphase : t.phase <;> rw [hphase] at h <;> dsimp only at h
  case sleeping since =>
    split_ifs at h
    · cases congrArg Prod.fst h
    · obtain rfl : t = t' := Option.some.inj (congrArg Prod.fst h)
      simp [stepsLeft,hphase]
  all_goals
    obtain rfl := Option.some.inj (congrArg Prod.fst h)
    cases ok <;> simp [stepsLeft,hphase]

/-- A step of the thread leaves it fewer calls, whatever comes of the call. -/
theorem Kept.left {w : ResetWorld F} {out : List (ResetObs F)} (h : w.Kept out)
    (cfg : InputConfig F) {n : ℕ} (hleft : ∀ t ∈ w.threads, ResetThread.stepsLeft t ≤ n) (ok : Bool) :
    ∀ t ∈ (w.step cfg (.thread 0 ok)).1.threads, ResetThread.stepsLeft t ≤ n - 1 := by
  cases ht : w.threads[0]? with
  | none =>
    have hnone : w.threads = [] := List.length_eq_zero_iff.mp (by simpa using ht)
    simp [ResetWorld.step,hnone]
  | some t =>
    obtain ⟨_,hthreads,_⟩ := h.alone ht
    cases hstep : t.step w.now ok with
    | mk next ls =>
      cases next with
      | none => simp [ResetWorld.step,hthreads,hstep]
      | some t' =>
        have ht' := ResetThread.step_left w.now ok hstep
        have hle : ResetThread.stepsLeft t ≤ n := hleft t (hthreads ▸ List.mem_singleton_self t)
        simp [ResetWorld.step,hthreads,hstep]
        omega

/-- A thread that has slept enough ends, and with it the restart. -/
theorem Kept.clears {w : ResetWorld F} {out : List (ResetObs F)} (h : w.Kept out)
    (cfg : InputConfig F) (hleft : ∀ t ∈ w.threads, ResetThread.stepsLeft t ≤ 0) (ok : Bool) :
    (run (ResetWorld.step cfg) w [.elapse resetRest,.thread 0 ok]).1.loop.resetting = false := by
  cases ht : w.threads[0]? with
  | none =>
    have hnone : w.threads = [] := List.length_eq_zero_iff.mp (by simpa using ht)
    have hflag : (w.threads.map ResetThread.id).length = if w.loop.resetting then 1 else 0 :=
      h.exclusive.single
    cases hclear : w.loop.resetting with
    | false => simpa [run_cons,ResetWorld.step,hnone] using hclear
    | true => simp [hnone,hclear] at hflag
  | some t =>
    obtain ⟨_,hthreads,_⟩ := h.alone ht
    have hmem : t ∈ w.threads := hthreads ▸ List.mem_singleton_self t
    have hzero := hleft t hmem
    cases hphase : t.phase with
    | sleeping since =>
      have hsince := (h.asleep t hmem since hphase).1
      have hstep : t.step (w.now + resetRest) ok = (none,[]) := by
        simp only [ResetThread.step,hphase]
        rw [if_pos (Nat.add_le_add_right hsince _)]
      simp [run_cons,ResetWorld.step,hthreads,hstep,EventLoop.step]
    | forgectl => simp [ResetThread.stepsLeft,hphase] at hzero
    | forgectlOutput => simp [ResetThread.stepsLeft,hphase] at hzero
    | systemctl => simp [ResetThread.stepsLeft,hphase] at hzero
    | systemctlOutput => simp [ResetThread.stepsLeft,hphase] at hzero

/-- Whatever comes of its commands, a thread that gets its steps clears the flag. -/
theorem Kept.recovers {w : ResetWorld F} {out : List (ResetObs F)} (h : w.Kept out)
    (cfg : InputConfig F) (a b c d e : Bool) :
    (run (ResetWorld.step cfg) w [.thread 0 a,.thread 0 b,.thread 0 c,.thread 0 d,
      .elapse resetRest,.thread 0 e]).1.loop.resetting = false := by
  have hfour : ∀ t ∈ w.threads, ResetThread.stepsLeft t ≤ 4 := by
    intro t _
    unfold ResetThread.stepsLeft
    split <;> omega
  have ha := h.left cfg hfour a
  have hb := (h.thread cfg 0 a).left cfg ha b
  have hc := ((h.thread cfg 0 a).thread cfg 0 b).left cfg hb c
  have hd := (((h.thread cfg 0 a).thread cfg 0 b).thread cfg 0 c).left cfg hc d
  exact ((((h.thread cfg 0 a).thread cfg 0 b).thread cfg 0 c).thread cfg 0 d).clears cfg hd e

end Recovery

/-- What the flag gives a run of the daemon. -/
structure SingleFlight (cfg : InputConfig F) (v : VirtualDevice) (devices : List (DeviceWrapper F))
    (w : ResetWorld F) (out : List (ResetObs F)) : Prop where
  single : w.threads.length = if w.loop.resetting then 1 else 0
  apart : Gate.Apart resetRest ((launches out).map fun l => ⟨l.thread,l.time⟩)
  served : ∀ id < w.spawned, id ∈ w.threads.map ResetThread.id ∨
    called id out = ["forgectl"] ∨ called id out = ["forgectl","systemctl"]
  loop : ∃ loopInputs, EventLoop.runLoop cfg v devices loopInputs = (w.loop,loopOutputs out)
  recovers : ∀ a b c d e, (run (step cfg) w [.thread 0 a,.thread 0 b,.thread 0 c,.thread 0 d,
    .elapse resetRest,.thread 0 e]).1.loop.resetting = false

/-- In every interleaving of the loop with the threads that restart the hardware: at most one thread
runs, exactly while the flag is set; the commands of two threads are 2500 ms apart; a thread that
ended has called `forgectl`, and after it at most `systemctl`; the loop runs as by itself; and no
failure of a command leaves the flag set. -/
theorem reset_single_flight (cfg : InputConfig F) (v : VirtualDevice)
    (devices : List (DeviceWrapper F)) (now : Instant) (inputs : List ResetInput) :
    SingleFlight cfg v devices (runWorld cfg v devices now inputs).1
      (runWorld cfg v devices now inputs).2 := by
  have hkept := runWorld_kept cfg v devices now inputs
  refine ⟨(List.length_map _).symm.trans hkept.exclusive.single,hkept.exclusive.apart,fun id hid => ?_,
    runWorld_loop cfg v devices now inputs,hkept.recovers cfg⟩
  exact or_iff_not_imp_left.mpr (hkept.ended id hid)

end ResetWorld
end LibinputRs
