import LibinputRs.Automata.Readiness
import LibinputRs.Automata.Sessions
import LibinputRs.Daemon.EventLoop

/-! The loop of the daemon over the queues of the kernel. mio registers every descriptor
edge-triggered, and for each readiness event the loop reads its descriptor once: a device into
the free capacity of its event buffer, the inotify descriptor into a buffer of fixed size. -/
namespace LibinputRs
open Automata

/-- `EVENT_BATCH_SIZE`, the free capacity that is reserved before each read of a device. -/
def eventBatchSize : ℕ := 32

/-- `BUFSIZ`, the bytes one `read_events` asks for. -/
def bufsiz : ℕ := 4096

/-- What is registered with the poll: inotify under `usize::MAX`, a device under its token. -/
inductive Source
  | inotify
  | device (token : ℕ)
  deriving DecidableEq, Repr

/-- One record in the inotify queue; `len` counts the bytes of its name with the padding. -/
structure InotifyRecord where
  event : HotplugEvent
  len : ℕ
  deriving DecidableEq, Repr

/-- The header of 16 bytes, and the name after it. -/
def InotifyRecord.size (r : InotifyRecord) : ℕ := 16 + r.len

/-- What the kernel makes readable at once: events, and the `SYN_REPORT` that ends them. -/
structure Frame where
  body : List InputEvent
  time : ℤ
  deriving DecidableEq, Repr

def Frame.events (f : Frame) : List InputEvent :=
  f.body ++ [⟨f.time,.synchronization,0,0⟩]

namespace Source

abbrev Item : Source → Type
  | .inotify => InotifyRecord
  | .device _ => InputEvent

/-- What an item takes up in the buffer of a read: bytes for inotify, one event for a device. -/
def size : (i : Source) → i.Item → ℕ
  | .inotify => InotifyRecord.size
  | .device _ => fun _ => 1

/-- The room for one read, with the capacity a device's buffer has beyond what is reserved. -/
def room (spare : ℕ) : Source → ℕ
  | .inotify => bufsiz
  | .device _ => eventBatchSize + spare

/-- Something complete waits to be read: a record, or a whole frame. -/
def HasInput : (i : Source) → List i.Item → Prop
  | .inotify, l => l ≠ []
  | .device _, l => ∃ f : Frame, f.events <:+: l

theorem HasInput.ne_nil {i : Source} {l : List i.Item} (h : i.HasInput l) : l ≠ [] := by
  cases i with
  | inotify => exact h
  | device token =>
    obtain ⟨f,hf⟩ := h
    rintro rfl
    simpa [Frame.events] using hf.length_le

end Source

/-- How the one read goes. `spare` is capacity of the event buffer beyond what is reserved, and
`batch` what the crate makes of the events read; a `failed` read consumes nothing. -/
inductive ReadResult
  | ok (spare : ℕ) (batch : List TimedEvent)
  | failed
  | gone

/-- What happens next: data arrives at a descriptor, or is lost to an overrun of its queue; the
loop polls, and some notifications are reported; the loop handles the next event reported; the
hardware reset ends. `queued` is what a node holds that is registered on the way. -/
inductive DaemonInput
  | frame (token : ℕ) (f : Frame)
  | overrun (token : ℕ)
  | record (r : InotifyRecord)
  | poll (notified : List Source)
  | handle (r : ReadResult) (queued : ℕ → List InputEvent)
  | resetDone

structure Daemon (F : Type) where
  loop : EventLoop F
  kernel : Readiness Source.Item

namespace Daemon
variable {F : Type}

/-- The sources of the loop: inotify, and each device in its table. -/
def Tracks (d : Daemon F) : Source → Prop
  | .inotify => True
  | .device token => (d.loop.wrapper token).isSome

instance (d : Daemon F) : DecidablePred d.Tracks
  | .inotify => inferInstanceAs (Decidable True)
  | .device token => inferInstanceAs (Decidable ((d.loop.wrapper token).isSome = true))

/-- The registrations among what the loop did. -/
def enroll (queued : ℕ → List InputEvent) (k : Readiness Source.Item) :
    List (LoopObs F) → Readiness Source.Item
  | [] => k
  | .registered token _ :: obs => enroll queued (k.register (.device token) (queued token)) obs
  | _ :: obs => enroll queued k obs

/-- The state in which the loop is entered: every initial device registered, then inotify. -/
def start (v : VirtualDevice) (devices : List (DeviceWrapper F)) (queued : ℕ → List InputEvent)
    (records : List InotifyRecord) : Daemon F :=
  match EventLoop.start v devices with
  | (l,obs) => ⟨l,(enroll queued .empty obs).register .inotify records⟩

/-- What the loop learns from its read. Device nodes are opened blocking: the read of one with
nothing to read waits. -/
def answer (d : Daemon F) : Source → ReadResult → Option LoopInput
  | .inotify, .ok spare _ => some (.inotify (some
      ((takeWithin (Source.size .inotify) (Source.room spare .inotify)
        (d.kernel.unread .inotify)).map (·.event))))
  | .inotify, _ => some (.inotify none)
  | .device token, .ok _ batch =>
    if d.Tracks (.device token) ∧ d.kernel.unread (.device token) = [] then none
    else some (.ready token (.batch batch))
  | .device token, .failed => some (.ready token .failed)
  | .device token, .gone => some (.ready token .gone)

/-- The queues after the read; of a token no longer in the table nothing is read. -/
def fetched (d : Daemon F) (i : Source) : ReadResult → Readiness Source.Item
  | .ok spare _ => if d.Tracks i then d.kernel.read i i.size (i.room spare) else d.kernel
  | _ => d.kernel

variable [F32 F]

def step (cfg : InputConfig F) (d : Daemon F) : DaemonInput → Daemon F × List (LoopObs F)
  | .frame token f => ({ d with kernel := d.kernel.arrive (.device token) f.events },[])
  | .overrun token => ({ d with kernel := d.kernel.discard (.device token) },[])
  | .record r => ({ d with kernel := d.kernel.arrive .inotify [r] },[])
  | .poll notified =>
    if d.kernel.reported = [] then ({ d with kernel := d.kernel.poll notified },[]) else (d,[])
  | .handle r queued =>
    match d.kernel.reported with
    | [] => (d,[])
    | i :: _ =>
      match d.answer i r with
      | none => (d,[])
      | some input =>
        match d.loop.step cfg input with
        | (l,obs) => (⟨l,enroll queued (d.fetched i r).finish obs⟩,obs)
  | .resetDone =>
    match d.loop.step cfg .resetDone with
    | (l,obs) => ({ d with loop := l },obs)

/-- A run of the daemon from its start. -/
def runDaemon (cfg : InputConfig F) (v : VirtualDevice) (devices : List (DeviceWrapper F))
    (queued : ℕ → List InputEvent) (records : List InotifyRecord) (inputs : List DaemonInput) :
    Daemon F × List (LoopObs F) :=
  run (step cfg) (start v devices queued records) inputs

omit [F32 F] in
/-- Whatever waits at a source of the loop has its notification pending. -/
def Notified (d : Daemon F) : Prop :=
  ∀ i, d.Tracks i → i.HasInput (d.kernel.unread i) → d.kernel.ready i = true

omit [F32 F] in
/-- An input under which the loop polls. -/
def Polls (d : Daemon F) : DaemonInput → Prop
  | .poll _ => d.kernel.reported = []
  | _ => False

/-- Whenever the loop polls in a run, whatever waits has its notification pending. -/
def NotifiedAtPolls (cfg : InputConfig F) (v : VirtualDevice) (devices : List (DeviceWrapper F))
    (queued : ℕ → List InputEvent) (records : List InotifyRecord) (inputs : List DaemonInput) :
    Prop :=
  AtEach (fun before i =>
    let d := (runDaemon cfg v devices queued records before).1
    d.Polls i → d.Notified) inputs

omit [F32 F] in
/-- The read of a source leaves nothing behind: all that waits fits into it, and it does not fail
while anything waits. -/
def Empties (d : Daemon F) (i : Source) : ReadResult → Prop
  | .ok spare _ => ((d.kernel.unread i).map i.size).sum ≤ i.room spare
  | .failed => d.kernel.unread i = []
  | .gone => i = .inotify → d.kernel.unread i = []

omit [F32 F] in
instance (d : Daemon F) (i : Source) : DecidablePred (d.Empties i)
  | .ok spare _ =>
    inferInstanceAs (Decidable (((d.kernel.unread i).map i.size).sum ≤ i.room spare))
  | .failed => inferInstanceAs (Decidable (d.kernel.unread i = []))
  | .gone => inferInstanceAs (Decidable (i = .inotify → d.kernel.unread i = []))

omit [F32 F] in
/-- What the loop reads next, if this input makes it read, is emptied by the read. -/
def ReadsAll (d : Daemon F) : DaemonInput → Prop
  | .handle r _ => ∀ i ∈ d.kernel.reported.head?, d.Tracks i → d.Empties i r
  | _ => True

omit [F32 F] in
theorem armed_enroll {queued : ℕ → List InputEvent} {k : Readiness Source.Item} {i : Source}
    (h : k.Armed i) (obs : List (LoopObs F)) : (enroll queued k obs).Armed i := by
  induction obs generalizing k with
  | nil => exact h
  | cons o obs ih =>
    cases o with
    | registered token fd => exact ih (h.register (.device token) _)
    | handled _ => exact ih h
    | resetRequested => exact ih h
    | released _ => exact ih h

omit [F32 F] in
/-- A device that is registered is armed from then on. -/
theorem armed_enroll_of_registered {queued : ℕ → List InputEvent} {token : ℕ} {fd : RawFd}
    {obs : List (LoopObs F)} (h : LoopObs.registered token fd ∈ obs)
    (k : Readiness Source.Item) : (enroll queued k obs).Armed (.device token) := by
  induction obs generalizing k with
  | nil => cases h
  | cons o obs ih =>
    rcases List.mem_cons.mp h with rfl | hobs
    · exact armed_enroll (Readiness.armed_register k _ _) obs
    · cases o <;> exact ih hobs _

omit [F32 F] in
/-- Every source of the loop is armed. -/
def Armed (d : Daemon F) : Prop := ∀ i, d.Tracks i → d.kernel.Armed i

omit [F32 F] in
theorem start_armed (v : VirtualDevice) (devices : List (DeviceWrapper F))
    (queued : ℕ → List InputEvent) (records : List InotifyRecord) :
    (start v devices queued records).Armed := by
  intro i hi
  cases i with
  | inotify => exact Readiness.armed_register (α := Source.Item) _ .inotify records
  | device token =>
    have hadmits : EventLoop.Admits ⟨∅,0,none,false,v⟩ (EventLoop.start v devices).2
        (EventLoop.start v devices).1 :=
      EventLoop.run_admits (fun l w => l.register_admits true w) _ devices
    rcases hadmits token hi with hempty | ⟨fd,hfd⟩
    · cases hempty
    · exact (armed_enroll_of_registered hfd _).register .inotify records

omit [F32 F] in
theorem Armed.fetched {d : Daemon F} {j : Source} (h : d.kernel.Armed j) (i : Source)
    (r : ReadResult) : (d.fetched i r).Armed j := by
  cases r with
  | ok spare batch =>
    unfold Daemon.fetched
    dsimp only
    split_ifs
    · exact h.read i i.size (i.room spare)
    · exact h
  | failed => exact h
  | gone => exact h

omit [F32 F] in
/-- After a read that leaves nothing behind, nothing is unread, unless the device is gone. -/
theorem fetched_unread {d : Daemon F} {i : Source} {r : ReadResult} (hi : d.Tracks i)
    (h : d.Empties i r) :
    (d.fetched i r).unread i = [] ∨ ∃ token, i = .device token ∧ r = .gone := by
  cases r with
  | ok spare batch =>
    refine .inl ?_
    rw [fetched,if_pos hi]
    exact Readiness.read_unread_eq_nil i.size h
  | failed => exact .inl h
  | gone =>
    cases i with
    | inotify => exact .inl (h rfl)
    | device token => exact .inr ⟨token,rfl,rfl⟩

omit [F32 F] in
@[simp] theorem fetched_reported (d : Daemon F) (i : Source) (r : ReadResult) :
    (d.fetched i r).reported = d.kernel.reported := by
  cases r with
  | ok spare batch =>
    unfold fetched
    dsimp only
    split_ifs <;> rfl
  | failed => rfl
  | gone => rfl

/-- What the handling of one event reported can do: nothing, or what the loop does with the
answer to its read. -/
theorem handle_cases (cfg : InputConfig F) (d : Daemon F) (r : ReadResult)
    (queued : ℕ → List InputEvent) :
    d.step cfg (.handle r queued) = (d,[]) ∨
    ∃ i rest input, d.kernel.reported = i :: rest ∧ d.answer i r = some input ∧
      d.step cfg (.handle r queued) = (⟨(d.loop.step cfg input).1,
        enroll queued (d.fetched i r).finish (d.loop.step cfg input).2⟩,
        (d.loop.step cfg input).2) := by
  cases hreported : d.kernel.reported with
  | nil => exact .inl (by simp only [step,hreported])
  | cons i rest =>
    cases hanswer : d.answer i r with
    | none => exact .inl (by simp only [step,hreported,hanswer])
    | some input =>
      exact .inr ⟨i,rest,input,rfl,hanswer,by simp only [step,hreported,hanswer]⟩

/-- Towards the devices, a step of the daemon is a step of its loop or none. -/
theorem step_loop (cfg : InputConfig F) (d : Daemon F) (i : DaemonInput) :
    ((d.step cfg i).1.loop,(d.step cfg i).2) = (d.loop,[]) ∨
    ∃ input, ((d.step cfg i).1.loop,(d.step cfg i).2) = d.loop.step cfg input := by
  cases i with
  | handle r queued =>
    rcases d.handle_cases cfg r queued with heq | ⟨i,rest,input,_,_,heq⟩ <;> rw [heq]
    · exact .inl rfl
    · exact .inr ⟨input,rfl⟩
  | poll notified =>
    unfold step
    dsimp only
    split_ifs <;> exact .inl rfl
  | resetDone => exact .inr ⟨.resetDone,rfl⟩
  | _ => exact .inl rfl

/-- Every run of the daemon is a run of its loop on what the reads gave. -/
theorem runDaemon_loop (cfg : InputConfig F) (v : VirtualDevice)
    (devices : List (DeviceWrapper F)) (queued : ℕ → List InputEvent)
    (records : List InotifyRecord) (inputs : List DaemonInput) : ∃ reads,
    EventLoop.runLoop cfg v devices reads =
      ((runDaemon cfg v devices queued records inputs).1.loop,
        (runDaemon cfg v devices queued records inputs).2) := by
  refine run_history (step cfg)
    (fun _ out d => ∃ reads, EventLoop.runLoop cfg v devices reads = (d.loop,out))
    (fun _ out d i => ?_) ⟨[],rfl⟩ inputs
  rintro ⟨reads,hreads⟩
  rcases d.step_loop cfg i with heq | ⟨input,heq⟩
  · obtain ⟨hloop,hout⟩ := Prod.mk.inj heq
    exact ⟨reads,by rw [hreads,hloop,hout,List.append_nil]⟩
  · refine ⟨reads ++ [input],?_⟩
    rw [EventLoop.runLoop] at hreads ⊢
    rw [run_append,run_singleton,hreads,← heq]

/-- The handling of an event keeps every source armed when its read leaves nothing behind. -/
theorem Armed.handle {d : Daemon F} (h : d.Armed) (cfg : InputConfig F) {r : ReadResult}
    {queued : ℕ → List InputEvent} (hreads : d.ReadsAll (.handle r queued)) :
    (d.step cfg (.handle r queued)).1.Armed := by
  rcases d.handle_cases cfg r queued with heq | ⟨i,rest,input,hreported,hanswer,heq⟩ <;> rw [heq]
  · exact h
  · intro j hj
    have hkept : d.Tracks j → (j = i → (d.fetched i r).unread j = []) →
        (enroll queued (d.fetched i r).finish (d.loop.step cfg input).2).Armed j := by
      intro hbefore hempty
      apply armed_enroll
      exact (Armed.fetched (h j hbefore) i r).finish
        ((d.fetched_reported i r).trans hreported) hempty
    have hempties : d.Tracks i → d.Empties i r := hreads i (by rw [hreported]; rfl)
    cases j with
    | inotify =>
      refine hkept trivial fun hi => ?_
      subst hi
      rcases fetched_unread (d := d) (i := .inotify) trivial (hempties trivial) with hnil | ⟨token,htoken,_⟩
      · exact hnil
      · cases htoken
    | device t =>
      rcases d.loop.step_admits cfg input t hj with hbefore | ⟨fd,hfd⟩
      · refine hkept hbefore fun hi => ?_
        subst hi
        rcases fetched_unread (d := d) (i := .device t) hbefore (hempties hbefore) with hnil | ⟨_,_,rfl⟩
        · exact hnil
        · -- a device that is gone is not in the table any more
          obtain rfl := Option.some.inj hanswer
          have hgone := d.loop.wrapper_of_gone cfg t
          change ((d.loop.step cfg (.ready t .gone)).1.wrapper t).isSome = true at hj
          rw [hgone] at hj
          cases hj
      · exact armed_enroll_of_registered hfd _

/-- One step keeps every source armed when what the loop reads is emptied by the read. -/
theorem Armed.step {d : Daemon F} (h : d.Armed) (cfg : InputConfig F) {i : DaemonInput}
    (hreads : d.ReadsAll i) : (d.step cfg i).1.Armed := by
  cases i with
  | frame token f => exact fun j hj => (h j hj).arrive (.device token) f.events
  | overrun token => exact fun j hj => (h j hj).discard (.device token)
  | record r => exact fun j hj => (h j hj).arrive .inotify [r]
  | poll notified =>
    unfold Daemon.step
    dsimp only
    split_ifs with hreported
    · exact fun j hj => (h j hj).poll hreported notified
    · exact h
  | handle r queued => exact h.handle cfg hreads
  | resetDone => exact h

/-- In a run in which every read empties what it reads, every source of the loop stays armed. -/
theorem runDaemon_armed (cfg : InputConfig F) (v : VirtualDevice)
    (devices : List (DeviceWrapper F)) (queued : ℕ → List InputEvent)
    (records : List InotifyRecord) {inputs : List DaemonInput}
    (hreads : AtEach (fun before i =>
      (runDaemon cfg v devices queued records before).1.ReadsAll i) inputs) :
    (runDaemon cfg v devices queued records inputs).1.Armed := by
  induction inputs using List.reverseRecOn with
  | nil => exact start_armed v devices queued records
  | append_singleton inputs i ih =>
    obtain ⟨hfront,hlast⟩ := atEach_append.mp hreads
    rw [runDaemon,run_append,run_singleton]
    exact (ih hfront).step cfg (by simpa using atEach_singleton.mp hlast)

/-- In every run in which each read of the loop empties the queue it reads, whatever waits at a
source of the loop when it polls has its notification pending. -/
theorem notified_of_readsAll (cfg : InputConfig F) (v : VirtualDevice)
    (devices : List (DeviceWrapper F)) (queued : ℕ → List InputEvent)
    (records : List InotifyRecord) (inputs : List DaemonInput)
    (hreads : AtEach (fun before i =>
      (runDaemon cfg v devices queued records before).1.ReadsAll i) inputs) :
    NotifiedAtPolls cfg v devices queued records inputs := by
  intro before i after heq d hpolls j hj hinput
  subst heq
  have harmed : d.Armed := runDaemon_armed cfg v devices queued records (atEach_append.mp hreads).1
  cases i with
  | poll notified => exact (harmed j hj).ready hpolls hinput.ne_nil
  | _ => exact hpolls.elim

/-- The keyboard under token 0. -/
def oneKeyboard : List (DeviceWrapper ℚ) := [.new ⟨plainKeyboard,5,false⟩ "/dev/input/event3"]

/-- The frames of A struck again and again: a press at each even time, a release at each odd. -/
def strikeFrame (n : ℕ) : Frame := ⟨[⟨n,.key,KeyCode.keyA,if n % 2 = 0 then 1 else 0⟩],n⟩

/-- A read that gives the first frames of these, with no more room than is reserved. -/
def readStrikes (n : ℕ) : DaemonInput :=
  .handle (.ok 0 (((List.range n).flatMap fun k => (strikeFrame k).events).map (⟨·,0⟩)))
    fun _ => []

/-- One frame that is read between two polls. -/
theorem strike_notified : NotifiedAtPolls .default .reliable oneKeyboard (fun _ => []) []
    [.frame 0 (strikeFrame 0),.poll [.device 0],readStrikes 1,.poll []] := by
  apply notified_of_readsAll
  refine atEach_cons.mpr ⟨trivial,atEach_cons.mpr ⟨trivial,atEach_cons.mpr ⟨?_,
    atEach_cons.mpr ⟨trivial,atEach_nil⟩⟩⟩⟩
  change ∀ i ∈ _, _
  decide +kernel

/-- 17 frames of two events each arrive before the loop reads: the read takes 16 of them, and at
the next poll the last frame waits with no notification pending. -/
theorem burst_left_unread : ¬ NotifiedAtPolls .default .reliable oneKeyboard (fun _ => []) []
    ((List.range 17).map (fun n => .frame 0 (strikeFrame n)) ++
      [.poll [.device 0],readStrikes 16,.poll []]) := by
  intro h
  have hready := h ((List.range 17).map (fun n => .frame 0 (strikeFrame n)) ++
    [.poll [.device 0],readStrikes 16]) (.poll []) [] (by simp)
    (show _ = [] by decide +kernel) (.device 0) (show _ = true by decide +kernel)
    ⟨strikeFrame 16,by decide +kernel⟩
  revert hready
  decide +kernel

end Daemon
end LibinputRs
