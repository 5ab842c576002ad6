import LibinputRs.Backend.Ticks

/-! The life of a device as the client sees it: the device is added, then sends input, then is
removed. The queue between production and delivery is first in, first out. -/
namespace LibinputRs
open Automata

variable {F D : Type}

/-- The events of one device, in order. -/
def eventsOf (d : DevicePtr) (l : List (LibinputEvent D)) : List (LibinputEvent D) :=
  l.filter fun e => decide (e.device = d)

@[simp] theorem eventsOf_nil (d : DevicePtr) : eventsOf d ([] : List (LibinputEvent D)) = [] :=
  rfl

@[simp] theorem eventsOf_append (d : DevicePtr) (l m : List (LibinputEvent D)) :
    eventsOf d (l ++ m) = eventsOf d l ++ eventsOf d m := List.filter_append ..

theorem eventsOf_singleton_self {d : DevicePtr} {e : LibinputEvent D} (h : e.device = d) :
    eventsOf d [e] = [e] := List.filter_eq_self.mpr (by simpa using h)

theorem eventsOf_eq_nil {c d : DevicePtr} {l : List (LibinputEvent D)}
    (hl : ∀ e ∈ l, e.device = c) (hne : c ≠ d) : eventsOf d l = [] :=
  List.filter_eq_nil_iff.mpr fun e he => by simpa [hl e he] using hne

namespace World

/-- Some tracked device is behind the pointer. -/
def Tracks (w : World F D) (d : DevicePtr) : Prop :=
  ∃ fd td, w.tracked fd = some td ∧ td.libDevice = d

theorem tracks_set_iff {w : World F D} {fd : RawFd} {td td' : TrackedDevice F D}
    (ht : w.tracked fd = some td) (hid : td'.libDevice = td.libDevice) (d : DevicePtr) :
    (w.set fd (some td')).Tracks d ↔ w.Tracks d := by
  constructor
  · rintro ⟨fd₁,td₁,h₁,rfl⟩
    rcases tracked_set h₁ with ⟨_,heq⟩ | ⟨_,h₁⟩
    · obtain rfl := Option.some.inj heq
      exact ⟨fd,td,ht,hid.symm⟩
    · exact ⟨fd₁,td₁,h₁,rfl⟩
  · rintro ⟨fd₁,td₁,h₁,rfl⟩
    by_cases hfd : fd₁ = fd
    · subst hfd
      obtain rfl := Option.some.inj (ht.symm.trans h₁)
      exact ⟨fd₁,td',set_self ..,hid⟩
    · exact ⟨fd₁,td₁,(set_of_ne w _ hfd).trans h₁,rfl⟩

/-- An entry that is about another device before and after does not matter. -/
theorem tracks_set_of_ne {w : World F D} {fd : RawFd} {x : Option (TrackedDevice F D)}
    {d : DevicePtr} (hbefore : ∀ td, w.tracked fd = some td → td.libDevice ≠ d)
    (hafter : ∀ td, x = some td → td.libDevice ≠ d) : (w.set fd x).Tracks d ↔ w.Tracks d := by
  constructor
  · rintro ⟨fd₁,td₁,h₁,hd⟩
    rcases tracked_set h₁ with ⟨_,heq⟩ | ⟨_,h₁⟩
    · exact absurd hd (hafter td₁ heq)
    · exact ⟨fd₁,td₁,h₁,hd⟩
  · rintro ⟨fd₁,td₁,h₁,hd⟩
    have hne : fd₁ ≠ fd := by
      rintro rfl
      exact hbefore td₁ h₁ hd
    exact ⟨fd₁,td₁,(set_of_ne w _ hne).trans h₁,hd⟩

/-- A device whose entry is erased is tracked no longer. -/
theorem WellFormed.not_tracks_erase {w : World F D} (hw : w.WellFormed) {fd : RawFd}
    {td : TrackedDevice F D} (ht : w.tracked fd = some td) :
    ¬ (w.set fd none).Tracks td.libDevice := by
  rintro ⟨fd₁,td₁,h₁,heq⟩
  rcases tracked_set h₁ with ⟨_,hnone⟩ | ⟨hne,h₁⟩
  · cases hnone
  · exact hw.libDevice_ne ht h₁ hne heq

end World

/-- What one tick means for one device, given the events it queues for the device. -/
inductive DeviceTick (d : DevicePtr) (w : World F D) (es : List (LibinputEvent D))
    (w' : World F D) : Prop
  | kept (hinput : ∀ e ∈ es, e.InputOf d) (hes : ¬ w.Tracks d → es = [])
      (htracks : w'.Tracks d ↔ w.Tracks d) (hdevices : w.devices ≤ w'.devices)
  | added (hd : d = w.devices) (hes : es = [.added d]) (htracks : w'.Tracks d)
      (hdevices : w'.devices = w.devices + 1)
  | removed (hw : w.Tracks d) (hes : es = [.removed d]) (htracks : ¬ w'.Tracks d)
      (hdevices : w'.devices = w.devices)

/-- Input events of a tracked device leave every device where it is in its life. -/
theorem DeviceTick.of_inputs {w : World F D} {fd : RawFd} {td td' : TrackedDevice F D}
    (ht : w.tracked fd = some td) (hid : td'.identity = td.identity)
    {es : List (LibinputEvent D)} (hes : ∀ e ∈ es, e.InputOf td.libDevice) (d : DevicePtr) :
    DeviceTick d w (eventsOf d es) (w.set fd (some td')) := by
  refine .kept (fun e he => ?_) (fun hw => ?_)
    (World.tracks_set_iff ht (TrackedDevice.libDevice_of_identity hid) d) le_rfl
  · obtain ⟨he,hd⟩ := List.mem_filter.mp he
    exact ⟨by simpa using hd,(hes e he).2⟩
  · exact eventsOf_eq_nil (fun e he => (hes e he).1) fun hd => hw ⟨fd,td,ht,hd⟩

variable [F32 F] [F64 D] [FloatCast F D]

/-- Every tick adds a device, removes one, or queues input of tracked devices only. -/
theorem Tick.deviceTick {w w' : World F D} {o : List (Obs F D)} (h : Tick w o w')
    (hw : w.WellFormed) (d : DevicePtr) : DeviceTick d w (eventsOf d (produced o)) w' := by
  cases h.kind with
  | silent o w' hsilent htracked hdevices =>
    rw [produced_of_silent hsilent]
    refine .kept (by simp) (fun _ => rfl) ?_ hdevices
    unfold World.Tracks
    rw [htracked]
  | admitted fd device path ht =>
    rw [produced_admission]
    by_cases hd : d = w.devices
    · exact .added hd (hd ▸ eventsOf_singleton_self rfl) ⟨fd,_,World.set_self ..,hd.symm⟩ rfl
    · have hnil : eventsOf d [(.added w.devices : LibinputEvent D)] = [] :=
        eventsOf_eq_nil (c := w.devices) (by simp [LibinputEvent.added]) (Ne.symm hd)
      rw [hnil]
      refine .kept (by simp) (fun _ => rfl) (World.tracks_set_of_ne ?_ ?_) (Nat.le_succ _)
      · simp [ht]
      · intro td heq
        obtain rfl := Option.some.inj heq
        exact Ne.symm hd
  | repeats fd td now ht =>
    rw [produced_map_queued]
    refine .of_inputs ht (TrackedDevice.emitKeyRepeats_identity now td) (fun e he => ?_) d
    obtain ⟨hk,_,rfl⟩ := TrackedDevice.emitKeyRepeats_out now td e he
    exact ⟨rfl,rfl⟩
  | event fd td cfg typing live te ht =>
    rw [TrackedDevice.produced_observeEvent]
    exact .of_inputs ht (TrackedDevice.processEvent_identity cfg typing (td,live) te)
      (TrackedDevice.processEvent_out cfg typing (td,live) te) d
  | removed fd td ht =>
    rw [produced_removal]
    by_cases hd : td.libDevice = d
    · subst hd
      exact .removed ⟨fd,td,ht,rfl⟩ (eventsOf_singleton_self rfl) (hw.not_tracks_erase ht) rfl
    · have hnil : eventsOf d [(.removed td.libDevice : LibinputEvent D)] = [] :=
        eventsOf_eq_nil (c := td.libDevice) (by simp [LibinputEvent.removed]) hd
      rw [hnil]
      refine .kept (by simp) (fun _ => rfl) (World.tracks_set_of_ne ?_ (by simp)) le_rfl
      simpa [ht] using hd

/-- Where a device is in its life, by what was queued for it so far. -/
structure Lifecycle (d : DevicePtr) (out : List (Obs F D)) (w : World F D) : Prop where
  allocated : w.Tracks d → d < w.devices
  unallocated : w.devices ≤ d → eventsOf d (produced out) = []
  present : w.Tracks d → ∃ inputs, (∀ e ∈ inputs, e.InputOf d) ∧
    eventsOf d (produced out) = .added d :: inputs
  absent : ¬ w.Tracks d → eventsOf d (produced out) = [] ∨
    ∃ inputs, (∀ e ∈ inputs, e.InputOf d) ∧
      eventsOf d (produced out) = .added d :: inputs ++ [.removed d]

omit [F32 F] [F64 D] [FloatCast F D] in
theorem Lifecycle.step {d : DevicePtr} {out o : List (Obs F D)} {w w' : World F D}
    (h : Lifecycle d out w) (ht : DeviceTick d w (eventsOf d (produced o)) w') :
    Lifecycle d (out ++ o) w' := by
  have hsplit : eventsOf d (produced (out ++ o)) =
      eventsOf d (produced out) ++ eventsOf d (produced o) := by simp
  cases ht with
  | kept hinput hes htracks hdevices =>
    have hquiet : ¬ w.Tracks d → eventsOf d (produced (out ++ o)) = eventsOf d (produced out) :=
      fun hnot => by rw [hsplit,hes hnot,List.append_nil]
    constructor
    · exact fun hw => (h.allocated (htracks.mp hw)).trans_le hdevices
    · intro hd
      have hnot : ¬ w.Tracks d := fun hw => Nat.not_lt.mpr (hdevices.trans hd) (h.allocated hw)
      rw [hquiet hnot]
      exact h.unallocated (hdevices.trans hd)
    · intro hw
      obtain ⟨inputs,hinputs,heq⟩ := h.present (htracks.mp hw)
      refine ⟨inputs ++ eventsOf d (produced o),fun e he => ?_,by rw [hsplit,heq,List.cons_append]⟩
      rcases List.mem_append.mp he with he | he
      · exact hinputs e he
      · exact hinput e he
    · intro hw
      have hnot : ¬ w.Tracks d := fun hw' => hw (htracks.mpr hw')
      rw [hquiet hnot]
      exact h.absent hnot
  | added hd hes htracks hdevices =>
    have hbefore : eventsOf d (produced out) = [] := h.unallocated hd.ge
    constructor
    · rw [hd,hdevices]
      exact fun _ => Nat.lt_succ_self _
    · rw [hd,hdevices]
      exact fun hle => absurd hle (Nat.not_succ_le_self _)
    · exact fun _ => ⟨[],by simp,by rw [hsplit,hbefore,hes,List.nil_append]⟩
    · exact fun hw => absurd htracks hw
  | removed hw hes htracks hdevices =>
    have halloc := h.allocated hw
    obtain ⟨inputs,hinputs,heq⟩ := h.present hw
    constructor
    · exact fun _ => hdevices ▸ halloc
    · exact fun hle => absurd (hdevices ▸ hle) (Nat.not_le.mpr halloc)
    · exact fun hw' => absurd hw' htracks
    · exact fun _ => .inr ⟨inputs,hinputs,by rw [hsplit,heq,hes]⟩

namespace LibinputContext

theorem runCalls_lifecycle (interface : LibinputInterface) (inotify : Bool)
    (calls : List (Call D)) (d : DevicePtr) :
    Lifecycle d ((new (F := F) interface inotify).runCalls calls).2
      ((new (F := F) interface inotify).runCalls calls).1.view := by
  have hnone : ¬ (new (F := F) (D := D) interface inotify).view.Tracks d := by
    rintro ⟨fd,td,h,_⟩
    have : (new (F := F) (D := D) interface inotify).view.tracked fd = none := rfl
    simp [this] at h
  exact runCalls_history (Lifecycle d) interface inotify
    ⟨fun h => absurd h hnone,fun _ => rfl,fun h => absurd h hnone,fun _ => .inl rfl⟩
    (fun out w o w' hw hI ht => hI.step (ht.deviceTick hw d)) calls

/-- What was produced for a device is a prefix of one complete life of it. -/
theorem produced_life (interface : LibinputInterface) (inotify : Bool) (calls : List (Call D))
    (d : DevicePtr) : ∃ inputs : List (LibinputEvent D), (∀ e ∈ inputs, e.InputOf d) ∧
      eventsOf d (produced ((new (F := F) interface inotify).runCalls calls).2) <+:
        .added d :: inputs ++ [.removed d] := by
  have h := runCalls_lifecycle (F := F) interface inotify calls d
  by_cases hw : ((new (F := F) interface inotify).runCalls calls).1.view.Tracks d
  · obtain ⟨inputs,hinputs,heq⟩ := h.present hw
    exact ⟨inputs,hinputs,heq ▸ List.prefix_append ..⟩
  · rcases h.absent hw with heq | ⟨inputs,hinputs,heq⟩
    · exact ⟨[],by simp,heq ▸ List.nil_prefix⟩
    · exact ⟨inputs,hinputs,heq ▸ List.prefix_rfl⟩

end LibinputContext

section Queue

/-- A step of the backend neither touches the queue nor hands out events. -/
structure Quiet (ctx : LibinputContext F D) (r : LibinputContext F D × List (Obs F D)) : Prop where
  queue : r.1.eventQueue = ctx.eventQueue
  out : delivered r.2 = []

omit [F32 F] [F64 D] [FloatCast F D] in
theorem Quiet.run {ι : Type*} {step : LibinputContext F D → ι → LibinputContext F D × List (Obs F D)}
    (hstep : ∀ ctx i, Quiet ctx (step ctx i)) (ctx : LibinputContext F D) (is : List ι) :
    Quiet ctx (Automata.run step ctx is) := by
  induction is generalizing ctx with
  | nil => exact ⟨rfl,rfl⟩
  | cons i is ih =>
    have hfirst := hstep ctx i
    have hrest := ih (step ctx i).1
    rw [run_cons]
    exact ⟨hrest.queue.trans hfirst.queue,by rw [delivered_append,hfirst.out,hrest.out]; rfl⟩

namespace LibinputContext

omit [FloatCast F D] in
theorem openProbed_quiet (ctx : LibinputContext F D) (path : PathBuf) (fd : RawFd)
    (device : EvdevDevice) : Quiet ctx (ctx.openProbed path fd device) := by
  rcases openProbed_cases ctx path fd device with ⟨_,h⟩ | ⟨_,_,h⟩ | ⟨_,_,h⟩ <;> rw [h] <;>
    exact ⟨rfl,rfl⟩

omit [FloatCast F D] in
theorem tryOpen_quiet (ctx : LibinputContext F D) (path : PathBuf) (r : OpenResult) :
    Quiet ctx (ctx.tryOpen path r) := by
  have hopened : delivered (ctx.view.opened r.rawFd) = [] := by
    unfold World.opened
    split_ifs <;> rfl
  have hclosed : delivered (ctx.view.closed r.rawFd) = [] := by
    unfold World.closed
    split_ifs <;> rfl
  rcases tryOpen_cases ctx path r with ⟨_,h⟩ | ⟨_,_,h⟩ | ⟨device,_,_,h⟩
  · rw [h]
    exact ⟨rfl,rfl⟩
  · rw [h]
    exact ⟨rfl,hclosed⟩
  · rw [h]
    have hprobed := openProbed_quiet ctx path r.rawFd device
    exact ⟨hprobed.queue,by rw [delivered_append,hopened,hprobed.out]; rfl⟩

omit [FloatCast F D] in
theorem openAll_quiet (ctx : LibinputContext F D) (nodes : List (PathBuf × OpenResult)) :
    Quiet ctx (ctx.openAll nodes) := by
  unfold openAll
  exact Quiet.run (fun ctx node => tryOpen_quiet ctx node.1 node.2) ctx nodes

omit [FloatCast F D] in
theorem handleHotplug_quiet (ctx : LibinputContext F D) (inotify : Option (List InotifyEvent)) :
    Quiet ctx (ctx.handleHotplug inotify) := by
  unfold handleHotplug
  split_ifs
  · cases inotify with
    | none => exact ⟨rfl,rfl⟩
    | some ievents => exact openAll_quiet ctx _
  · exact ⟨rfl,rfl⟩

omit [F32 F] [F64 D] [FloatCast F D] in
theorem repeatDevice_quiet (now : Instant) (ctx : LibinputContext F D) (fd : RawFd) :
    Quiet ctx (repeatDevice now ctx fd) := by
  unfold repeatDevice
  cases ctx.tracked fd with
  | none => exact ⟨rfl,rfl⟩
  | some td =>
    refine ⟨rfl,?_⟩
    simp [delivered,List.filterMap_map,Function.comp_def,Obs.deliveredEvent]

omit [F32 F] [F64 D] [FloatCast F D] in
theorem removeDead_quiet (ctx : LibinputContext F D) (fd : RawFd) :
    Quiet ctx (ctx.removeDead fd) := by
  unfold removeDead
  cases ctx.tracked fd with
  | none => exact ⟨rfl,rfl⟩
  | some td =>
    refine ⟨rfl,?_⟩
    dsimp only
    split_ifs <;> rfl

theorem drainDevice_quiet (fetch : RawFd → Fetch) (s : LibinputContext F D × List RawFd)
    (fd : RawFd) : Quiet s.1 ((drainDevice fetch s fd).1.1,(drainDevice fetch s fd).2) := by
  unfold drainDevice
  cases s.1.tracked fd with
  | none => exact ⟨rfl,rfl⟩
  | some td =>
    cases fetch fd with
    | batch events =>
      refine ⟨rfl,List.filterMap_eq_nil_iff.mpr ?_⟩
      refine run_outputs _ (fun _ => True) (fun o => Obs.deliveredEvent o = none)
        (fun _ _ _ => trivial) (fun s te _ o ho => ?_) trivial events
      obtain rfl := List.mem_singleton.mp ho
      rfl
    | wouldBlock => exact ⟨rfl,rfl⟩
    | gone => exact ⟨rfl,rfl⟩
    | failed => exact ⟨rfl,rfl⟩

theorem drainLoop_quiet (fetch : RawFd → Fetch) (s : LibinputContext F D × List RawFd)
    (fds : List RawFd) : Quiet s.1 ((Automata.run (drainDevice fetch) s fds).1.1,
      (Automata.run (drainDevice fetch) s fds).2) := by
  induction fds generalizing s with
  | nil => exact ⟨rfl,rfl⟩
  | cons fd fds ih =>
    have hfirst := drainDevice_quiet fetch s fd
    have hrest := ih (drainDevice fetch s fd).1
    rw [run_cons]
    refine ⟨hrest.queue.trans hfirst.queue,?_⟩
    rw [delivered_append,hfirst.out,hrest.out]
    rfl

theorem drainIntoQueue_quiet (ctx : LibinputContext F D) (inp : Dispatch) :
    Quiet ctx (ctx.drainIntoQueue inp) := by
  unfold drainIntoQueue
  extract_lets hotplug fds repeats events removals
  have hhotplug : Quiet ctx hotplug := handleHotplug_quiet ctx inp.inotify
  have hrepeats : Quiet hotplug.1 repeats := Quiet.run (repeatDevice_quiet inp.now) _ _
  have hevents : Quiet repeats.1 (events.1.1,events.2) := drainLoop_quiet inp.fetch (repeats.1,[]) fds
  have hremovals : Quiet events.1.1 removals := Quiet.run removeDead_quiet _ _
  constructor
  · exact hremovals.queue.trans (hevents.queue.trans (hrepeats.queue.trans hhotplug.queue))
  · simp [hhotplug.out,hrepeats.out,hevents.out,hremovals.out]

/-- One call hands out from the front of the queue and appends what it produces. -/
theorem call_queue (ctx : LibinputContext F D) (c : Call D) :
    delivered (ctx.call c).2 ++ (ctx.call c).1.eventQueue =
      ctx.eventQueue ++ produced (ctx.call c).2 := by
  have henqueue : ∀ r : LibinputContext F D × List (Obs F D), Quiet ctx r →
      delivered (enqueue r).2 ++ (enqueue r).1.eventQueue =
        ctx.eventQueue ++ produced (enqueue r).2 := by
    intro r hr
    simp only [enqueue,hr.out,hr.queue,List.nil_append]
  cases c with
  | assignSeat seatName nodes =>
    have h := openAll_quiet { ctx with seat := { ctx.seat with logicalName := seatName } } nodes
    exact henqueue _ ⟨h.queue,h.out⟩
  | addDevice path r => exact henqueue _ (tryOpen_quiet ctx path r)
  | removeDevice d => exact (List.append_nil _).symm
  | dispatch inp => exact henqueue _ (drainIntoQueue_quiet ctx inp)
  | getEvent =>
    unfold call libinputGetEvent
    cases hq : ctx.eventQueue with
    | nil => simp [hq]
    | cons e rest => simp [delivered,Obs.deliveredEvent,Obs.queuedEvents]
  | nextEventType => exact (List.append_nil _).symm
  | configure d c => exact (List.append_nil _).symm

/-- Nothing is lost, duplicated or reordered: what was handed out and what is still queued is
what was produced. -/
theorem delivered_append_queue (interface : LibinputInterface) (inotify : Bool)
    (calls : List (Call D)) :
    delivered ((new (F := F) interface inotify).runCalls calls).2 ++
        ((new (F := F) interface inotify).runCalls calls).1.eventQueue =
      produced ((new (F := F) interface inotify).runCalls calls).2 := by
  refine run_history call (fun _ out (ctx : LibinputContext F D) =>
    delivered out ++ ctx.eventQueue = produced out) (fun _ out ctx c hI => ?_) rfl calls
  rw [delivered_append,produced_append,List.append_assoc,call_queue,← List.append_assoc,hI]

/-- What the client obtained for a device is a prefix of one complete life: it is added, sends
any number of input events, and is removed. Between production and the client the queue keeps
every event, once and in order. -/
theorem delivered_life (interface : LibinputInterface) (inotify : Bool) (calls : List (Call D))
    (d : DevicePtr) :
    (∃ inputs : List (LibinputEvent D), (∀ e ∈ inputs, e.InputOf d) ∧
      eventsOf d (delivered ((new (F := F) interface inotify).runCalls calls).2) <+:
        .added d :: inputs ++ [.removed d]) ∧
    delivered ((new (F := F) interface inotify).runCalls calls).2 ++
        ((new (F := F) interface inotify).runCalls calls).1.eventQueue =
      produced ((new (F := F) interface inotify).runCalls calls).2 := by
  have hqueue := delivered_append_queue (F := F) interface inotify calls
  obtain ⟨inputs,hinputs,hlife⟩ := produced_life (F := F) interface inotify calls d
  refine ⟨⟨inputs,hinputs,List.IsPrefix.trans ?_ hlife⟩,hqueue⟩
  rw [← hqueue,eventsOf_append]
  exact List.prefix_append ..

end LibinputContext
end Queue
end LibinputRs
