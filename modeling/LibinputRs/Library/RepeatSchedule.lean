import LibinputRs.Library.Inbox
import LibinputRs.Library.KeyHolds

/-! The schedule of the synthetic repeats, over runs of calls. A dispatch queues one repeat of every
key of a keyboard that is down and due, and nothing else queues any. -/
namespace LibinputRs
open Automata

variable {F D : Type} [F32 F] [F64 D] [FloatCast F D]

omit [F32 F] [F64 D] [FloatCast F D] in
theorem LibinputEvent.isRepeat_of_keyState {code : ℕ} {e : LibinputEvent D}
    (h : e.keyState code = some 2) : e.isRepeat = true := by
  unfold keyState at h
  split at h
  · next k htype hpayload =>
    split_ifs at h
    simpa [isRepeat,htype,hpayload] using h
  · cases h

namespace TrackedDevice

/-- A keyboard without absolute axes. The key events of others are not processed as a keyboard's. -/
def IsPlainKeyboard (td : TrackedDevice F D) : Prop := td.isKeyboard = true ∧ td.isAbsolute = false

omit [F32 F] [F64 D] [FloatCast F D] in
theorem IsPlainKeyboard.of_identity {td td' : TrackedDevice F D}
    (hid : td'.identity = td.identity) (h : td.IsPlainKeyboard) : td'.IsPlainKeyboard :=
  ⟨(congrArg (·.2.2.2.1) hid).trans h.1,(congrArg (·.2.2.1) hid).trans h.2⟩

/-- What is read repeats no key. -/
theorem repeatsIn_batch (code : ℕ) (cfg : Settings F) (typing live : Option Instant)
    (td : TrackedDevice F D) (events : List TimedEvent) :
    repeatsIn code (td.batch cfg typing live events).2 = [] := by
  induction events generalizing td live with
  | nil => rfl
  | cons te events ih =>
    rw [batch_cons,repeatsIn_append,ih,List.append_nil]
    refine List.filter_eq_nil_iff.mpr fun e he hrepeat => ?_
    have hanswer := List.filter_eq_self.mp (answersTo_processEvent cfg typing (td,live) te) e he
    rw [LibinputEvent.isRepeat_of_keyState (of_decide_eq_true hrepeat)] at hanswer
    cases hanswer

/-- Through a batch of a keyboard the list of held keys knows the hold that a key is in. -/
theorem Knows.batch {code : ℕ} {td : TrackedDevice F D} (hplain : td.IsPlainKeyboard)
    {moments : List KeyMoment} (h : td.Knows code (holdAfter code moments))
    {events : List TimedEvent} (hstrokes : StrokesAlternate code (eventsRead moments ++ events))
    (cfg : Settings F) (typing live : Option Instant) :
    (td.batch cfg typing live events).1.Knows code
      (holdAfter code (moments ++ events.map .read)) := by
  induction events generalizing td live moments with
  | nil => simpa [TrackedDevice.batch] using h
  | cons te events ih =>
    have hread : processEvent cfg typing (td,live) te =
        (((td.processKeyboardEvent te live).1,(td.processKeyboardEvent te live).2.1),
          (td.processKeyboardEvent te live).2.2) := by
      simp [processEvent,hplain.1,hplain.2]
    have hsplit : StrokesAlternate code ((eventsRead moments ++ [te]) ++ events) := by
      simpa using hstrokes
    have hnext : (td.processKeyboardEvent te live).1.Knows code
        (holdAfter code (moments ++ [.read te])) := by
      rw [holdAfter_append_singleton]
      exact h.read (fun hpress => hsplit.of_append.up hpress) live
    have hrest := ih (hplain.of_identity (td.processKeyboardEvent_identity te live)) hnext
      (by simpa [eventsRead_append,eventsRead] using hsplit)
      (td.processKeyboardEvent te live).2.1
    rw [batch_cons,hread]
    simpa using hrest

omit [F32 F] [F64 D] [FloatCast F D] in
/-- Only keyboards repeat keys. -/
theorem emitKeyRepeats_of_not_plain {td : TrackedDevice F D} (h : ¬ td.IsPlainKeyboard)
    (hkeys : td.isAbsolute = true → td.heldKeys = []) (now : Instant) :
    (td.emitKeyRepeats (D := D) now).2 = [] := by
  by_cases habs : td.isAbsolute = true
  · rw [emitKeyRepeats_of_noKeys now td (hkeys habs)]
  · have hkbd : td.isKeyboard = false := by
      by_contra hkbd
      exact h ⟨by simpa using hkbd,by simpa using habs⟩
    simp [emitKeyRepeats,hkbd]

end TrackedDevice

namespace LibinputContext

/-- The repeats of a key of a device that were queued. -/
def repeatsOf (d : DevicePtr) (code : ℕ) (out : List (Obs F D)) : List (LibinputEvent D) :=
  repeatsIn code (deviceView d out)

/-- What a call means to a key of a device: a dispatch queues repeats of it before it processes the
events that it fetches. -/
def keyMoments (d : DevicePtr) (code : ℕ) (ctx : LibinputContext F D) : Call D → List KeyMoment
  | .dispatch inp =>
    ((repeatsOf d code (ctx.drainIntoQueue inp).2).map fun _ => .repeated inp.now) ++
      (ctx.fetchedBy d (.dispatch inp)).map .read
  | _ => []

/-- The moments of a key in a run of calls. -/
def keyHistory (d : DevicePtr) (code : ℕ) (ctx : LibinputContext F D) (calls : List (Call D)) :
    List KeyMoment :=
  (run (fun ctx c => ((ctx.call c).1,ctx.keyMoments d code c)) ctx calls).2

/-- The repeats of a key of a keyboard in a run of calls: a dispatch queues one where the keyboard
is there and the key is down and due, nothing else queues any, and the number of those in a hold is
bounded by its length. -/
structure KeepsSchedule (d : DevicePtr) (code : ℕ) (ctx : LibinputContext F D)
    (calls : List (Call D)) : Prop where
  due : AtEach (fun front c => ∀ inp fd td hold, c = .dispatch inp →
    (ctx.runCalls front).1.tracked fd = some td → td.libDevice = d → td.IsPlainKeyboard →
      holdAfter code (keyHistory d code ctx front) = some hold →
        (repeatsOf d code ((ctx.runCalls front).1.call c).2).length =
          if hold.nextRepeat ≤ inp.now then 1 else 0) calls
  up : AtEach (fun front c => holdAfter code (keyHistory d code ctx front) = none →
    repeatsOf d code ((ctx.runCalls front).1.call c).2 = []) calls
  absent : AtEach (fun front c => ¬ (ctx.runCalls front).1.view.Tracks d →
    repeatsOf d code ((ctx.runCalls front).1.call c).2 = []) calls
  notPlain : AtEach (fun front c => ∀ fd td, (ctx.runCalls front).1.tracked fd = some td →
    td.libDevice = d → ¬ td.IsPlainKeyboard →
      repeatsOf d code ((ctx.runCalls front).1.call c).2 = []) calls
  others : AtEach (fun front c => (∀ inp, c ≠ .dispatch inp) →
    repeatsOf d code ((ctx.runCalls front).1.call c).2 = []) calls
  bounded : ∀ before, before <+: keyHistory d code ctx calls →
    ∀ hold, holdAfter code before = some hold →
      (∀ t ∈ hold.times,hold.start + fromMillis repeatDelayMs ≤ t) ∧
      ∀ now,(hold.times.filter (· ≤ now)).length ≤
        1 + (now - hold.start - fromMillis repeatDelayMs)/fromMillis repeatIntervalMs

section Dispatch
variable {ctx : LibinputContext F D} {d : DevicePtr} {code : ℕ}

omit [F32 F] [F64 D] [FloatCast F D] in
/-- Notifications are no repeats. -/
theorem repeatsOf_added {out : List (Obs F D)} (h : ∀ e ∈ produced out, ∃ d, e = .added d)
    (d : DevicePtr) (code : ℕ) : repeatsOf d code out = [] := by
  refine List.filter_eq_nil_iff.mpr fun e he => ?_
  obtain ⟨d',rfl⟩ := h e (List.mem_filter.mp he).1
  simp [LibinputEvent.keyState,LibinputEvent.added]

/-- The repeats of a dispatch are those of its loops. -/
theorem repeatsOf_drainIntoQueue (ctx : LibinputContext F D) (inp : Dispatch) (d : DevicePtr)
    (code : ℕ) : repeatsOf d code (ctx.drainIntoQueue inp).2 =
      repeatsOf d code ((ctx.handleHotplug inp.inotify).1.dispatchLoops inp.now inp.fetch
        (iterationOrder inp.order (ctx.handleHotplug inp.inotify).1.backend.devices.keys)).2 := by
  have hplug := repeatsOf_added (handleHotplug_added ctx inp.inotify) d code
  rw [drainIntoQueue_eq]
  simp only [repeatsOf] at hplug ⊢
  rw [deviceView_append,repeatsIn_append,hplug,List.nil_append]

/-- The batch that a dispatch fetches for a device in its table. -/
theorem fetchedBy_at (hw : ctx.view.WellFormed) (inp : Dispatch) {a : RawFd}
    {td : TrackedDevice F D} (ht : (ctx.handleHotplug inp.inotify).1.tracked a = some td) :
    ctx.fetchedBy td.libDevice (.dispatch inp) = (inp.fetch a).events := by
  have hplug := handleHotplug_wellFormed hw inp.inotify
  have hmem : a ∈ (ctx.handleHotplug inp.inotify).1.backend.devices.keys :=
    (mem_keys_iff _ a).mpr (by rw [ht]; rfl)
  obtain ⟨front,back,hsplit⟩ := List.append_of_mem hmem
  have hnodup : (ctx.handleHotplug inp.inotify).1.backend.devices.keys.Nodup :=
    (ctx.handleHotplug inp.inotify).1.backend.devices.nodupKeys
  rw [hsplit] at hnodup
  obtain ⟨hfront,hback⟩ := nodup_split hnodup
  have hother : ∀ fds : List RawFd, a ∉ fds → fds.flatMap
      ((ctx.handleHotplug inp.inotify).1.batchOf td.libDevice inp.fetch) = [] := by
    refine fun fds hfds => List.flatMap_eq_nil_iff.mpr fun fd hfd => if_neg fun hdevice => ?_
    obtain ⟨td',ht',hd⟩ := Option.map_eq_some_iff.mp hdevice
    exact hfds (hplug.distinct fd a td' td ht' ht hd ▸ hfd)
  have hself : (ctx.handleHotplug inp.inotify).1.batchOf td.libDevice inp.fetch a =
      (inp.fetch a).events := if_pos (by rw [ht]; rfl)
  unfold fetchedBy
  dsimp only
  rw [hsplit,List.flatMap_append,List.flatMap_cons,hother front hfront,hother back hback,hself]
  simp

/-- A dispatch as a device in its table sees it. -/
theorem drainIntoQueue_at (hw : ctx.view.WellFormed) (inp : Dispatch) {a : RawFd}
    {td : TrackedDevice F D} (ht : (ctx.handleHotplug inp.inotify).1.tracked a = some td)
    (code : ℕ) :
    repeatsOf td.libDevice code (ctx.drainIntoQueue inp).2 =
        repeatsIn code (td.emitKeyRepeats (D := D) inp.now).2 ∧
      ∀ fd td', (ctx.drainIntoQueue inp).1.tracked fd = some td' →
        td'.libDevice = td.libDevice → td'.identity = td.identity ∧ ∃ cfg typing, td' =
          ((td.emitKeyRepeats (D := D) inp.now).1.batch cfg typing typing
            (inp.fetch a).events).1 := by
  have hplug := handleHotplug_wellFormed hw inp.inotify
  have hmem : a ∈ iterationOrder inp.order
      (ctx.handleHotplug inp.inotify).1.backend.devices.keys :=
    (mem_iterationOrder inp.order _ a).mpr ((mem_keys_iff _ a).mpr (by rw [ht]; rfl))
  obtain ⟨front,back,hsplit⟩ := List.append_of_mem hmem
  have hnodup := nodup_iterationOrder inp.order
    (ctx.handleHotplug inp.inotify).1.backend.devices.nodupKeys
  obtain ⟨hstate,hview⟩ := dispatchLoops_at hplug inp.now inp.fetch (hsplit ▸ hnodup) ht
  refine ⟨?_,fun fd td' ht' hd => ?_⟩
  · rw [repeatsOf_drainIntoQueue,hsplit,repeatsOf,hview,repeatsIn_append,repeatsIn_append,
      TrackedDevice.repeatsIn_batch,List.append_nil]
    have hremoved : repeatsIn code (if inp.fetch a = .gone then
        [(.removed td.libDevice : LibinputEvent D)] else []) = [] := by
      split_ifs <;> rfl
    rw [hremoved,List.append_nil]
  · obtain ⟨td₀,h₀,hid⟩ := drainIntoQueue_shrinks ctx inp fd td' ht'
    obtain rfl := hplug.distinct fd a td₀ td h₀ ht
      ((TrackedDevice.libDevice_of_identity hid).symm.trans hd)
    obtain rfl := Option.some.inj (h₀.symm.trans ht)
    rw [drainIntoQueue_eq,hsplit,hstate] at ht'
    split_ifs at ht'
    exact ⟨hid,_,_,(Option.some.inj ht').symm⟩

/-- A dispatch shows nothing of a device that is not in its table, and fetches nothing for it. -/
theorem drainIntoQueue_absent {inp : Dispatch}
    (hd : ∀ fd td, (ctx.handleHotplug inp.inotify).1.tracked fd = some td → td.libDevice ≠ d)
    (code : ℕ) : repeatsOf d code (ctx.drainIntoQueue inp).2 = [] ∧
      ctx.fetchedBy d (.dispatch inp) = [] := by
  refine ⟨?_,List.flatMap_eq_nil_iff.mpr fun fd _ => if_neg fun hdevice => ?_⟩
  · rw [repeatsOf_drainIntoQueue,repeatsOf,dispatchLoops_absent hd]
    rfl
  · obtain ⟨td,ht,heq⟩ := Option.map_eq_some_iff.mp hdevice
    exact hd fd td ht heq

end Dispatch

section Schedule
variable {ctx ctx' : LibinputContext F D} {d : DevicePtr} {code : ℕ} {moments : List KeyMoment}

/-- What is known of a key after its moments: while its keyboard is there the list of held keys
knows its hold, and no repeat was early. -/
structure KeyKnown (d : DevicePtr) (code : ℕ) (moments : List KeyMoment)
    (ctx : LibinputContext F D) : Prop where
  unallocated : ctx.devices.length ≤ d → moments = []
  knows : ∀ fd td, ctx.tracked fd = some td → td.libDevice = d → td.IsPlainKeyboard →
    td.Knows code (holdAfter code moments)
  punctual : AllPunctual code moments

omit [F32 F] [F64 D] [FloatCast F D] in
/-- New devices have new pointers and hold no keys. -/
theorem KeyKnown.opened (h : KeyKnown d code moments ctx)
    (hdevices : ctx.devices.length ≤ ctx'.devices.length)
    (hentry : ∀ fd td, ctx'.tracked fd = some td → ctx.tracked fd = some td ∨
      (td.heldKeys = [] ∧ ctx.devices.length ≤ td.libDevice)) : KeyKnown d code moments ctx' := by
  refine ⟨fun hd => h.unallocated (hdevices.trans hd),fun fd td ht hd hplain => ?_,h.punctual⟩
  rcases hentry fd td ht with hsame | ⟨hkeys,hnew⟩
  · exact h.knows fd td hsame hd hplain
  · rw [h.unallocated (hd ▸ hnew)]
    exact (congrArg (List.filter _) hkeys).trans List.filter_nil

theorem KeyKnown.hotplug (h : KeyKnown d code moments ctx) (inotify : Option (List InotifyEvent)) :
    KeyKnown d code moments (ctx.handleHotplug inotify).1 := by
  refine h.opened (handleHotplug_turns ctx inotify).ticks.devices_le fun fd td ht => ?_
  rcases handleHotplug_entry ctx inotify fd with hsame | ⟨_,td',hnew,hkeys,hd⟩
  · exact .inl (hsame.symm.trans ht)
  · obtain rfl := Option.some.inj (hnew.symm.trans ht)
    exact .inr ⟨hkeys,hd⟩

/-- A dispatch. -/
theorem KeyKnown.dispatch (hw : ctx.view.WellFormed) (h : KeyKnown d code moments ctx)
    (inp : Dispatch) (hstrokes : StrokesAlternate code
      (eventsRead moments ++ ctx.fetchedBy d (.dispatch inp))) :
    KeyKnown d code (moments ++ ctx.keyMoments d code (.dispatch inp))
      (ctx.drainIntoQueue inp).1 := by
  have hplug := handleHotplug_wellFormed hw inp.inotify
  have htable := h.hotplug inp.inotify
  have hdevices : (ctx.drainIntoQueue inp).1.devices =
      (ctx.handleHotplug inp.inotify).1.devices := by
    rw [drainIntoQueue_eq]
    exact dispatchLoops_devices ..
  by_cases htracks : ∃ a td, (ctx.handleHotplug inp.inotify).1.tracked a = some td ∧
      td.libDevice = d
  · obtain ⟨a,td,ht,rfl⟩ := htracks
    obtain ⟨hrepeats,hstate⟩ := drainIntoQueue_at hw inp ht code
    rw [fetchedBy_at hw inp ht] at hstrokes
    rw [keyMoments,hrepeats,fetchedBy_at hw inp ht]
    set fired : List KeyMoment := (repeatsIn code (td.emitKeyRepeats (D := D) inp.now).2).map
      fun _ => .repeated inp.now with hfired
    have hpass : AllPunctual code (moments ++ fired) ∧ (td.IsPlainKeyboard →
        (td.emitKeyRepeats (D := D) inp.now).1.Knows code
          (holdAfter code (moments ++ fired))) := by
      by_cases hplain : td.IsPlainKeyboard
      · obtain ⟨hknows,hpunctual⟩ := (htable.knows a td ht rfl hplain).pass hplain.1 h.punctual
          inp.now hfired
        exact ⟨hpunctual,fun _ => hknows⟩
      · rw [TrackedDevice.emitKeyRepeats_of_not_plain hplain (hplug.noKeys a td ht)] at hfired
        rw [hfired]
        exact ⟨by simpa [repeatsIn] using h.punctual,fun hplain' => absurd hplain' hplain⟩
    have hread : eventsRead (moments ++ fired) = eventsRead moments := by
      rw [eventsRead_append,hfired,eventsRead_repeated,List.append_nil]
    rw [← List.append_assoc]
    refine ⟨fun hd => ?_,fun fd td' ht' hd hplain' => ?_,hpass.1.reads _⟩
    · rw [hdevices] at hd
      exact absurd (hplug.allocated a td ht) (Nat.not_lt.mpr hd)
    · obtain ⟨hid,cfg,typing,rfl⟩ := hstate fd td' ht' hd
      have hplain : td.IsPlainKeyboard := hplain'.of_identity hid.symm
      exact (hpass.2 hplain).batch (hplain.of_identity (td.emitKeyRepeats_identity inp.now))
        (hread.symm ▸ hstrokes) cfg typing typing
  · have hnot : ∀ fd td, (ctx.handleHotplug inp.inotify).1.tracked fd = some td →
        td.libDevice ≠ d := fun fd td ht hd => htracks ⟨fd,td,ht,hd⟩
    obtain ⟨hrepeats,hfetched⟩ := drainIntoQueue_absent hnot code
    rw [keyMoments,hrepeats,hfetched,List.map_nil,List.map_nil,List.append_nil,List.append_nil]
    refine ⟨fun hd => htable.unallocated (hdevices ▸ hd),fun fd td' ht' hd => ?_,h.punctual⟩
    obtain ⟨td,ht,hid⟩ := drainIntoQueue_shrinks ctx inp fd td' ht'
    exact absurd ((TrackedDevice.libDevice_of_identity hid).symm.trans hd) (hnot fd td ht)

/-- The other calls change no entry and queue additions at most. -/
theorem call_of_other (ctx : LibinputContext F D) {c : Call D} (hc : ∀ inp, c ≠ .dispatch inp) :
    (∀ fd td, (ctx.call c).1.tracked fd = some td → ctx.tracked fd = some td ∨
      (td.heldKeys = [] ∧ ctx.devices.length ≤ td.libDevice)) ∧
      ∀ e ∈ produced (ctx.call c).2, ∃ d, e = .added d := by
  have hopen : ∀ (ctx : LibinputContext F D) nodes fd td,
      (ctx.openAll nodes).1.tracked fd = some td → ctx.tracked fd = some td ∨
        (td.heldKeys = [] ∧ ctx.devices.length ≤ td.libDevice) := by
    intro ctx nodes fd td ht
    rcases openAll_entry nodes ctx fd with hsame | ⟨_,td',hnew,hkeys,hd⟩
    · exact .inl (hsame.symm.trans ht)
    · obtain rfl := Option.some.inj (hnew.symm.trans ht)
      exact .inr ⟨hkeys,hd⟩
  cases c with
  | assignSeat seatName nodes => exact ⟨hopen _ nodes,produced_openAll_added _ nodes⟩
  | addDevice path r =>
    refine ⟨hopen ctx [(path,r)],fun e he => ?_⟩
    change e ∈ produced (ctx.tryOpen path r).2 at he
    rcases produced_tryOpen ctx path r with ⟨_,h⟩ | ⟨_,h⟩
    · rw [h] at he
      cases he
    · rw [h] at he
      exact ⟨_,List.mem_singleton.mp he⟩
  | removeDevice d => exact ⟨fun fd td ht => .inl ht,List.forall_mem_nil _⟩
  | dispatch inp => exact absurd rfl (hc inp)
  | getEvent =>
    unfold call libinputGetEvent
    cases ctx.eventQueue with
    | nil => exact ⟨fun fd td ht => .inl ht,List.forall_mem_nil _⟩
    | cons e rest => exact ⟨fun fd td ht => .inl ht,List.forall_mem_nil _⟩
  | nextEventType => exact ⟨fun fd td ht => .inl ht,List.forall_mem_nil _⟩
  | configure d c => exact ⟨fun fd td ht => .inl ht,List.forall_mem_nil _⟩

/-- Every call. -/
theorem KeyKnown.call (hw : ctx.view.WellFormed) (h : KeyKnown d code moments ctx) (c : Call D)
    (hstrokes : StrokesAlternate code (eventsRead moments ++ ctx.fetchedBy d c)) :
    KeyKnown d code (moments ++ ctx.keyMoments d code c) (ctx.call c).1 := by
  by_cases hc : ∃ inp, c = .dispatch inp
  · obtain ⟨inp,rfl⟩ := hc
    have hdispatch := h.dispatch hw inp hstrokes
    exact ⟨hdispatch.unallocated,hdispatch.knows,hdispatch.punctual⟩
  · have hother : ∀ inp, c ≠ .dispatch inp := fun inp heq => hc ⟨inp,heq⟩
    have hnone : ctx.keyMoments d code c = [] := by
      cases c with
      | dispatch inp => exact absurd rfl (hother inp)
      | _ => rfl
    rw [hnone,List.append_nil]
    exact h.opened (call_turns ctx c).ticks.devices_le (call_of_other ctx hother).1

/-- The events in the history of a key are those that are fetched for its device. -/
theorem eventsRead_keyHistory (d : DevicePtr) (code : ℕ) (ctx : LibinputContext F D)
    (calls : List (Call D)) :
    eventsRead (keyHistory d code ctx calls) = fetched d ctx calls := by
  have hcall : ∀ (ctx : LibinputContext F D) c,
      eventsRead (ctx.keyMoments d code c) = ctx.fetchedBy d c := by
    intro ctx c
    cases c with
    | dispatch inp =>
      rw [keyMoments,eventsRead_append,eventsRead_repeated,eventsRead_read,List.nil_append]
    | _ => rfl
  induction calls generalizing ctx with
  | nil => rfl
  | cons c calls ih =>
    have hrest := ih (ctx.call c).1
    unfold keyHistory fetched at *
    rw [run_cons,run_cons,eventsRead_append,hcall,hrest]

/-- The strokes of the calls before alternate too. -/
theorem strokesAlternate_front {front back : List (Call D)}
    (h : StrokesAlternate code (fetched d ctx (front ++ back))) :
    StrokesAlternate code (fetched d ctx front) := by
  rw [fetched,run_append] at h
  exact h.of_append

/-- After every run of a new context the key is known. -/
theorem keyKnown (interface : LibinputInterface) (inotify : Bool) {calls : List (Call D)}
    (hstrokes : StrokesAlternate code (fetched d (new (F := F) interface inotify) calls)) :
    KeyKnown d code (keyHistory d code (new (F := F) interface inotify) calls)
      ((new (F := F) interface inotify).runCalls calls).1 := by
  induction calls using List.reverseRecOn with
  | nil =>
    refine ⟨fun _ => rfl,fun fd td ht => ?_,allPunctual_nil⟩
    cases ht
  | append_singleton calls c ih =>
    have hstate : (run (fun (ctx : LibinputContext F D) c => ((ctx.call c).1,
        ctx.keyMoments d code c)) (new interface inotify) calls).1 =
          ((new (F := F) interface inotify).runCalls calls).1 := run_state call _ _ calls
    have hread : (run (fun (ctx : LibinputContext F D) c => ((ctx.call c).1,ctx.fetchedBy d c))
        (new interface inotify) calls).1 = ((new (F := F) interface inotify).runCalls calls).1 :=
      run_state call _ _ calls
    have hlast : StrokesAlternate code (eventsRead (keyHistory d code
        (new (F := F) interface inotify) calls) ++
          ((new (F := F) interface inotify).runCalls calls).1.fetchedBy d c) := by
      rw [fetched,run_append,run_singleton,hread] at hstrokes
      rw [eventsRead_keyHistory]
      exact hstrokes
    have hnext := (ih (strokesAlternate_front hstrokes)).call
      (runCalls_wellFormed interface inotify calls) c hlast
    rw [runCalls,run_append,run_singleton,keyHistory,run_append,run_singleton,hstate]
    exact hnext

/-- A dispatch repeats a key of a keyboard once that is down and due. -/
theorem KeyKnown.repeated (hw : ctx.view.WellFormed) (h : KeyKnown d code moments ctx)
    (inp : Dispatch) {fd : RawFd} {td : TrackedDevice F D} (ht : ctx.tracked fd = some td)
    (hd : td.libDevice = d) (hplain : td.IsPlainKeyboard) {hold : Hold}
    (hhold : holdAfter code moments = some hold) :
    (repeatsOf d code (ctx.drainIntoQueue inp).2).length =
      if hold.nextRepeat ≤ inp.now then 1 else 0 := by
  have hknows := h.knows fd td ht hd hplain
  rw [hhold] at hknows
  subst hd
  rw [(drainIntoQueue_at hw inp (handleHotplug_kept ctx inp.inotify ht) code).1]
  exact (hknows.repeated hplain.1 inp.now).1

/-- A dispatch repeats no key of a device that is no plain keyboard. -/
theorem not_repeated_of_not_plain (hw : ctx.view.WellFormed) (inp : Dispatch) {fd : RawFd}
    {td : TrackedDevice F D} (ht : (ctx.handleHotplug inp.inotify).1.tracked fd = some td)
    (hplain : ¬ td.IsPlainKeyboard) (code : ℕ) :
    repeatsOf td.libDevice code (ctx.drainIntoQueue inp).2 = [] := by
  have hplug := handleHotplug_wellFormed hw inp.inotify
  rw [(drainIntoQueue_at hw inp ht code).1,
    TrackedDevice.emitKeyRepeats_of_not_plain hplain (hplug.noKeys fd td ht)]
  rfl

/-- A dispatch repeats no key that is up. -/
theorem KeyKnown.not_repeated (hw : ctx.view.WellFormed) (h : KeyKnown d code moments ctx)
    (inp : Dispatch) (hup : holdAfter code moments = none) :
    repeatsOf d code (ctx.drainIntoQueue inp).2 = [] := by
  by_cases htracks : ∃ a td, (ctx.handleHotplug inp.inotify).1.tracked a = some td ∧
      td.libDevice = d
  · obtain ⟨a,td,ht,rfl⟩ := htracks
    by_cases hplain : td.IsPlainKeyboard
    · have hknows := (h.hotplug inp.inotify).knows a td ht rfl hplain
      rw [hup] at hknows
      rw [(drainIntoQueue_at hw inp ht code).1]
      exact (hknows.not_repeated hplain.1 inp.now).1
    · exact not_repeated_of_not_plain hw inp ht hplain code
  · exact (drainIntoQueue_absent (fun fd td ht hd => htracks ⟨fd,td,ht,hd⟩) code).1

/-- A dispatch repeats no key of a device that was not there before it. -/
theorem not_repeated_of_absent (hw : ctx.view.WellFormed) (inp : Dispatch)
    (hnot : ¬ ctx.view.Tracks d) (code : ℕ) : repeatsOf d code (ctx.drainIntoQueue inp).2 = [] := by
  by_cases htracks : ∃ a td, (ctx.handleHotplug inp.inotify).1.tracked a = some td ∧
      td.libDevice = d
  · obtain ⟨a,td,ht,rfl⟩ := htracks
    rcases handleHotplug_entry ctx inp.inotify a with hsame | ⟨_,td',hnew,hkeys,_⟩
    · exact absurd ⟨a,td,hsame.symm.trans ht,rfl⟩ hnot
    · obtain rfl := Option.some.inj (hnew.symm.trans ht)
      rw [(drainIntoQueue_at hw inp ht code).1,emitKeyRepeats_of_noKeys inp.now td' hkeys]
      rfl
  · exact (drainIntoQueue_absent (fun fd td ht hd => htracks ⟨fd,td,ht,hd⟩) code).1

end Schedule

/-- The schedule of the repeats in every run of a new context, for every key of every device. -/
theorem repeats_on_schedule (interface : LibinputInterface) (inotify : Bool)
    (calls : List (Call D)) (d : DevicePtr) (code : ℕ)
    (hstrokes : StrokesAlternate code (fetched d (new (F := F) interface inotify) calls)) :
    KeepsSchedule d code (new (F := F) interface inotify) calls := by
  have hknown : ∀ front c back, calls = front ++ c :: back →
      KeyKnown d code (keyHistory d code (new (F := F) interface inotify) front)
        ((new (F := F) interface inotify).runCalls front).1 := by
    rintro front c back rfl
    exact keyKnown interface inotify (strokesAlternate_front hstrokes)
  have hwell := runCalls_wellFormed (F := F) (D := D) interface inotify
  have hother : ∀ (ctx : LibinputContext F D) c, (∀ inp, c ≠ .dispatch inp) →
      repeatsOf d code (ctx.call c).2 = [] :=
    fun ctx c hc => repeatsOf_added (call_of_other ctx hc).2 d code
  have hcall : ∀ (ctx : LibinputContext F D) c,
      (∀ inp, repeatsOf d code (ctx.drainIntoQueue inp).2 = []) →
        repeatsOf d code (ctx.call c).2 = [] := by
    intro ctx c hdispatch
    by_cases hc : ∃ inp, c = .dispatch inp
    · obtain ⟨inp,rfl⟩ := hc
      exact hdispatch inp
    · exact hother ctx c fun inp heq => hc ⟨inp,heq⟩
  constructor
  · rintro front c back hsplit inp fd td hold rfl ht hd hplain hhold
    exact (hknown front _ back hsplit).repeated (hwell front) inp ht hd hplain hhold
  · intro front c back hsplit hup
    exact hcall _ c fun inp => (hknown front c back hsplit).not_repeated (hwell front) inp hup
  · intro front c back _ hnot
    exact hcall _ c fun inp => not_repeated_of_absent (hwell front) inp hnot code
  · rintro front c back _ fd td ht rfl hplain
    exact hcall _ c fun inp => not_repeated_of_not_plain (hwell front) inp
      (handleHotplug_kept _ inp.inotify ht) hplain code
  · exact fun front c back _ hc => hother _ c hc
  · intro before hbefore hold hhold
    have hpunctual := (keyKnown interface inotify hstrokes).punctual before hbefore hold hhold
    exact ⟨hpunctual.delay_le,hpunctual.count_le (by decide)⟩

/-- A is held through three dispatches, the second of them too early for a repeat. -/
def holdOfA : List (Call ℚ) :=
  let reads (events : List TimedEvent) (now : Instant) : Call ℚ :=
    .dispatch ⟨none,now,[],fun fd => if fd = 5 then .batch events else .wouldBlock⟩
  [.addDevice "/dev/input/event3" ⟨5,some plainKeyboard⟩,
    reads [⟨⟨1,.key,KeyCode.keyA,1⟩,0⟩] 0,reads [] (fromMillis 200),reads [] (fromMillis 210),
    reads [⟨⟨2,.key,KeyCode.keyA,0⟩,fromMillis 226⟩] (fromMillis 225)]

theorem held_key_on_schedule :
    KeepsSchedule 0 KeyCode.keyA (new (F := ℚ) ⟨true,true⟩ false) holdOfA :=
  repeats_on_schedule _ _ _ _ _ ⟨false,by decide +kernel⟩

example : keyHistory 0 KeyCode.keyA (new (F := ℚ) ⟨true,true⟩ false) holdOfA =
    [.read ⟨⟨1,.key,KeyCode.keyA,1⟩,0⟩,.repeated (fromMillis 200),.repeated (fromMillis 225),
      .read ⟨⟨2,.key,KeyCode.keyA,0⟩,fromMillis 226⟩] := by
  decide +kernel

end LibinputContext
end LibinputRs
