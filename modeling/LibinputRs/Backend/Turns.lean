import LibinputRs.Backend.World

/-! What happens to a context with its settings, its device objects and its typing time. Every
call is a sequence of turns, and every turn is a sequence of ticks of the world the context
shows. -/
namespace LibinputRs
open Automata

variable {F D : Type}

/-- What the opened node decides about its device object. -/
def LibinputDevice.capabilities (dev : LibinputDevice F D) : Bool × Bool × Bool × Bool :=
  (dev.hasKeyboard,dev.hasPointer,dev.hasTouch,dev.hasGesture)

/-- Every device object is still in its place, with the same capabilities. -/
def LibinputContext.KeepsDevices (ctx ctx' : LibinputContext F D) : Prop :=
  ∀ (d : DevicePtr) (dev : LibinputDevice F D), ctx.devices[d]? = some dev →
    ∃ dev' : LibinputDevice F D, ctx'.devices[d]? = some dev' ∧ dev'.capabilities = dev.capabilities

namespace LibinputContext.KeepsDevices
variable {ctx ctx' : LibinputContext F D}

theorem of_eq (h : ctx'.devices = ctx.devices) : ctx.KeepsDevices ctx' :=
  fun _ dev hdev => ⟨dev,h ▸ hdev,rfl⟩

theorem push {dev : LibinputDevice F D} (h : ctx'.devices = ctx.devices ++ [dev]) :
    ctx.KeepsDevices ctx' := by
  intro d dev' hdev
  refine ⟨dev',?_,rfl⟩
  rw [h,List.getElem?_append_left (List.getElem?_eq_some_iff.mp hdev).1,hdev]

theorem modify {d : DevicePtr} {f : LibinputDevice F D → LibinputDevice F D}
    (hf : ∀ dev, (f dev).capabilities = dev.capabilities)
    (h : ctx'.devices = ctx.devices.modify d f) : ctx.KeepsDevices ctx' := by
  intro d' dev hdev
  by_cases hd : d = d'
  · exact ⟨f dev,by simp [h,hdev,hd],hf dev⟩
  · exact ⟨dev,by simp [h,hdev,hd],rfl⟩

end LibinputContext.KeepsDevices

variable [F32 F] [F64 D] [FloatCast F D]

/-- One thing that happens to a context. A kernel event is processed under the current settings
and, for a touchpad, the current typing time; the client may change settings and take events. -/
inductive Turn : LibinputContext F D → List (Obs F D) → LibinputContext F D → Prop
  | probeFailed (ctx) (fd : RawFd) (h : ctx.interface.openRestricted = true) :
      Turn ctx (.fd (.opened fd) :: .fd (.dropped fd) :: ctx.view.closed fd) ctx
  | filtered (ctx) (fd : RawFd) (device : EvdevDevice) (h : passesFilters device = false) :
      Turn ctx (ctx.view.opened fd ++ [.fd (.dropped fd)]) ctx
  | alreadyTracked (ctx) (fd : RawFd) (device : EvdevDevice) (path : PathBuf)
      (h : passesFilters device = true) (ht : (ctx.tracked fd).isSome) :
      Turn ctx (ctx.view.opened fd ++ [.fd (.dropped fd)])
        { ctx with devices := ctx.devices ++ [.ofEvdev device path] }
  | admitted (ctx) (fd : RawFd) (device : EvdevDevice) (path : PathBuf)
      (h : passesFilters device = true) (ht : ctx.tracked fd = none) :
      Turn ctx (ctx.view.opened fd ++ [.fd (.epollAdd fd),.queued (.added ctx.devices.length)])
        (({ ctx with devices := ctx.devices ++ [.ofEvdev device path] } :
          LibinputContext F D).setTracked fd (.new device path ctx.devices.length))
  | repeats (ctx) (fd : RawFd) (td : TrackedDevice F D) (now : Instant)
      (ht : ctx.tracked fd = some td) :
      Turn ctx ((td.emitKeyRepeats now).2.map .queued) (ctx.setTracked fd (td.emitKeyRepeats now).1)
  | event (ctx) (fd : RawFd) (td : TrackedDevice F D) (typing : Option Instant) (te : TimedEvent)
      (ht : ctx.tracked fd = some td)
      (htyping : td.isAbsolute = true → typing = ctx.backend.globalTypingTime) :
      Turn ctx (TrackedDevice.observeEvent (ctx.settings td.libDevice) typing
          (td,ctx.backend.globalTypingTime) te).2
        ((ctx.setTracked fd (TrackedDevice.observeEvent (ctx.settings td.libDevice) typing
            (td,ctx.backend.globalTypingTime) te).1.1).setTyping
          (TrackedDevice.observeEvent (ctx.settings td.libDevice) typing
            (td,ctx.backend.globalTypingTime) te).1.2)
  | removed (ctx) (fd : RawFd) (td : TrackedDevice F D) (ht : ctx.tracked fd = some td) :
      Turn ctx (.fd (.epollDel fd) :: ctx.view.closed fd ++
        [.queued (.removed td.libDevice),.fd (.dropped fd)]) (ctx.eraseTracked fd)
  | client (ctx ctx') (o : List (Obs F D)) (ho : o = [] ∨ ∃ e, o = [.delivered e])
      (hview : ctx'.view = ctx.view)
      (htyping : ctx'.backend.globalTypingTime = ctx.backend.globalTypingTime)
      (hdevices : ctx.KeepsDevices ctx') : Turn ctx o ctx'

/-- Sequences of turns. -/
abbrev Turns : LibinputContext F D → List (Obs F D) → LibinputContext F D → Prop := Steps Turn

open LibinputContext

/-- The world sees a turn as a tick, or does not see it. -/
theorem Turn.ticks {ctx ctx' : LibinputContext F D} {o : List (Obs F D)} (h : Turn ctx o ctx') :
    Ticks ctx.view o ctx'.view := by
  cases h with
  | probeFailed fd h => exact .single (.probeFailed ctx.view fd h)
  | filtered fd device h => exact .single (.filtered ctx.view fd device h)
  | alreadyTracked fd device path h ht =>
    rw [view_pushDevice]
    exact .single (.alreadyTracked ctx.view fd device h ht)
  | admitted fd device path h ht =>
    rw [view_setTracked,view_pushDevice]
    exact .single (.admitted ctx.view fd device path h ht)
  | repeats fd td now ht =>
    rw [view_setTracked]
    exact .single (.repeats ctx.view fd td now ht)
  | event fd td typing te ht htyping =>
    rw [view_setTyping,view_setTracked]
    exact .single (.event ctx.view fd td _ typing _ te ht)
  | removed fd td ht =>
    rw [view_eraseTracked]
    exact .single (.removed ctx.view fd td ht)
  | client _ _ ho hview htyping hdevices =>
    rw [hview]
    rcases ho with rfl | ⟨e,rfl⟩
    · exact .refl _
    · exact .single (.delivered ctx.view e)

theorem Turns.ticks {ctx ctx' : LibinputContext F D} {o : List (Obs F D)} (h : Turns ctx o ctx') :
    Ticks ctx.view o ctx'.view := by
  induction h with
  | refl => exact .refl _
  | tail _ last ih => exact ih.trans last.ticks

/-- What only the client sees does not end a sequence of turns. -/
theorem Turns.quiet {ctx ctx' ctx'' : LibinputContext F D} {o : List (Obs F D)} (h : Turns ctx o ctx')
    (hview : ctx''.view = ctx'.view)
    (htyping : ctx''.backend.globalTypingTime = ctx'.backend.globalTypingTime)
    (hdevices : ctx'.KeepsDevices ctx'') : Turns ctx o ctx'' := by
  simpa using h.tail (.client ctx' ctx'' [] (.inl rfl) hview htyping hdevices)

namespace LibinputContext

theorem openProbed_turns (ctx : LibinputContext F D) (path : PathBuf) (fd : RawFd)
    (device : EvdevDevice) :
    Turns ctx (ctx.view.opened fd ++ (ctx.openProbed path fd device).2)
      (ctx.openProbed path fd device).1 := by
  rcases openProbed_cases ctx path fd device with ⟨hpass,h⟩ | ⟨hpass,ht,h⟩ | ⟨hpass,ht,h⟩
  · rw [h]
    exact .single (.filtered ctx fd device hpass)
  · rw [h]
    exact .single (.alreadyTracked ctx fd device path hpass ht)
  · rw [h]
    exact .single (.admitted ctx fd device path hpass ht)

theorem tryOpen_turns (ctx : LibinputContext F D) (path : PathBuf) (r : OpenResult) :
    Turns ctx (ctx.tryOpen path r).2 (ctx.tryOpen path r).1 := by
  rcases tryOpen_cases ctx path r with ⟨_,h⟩ | ⟨_,hcb,h⟩ | ⟨device,_,_,h⟩
  · rw [h]
    exact .refl _
  · rw [h]
    exact .single (.probeFailed ctx r.rawFd hcb)
  · rw [h]
    exact openProbed_turns ctx path r.rawFd device

/-- A loop over contexts whose rounds are made of turns is made of turns. -/
theorem run_turns {σ ι : Type*} (context : σ → LibinputContext F D)
    {f : σ → ι → σ × List (Obs F D)}
    (hstep : ∀ s i, Turns (context s) (f s i).2 (context (f s i).1)) (s : σ) (is : List ι) :
    Turns (context s) (run f s is).2 (context (run f s is).1) := by
  induction is generalizing s with
  | nil => exact .refl _
  | cons i is ih => exact (hstep s i).trans (ih _)

theorem openAll_turns (ctx : LibinputContext F D) (nodes : List (PathBuf × OpenResult)) :
    Turns ctx (ctx.openAll nodes).2 (ctx.openAll nodes).1 :=
  run_turns id (f := fun ctx (node : PathBuf × OpenResult) => ctx.tryOpen node.1 node.2)
    (fun ctx node => tryOpen_turns ctx node.1 node.2) ctx nodes

theorem handleHotplug_turns (ctx : LibinputContext F D) (inotify : Option (List InotifyEvent)) :
    Turns ctx (ctx.handleHotplug inotify).2 (ctx.handleHotplug inotify).1 := by
  unfold handleHotplug
  split_ifs
  · cases inotify with
    | none => exact .refl _
    | some ievents => exact openAll_turns ctx _
  · exact .refl _

theorem repeatDevice_turns (now : Instant) (ctx : LibinputContext F D) (fd : RawFd) :
    Turns ctx (repeatDevice now ctx fd).2 (repeatDevice now ctx fd).1 := by
  unfold repeatDevice
  cases htd : ctx.tracked fd with
  | none => exact .refl _
  | some td => exact .single (.repeats ctx fd td now htd)

/-- A touchpad leaves the typing time alone and stays a touchpad. -/
theorem observeEvent_absolute (cfg : Settings F) (typing live : Option Instant)
    (td : TrackedDevice F D) (te : TimedEvent)
    (h : (TrackedDevice.observeEvent cfg typing (td,live) te).1.1.isAbsolute = true) :
    td.isAbsolute = true ∧ (TrackedDevice.observeEvent cfg typing (td,live) te).1.2 = live := by
  have hid := TrackedDevice.processEvent_identity cfg typing (td,live) te
  have habs : td.isAbsolute = true := (congrArg (·.2.2.1) hid).symm.trans h
  refine ⟨habs,?_⟩
  change (TrackedDevice.processEvent cfg typing (td,live) te).1.2 = live
  rcases TrackedDevice.processEvent_cases cfg typing (td,live) te with
    ⟨_,hplain,_⟩ | ⟨_,hplain,_,_⟩ | ⟨_,dwt,_,h⟩ | ⟨_,hplain,_,_⟩
  · simp [habs] at hplain
  · simp [habs] at hplain
  · rw [h]
  · simp [habs] at hplain

omit [F32 F] [F64 D] [FloatCast F D] in
theorem setTracked_overwrite (ctx : LibinputContext F D) (fd : RawFd) (td td' : TrackedDevice F D)
    (t t' : Option Instant) : (((ctx.setTracked fd td).setTyping t).setTracked fd td').setTyping t' =
      (ctx.setTracked fd td').setTyping t' := by
  simp [setTracked,setTyping,AList.insert_insert]

/-- A batch is a sequence of events of the device it was read from. -/
theorem batch_turns (typing : Option Instant) (fd : RawFd) (events : List TimedEvent)
    (ctx : LibinputContext F D) (td : TrackedDevice F D) (ht : ctx.tracked fd = some td)
    (htyping : td.isAbsolute = true → typing = ctx.backend.globalTypingTime) :
    Turns ctx (run (TrackedDevice.observeEvent (ctx.settings td.libDevice) typing)
        (td,ctx.backend.globalTypingTime) events).2
      ((ctx.setTracked fd (run (TrackedDevice.observeEvent (ctx.settings td.libDevice) typing)
          (td,ctx.backend.globalTypingTime) events).1.1).setTyping
        (run (TrackedDevice.observeEvent (ctx.settings td.libDevice) typing)
          (td,ctx.backend.globalTypingTime) events).1.2) := by
  induction events generalizing ctx td with
  | nil =>
    refine Turns.quiet (.refl ctx) ?_ rfl (.of_eq rfl)
    rw [run_nil,view_setTyping,view_setTracked]
    exact World.set_eq_self ht
  | cons te events ih =>
    have hfirst := Turn.event ctx fd td typing te ht htyping
    have hid : (TrackedDevice.observeEvent (ctx.settings td.libDevice) typing
        (td,ctx.backend.globalTypingTime) te).1.1.libDevice = td.libDevice :=
      TrackedDevice.libDevice_of_identity (TrackedDevice.processEvent_identity ..)
    have hrest := ih ((ctx.setTracked fd _).setTyping _)
      (TrackedDevice.observeEvent (ctx.settings td.libDevice) typing
        (td,ctx.backend.globalTypingTime) te).1.1 (AList.lookup_insert _) fun habs => by
        obtain ⟨habs',hlive⟩ := observeEvent_absolute _ _ _ _ _ habs
        exact (htyping habs').trans hlive.symm
    rw [setTracked_overwrite,hid] at hrest
    exact (Steps.single hfirst).trans hrest

theorem drainDevice_turns (fetch : RawFd → Fetch) (s : LibinputContext F D × List RawFd)
    (fd : RawFd) : Turns s.1 (drainDevice fetch s fd).2 (drainDevice fetch s fd).1.1 := by
  unfold drainDevice
  cases htd : s.1.tracked fd with
  | none => exact .refl _
  | some td =>
    cases fetch fd with
    | batch events => exact batch_turns _ fd events s.1 td htd fun _ => rfl
    | wouldBlock => exact .refl _
    | gone => exact .refl _
    | failed => exact .refl _

theorem removeDead_turns (ctx : LibinputContext F D) (fd : RawFd) :
    Turns ctx (ctx.removeDead fd).2 (ctx.removeDead fd).1 := by
  unfold removeDead
  cases htd : ctx.tracked fd with
  | none => exact .refl _
  | some td => exact .single (.removed ctx fd td htd)

theorem drainIntoQueue_turns (ctx : LibinputContext F D) (inp : Dispatch) :
    Turns ctx (ctx.drainIntoQueue inp).2 (ctx.drainIntoQueue inp).1 := by
  unfold drainIntoQueue
  extract_lets hotplug fds repeats events removals
  have hhotplug : Turns ctx hotplug.2 hotplug.1 := handleHotplug_turns ctx inp.inotify
  have hrepeats : Turns hotplug.1 repeats.2 repeats.1 :=
    run_turns id (repeatDevice_turns inp.now) hotplug.1 fds
  have hevents : Turns repeats.1 events.2 events.1.1 :=
    run_turns Prod.fst (drainDevice_turns inp.fetch) (repeats.1,[]) fds
  have hremovals : Turns events.1.1 removals.2 removals.1 :=
    run_turns id removeDead_turns events.1.1 events.1.2
  exact ((hhotplug.trans hrepeats).trans hevents).trans hremovals

/-- Every call is a sequence of turns. -/
theorem call_turns (ctx : LibinputContext F D) (c : Call D) :
    Turns ctx (ctx.call c).2 (ctx.call c).1 := by
  have hview : ∀ {devices : List (LibinputDevice F D)}, devices.length = ctx.devices.length →
      LibinputContext.view { ctx with devices := devices } = ctx.view := fun hlength =>
    congrArg (World.mk ctx.interface ctx.refcount ctx.backend.inotify ctx.tracked) hlength
  cases c with
  | assignSeat seatName nodes =>
    have hseat : Turns ctx [] { ctx with seat := { ctx.seat with logicalName := seatName } } :=
      Turns.quiet (.refl ctx) rfl rfl (.of_eq rfl)
    exact Turns.quiet (hseat.trans (openAll_turns _ nodes)) rfl rfl (.of_eq rfl)
  | addDevice path r => exact (tryOpen_turns ctx path r).quiet rfl rfl (.of_eq rfl)
  | removeDevice d =>
    exact Turns.quiet (.refl ctx) (hview (by simp)) rfl
      (.modify (f := fun dev => { dev with name := "" }) (fun _ => rfl) rfl)
  | dispatch inp => exact (drainIntoQueue_turns ctx inp).quiet rfl rfl (.of_eq rfl)
  | getEvent =>
    unfold call libinputGetEvent
    cases ctx.eventQueue with
    | nil => exact .refl _
    | cons e rest =>
      exact .single (.client ctx _ [.delivered e] (.inr ⟨e,rfl⟩) rfl rfl (.of_eq rfl))
  | nextEventType => exact .refl _
  | configure d c =>
    refine Turns.quiet (.refl ctx) (hview (by simp)) rfl (.modify (fun dev => ?_) rfl)
    cases c <;> rfl

/-- Every run of calls is a sequence of turns. -/
theorem runCalls_turns (ctx : LibinputContext F D) (calls : List (Call D)) :
    Turns ctx (ctx.runCalls calls).2 (ctx.runCalls calls).1 :=
  run_turns id call_turns ctx calls

/-- Every run of calls is a sequence of ticks. -/
theorem runCalls_ticks (ctx : LibinputContext F D) (calls : List (Call D)) :
    Ticks ctx.view (ctx.runCalls calls).2 (ctx.runCalls calls).1.view :=
  (runCalls_turns ctx calls).ticks

end LibinputContext
end LibinputRs
