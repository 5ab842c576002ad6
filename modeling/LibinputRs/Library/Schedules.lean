import LibinputRs.Automata.Records
import LibinputRs.Backend.TouchpadClock
import LibinputRs.Library.MapOrder

/-! The same kernel events under different schedules of dispatches. Whatever the batches, a
touchpad and the typing time behave as a machine that reads one event after the other; the
clock enters it only through the verdicts on the three windows. -/
namespace LibinputRs
open Automata

variable {F D : Type}

/-- A kernel event read from a device, with the clock when it was processed. -/
structure Reading where
  device : DevicePtr
  event : TimedEvent
  deriving DecidableEq, Repr

def Obs.reading : Obs F D → Option Reading
  | .processed p => some ⟨p.device,p.event⟩
  | _ => none

/-- What was read, in the order in which it was processed. -/
def readings (l : List (Obs F D)) : List Reading := l.filterMap Obs.reading

/-- The input events queued for a device. -/
def inputsOf (d : DevicePtr) (l : List (Obs F D)) : List (LibinputEvent D) :=
  (eventsOf d (produced l)).filter LibinputEvent.isInput

theorem inputsOf_append (d : DevicePtr) (l m : List (Obs F D)) :
    inputsOf d (l ++ m) = inputsOf d l ++ inputsOf d m := by
  simp [inputsOf]

variable [F32 F] [F64 D] [FloatCast F D]

/-- A touchpad and the typing time, reading one event: the touchpad's own are processed, the
presses of the keyboards set the typing time. -/
def readStep (cfg : Settings F) (d : DevicePtr) (keyboard : DevicePtr → Bool)
    (s : TrackedDevice F D × Option Instant) (r : Reading) :
    (TrackedDevice F D × Option Instant) × List (LibinputEvent D) :=
  if r.device = d then
    match s.1.processAbsoluteEvent r.event cfg.cfgTap cfg.cfgNat cfg.cfgAccel
      (dwtActive cfg.cfgDwt s.2 r.event.now) with
    | (td,out) => ((td,s.2),out)
  else if keyboard r.device = true ∧ r.event.IsPress then ((s.1,some r.event.now),[])
  else (s,[])

namespace LibinputContext

/-- The plain keyboards among the tracked devices. -/
def keyboard (ctx : LibinputContext F D) (d : DevicePtr) : Bool :=
  ctx.backend.devices.entries.any fun e =>
    decide (e.2.libDevice = d) && (e.2.isKeyboard && !e.2.isAbsolute)

/-- A schedule of dispatches that find no hotplug. -/
def readAll (ctx : LibinputContext F D) (schedule : List Dispatch) :
    LibinputContext F D × List (Obs F D) :=
  run (fun ctx inp => ctx.call (.dispatch { inp with inotify := none })) ctx schedule

omit [F32 F] [F64 D] [FloatCast F D] in
/-- In a well-formed context a device is a keyboard by its own flags. -/
theorem keyboard_eq {ctx : LibinputContext F D} (hw : ctx.view.WellFormed) {fd : RawFd}
    {td : TrackedDevice F D} (ht : ctx.tracked fd = some td) :
    ctx.keyboard td.libDevice = (td.isKeyboard && !td.isAbsolute) := by
  have hlookup : ∀ e ∈ ctx.backend.devices.entries, ctx.tracked e.1 = some e.2 :=
    fun e he => AList.mem_lookup_iff.mpr he
  have hmem : ⟨fd,td⟩ ∈ ctx.backend.devices.entries := AList.mem_lookup_iff.mp ht
  unfold keyboard
  rw [Bool.eq_iff_iff,List.any_eq_true]
  constructor
  · rintro ⟨e,he,heq⟩
    rw [Bool.and_eq_true,decide_eq_true_eq] at heq
    obtain rfl : e.1 = fd := hw.distinct e.1 fd e.2 td (hlookup e he) ht heq.1
    obtain rfl := Option.some.inj ((hlookup e he).symm.trans ht)
    exact heq.2
  · intro hkbd
    exact ⟨⟨fd,td⟩,hmem,by rw [Bool.and_eq_true,decide_eq_true_eq]; exact ⟨rfl,hkbd⟩⟩

/-- The part of a context that the reading machine follows: nothing but the tracked state has
changed, and the touchpad and the typing time are those of the machine. -/
structure Follows (ctx₀ : LibinputContext F D) (d : DevicePtr) (ctx : LibinputContext F D)
    (s : TrackedDevice F D × Option Instant) : Prop where
  shrinks : DeviceTable.Shrinks ctx₀.tracked ctx.tracked
  devices : ctx.devices = ctx₀.devices
  typing : ctx.backend.globalTypingTime = s.2
  touchpad : ∀ fd td, ctx.tracked fd = some td → td.libDevice = d → td = s.1
  pointer : s.1.libDevice = d
  absolute : s.1.isAbsolute = true
  noKeys : s.1.heldKeys = []

section Phases
variable {ctx₀ ctx : LibinputContext F D} {d : DevicePtr} {s : TrackedDevice F D × Option Instant}

/-- The machine of a context, for one of its devices, explains what was read and queued. -/
def Explains (ctx₀ : LibinputContext F D) (d : DevicePtr)
    (s : TrackedDevice F D × Option Instant) (out : List (Obs F D))
    (s' : TrackedDevice F D × Option Instant) : Prop :=
  Observes (readStep (ctx₀.settings d) d ctx₀.keyboard) Obs.reading (inputsOf d) s out s'

omit [F32 F] [F64 D] [FloatCast F D] in
theorem Follows.set (h : Follows ctx₀ d ctx s) {fd : RawFd} {td td' : TrackedDevice F D}
    (ht : ctx.tracked fd = some td) (hid : td'.identity = td.identity)
    (htd : td.libDevice = d → td' = s.1) : Follows ctx₀ d (ctx.setTracked fd td') s where
  shrinks := by
    rw [setTracked_tracked]
    exact h.shrinks.trans (.update ht hid)
  devices := h.devices
  typing := h.typing
  touchpad fd₁ td₁ h₁ hd := by
    rw [setTracked_tracked] at h₁
    rcases DeviceTable.update_cases h₁ with ⟨_,heq⟩ | ⟨_,h₁⟩
    · obtain rfl := Option.some.inj heq
      exact htd ((TrackedDevice.libDevice_of_identity hid).symm.trans hd)
    · exact h.touchpad fd₁ td₁ h₁ hd
  pointer := h.pointer
  absolute := h.absolute
  noKeys := h.noKeys

theorem repeatDevice_explained (now : Instant) (h : Follows ctx₀ d ctx s) (fd : RawFd) :
    ∃ s', Explains ctx₀ d s (repeatDevice now ctx fd).2 s' ∧
      Follows ctx₀ d (repeatDevice now ctx fd).1 s' := by
  refine ⟨s,?_⟩
  unfold repeatDevice
  cases ht : ctx.tracked fd with
  | none => exact ⟨.silent rfl rfl,h⟩
  | some td =>
    have hown : td.libDevice = d → td.emitKeyRepeats (D := D) now = (td,[]) := by
      intro hd
      refine emitKeyRepeats_of_noKeys now td ?_
      rw [h.touchpad fd td ht hd]
      exact h.noKeys
    refine ⟨.silent ?_ ?_,h.set ht (td.emitKeyRepeats_identity now) fun hd => ?_⟩
    · simp [List.filterMap_map,Function.comp_def,Obs.reading]
    · have hnil : eventsOf d (td.emitKeyRepeats (D := D) now).2 = [] := by
        by_cases hd : td.libDevice = d
        · rw [hown hd]
          rfl
        · refine eventsOf_eq_nil (fun e he => ?_) hd
          obtain ⟨hk,_,rfl⟩ := td.emitKeyRepeats_out now e he
          rfl
      rw [inputsOf,produced_map_queued,hnil]
      rfl
    · rw [hown hd]
      exact h.touchpad fd td ht hd

omit [F32 F] [F64 D] [FloatCast F D] in
theorem Follows.erase (h : Follows ctx₀ d ctx s) (fd : RawFd) :
    Follows ctx₀ d (ctx.eraseTracked fd) s where
  shrinks := by
    rw [eraseTracked_tracked]
    exact h.shrinks.trans (.erase ctx.tracked fd)
  devices := h.devices
  typing := h.typing
  touchpad fd₁ td₁ h₁ hd := by
    rw [eraseTracked_tracked] at h₁
    rcases DeviceTable.update_cases h₁ with ⟨_,heq⟩ | ⟨_,h₁⟩
    · cases heq
    · exact h.touchpad fd₁ td₁ h₁ hd
  pointer := h.pointer
  absolute := h.absolute
  noKeys := h.noKeys

theorem removeDead_explained (h : Follows ctx₀ d ctx s) (fd : RawFd) :
    ∃ s', Explains ctx₀ d s (ctx.removeDead fd).2 s' ∧ Follows ctx₀ d (ctx.removeDead fd).1 s' := by
  refine ⟨s,?_⟩
  unfold removeDead
  cases ctx.tracked fd with
  | none => exact ⟨.silent rfl rfl,h⟩
  | some td =>
    refine ⟨.silent ?_ ?_,h.erase fd⟩
    · dsimp only
      split_ifs <;> rfl
    · refine (congrArg (fun l => (eventsOf d l).filter LibinputEvent.isInput)
        (produced_removal ctx.view fd td.libDevice)).trans (List.filter_eq_nil_iff.mpr ?_)
      intro e he
      obtain rfl := List.mem_singleton.mp (List.mem_filter.mp he).1
      exact Bool.false_ne_true

theorem explains_processed {p : Processed F D} {s' : TrackedDevice F D × Option Instant}
    (h : readStep (ctx₀.settings d) d ctx₀.keyboard s ⟨p.device,p.event⟩ =
      (s',(eventsOf d p.out).filter LibinputEvent.isInput)) :
    Explains ctx₀ d s [.processed p] s' := by
  unfold Explains Observes
  change run _ s [(⟨p.device,p.event⟩ : Reading)] = (_,(eventsOf d (p.out ++ [])).filter _)
  rw [run_singleton,List.append_nil]
  exact h

/-- One event of the touchpad itself. -/
theorem ownEvent_explained (typing : Option Instant) (hpointer : s.1.libDevice = d)
    (habs : s.1.isAbsolute = true) (hlive : s.2 = typing) (te : TimedEvent) :
    Explains ctx₀ d s (TrackedDevice.observeEvent (ctx₀.settings d) typing s te).2
      (TrackedDevice.observeEvent (ctx₀.settings d) typing s te).1 := by
  have hown := TrackedDevice.processEvent_out (ctx₀.settings d) typing s te
  subst hpointer
  have hinputs : (eventsOf s.1.libDevice (TrackedDevice.processEvent
      (ctx₀.settings s.1.libDevice) typing s te).2).filter LibinputEvent.isInput =
      (TrackedDevice.processEvent (ctx₀.settings s.1.libDevice) typing s te).2 := by
    rw [eventsOf,List.filter_filter,List.filter_eq_self]
    intro e he
    simp [(hown e he).1,(hown e he).2]
  refine explains_processed (Eq.trans ?_ (congrArg (Prod.mk _) hinputs.symm))
  unfold readStep TrackedDevice.observeEvent TrackedDevice.processEvent
  simp [habs,hlive]

/-- One event of another device. -/
theorem otherEvent_explained (cfg : Settings F) (typing : Option Instant) {td : TrackedDevice F D}
    (hother : td.libDevice ≠ d)
    (hkbd : ctx₀.keyboard td.libDevice = (td.isKeyboard && !td.isAbsolute)) (te : TimedEvent) :
    Explains ctx₀ d s (TrackedDevice.observeEvent cfg typing (td,s.2) te).2
      (s.1,(TrackedDevice.observeEvent cfg typing (td,s.2) te).1.2) := by
  have hown := TrackedDevice.processEvent_out cfg typing (td,s.2) te
  have hnil : eventsOf d (TrackedDevice.processEvent cfg typing (td,s.2) te).2 = [] :=
    eventsOf_eq_nil (fun e he => (hown e he).1) hother
  have hcond : (ctx₀.keyboard td.libDevice = true ∧ te.IsPress) ↔
      ((td.isKeyboard = true ∧ td.isAbsolute = false) ∧ te.IsPress) := by simp [hkbd]
  refine explains_processed (Eq.trans ?_
    (congrArg (fun l => (_,l.filter LibinputEvent.isInput)) hnil.symm))
  unfold readStep
  rw [if_neg hother]
  simp only [hcond]
  rcases td.processEvent_typing cfg typing s.2 te with ⟨hpress,htime⟩ | ⟨hpress,htime⟩
  · rw [if_pos hpress]
    exact congrArg (fun t => ((s.1,t),[])) htime.symm
  · rw [if_neg hpress]
    exact congrArg (fun t => ((s.1,t),[])) htime.symm

/-- The touchpad of the machine, with the typing time of the batch. -/
structure IsTouchpad (d : DevicePtr) (typing : Option Instant)
    (s : TrackedDevice F D × Option Instant) : Prop where
  pointer : s.1.libDevice = d
  absolute : s.1.isAbsolute = true
  noKeys : s.1.heldKeys = []
  typing : s.2 = typing

theorem IsTouchpad.step {typing : Option Instant} (h : IsTouchpad d typing s) (cfg : Settings F)
    (te : TimedEvent) : IsTouchpad d typing (TrackedDevice.observeEvent cfg typing s te).1 where
  pointer := (TrackedDevice.libDevice_of_identity
    (TrackedDevice.processEvent_identity cfg typing s te)).trans h.pointer
  absolute := (congrArg (·.2.2.1)
    (TrackedDevice.processEvent_identity cfg typing s te)).trans h.absolute
  noKeys := processEvent_noKeys cfg typing s te (fun _ => h.noKeys) ((congrArg (·.2.2.1)
    (TrackedDevice.processEvent_identity cfg typing s te)).trans h.absolute)
  typing := by
    rcases s.1.processEvent_typing cfg typing s.2 te with ⟨hpress,_⟩ | ⟨_,heq⟩
    · exact Bool.noConfusion (hpress.1.2.symm.trans h.absolute)
    · exact heq.trans h.typing

variable (ctx₀) in
/-- A batch of the touchpad. -/
theorem ownBatch_explained (h : IsTouchpad d s.2 s) (events : List TimedEvent) :
    ∃ s', Explains ctx₀ d s (run (TrackedDevice.observeEvent (ctx₀.settings d) s.2) s events).2 s' ∧
      (run (TrackedDevice.observeEvent (ctx₀.settings d) s.2) s events).1 = s' ∧
      IsTouchpad d s.2 s' := by
  refine Observes.of_run rfl (inputsOf_append d) (fun u t => u = t ∧ IsTouchpad d s.2 t) ?_
    ⟨rfl,h⟩ events
  rintro _ t te ⟨rfl,ht⟩
  exact ⟨_,ownEvent_explained s.2 ht.pointer ht.absolute ht.typing te,rfl,ht.step _ te⟩

/-- A batch of another device. -/
theorem otherBatch_explained (cfg : Settings F) (typing : Option Instant)
    {td : TrackedDevice F D} (hother : td.libDevice ≠ d)
    (hkbd : ctx₀.keyboard td.libDevice = (td.isKeyboard && !td.isAbsolute))
    (events : List TimedEvent) :
    ∃ s', Explains ctx₀ d s (run (TrackedDevice.observeEvent cfg typing) (td,s.2) events).2 s' ∧
      (run (TrackedDevice.observeEvent cfg typing) (td,s.2) events).1.1.identity = td.identity ∧
      (run (TrackedDevice.observeEvent cfg typing) (td,s.2) events).1.2 = s'.2 ∧ s'.1 = s.1 := by
  refine Observes.of_run (s := (td,s.2)) (t := s) rfl (inputsOf_append d)
    (fun (u t : TrackedDevice F D × Option Instant) =>
      u.1.identity = td.identity ∧ u.2 = t.2 ∧ t.1 = s.1) ?_ ⟨rfl,rfl,rfl⟩ events
  rintro ⟨td',live⟩ t te ⟨hid,rfl,hkept⟩
  have hflags : td'.libDevice = td.libDevice ∧
      (td'.isKeyboard && !td'.isAbsolute) = (td.isKeyboard && !td.isAbsolute) := by
    simp only [TrackedDevice.identity,Prod.mk.injEq] at hid
    exact ⟨hid.2.2.2.2.2,by rw [hid.2.2.1,hid.2.2.2.1]⟩
  refine ⟨_,otherEvent_explained cfg typing (hflags.1 ▸ hother) ?_ te,?_,rfl,hkept⟩
  · rw [hflags.1,hflags.2,hkbd]
  · exact (TrackedDevice.processEvent_identity cfg typing (td',t.2) te).trans hid

omit [F32 F] [F64 D] [FloatCast F D] in
theorem Follows.setTyping (h : Follows ctx₀ d ctx s) (t : Option Instant) :
    Follows ctx₀ d (ctx.setTyping t) (s.1,t) :=
  ⟨h.shrinks,h.devices,rfl,h.touchpad,h.pointer,h.absolute,h.noKeys⟩

omit [F32 F] [F64 D] [FloatCast F D] in
/-- The touchpad has moved on. -/
theorem Follows.setOwn (hw : ctx₀.view.WellFormed) (h : Follows ctx₀ d ctx s) {fd : RawFd}
    {td : TrackedDevice F D} (ht : ctx.tracked fd = some td)
    {s' : TrackedDevice F D × Option Instant} (hid : s'.1.identity = td.identity)
    {typing : Option Instant} (h' : IsTouchpad d typing s') :
    Follows ctx₀ d ((ctx.setTracked fd s'.1).setTyping s'.2) s' where
  shrinks := by
    change DeviceTable.Shrinks ctx₀.tracked (ctx.setTracked fd s'.1).tracked
    rw [setTracked_tracked]
    exact h.shrinks.trans (.update ht hid)
  devices := h.devices
  typing := rfl
  touchpad fd₁ td₁ h₁ hd := by
    change (ctx.setTracked fd s'.1).tracked fd₁ = some td₁ at h₁
    rw [setTracked_tracked] at h₁
    rcases DeviceTable.update_cases h₁ with ⟨_,heq⟩ | ⟨hne,h₁⟩
    · exact (Option.some.inj heq).symm
    · obtain ⟨x,hx,hxid⟩ := h.shrinks fd td ht
      obtain ⟨y,hy,hyid⟩ := h.shrinks fd₁ td₁ h₁
      refine absurd (hw.distinct fd₁ fd y x hy hx ?_) hne
      rw [← TrackedDevice.libDevice_of_identity hyid,hd,← h'.pointer,
        TrackedDevice.libDevice_of_identity (hid.trans hxid)]
  pointer := h'.pointer
  absolute := h'.absolute
  noKeys := h'.noKeys

theorem drainDevice_explained (hw : ctx₀.view.WellFormed) (fetch : RawFd → Fetch)
    (h : Follows ctx₀ d ctx s) (dead : List RawFd) (fd : RawFd) :
    ∃ s', Explains ctx₀ d s (drainDevice fetch (ctx,dead) fd).2 s' ∧
      Follows ctx₀ d (drainDevice fetch (ctx,dead) fd).1.1 s' := by
  unfold drainDevice
  dsimp only
  cases ht : ctx.tracked fd with
  | none => exact ⟨s,.silent rfl rfl,h⟩
  | some td =>
    cases fetch fd with
    | wouldBlock => exact ⟨s,.silent rfl rfl,h⟩
    | gone => exact ⟨s,.silent rfl rfl,h⟩
    | failed => exact ⟨s,.silent rfl rfl,h⟩
    | batch events =>
      dsimp only
      rw [h.typing]
      by_cases hd : td.libDevice = d
      · obtain rfl := h.touchpad fd td ht hd
        have hsettings : ctx.settings s.1.libDevice = ctx₀.settings d := by
          simp only [settings,libDevice,h.devices,hd]
        rw [hsettings]
        obtain ⟨s',hexplained,rfl,h'⟩ := ownBatch_explained ctx₀
          (show IsTouchpad d s.2 s from ⟨h.pointer,h.absolute,h.noKeys,rfl⟩) events
        exact ⟨_,hexplained,.setOwn hw h ht (batch_identity _ _ _ events) h'⟩
      · obtain ⟨td₀,h₀,hid₀⟩ := h.shrinks fd td ht
        have hkbd : ctx₀.keyboard td.libDevice = (td.isKeyboard && !td.isAbsolute) := by
          have hflags := hid₀
          simp only [TrackedDevice.identity,Prod.mk.injEq] at hflags
          rw [hflags.2.2.2.2.2,keyboard_eq hw h₀,hflags.2.2.1,hflags.2.2.2.1]
        obtain ⟨s',hexplained,hid,htyping,hkept⟩ := otherBatch_explained
          (ctx.settings td.libDevice) s.2 hd hkbd (s := s) events
        refine ⟨s',hexplained,?_⟩
        have h' := (h.set ht hid fun heq => absurd heq hd).setTyping s'.2
        rw [← hkept] at h'
        rw [htyping]
        exact h'

theorem drainIntoQueue_explained (hw : ctx₀.view.WellFormed) (h : Follows ctx₀ d ctx s)
    (inp : Dispatch) (hplug : inp.inotify = none) :
    ∃ s', Explains ctx₀ d s (ctx.drainIntoQueue inp).2 s' ∧
      Follows ctx₀ d (ctx.drainIntoQueue inp).1 s' := by
  have hnothing : ctx.handleHotplug inp.inotify = (ctx,[]) := by
    rw [hplug]
    exact ite_self _
  unfold drainIntoQueue
  rw [hnothing]
  extract_lets hotplug fds repeats events removals
  obtain ⟨s₁,hrepeats,h₁⟩ := Observes.of_run rfl (inputsOf_append d) (Follows ctx₀ d)
    (fun _ _ fd h => repeatDevice_explained inp.now h fd) h fds
  obtain ⟨s₂,hevents,h₂⟩ := Observes.of_run rfl (inputsOf_append d)
    (fun (u : LibinputContext F D × List RawFd) => Follows ctx₀ d u.1)
    (fun u _ fd h => drainDevice_explained hw inp.fetch h u.2 fd)
    (s := (repeats.1,[])) h₁ fds
  obtain ⟨s₃,hremovals,h₃⟩ := Observes.of_run rfl (inputsOf_append d) (Follows ctx₀ d)
    (fun _ _ fd h => removeDead_explained h fd) h₂ events.1.2
  exact ⟨s₃,(hrepeats.append (inputsOf_append d) hevents).append (inputsOf_append d) hremovals,h₃⟩

/-- Whatever the schedule, the machine explains all that is read and queued. -/
theorem readAll_explained (hw : ctx₀.view.WellFormed) (h : Follows ctx₀ d ctx s)
    (schedule : List Dispatch) : ∃ s', Explains ctx₀ d s (ctx.readAll schedule).2 s' ∧
      Follows ctx₀ d (ctx.readAll schedule).1 s' := by
  refine Observes.of_run rfl (inputsOf_append d) (Follows ctx₀ d) (fun ctx s inp h => ?_) h schedule
  obtain ⟨s',hexplained,h'⟩ := drainIntoQueue_explained hw h { inp with inotify := none } rfl
  exact ⟨s',hexplained,h'.shrinks,h'.devices,h'.typing,h'.touchpad,h'.pointer,h'.absolute,h'.noKeys⟩

end Phases
end LibinputContext

/-- The instants the three windows are measured from: the touch, the last position event, the
last key press. -/
structure Clocks where
  touchStart : Option Instant
  movement : Option Instant
  typing : Option Instant

/-- An event of the touchpad with the verdicts of the clock on it: a lift quick enough for a
tap, a stalled position, a key typed just before. -/
structure Decision where
  event : InputEvent
  quick : Bool
  stalled : Bool
  typing : Bool
  deriving DecidableEq, Repr

omit [F32 F] [F64 D] [FloatCast F D] in
/-- Decide one reading by the instants at which events were processed. -/
def decideStep (cfgDwt : Bool) (d : DevicePtr) (keyboard : DevicePtr → Bool) (c : Clocks)
    (r : Reading) : Clocks × List Decision :=
  let ev := r.event.ev
  let now := r.event.now
  if r.device = d then
    (⟨ev.touchStartAfter now c.touchStart,ev.movementAfter now c.movement,c.typing⟩,
      [⟨ev,decide (ev.IsTouch ∧ ev.value = 0) && quickTouch c.touchStart now,
        decide ev.IsPosition && stalledSince c.movement now,dwtActive cfgDwt c.typing now⟩])
  else if keyboard r.device = true ∧ r.event.IsPress then ({ c with typing := some now },[])
  else (c,[])

/-- A touchpad without a clock: the handler at a made-up instant that has the given verdicts. -/
def decidedStep (cfg : Settings F) (td : TrackedDevice F D) (x : Decision) :
    TrackedDevice F D × List (LibinputEvent D) :=
  let r := (td.retimed (if x.quick then some 0 else none)
    (if x.stalled then some 0 else none)).processAbsoluteEvent
      ⟨x.event,if x.stalled then fromMillis 51 else 0⟩ cfg.cfgTap cfg.cfgNat cfg.cfgAccel x.typing
  (r.1.retimed none none,r.2)

/-- A touchpad without a clock stays one. -/
theorem decidedStep_retimed (cfg : Settings F) (td : TrackedDevice F D) (x : Decision) :
    (decidedStep cfg td x).1.retimed none none = (decidedStep cfg td x).1 := by
  unfold decidedStep
  dsimp only
  rw [TrackedDevice.retimed_retimed]

/-- The handler does what the decision says, and stores its instants. -/
theorem processAbsoluteEvent_decided (cfg : Settings F) (td : TrackedDevice F D) (te : TimedEvent)
    (quick stalled dwt : Bool)
    (hquick : quick = (decide (te.ev.IsTouch ∧ te.ev.value = 0) &&
      quickTouch td.touchStartTime te.now))
    (hstall : stalled = (decide te.ev.IsPosition && stalledSince td.lastMovementTime te.now)) :
    td.processAbsoluteEvent te cfg.cfgTap cfg.cfgNat cfg.cfgAccel dwt =
      ((decidedStep cfg (td.retimed none none) ⟨te.ev,quick,stalled,dwt⟩).1.retimed
          (te.ev.touchStartAfter te.now td.touchStartTime)
          (te.ev.movementAfter te.now td.lastMovementTime),
        (decidedStep cfg (td.retimed none none) ⟨te.ev,quick,stalled,dwt⟩).2) := by
  have hretimes := td.processAbsoluteEvent_retimes te.ev te.now (if stalled then fromMillis 51 else 0)
    cfg.cfgTap cfg.cfgNat cfg.cfgAccel dwt td.touchStartTime td.lastMovementTime
    (if quick then some 0 else none) (if stalled then some 0 else none) ?_ ?_
  · have hself : td.retimed td.touchStartTime td.lastMovementTime = td := rfl
    rw [hself] at hretimes
    unfold decidedStep
    dsimp only
    rw [TrackedDevice.retimed_retimed,TrackedDevice.retimed_retimed]
    exact hretimes
  · intro htouch hvalue
    have hmoved : ¬ te.ev.IsPosition := fun hpos => by cases htouch.1.symm.trans hpos.1
    rw [decide_eq_true ⟨htouch,hvalue⟩,Bool.true_and] at hquick
    rw [decide_eq_false hmoved,Bool.false_and] at hstall
    rw [← hquick,hstall]
    cases quick <;> rfl
  · intro hpos
    rw [decide_eq_true hpos,Bool.true_and] at hstall
    rw [← hstall]
    cases stalled <;> rfl

/-- The clock of a reading matters through the decision on it only. -/
theorem readStep_factors (cfg : Settings F) (d : DevicePtr) (keyboard : DevicePtr → Bool)
    (s : TrackedDevice F D × Option Instant) (c : Clocks) (td : TrackedDevice F D) (r : Reading)
    (h : td = s.1.retimed none none ∧ c = ⟨s.1.touchStartTime,s.1.lastMovementTime,s.2⟩) :
    (run (decidedStep cfg) td (decideStep cfg.cfgDwt d keyboard c r).2).2 =
        (readStep cfg d keyboard s r).2 ∧
      (run (decidedStep cfg) td (decideStep cfg.cfgDwt d keyboard c r).2).1 =
        (readStep cfg d keyboard s r).1.1.retimed none none ∧
      (decideStep cfg.cfgDwt d keyboard c r).1 =
        ⟨(readStep cfg d keyboard s r).1.1.touchStartTime,
          (readStep cfg d keyboard s r).1.1.lastMovementTime,(readStep cfg d keyboard s r).1.2⟩ := by
  obtain ⟨rfl,rfl⟩ := h
  unfold decideStep readStep
  dsimp only
  by_cases hown : r.device = d
  · rw [if_pos hown,if_pos hown,run_singleton,
      processAbsoluteEvent_decided cfg s.1 r.event _ _ _ rfl rfl]
    refine ⟨rfl,?_,rfl⟩
    dsimp only
    rw [TrackedDevice.retimed_retimed,decidedStep_retimed]
  · rw [if_neg hown,if_neg hown]
    split_ifs <;> exact ⟨rfl,rfl,rfl⟩

namespace LibinputContext

/-- The decisions on the readings of a schedule, for a touchpad of the context. -/
def decisions (ctx : LibinputContext F D) (td : TrackedDevice F D) (rs : List Reading) :
    List Decision :=
  (run (decideStep (ctx.settings td.libDevice).cfgDwt td.libDevice ctx.keyboard)
    ⟨td.touchStartTime,td.lastMovementTime,ctx.backend.globalTypingTime⟩ rs).2

/-- The events of a touchpad that any schedule queues are those that the touchpad without a clock
makes of the decisions. -/
theorem inputsOf_readAll {ctx : LibinputContext F D} (hw : ctx.view.WellFormed) {fd : RawFd}
    {td : TrackedDevice F D} (ht : ctx.tracked fd = some td) (habs : td.isAbsolute = true)
    (schedule : List Dispatch) : inputsOf td.libDevice (ctx.readAll schedule).2 =
      (run (decidedStep (ctx.settings td.libDevice)) (td.retimed none none)
        (ctx.decisions td (readings (ctx.readAll schedule).2))).2 := by
  have hstart : Follows ctx td.libDevice ctx (td,ctx.backend.globalTypingTime) := by
    refine ⟨.refl _,rfl,rfl,fun fd₁ td₁ h₁ hd => ?_,rfl,habs,hw.noKeys fd td ht habs⟩
    obtain rfl := hw.distinct fd₁ fd td₁ td h₁ ht hd
    exact Option.some.inj (h₁.symm.trans ht)
  obtain ⟨s',hexplained,_⟩ := readAll_explained hw hstart schedule
  have hreads : inputsOf td.libDevice (ctx.readAll schedule).2 =
      (run (readStep (ctx.settings td.libDevice) td.libDevice ctx.keyboard)
        (td,ctx.backend.globalTypingTime) (readings (ctx.readAll schedule).2)).2 :=
    (congrArg Prod.snd hexplained).symm
  rw [hreads]
  exact (run_factors (fun s c td => td = s.1.retimed none none ∧
    c = ⟨s.1.touchStartTime,s.1.lastMovementTime,s.2⟩)
    (fun s c td r h => readStep_factors _ _ _ s c td r h) ⟨rfl,rfl⟩ _).symm

/-- In every state reached, two schedules of dispatches that take the same decisions on the events
of a touchpad queue the same events of it, however they batch them and whenever they come. -/
theorem inputsOf_eq_of_decisions_eq (interface : LibinputInterface) (inotify : Bool)
    (calls : List (Call D)) (ctx : LibinputContext F D)
    (hrun : ((new interface inotify).runCalls calls).1 = ctx) (fd : RawFd) (td : TrackedDevice F D)
    (ht : ctx.tracked fd = some td) (habs : td.isAbsolute = true)
    (schedule schedule' : List Dispatch)
    (hsame : ctx.decisions td (readings (ctx.readAll schedule).2) =
      ctx.decisions td (readings (ctx.readAll schedule').2)) :
    inputsOf td.libDevice (ctx.readAll schedule).2 =
      inputsOf td.libDevice (ctx.readAll schedule').2 := by
  have hw : ctx.view.WellFormed := hrun ▸ runCalls_wellFormed interface inotify calls
  rw [inputsOf_readAll hw ht habs schedule,inputsOf_readAll hw ht habs schedule',hsame]

/-- A touchpad under descriptor 6. -/
def touchpadOnly : LibinputContext ℚ ℚ :=
  ((new ⟨true,true⟩ false).runCalls [.addDevice "/dev/input/event4" ⟨6,some plainTouchpad⟩]).1

/-- A dispatch that reads events of the touchpad, all at one instant. -/
def readAt (now : Instant) (events : List InputEvent) : Dispatch where
  inotify := none
  now := now
  order := []
  fetch fd := if fd = 6 then .batch (events.map fun ev => ⟨ev,now⟩) else .wouldBlock

/-- A touch of 100 ms by the timestamps of the kernel, whose lift is read when the client comes
round to it. -/
def touchReadAt (lift : Instant) : List Dispatch :=
  [readAt 0 [⟨0,.key,KeyCode.btnTouch,1⟩],readAt lift [⟨100000,.key,KeyCode.btnTouch,0⟩]]

/-- The touch is a tap whether its lift is read after 100 or after 200 ms. -/
theorem tap_read_in_time : inputsOf 0 (touchpadOnly.readAll (touchReadAt (fromMillis 100))).2 =
    inputsOf 0 (touchpadOnly.readAll (touchReadAt (fromMillis 200))).2 :=
  inputsOf_eq_of_decisions_eq ⟨true,true⟩ false
    [.addDevice "/dev/input/event4" ⟨6,some plainTouchpad⟩] touchpadOnly rfl 6
    (.new plainTouchpad "/dev/input/event4" 0) (by decide +kernel) (by decide +kernel) _ _
    (by decide +kernel)

/-- The kernel events read, with their timestamps. -/
def kernelHistory (l : List (Obs F D)) : List (DevicePtr × InputEvent) :=
  (readings l).map fun r => (r.device,r.event.ev)

/-- Whatever the schedule, the same kernel events in the same order queue the same events of the
touchpad. -/
def ScheduleIndependent (ctx : LibinputContext F D) (d : DevicePtr) : Prop :=
  ∀ schedule schedule', kernelHistory (ctx.readAll schedule).2 =
    kernelHistory (ctx.readAll schedule').2 →
      inputsOf d (ctx.readAll schedule).2 = inputsOf d (ctx.readAll schedule').2

/-- A client that dispatches 300 ms late loses the tap. -/
theorem late_dispatch_loses_tap : ¬ touchpadOnly.ScheduleIndependent 0 := by
  intro h
  have hsame := h (touchReadAt (fromMillis 100)) (touchReadAt (fromMillis 400)) (by decide +kernel)
  exact absurd hsame (by decide +kernel)

end LibinputContext
end LibinputRs
