import LibinputRs.Library.DrainLoops
import LibinputRs.Library.Translation

/-! Under which settings a device is read. A dispatch copies them from the device object before each
batch; between dispatches only the setters change them, each for its own device. -/
namespace LibinputRs
open Automata

variable {F D : Type}

/-- The setting that a call makes for a device. -/
def Call.settingFor (d : DevicePtr) : Call D → Option (SettingCall D)
  | .configure d' c => if d' = d then some c else none
  | _ => none

variable [F32 F] [F64 D]

namespace LibinputContext

/-- The list of device objects grows by those of nodes that were opened. -/
def Appends (ctx ctx' : LibinputContext F D) : Prop :=
  ∃ opened : List (EvdevDevice × PathBuf),
    ctx'.devices = ctx.devices ++ opened.map fun node => .ofEvdev node.1 node.2

namespace Appends
variable {ctx ctx' ctx'' : LibinputContext F D}

theorem of_devices (h : ctx'.devices = ctx.devices) : ctx.Appends ctx' := ⟨[],by simp [h]⟩

theorem push {device : EvdevDevice} {path : PathBuf}
    (h : ctx'.devices = ctx.devices ++ [.ofEvdev device path]) : ctx.Appends ctx' :=
  ⟨[(device,path)],h⟩

theorem trans (h : ctx.Appends ctx') (h' : ctx'.Appends ctx'') : ctx.Appends ctx'' := by
  obtain ⟨opened,h⟩ := h
  obtain ⟨opened',h'⟩ := h'
  exact ⟨opened ++ opened',by rw [h',h,List.map_append,List.append_assoc]⟩

/-- What all new objects have in common, a device that is not there has as well, so it stays. -/
theorem libDevice {α : Type*} {f : LibinputDevice F D → α}
    (hf : ∀ device path, f (.ofEvdev device path) = f (.new "" "")) (h : ctx.Appends ctx')
    (d : DevicePtr) : f (ctx'.libDevice d) = f (ctx.libDevice d) := by
  obtain ⟨opened,h⟩ := h
  simp only [LibinputContext.libDevice,List.getD_eq_getElem?_getD,h]
  rcases lt_or_ge d ctx.devices.length with hlt | hge
  · rw [List.getElem?_append_left hlt]
  · rw [List.getElem?_append_right hge,List.getElem?_eq_none hge,List.getElem?_map]
    cases opened[d - ctx.devices.length]? with
    | none => rfl
    | some node => exact hf node.1 node.2

end Appends

/-- What a change of one object keeps of it stays of all objects. -/
theorem libDevice_modify {ctx ctx' : LibinputContext F D} {d : DevicePtr} {α : Type*}
    {f : LibinputDevice F D → α} {g : LibinputDevice F D → LibinputDevice F D}
    (hg : ∀ dev, f (g dev) = f dev) (h : ctx'.devices = ctx.devices.modify d g) (d' : DevicePtr) :
    f (ctx'.libDevice d') = f (ctx.libDevice d') := by
  simp only [libDevice,List.getD_eq_getElem?_getD,h,List.getElem?_modify]
  cases ctx.devices[d']? with
  | none => rfl
  | some dev =>
    by_cases hd : d = d'
    · simpa [hd] using hg dev
    · simp [hd]

theorem tryOpen_appends (ctx : LibinputContext F D) (path : PathBuf) (r : OpenResult) :
    ctx.Appends (ctx.tryOpen path r).1 := by
  rcases ctx.tryOpen_outcomes path r with ⟨_,h,_⟩ | ⟨_,_,device,h,_⟩ | ⟨_,_,device,h,_⟩
  · exact .of_devices (by rw [h])
  · exact .push (congrArg LibinputContext.devices h)
  · exact .push (congrArg LibinputContext.devices h)

theorem openAll_appends (ctx : LibinputContext F D) (nodes : List (PathBuf × OpenResult)) :
    ctx.Appends (ctx.openAll nodes).1 := by
  induction nodes generalizing ctx with
  | nil => exact .of_devices rfl
  | cons node nodes ih => exact (ctx.tryOpen_appends node.1 node.2).trans (ih _)

theorem handleHotplug_appends (ctx : LibinputContext F D) (inotify : Option (List InotifyEvent)) :
    ctx.Appends (ctx.handleHotplug inotify).1 := by
  unfold handleHotplug
  split_ifs
  · cases inotify with
    | none => exact .of_devices rfl
    | some ievents => exact ctx.openAll_appends _
  · exact .of_devices rfl

omit [F32 F] [F64 D] in
theorem removeDead_devices (ctx : LibinputContext F D) (fd : RawFd) :
    (removeDead ctx fd).1.devices = ctx.devices := by
  unfold removeDead
  cases ctx.tracked fd <;> rfl

variable [FloatCast F D]

/-- A dispatch makes device objects only for the nodes that it opens, and changes none. -/
theorem drainIntoQueue_appends (ctx : LibinputContext F D) (inp : Dispatch) :
    ctx.Appends (ctx.drainIntoQueue inp).1 := by
  unfold drainIntoQueue
  extract_lets hotplug fds repeats events removals
  have hrepeats : repeats.1.devices = hotplug.1.devices := (repeats_frame inp.now hotplug.1 fds).1
  have hevents : events.1.1.devices = repeats.1.devices :=
    run_invariant (drainDevice inp.fetch) (fun s => s.1.devices = repeats.1.devices)
      (fun s fd _ h => (drainDevice_devices inp.fetch s fd).trans h) rfl
  have hremovals : removals.1.devices = events.1.1.devices :=
    run_invariant removeDead (fun c => c.devices = events.1.1.devices)
      (fun c fd _ h => (removeDead_devices c fd).trans h) rfl
  exact (ctx.handleHotplug_appends inp.inotify).trans
    (.of_devices (hremovals.trans (hevents.trans hrepeats)))

end LibinputContext

variable [FloatCast F D]

/-- The settings that the backend reads off a device object. -/
def LibinputDevice.settings (dev : LibinputDevice F D) : Settings F :=
  ⟨dev.tapEnabled,dev.naturalScroll,dev.dwtEnabled,FloatCast.toF32 dev.accelSpeed + 1.0⟩

/-- A new device object after the settings that a run of calls makes for it. -/
def lastSet (d : DevicePtr) (calls : List (Call D)) : LibinputDevice F D :=
  (calls.filterMap (Call.settingFor d)).foldl (fun dev c => c.apply dev) (.new "" "")

namespace LibinputContext

/-- All devices are under the same settings; one that is not there yet is under those it will
have. -/
def SameSettings (ctx ctx' : LibinputContext F D) : Prop := ∀ d, ctx'.settings d = ctx.settings d

/-- New device objects come with the settings of a device that is not there. -/
theorem Appends.sameSettings {ctx ctx' : LibinputContext F D} (h : ctx.Appends ctx') :
    ctx.SameSettings ctx' :=
  h.libDevice (f := LibinputDevice.settings) fun _ _ => rfl

end LibinputContext

/-- A record was made under the given settings of its device. -/
def Obs.Under (s : DevicePtr → Settings F) : Obs F D → Prop
  | .processed p => p.cfg = s p.device
  | _ => True

omit [F32 F] [F64 D] [FloatCast F D] in
theorem Obs.Under.of_silent {s : DevicePtr → Settings F} {o : Obs F D} (h : o.Silent) :
    o.Under s := by
  cases o with
  | processed p => exact h.elim
  | fd a => trivial
  | queued e => trivial
  | delivered e => trivial

namespace LibinputContext

omit [FloatCast F D] in
theorem tryOpen_under (ctx : LibinputContext F D) (path : PathBuf) (r : OpenResult)
    (s : DevicePtr → Settings F) : ∀ o ∈ (ctx.tryOpen path r).2, o.Under s := by
  have hclosed := fun o ho => Obs.Under.of_silent (s := s) (closed_silent ctx.view r.rawFd o ho)
  have hopened := fun o ho => Obs.Under.of_silent (s := s) (opened_silent ctx.view r.rawFd o ho)
  rcases ctx.tryOpen_cases path r with ⟨_,h⟩ | ⟨_,_,h⟩ | ⟨device,_,_,h⟩ <;> rw [h]
  · exact List.forall_mem_nil _
  · exact List.forall_mem_cons.mpr ⟨trivial,List.forall_mem_cons.mpr ⟨trivial,hclosed⟩⟩
  · refine List.forall_mem_append.mpr ⟨hopened,?_⟩
    rcases ctx.openProbed_cases path r.rawFd device with ⟨_,h⟩ | ⟨_,_,h⟩ | ⟨_,_,h⟩ <;> rw [h]
    · exact List.forall_mem_singleton.mpr trivial
    · exact List.forall_mem_singleton.mpr trivial
    · exact List.forall_mem_cons.mpr ⟨trivial,List.forall_mem_singleton.mpr trivial⟩

omit [FloatCast F D] in
theorem openAll_under (ctx : LibinputContext F D) (nodes : List (PathBuf × OpenResult))
    (s : DevicePtr → Settings F) : ∀ o ∈ (ctx.openAll nodes).2, o.Under s := by
  induction nodes generalizing ctx with
  | nil => exact List.forall_mem_nil _
  | cons node nodes ih =>
    exact List.forall_mem_append.mpr ⟨ctx.tryOpen_under node.1 node.2 s,ih _⟩

omit [FloatCast F D] in
theorem handleHotplug_under (ctx : LibinputContext F D) (inotify : Option (List InotifyEvent))
    (s : DevicePtr → Settings F) : ∀ o ∈ (ctx.handleHotplug inotify).2, o.Under s := by
  unfold handleHotplug
  split_ifs
  · cases inotify with
    | none => exact List.forall_mem_nil _
    | some ievents => exact ctx.openAll_under _ s
  · exact List.forall_mem_nil _

omit [F32 F] [F64 D] [FloatCast F D] in
theorem repeatDevice_under (now : Instant) (ctx : LibinputContext F D) (fd : RawFd)
    (s : DevicePtr → Settings F) : ∀ o ∈ (repeatDevice now ctx fd).2, o.Under s := by
  intro o ho
  unfold repeatDevice at ho
  cases hfd : ctx.tracked fd with
  | none => simp [hfd] at ho
  | some td =>
    simp only [hfd] at ho
    obtain ⟨e,_,rfl⟩ := List.mem_map.mp ho
    trivial

/-- A batch is read under the settings of its device. -/
theorem drainDevice_under (fetch : RawFd → Fetch) (s : LibinputContext F D × List RawFd)
    (fd : RawFd) : ∀ o ∈ (drainDevice fetch s fd).2, o.Under s.1.settings := by
  unfold drainDevice
  cases s.1.tracked fd with
  | none => exact List.forall_mem_nil _
  | some td =>
    cases fetch fd with
    | wouldBlock => exact List.forall_mem_nil _
    | failed => exact List.forall_mem_nil _
    | gone => exact List.forall_mem_nil _
    | batch events =>
      refine run_outputs (TrackedDevice.observeEvent (s.1.settings td.libDevice)
        s.1.backend.globalTypingTime) (fun t => t.1.libDevice = td.libDevice)
        (fun o => o.Under s.1.settings) (fun t te ht => ?_) (fun t te ht => ?_) rfl events
      · exact (TrackedDevice.libDevice_of_identity
          (TrackedDevice.processEvent_identity _ _ t te)).trans ht
      · exact List.forall_mem_singleton.mpr (congrArg s.1.settings ht.symm)

omit [F32 F] [F64 D] [FloatCast F D] in
theorem removeDead_under (ctx : LibinputContext F D) (fd : RawFd) (s : DevicePtr → Settings F) :
    ∀ o ∈ (removeDead ctx fd).2, o.Under s := by
  intro o ho
  unfold removeDead at ho
  cases hfd : ctx.tracked fd with
  | none => simp [hfd] at ho
  | some td =>
    simp only [hfd] at ho
    cases o with
    | processed p => split_ifs at ho <;> simp at ho
    | fd a => trivial
    | queued e => trivial
    | delivered e => trivial

/-- A dispatch reads every device under the settings that it found, also one that it opened
itself. -/
theorem drainIntoQueue_under (ctx : LibinputContext F D) (inp : Dispatch) :
    ∀ o ∈ (ctx.drainIntoQueue inp).2, o.Under ctx.settings := by
  unfold drainIntoQueue
  extract_lets hotplug fds repeats events removals
  have hstart : ctx.SameSettings repeats.1 :=
    ((ctx.handleHotplug_appends inp.inotify).trans
      (.of_devices (repeats_frame inp.now hotplug.1 fds).1)).sameSettings
  have hrepeats : ∀ o ∈ repeats.2, o.Under ctx.settings :=
    run_outputs (repeatDevice inp.now) (fun _ => True) (fun o => o.Under ctx.settings)
      (fun _ _ _ => trivial) (fun c fd _ => repeatDevice_under inp.now c fd _) trivial fds
  have hevents : ∀ o ∈ events.2, o.Under ctx.settings := by
    refine run_outputs (drainDevice inp.fetch) (fun s => ctx.SameSettings s.1)
      (fun o => o.Under ctx.settings) (fun s fd h d => ?_) (fun s fd h o ho => ?_) hstart fds
    · have hstep : s.1.SameSettings (drainDevice inp.fetch s fd).1.1 :=
        (Appends.of_devices (drainDevice_devices inp.fetch s fd)).sameSettings
      exact (hstep d).trans (h d)
    · have hunder := drainDevice_under inp.fetch s fd o ho
      rwa [show s.1.settings = ctx.settings from funext h] at hunder
  have hremovals : ∀ o ∈ removals.2, o.Under ctx.settings :=
    run_outputs removeDead (fun _ => True) (fun o => o.Under ctx.settings) (fun _ _ _ => trivial)
      (fun c fd _ => removeDead_under c fd _) trivial _
  exact List.forall_mem_append.mpr ⟨List.forall_mem_append.mpr
    ⟨List.forall_mem_append.mpr ⟨ctx.handleHotplug_under _ _,hrepeats⟩,hevents⟩,hremovals⟩

/-- A call that configures a device configures one that is there. -/
def Present (ctx : LibinputContext F D) : Call D → Prop
  | .configure d _ => d < ctx.devices.length
  | _ => True

omit [F32 F] [F64 D] [FloatCast F D] in
instance (ctx : LibinputContext F D) (c : Call D) : Decidable (ctx.Present c) := by
  cases c with
  | configure d s => exact inferInstanceAs (Decidable (d < ctx.devices.length))
  | _ => exact .isTrue trivial

/-- One call: only a setter changes settings, of its own device, if it is there. -/
theorem call_settings (ctx : LibinputContext F D) (c : Call D) (d : DevicePtr)
    (hpresent : ctx.Present c) :
    (∃ s, c.settingFor d = some s ∧
      (ctx.call c).1.settings d = (s.apply (ctx.libDevice d)).settings) ∨
    (c.settingFor d = none ∧ (ctx.call c).1.settings d = ctx.settings d) := by
  cases c with
  | assignSeat seatName nodes =>
    refine .inr ⟨rfl,?_⟩
    exact (openAll_appends { ctx with seat := { ctx.seat with logicalName := seatName } }
      nodes).sameSettings d
  | addDevice path r => exact .inr ⟨rfl,(ctx.tryOpen_appends path r).sameSettings d⟩
  | removeDevice d' =>
    refine .inr ⟨rfl,?_⟩
    exact libDevice_modify (f := LibinputDevice.settings) (g := fun dev => { dev with name := "" })
      (fun _ => rfl) rfl d
  | dispatch inp => exact .inr ⟨rfl,(ctx.drainIntoQueue_appends inp).sameSettings d⟩
  | getEvent =>
    refine .inr ⟨rfl,?_⟩
    unfold call libinputGetEvent
    cases ctx.eventQueue <;> rfl
  | nextEventType => exact .inr ⟨rfl,rfl⟩
  | configure d' s =>
    by_cases hd : d' = d
    · subst hd
      have hget : (ctx.configure d' s).libDevice d' = s.apply (ctx.libDevice d') := by
        have hlt : d' < ctx.devices.length := hpresent
        simp [configure,libDevice,List.getD_eq_getElem?_getD,hlt]
      exact .inl ⟨s,if_pos rfl,congrArg LibinputDevice.settings hget⟩
    · refine .inr ⟨if_neg hd,?_⟩
      change ((ctx.configure d' s).libDevice d).settings = (ctx.libDevice d).settings
      simp [configure,libDevice,List.getD_eq_getElem?_getD,hd]

/-- What a setter makes of the settings depends on them alone. -/
theorem apply_settings (s : SettingCall D) {dev dev' : LibinputDevice F D}
    (h : dev.settings = dev'.settings) : (s.apply dev).settings = (s.apply dev').settings := by
  obtain ⟨htap,hnat,hdwt,haccel⟩ := Settings.mk.injEq .. ▸ h
  cases s <;> simp [SettingCall.apply,LibinputDevice.settings,htap,hnat,hdwt,haccel]

/-- After every run the settings of a device are those last made for it. -/
theorem runCalls_settings (interface : LibinputInterface) (inotify : Bool) (calls : List (Call D))
    (hpresent : AtEach (fun before c =>
      ((new (F := F) interface inotify).runCalls before).1.Present c) calls) (d : DevicePtr) :
    ((new (F := F) interface inotify).runCalls calls).1.settings d =
      (lastSet (F := F) d calls).settings := by
  induction calls using List.reverseRecOn with
  | nil => rfl
  | append_singleton calls c ih =>
    rw [atEach_append,atEach_singleton,List.append_nil] at hpresent
    have hlast : lastSet (F := F) d (calls ++ [c]) =
        ([c].filterMap (Call.settingFor d)).foldl (fun dev c => c.apply dev) (lastSet d calls) := by
      rw [lastSet,List.filterMap_append,List.foldl_append]
      rfl
    rw [runCalls,run_append,run_singleton,hlast]
    rcases call_settings _ c d hpresent.2 with ⟨s,hs,h⟩ | ⟨hs,h⟩
    · rw [List.filterMap_cons_some hs]
      exact h.trans (apply_settings s (ih hpresent.1))
    · rw [List.filterMap_cons_none hs]
      exact h.trans (ih hpresent.1)

/-- A call reads every device under the settings that it found. -/
theorem call_under (ctx : LibinputContext F D) (c : Call D) :
    ∀ o ∈ (ctx.call c).2, o.Under ctx.settings := by
  cases c with
  | assignSeat seatName nodes => exact openAll_under _ nodes _
  | addDevice path r => exact tryOpen_under _ path r _
  | removeDevice d => exact List.forall_mem_nil _
  | dispatch inp => exact ctx.drainIntoQueue_under inp
  | getEvent =>
    unfold call libinputGetEvent
    cases ctx.eventQueue with
    | nil => exact List.forall_mem_nil _
    | cons e rest => exact List.forall_mem_singleton.mpr trivial
  | nextEventType => exact List.forall_mem_nil _
  | configure d s => exact List.forall_mem_nil _

/-- In every run of a client that configures only devices that are there, a dispatch reads each
device under the settings that the client made last for it: none is lost over hotplug, removals or
other dispatches, and none reaches another device. -/
theorem dispatch_under_last_set (interface : LibinputInterface) (inotify : Bool)
    (calls : List (Call D)) (hpresent : AtEach (fun before c =>
      ((new (F := F) interface inotify).runCalls before).1.Present c) calls) :
    AtEach (fun before c => ∀ o ∈ (((new (F := F) interface inotify).runCalls before).1.call c).2,
      o.Under fun d => (lastSet d before).settings) calls := by
  rintro before c back rfl
  have hbefore : AtEach (fun before c =>
      ((new (F := F) interface inotify).runCalls before).1.Present c) before :=
    (atEach_append.mp hpresent).1
  have hsettings : ((new (F := F) interface inotify).runCalls before).1.settings =
      fun d => (lastSet d before).settings :=
    funext (runCalls_settings interface inotify before hbefore)
  rw [← hsettings]
  exact call_under _ c

/-- Tapping is switched off for a touchpad before it is first read. -/
theorem tap_off_under_dispatch : AtEach (fun before c =>
    ∀ o ∈ (((new (F := ℚ) (D := ℚ) ⟨true,true⟩ false).runCalls before).1.call c).2,
      o.Under fun d => (lastSet d before).settings)
    [.addDevice "/dev/input/event5" ⟨7,some plainTouchpad⟩,.configure 0 (.tapSetEnabled 0),
      .dispatch ⟨none,0,[],fun _ => .batch [⟨⟨0,.key,KeyCode.btnTouch,1⟩,0⟩]⟩] :=
  dispatch_under_last_set (D := ℚ) ⟨true,true⟩ false _ (by decide +kernel)

end LibinputContext
end LibinputRs
