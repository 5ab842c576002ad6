import LibinputRs.Automata.Registers
import LibinputRs.Library.ConfigStore
import LibinputRs.Library.LiveSettings

/-! The options of the devices of a context over a run. A client sets them through the setters or
through an acceleration config, which lives on its own; whatever else happens to the context in
between, an option is what was last set with success, or as its node was opened with. -/
namespace LibinputRs
open Automata

variable {F D : Type} [F32 F] [F64 D]

namespace LibinputDeviceConfig

def tapGetDefaultEnabled (_dev : Handle F D) : ℕ := 1

def tapGetDefaultDragEnabled (_dev : Handle F D) : ℕ := 1

def tapGetDefaultDragLockEnabled (_dev : Handle F D) : ℕ := 0

def tapGetDefaultButtonMap (_dev : Handle F D) : ℕ := 0

def threeFgDragGetDefaultEnabled (_dev : Handle F D) : ℕ := 0

def accelGetDefaultSpeed (_dev : Handle F D) : D := 0.0

def accelGetDefaultProfile (_dev : Handle F D) : ℕ := 1

def scrollGetDefaultNaturalScrollEnabled (_dev : Handle F D) : ℤ := 0

def leftHandedGetDefault (_dev : Handle F D) : ℤ := 0

def scrollGetDefaultMethod (_dev : Handle F D) : ℕ := 2

def scrollGetDefaultButton (_dev : Handle F D) : ℕ := 0

def scrollGetDefaultButtonLock (_dev : Handle F D) : ℕ := 0

def clickGetDefaultMethod (_dev : Handle F D) : ℕ := 1

def clickGetDefaultClickfingerButtonMap (_dev : Handle F D) : ℕ := 0

def middleEmulationGetDefaultEnabled (_dev : Handle F D) : ℕ := 0

def dwtGetDefaultEnabled (_dev : Handle F D) : ℕ := 1

def dwtGetDefaultTimeout (_dev : Handle F D) : ℕ := 500

def dwtpGetDefaultEnabled (_dev : Handle F D) : ℕ := 0

def dwtpGetDefaultTimeout (_dev : Handle F D) : ℕ := 500

/-- What the caller's matrix receives, also for a null device. -/
def calibrationGetDefaultMatrix (_dev : Handle F D) : Option (Vector F 6) :=
  some #[1.0,0.0,0.0,0.0,1.0,0.0].toVector

def areaGetDefaultRectangle (_dev : Handle F D) : AreaRectangle D := ⟨0.0,0.0,1.0,1.0⟩

def rotationGetDefaultAngle (_dev : Handle F D) : ℕ := 0

def sendEventsGetDefaultMode (_dev : Handle F D) : ℕ := 0

/-- `libinput_device_config_accel_apply`, on the profile that the config holds. -/
def accelApply (config : Option ℕ) (dev : Handle F D) : Handle F D × ℕ :=
  match dev,config with
  | some d,some profile => (some { d with accelProfile := profile },0)
  | _,_ => (dev,2)

end LibinputDeviceConfig

open LibinputDeviceConfig

namespace ConfigOption

def getDefault : (o : ConfigOption) → Handle F D → o.Value F D
  | .tapEnabled => tapGetDefaultEnabled
  | .tapDragEnabled => tapGetDefaultDragEnabled
  | .tapDragLockEnabled => tapGetDefaultDragLockEnabled
  | .tapButtonMap => tapGetDefaultButtonMap
  | .threeFgDragEnabled => threeFgDragGetDefaultEnabled
  | .accelSpeed => accelGetDefaultSpeed
  | .accelProfile => accelGetDefaultProfile
  | .naturalScroll => scrollGetDefaultNaturalScrollEnabled
  | .leftHanded => leftHandedGetDefault
  | .scrollMethod => scrollGetDefaultMethod
  | .scrollButton => scrollGetDefaultButton
  | .scrollButtonLock => scrollGetDefaultButtonLock
  | .clickMethod => clickGetDefaultMethod
  | .clickfingerButtonMap => clickGetDefaultClickfingerButtonMap
  | .middleEmulation => middleEmulationGetDefaultEnabled
  | .dwtEnabled => dwtGetDefaultEnabled
  | .dwtTimeout => dwtGetDefaultTimeout
  | .dwtpEnabled => dwtpGetDefaultEnabled
  | .dwtpTimeout => dwtpGetDefaultTimeout
  | .calibrationMatrix => calibrationGetDefaultMatrix
  | .areaRectangle => areaGetDefaultRectangle
  | .rotationAngle => rotationGetDefaultAngle
  | .sendEventsMode => sendEventsGetDefaultMode

/-- The node that a device object is made for has no part in its options. -/
theorem get_ofEvdev (o : ConfigOption) (device : EvdevDevice) (path : PathBuf) :
    o.get (some (.ofEvdev device path : LibinputDevice F D)) = o.get (some (.new "" "")) := by
  cases o <;> rfl

/-- A new device object has the default of every option but one: natural scrolling is on, and its
default is off. -/
theorem get_new_iff (o : ConfigOption) (dev : Handle F D) :
    o.get (some (.new "" "")) = o.getDefault dev ↔ o ≠ .naturalScroll := by
  cases o with
  | naturalScroll => exact iff_of_false one_ne_zero fun h => h rfl
  | _ => exact iff_of_true rfl ConfigOption.noConfusion

end ConfigOption

/-- A setter with the value that it is called with. -/
abbrev OptionSetting (F D : Type) := (o : ConfigOption) × o.Value F D

/-- The device after a setter was called on it. -/
def OptionSetting.apply (x : OptionSetting F D) (dev : LibinputDevice F D) : LibinputDevice F D :=
  (x.1.set x.2 (some dev)).1.getD dev

omit [F32 F] in
theorem OptionSetting.some_apply (x : OptionSetting F D) (dev : LibinputDevice F D) :
    some (x.apply dev) = (x.1.set x.2 (some dev)).1 := by
  obtain ⟨dev',h⟩ := configStore_after dev [x]
  have hset : (x.1.set x.2 (some dev)).1 = some dev' := h
  rw [apply,hset,Option.getD_some]

omit [F32 F] in
/-- A setter keeps what is read of every option but its own, and of that too if it is refused. -/
theorem OptionSetting.get_apply (x : OptionSetting F D) (dev : LibinputDevice F D)
    {o : ConfigOption} (h : x.1 = o → (x.1.set x.2 (some dev)).2 ≠ 0) :
    o.get (some (x.apply dev)) = o.get (some dev) := by
  rw [x.some_apply]
  by_cases ho : x.1 = o
  · exact configStore_framed.get_of_refused (h ho) o
  · exact configStore_framed.other x.1 x.2 (some dev) o (Ne.symm ho)

variable [FloatCast F D]

/-- A context with the acceleration configs that its client made; `none` is one destroyed. -/
structure ConfigSession (F D : Type) where
  ctx : LibinputContext F D
  accelConfigs : List (Option ℕ)

/-- The calls of a client: those of a run, the setters, and those on acceleration configs. A null
pointer is `none`. -/
inductive ConfigCall (F D : Type)
  | call (c : Call D)
  | set (dev : Option DevicePtr) (x : OptionSetting F D)
  | accelCreate (profile : ℕ)
  | accelApply (dev : Option DevicePtr) (config : Option ℕ)
  | accelDestroy (config : Option ℕ)

namespace ConfigSession

def start (interface : LibinputInterface) (inotify : Bool) : ConfigSession F D :=
  ⟨.new interface inotify,[]⟩

/-- The profile that a config holds. -/
def profile (s : ConfigSession F D) (config : Option ℕ) : Option ℕ :=
  config.bind fun a => s.accelConfigs.getD a none

/-- Call a setter on the device that a pointer names; its status. -/
def setDevice (s : ConfigSession F D) (dev : Option DevicePtr)
    (f : Handle F D → Handle F D × ℕ) : ConfigSession F D × List ℕ :=
  match dev with
  | none => (s,[(f none).2])
  | some d =>
    let devices := s.ctx.devices.modify d fun device => (f (some device)).1.getD device
    ({ s with ctx := { s.ctx with devices } },[(f (some (s.ctx.libDevice d))).2])

/-- One call, with the status of a setter. -/
def step (s : ConfigSession F D) : ConfigCall F D → ConfigSession F D × List ℕ
  | .call c => ({ s with ctx := (s.ctx.call c).1 },[])
  | .set dev x => s.setDevice dev (x.1.set x.2)
  | .accelCreate profile => ({ s with accelConfigs := s.accelConfigs ++ [some profile] },[])
  | .accelApply dev config => s.setDevice dev (accelApply (s.profile config))
  | .accelDestroy config =>
    match config with
    | none => (s,[])
    | some a => ({ s with accelConfigs := s.accelConfigs.set a none },[])

/-- A call follows pointers only to devices that are there and to configs that are not
destroyed. -/
def Valid (s : ConfigSession F D) : ConfigCall F D → Prop
  | .call c => s.ctx.Present c
  | .set dev _ => ∀ d ∈ dev, d < s.ctx.devices.length
  | .accelCreate _ => True
  | .accelApply dev config =>
    (∀ d ∈ dev, d < s.ctx.devices.length) ∧ ∀ a ∈ config, s.accelConfigs.getD a none ≠ none
  | .accelDestroy config => ∀ a ∈ config, s.accelConfigs.getD a none ≠ none

omit [F32 F] [F64 D] [FloatCast F D] in
instance (s : ConfigSession F D) (c : ConfigCall F D) : Decidable (s.Valid c) := by
  cases c with
  | call c => exact inferInstanceAs (Decidable (s.ctx.Present c))
  | set dev x => exact inferInstanceAs (Decidable (∀ d ∈ dev, d < s.ctx.devices.length))
  | accelCreate profile => exact .isTrue trivial
  | accelApply dev config =>
    exact inferInstanceAs (Decidable ((∀ d ∈ dev, d < s.ctx.devices.length) ∧
      ∀ a ∈ config, s.accelConfigs.getD a none ≠ none))
  | accelDestroy config =>
    exact inferInstanceAs (Decidable (∀ a ∈ config, s.accelConfigs.getD a none ≠ none))

/-- The setting that a call asks for, and of which device. -/
def requested (s : ConfigSession F D) : ConfigCall F D → Option (DevicePtr × OptionSetting F D)
  | .call (.configure d c) => some (d,c.option)
  | .set dev x => dev.map fun d => (d,x)
  | .accelApply dev config =>
    dev.bind fun d => (s.profile config).map fun profile => (d,⟨.accelProfile,profile⟩)
  | _ => none

/-- The setting of an option of a device that a call makes with success. -/
def accepted (d : DevicePtr) (o : ConfigOption) (s : ConfigSession F D) (c : ConfigCall F D) :
    Option (OptionSetting F D) :=
  ((s.requested c).filter fun r =>
    r.1 = d && r.2.1 = o && (r.2.1.set r.2.2 (some (s.ctx.libDevice d))).2 = 0).map Prod.snd

/-- What a call does to the device objects: it makes one setting, or removes a device, or at most
opens new ones. -/
theorem step_devices (s : ConfigSession F D) (c : ConfigCall F D) :
    (∃ d x, s.requested c = some (d,x) ∧
      (s.step c).1.ctx.devices = s.ctx.devices.modify d x.apply) ∨
    (s.requested c = none ∧ ∃ d, (s.step c).1.ctx.devices =
      s.ctx.devices.modify d fun dev => { dev with name := "" }) ∨
    (s.requested c = none ∧ s.ctx.Appends (s.step c).1.ctx) := by
  cases c with
  | call c =>
    cases c with
    | assignSeat seatName nodes =>
      exact .inr (.inr ⟨rfl,(LibinputContext.openAll_appends
        { s.ctx with seat := { s.ctx.seat with logicalName := seatName } } nodes)⟩)
    | addDevice path r => exact .inr (.inr ⟨rfl,s.ctx.tryOpen_appends path r⟩)
    | removeDevice d => exact .inr (.inl ⟨rfl,d,rfl⟩)
    | dispatch inp => exact .inr (.inr ⟨rfl,s.ctx.drainIntoQueue_appends inp⟩)
    | getEvent =>
      refine .inr (.inr ⟨rfl,.of_devices ?_⟩)
      simp only [step,LibinputContext.call,LibinputContext.libinputGetEvent]
      cases s.ctx.eventQueue <;> rfl
    | nextEventType => exact .inr (.inr ⟨rfl,.of_devices rfl⟩)
    | configure d c =>
      refine .inl ⟨d,c.option,rfl,congrArg (s.ctx.devices.modify d) (funext fun dev => ?_)⟩
      cases c <;> rfl
  | set dev x =>
    cases dev with
    | none => exact .inr (.inr ⟨rfl,.of_devices rfl⟩)
    | some d => exact .inl ⟨d,x,rfl,rfl⟩
  | accelCreate profile => exact .inr (.inr ⟨rfl,.of_devices rfl⟩)
  | accelApply dev config =>
    cases dev with
    | none => exact .inr (.inr ⟨rfl,.of_devices rfl⟩)
    | some d =>
      cases hp : s.profile config with
      | none =>
        refine .inr (.inr ⟨by simp [requested,hp],.of_devices ?_⟩)
        simp only [step,setDevice,accelApply,hp]
        exact List.modify_id d s.ctx.devices
      | some profile =>
        refine .inl ⟨d,⟨.accelProfile,profile⟩,by simp [requested,hp],?_⟩
        simp only [step,setDevice,hp]
        rfl
  | accelDestroy config => cases config <;> exact .inr (.inr ⟨rfl,.of_devices rfl⟩)

omit [F32 F] [F64 D] [FloatCast F D] in
/-- A valid call asks for settings only of devices that are there. -/
theorem Valid.present {s : ConfigSession F D} {c : ConfigCall F D} (h : s.Valid c) {d : DevicePtr}
    {x : OptionSetting F D} (hc : s.requested c = some (d,x)) : d < s.ctx.devices.length := by
  cases c with
  | call c =>
    cases c with
    | configure d' c =>
      obtain rfl := congrArg Prod.fst (Option.some.inj hc)
      exact h
    | _ => cases hc
  | set dev x' =>
    obtain ⟨d',hd',heq⟩ := Option.map_eq_some_iff.mp hc
    obtain rfl := congrArg Prod.fst heq
    exact h d' hd'
  | accelCreate profile => cases hc
  | accelApply dev config =>
    obtain ⟨d',hd',hprofile⟩ := Option.bind_eq_some_iff.mp hc
    obtain ⟨_,_,heq⟩ := Option.map_eq_some_iff.mp hprofile
    obtain rfl := congrArg Prod.fst heq
    exact h.1 d' hd'
  | accelDestroy config => cases hc

omit [FloatCast F D] in
theorem accepted_eq_some_iff {d : DevicePtr} {o : ConfigOption} {s : ConfigSession F D}
    {c : ConfigCall F D} {x : OptionSetting F D} : accepted d o s c = some x ↔
      s.requested c = some (d,x) ∧ x.1 = o ∧ (x.1.set x.2 (some (s.ctx.libDevice d))).2 = 0 := by
  unfold accepted
  cases s.requested c with
  | none => simp
  | some r =>
    obtain ⟨d',x'⟩ := r
    simp only [Option.map_eq_some_iff,Option.filter_eq_some_iff,Option.some.injEq,
      Bool.and_eq_true,decide_eq_true_eq]
    constructor
    · rintro ⟨_,⟨rfl,⟨rfl,ho⟩,hs⟩,rfl⟩
      exact ⟨rfl,ho,hs⟩
    · rintro ⟨h,ho,hs⟩
      obtain ⟨rfl,rfl⟩ := Prod.mk.inj h
      exact ⟨_,⟨rfl,⟨rfl,ho⟩,hs⟩,rfl⟩

/-- One call: an option of a device is changed by what is set of it with success, and by nothing
else. -/
theorem step_option (s : ConfigSession F D) {c : ConfigCall F D} (hvalid : s.Valid c)
    (d : DevicePtr) (o : ConfigOption) :
    (∃ x, accepted d o s c = some x ∧ x.1 = o ∧
      (x.1.set x.2 (some (s.ctx.libDevice d))).2 = 0 ∧
      (s.step c).1.ctx.libDevice d = x.apply (s.ctx.libDevice d)) ∨
    (accepted d o s c = none ∧
      o.get (some ((s.step c).1.ctx.libDevice d)) = o.get (some (s.ctx.libDevice d))) := by
  have hidle : s.requested c = none → accepted d o s c = none := fun h => by
    simp [accepted,h]
  rcases s.step_devices c with ⟨d',x,hreq,hdev⟩ | ⟨hreq,d',hdev⟩ | ⟨hreq,happ⟩
  · by_cases hd : d' = d
    · subst hd
      have hget : (s.step c).1.ctx.libDevice d' = x.apply (s.ctx.libDevice d') := by
        have hlt := hvalid.present hreq
        simp [LibinputContext.libDevice,List.getD_eq_getElem?_getD,hdev,hlt]
      by_cases hx : x.1 = o ∧ (x.1.set x.2 (some (s.ctx.libDevice d'))).2 = 0
      · exact .inl ⟨x,accepted_eq_some_iff.mpr ⟨hreq,hx⟩,hx.1,hx.2,hget⟩
      · refine .inr ⟨?_,?_⟩
        · refine Option.eq_none_iff_forall_ne_some.mpr fun y hy => hx ?_
          obtain ⟨hreq',hy⟩ := accepted_eq_some_iff.mp hy
          obtain rfl := congrArg Prod.snd (Option.some.inj (hreq.symm.trans hreq'))
          exact hy
        · rw [hget]
          exact x.get_apply _ fun ho hs => hx ⟨ho,hs⟩
    · refine .inr ⟨?_,?_⟩
      · refine Option.eq_none_iff_forall_ne_some.mpr fun y hy => hd ?_
        have hreq' := (accepted_eq_some_iff.mp hy).1
        exact congrArg Prod.fst (Option.some.inj (hreq.symm.trans hreq'))
      · simp [LibinputContext.libDevice,List.getD_eq_getElem?_getD,hdev,hd]
  · refine .inr ⟨hidle hreq,?_⟩
    exact LibinputContext.libDevice_modify (f := fun dev => o.get (some dev))
      (fun dev => by cases o <;> rfl) hdev d
  · refine .inr ⟨hidle hreq,?_⟩
    exact happ.libDevice (f := fun dev => o.get (some dev)) o.get_ofEvdev d

/-- Every call of a run is valid when it is made. -/
def RunValid (s : ConfigSession F D) (calls : List (ConfigCall F D)) : Prop :=
  AtEach (fun before c => (run step s before).1.Valid c) calls

instance (s : ConfigSession F D) (calls : List (ConfigCall F D)) : Decidable (s.RunValid calls) :=
  inferInstanceAs (Decidable (AtEach _ calls))

/-- An option reads as the last setting of it that was made with success left it, or as it was
opened with. -/
theorem run_option (interface : LibinputInterface) (inotify : Bool)
    (calls : List (ConfigCall F D)) (hvalid : (start interface inotify).RunValid calls)
    (d : DevicePtr) (o : ConfigOption) :
    let dev := (run step (start interface inotify) calls).1.ctx.libDevice d
    match lastWritten step (accepted d o) (start interface inotify) calls with
    | none => o.get (some dev) = o.get (some (.new "" ""))
    | some x => x.1 = o ∧ ∃ dev' : LibinputDevice F D,
        (x.1.set x.2 (some dev')).2 = 0 ∧ x.1.get (some dev) = x.1.get (some (x.apply dev')) := by
  induction calls using List.reverseRecOn with
  | nil => rfl
  | append_singleton calls c ih =>
    rw [RunValid,atEach_append,atEach_singleton,List.append_nil] at hvalid
    have hbefore := ih hvalid.1
    simp only [run_append,run_singleton,lastWritten_concat]
    rcases step_option _ hvalid.2 d o with ⟨x,hx,ho,hs,hget⟩ | ⟨hnone,hget⟩
    · rw [hx,hget]
      exact ⟨ho,_,hs,rfl⟩
    · rw [hnone,Option.none_or]
      cases hlast : lastWritten step (accepted d o) (start interface inotify) calls with
      | none =>
        rw [hlast] at hbefore
        exact hget.trans hbefore
      | some x =>
        rw [hlast] at hbefore
        obtain ⟨rfl,dev',hs,hread⟩ := hbefore
        exact ⟨rfl,dev',hs,hget.trans hread⟩

/-- In every valid run, whatever is opened, removed and dispatched and whatever is set of other
devices: an option of a device that was never set with success has its default exactly when it is
not natural scrolling; and one that was reads as what it was last set to, exactly when the value
is one that its setter stores or that its getter returns anyway. -/
theorem options_read (interface : LibinputInterface) (inotify : Bool)
    (calls : List (ConfigCall F D)) (hvalid : (start interface inotify).RunValid calls)
    (d : DevicePtr) (o : ConfigOption) :
    let s := (run step (start interface inotify) calls).1
    d < s.ctx.devices.length →
    match lastWritten step (accepted d o) (start interface inotify) calls with
    | none => o.get s.ctx.devices[d]? = o.getDefault s.ctx.devices[d]? ↔ o ≠ .naturalScroll
    | some x => x.1 = o ∧
        (x.1.get s.ctx.devices[d]? = x.1.normal x.2 ↔ x.1.ReadsBack x.2) := by
  intro s hd
  have hdev : s.ctx.devices[d]? = some (s.ctx.libDevice d) := by
    simp [LibinputContext.libDevice,hd]
  have hrun := run_option interface inotify calls hvalid d o
  cases hlast : lastWritten step (accepted d o) (start interface inotify) calls with
  | none =>
    rw [hlast] at hrun
    rw [hdev,show o.get (some (s.ctx.libDevice d)) = _ from hrun]
    exact o.get_new_iff _
  | some x =>
    rw [hlast] at hrun
    obtain ⟨ho,dev',hs,hread⟩ := hrun
    refine ⟨ho,?_⟩
    rw [hdev,show x.1.get (some (s.ctx.libDevice d)) = _ from hread,x.some_apply]
    exact (forall_prop_of_true hs).symm.trans (x.1.get_set_iff x.2 dev')

/-- A profile is applied to a touchpad, its config destroyed, and the touchpad unplugged. -/
def profileApplied : List (ConfigCall ℚ ℚ) :=
  [.call (.addDevice "/dev/input/event5" ⟨7,some plainTouchpad⟩),.accelCreate 2,
    .accelApply (some 0) (some 0),.accelDestroy (some 0),.set (some 0) ⟨.scrollButton,4⟩,
    .call (.dispatch ⟨none,0,[],fun _ => .gone⟩),.call (.removeDevice 0)]

/-- The profile is still read, and the scroll button set is not. -/
theorem profile_read_and_button_not :
    let s := (run step (start ⟨true,true⟩ false) profileApplied).1
    ConfigOption.accelProfile.get s.ctx.devices[0]? = (2 : ℕ) ∧
      ConfigOption.scrollButton.get s.ctx.devices[0]? ≠ (4 : ℕ) := by
  intro s
  have hread := fun o => options_read ⟨true,true⟩ false profileApplied (by decide +kernel) 0 o
    (by decide +kernel)
  exact ⟨(hread .accelProfile).2.mpr trivial,fun h => nomatch (hread .scrollButton).2.mp h⟩

end ConfigSession
end LibinputRs
