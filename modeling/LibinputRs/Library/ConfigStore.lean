import LibinputRs.Automata.Options
import LibinputRs.DeviceConfig

/-! The options of a device as one store. Most setters write a field of their own or refuse; six
answer with success and write nothing, so the value set is read back from them only where it is
the constant that their getter returns. -/
namespace LibinputRs
open Automata LibinputDeviceConfig

variable {F D : Type}

/-- The options that have a setter and a getter. -/
inductive ConfigOption
  | tapEnabled
  | tapDragEnabled
  | tapDragLockEnabled
  | tapButtonMap
  | threeFgDragEnabled
  | accelSpeed
  | accelProfile
  | naturalScroll
  | leftHanded
  | scrollMethod
  | scrollButton
  | scrollButtonLock
  | clickMethod
  | clickfingerButtonMap
  | middleEmulation
  | dwtEnabled
  | dwtTimeout
  | dwtpEnabled
  | dwtpTimeout
  | calibrationMatrix
  | areaRectangle
  | rotationAngle
  | sendEventsMode
  deriving DecidableEq, Repr

namespace ConfigOption

/-- The values of an option; a calibration matrix is given by a pointer, which may be null. -/
abbrev Value (F D : Type) : ConfigOption → Type
  | .accelSpeed => D
  | .naturalScroll | .leftHanded => ℤ
  | .calibrationMatrix => Option (Vector F 6)
  | .areaRectangle => AreaRectangle D
  | _ => ℕ

variable [F64 D]

def set : (o : ConfigOption) → o.Value F D → Handle F D → Handle F D × ℕ
  | .tapEnabled => tapSetEnabled
  | .tapDragEnabled => tapSetDragEnabled
  | .tapDragLockEnabled => tapSetDragLockEnabled
  | .tapButtonMap => tapSetButtonMap
  | .threeFgDragEnabled => threeFgDragSetEnabled
  | .accelSpeed => accelSetSpeed
  | .accelProfile => accelSetProfile
  | .naturalScroll => scrollSetNaturalScrollEnabled
  | .leftHanded => leftHandedSet
  | .scrollMethod => scrollSetMethod
  | .scrollButton => scrollSetButton
  | .scrollButtonLock => scrollSetButtonLock
  | .clickMethod => clickSetMethod
  | .clickfingerButtonMap => clickSetClickfingerButtonMap
  | .middleEmulation => middleEmulationSetEnabled
  | .dwtEnabled => dwtSetEnabled
  | .dwtTimeout => dwtSetTimeout
  | .dwtpEnabled => dwtpSetEnabled
  | .dwtpTimeout => dwtpSetTimeout
  | .calibrationMatrix => calibrationSetMatrix
  | .areaRectangle => areaSetRectangle
  | .rotationAngle => rotationSetAngle
  | .sendEventsMode => sendEventsSetMode

def get : (o : ConfigOption) → Handle F D → o.Value F D
  | .tapEnabled => tapGetEnabled
  | .tapDragEnabled => tapGetDragEnabled
  | .tapDragLockEnabled => tapGetDragLockEnabled
  | .tapButtonMap => tapGetButtonMap
  | .threeFgDragEnabled => threeFgDragGetEnabled
  | .accelSpeed => accelGetSpeed
  | .accelProfile => accelGetProfile
  | .naturalScroll => scrollGetNaturalScrollEnabled
  | .leftHanded => leftHandedGet
  | .scrollMethod => scrollGetMethod
  | .scrollButton => scrollGetButton
  | .scrollButtonLock => scrollGetButtonLock
  | .clickMethod => clickGetMethod
  | .clickfingerButtonMap => clickGetClickfingerButtonMap
  | .middleEmulation => middleEmulationGetEnabled
  | .dwtEnabled => dwtGetEnabled
  | .dwtTimeout => dwtGetTimeout
  | .dwtpEnabled => dwtpGetEnabled
  | .dwtpTimeout => dwtpGetTimeout
  | .calibrationMatrix => calibrationGetMatrix
  | .areaRectangle => areaGetRectangle
  | .rotationAngle => rotationGetAngle
  | .sendEventsMode => sendEventsGetMode

/-- What a value set should be read back as: switches are zero or one, speeds are clamped. -/
def normal : (o : ConfigOption) → o.Value F D → o.Value F D
  | .tapEnabled | .tapDragEnabled | .tapDragLockEnabled | .threeFgDragEnabled | .middleEmulation
  | .dwtEnabled | .dwtpEnabled | .naturalScroll | .leftHanded => fun v => flag (decide (v ≠ 0))
  | .accelSpeed => fun v => F64.clamp v (-1.0) 1.0
  | .tapButtonMap | .accelProfile | .scrollMethod | .scrollButton | .scrollButtonLock
  | .clickMethod | .clickfingerButtonMap | .dwtTimeout | .dwtpTimeout | .calibrationMatrix
  | .areaRectangle | .rotationAngle | .sendEventsMode => id

/-- The call carries the constant that the getter of an option without a field returns. -/
def ReadsBack : (o : ConfigOption) → o.Value F D → Prop
  | .tapDragEnabled => fun v => v ≠ 0
  | .tapDragLockEnabled | .scrollButton | .rotationAngle | .sendEventsMode => fun v => v = 0
  | .areaRectangle => fun v => v = ⟨0.0,0.0,1.0,1.0⟩
  | _ => fun _ => True

end ConfigOption

/-- The options of a device. -/
def configStore (F D : Type) [F64 D] :
    OptionStore (Handle F D) ConfigOption (ConfigOption.Value F D) where
  set := ConfigOption.set
  get := ConfigOption.get
  normal := ConfigOption.normal

variable [F64 D]

/-- Every setter keeps to its own option, and one that refuses changes nothing. -/
theorem configStore_framed : (configStore F D).Framed := by
  constructor
  · intro i v s j hj
    cases s with
    | none =>
      cases i with
      | calibrationMatrix => cases v <;> rfl
      | _ => rfl
    | some d =>
      cases i with
      | calibrationMatrix =>
        cases v with
        | none => rfl
        | some m => cases j <;> first | rfl | exact absurd rfl hj
      | _ => cases j <;> first | rfl | exact absurd rfl hj
  · intro i v s hs
    cases s with
    | none =>
      cases i with
      | calibrationMatrix => cases v <;> rfl
      | _ => rfl
    | some d =>
      cases i with
      | calibrationMatrix =>
        cases v with
        | none => rfl
        | some m => exact absurd rfl hs
      | _ => first | rfl | exact absurd rfl hs

/-- A device stays a device. -/
theorem configStore_after (d : LibinputDevice F D)
    (calls : List ((o : ConfigOption) × o.Value F D)) :
    ∃ d', (configStore F D).after (some d) calls = some d' := by
  have hstep : ∀ (s : Handle F D) (c : (o : ConfigOption) × o.Value F D), s.isSome = true →
      ((configStore F D).call s c).1.isSome = true := by
    rintro s ⟨o,v⟩ hs
    obtain ⟨d',rfl⟩ := Option.isSome_iff_exists.mp hs
    cases o with
    | calibrationMatrix => cases v <;> rfl
    | _ => rfl
  exact Option.isSome_iff_exists.mp
    (run_invariant _ (fun s => s.isSome = true) (fun s c _ => hstep s c) rfl)

theorem flag_eq_one {v : ℕ} : (1 : ℕ) = flag (decide (v ≠ 0)) ↔ v ≠ 0 := by
  by_cases hv : v = 0 <;> simp [flag,hv]

theorem flag_eq_zero {v : ℕ} : (0 : ℕ) = flag (decide (v ≠ 0)) ↔ v = 0 := by
  by_cases hv : v = 0 <;> simp [flag,hv]

/-- A call on a device is read back right after its success exactly when its setter writes a
field or refuses, or the value is the constant of the getter. -/
theorem ConfigOption.get_set_iff (o : ConfigOption) (v : o.Value F D) (d : LibinputDevice F D) :
    ((o.set v (some d)).2 = 0 → o.get (o.set v (some d)).1 = o.normal v) ↔ o.ReadsBack v := by
  have haccept : ∀ {p q : Prop}, (p ↔ q) → (((0 : ℕ) = 0 → p) ↔ q) := fun h =>
    (forall_prop_of_true rfl).trans h
  cases o with
  | tapDragEnabled => exact haccept flag_eq_one
  | tapDragLockEnabled => exact haccept flag_eq_zero
  | scrollButton => exact haccept eq_comm
  | areaRectangle => exact haccept eq_comm
  | rotationAngle => exact haccept eq_comm
  | sendEventsMode => exact haccept eq_comm
  | calibrationMatrix =>
    refine iff_of_true ?_ trivial
    cases v with
    | none => exact fun h => absurd h one_ne_zero
    | some m => exact fun _ => rfl
  | threeFgDragEnabled => exact iff_of_true (fun h => absurd h one_ne_zero) trivial
  | scrollButtonLock => exact iff_of_true (fun h => absurd h one_ne_zero) trivial
  | clickfingerButtonMap => exact iff_of_true (fun h => absurd h one_ne_zero) trivial
  | dwtTimeout => exact iff_of_true (fun h => absurd h one_ne_zero) trivial
  | dwtpEnabled => exact iff_of_true (fun h => absurd h one_ne_zero) trivial
  | dwtpTimeout => exact iff_of_true (fun h => absurd h one_ne_zero) trivial
  | _ => exact iff_of_true (fun _ => rfl) trivial

/-- The values set on a device are those read back, until they are set again, exactly when no call
gives one of the six options without a field another value than its constant; calls that are
refused never change what is read. -/
theorem config_store_iff (d : LibinputDevice F D)
    (calls : List ((o : ConfigOption) × o.Value F D)) :
    ((configStore F D).GetAfterSet (some d) calls ∧ (configStore F D).FailureKeeps (some d) calls) ↔
      ∀ c ∈ calls, c.1.ReadsBack c.2 := by
  rw [and_iff_left (configStore_framed.failureKeeps _ _),configStore_framed.getAfterSet_iff]
  constructor
  · intro h c hc
    obtain ⟨front,back,rfl⟩ := List.append_of_mem hc
    obtain ⟨d',hd'⟩ := configStore_after d front
    have hcall := h front c back rfl
    beta_reduce at hcall
    rw [hd'] at hcall
    exact (c.1.get_set_iff c.2 d').mp hcall
  · rintro h front c back rfl
    obtain ⟨d',hd'⟩ := configStore_after d front
    rw [hd']
    exact (c.1.get_set_iff c.2 d').mpr (h c (by simp))

/-- Drag lock is switched on with success, and stays off. -/
theorem drag_lock_not_stored :
    ¬ (configStore ℚ ℚ).GetAfterSet (some (.new "Synaptics touchpad" "/dev/input/event5"))
      [⟨.tapDragLockEnabled,1⟩] := by
  intro h
  have := h [] .tapDragLockEnabled 1 [] [] rfl rfl atEach_nil
  exact absurd this (by decide)

/-- The calls that the backend's settings come from are calls of the store. -/
def SettingCall.option : SettingCall D → (o : ConfigOption) × o.Value F D
  | .tapSetEnabled enabled => ⟨.tapEnabled,enabled⟩
  | .scrollSetNaturalScrollEnabled enabled => ⟨.naturalScroll,enabled⟩
  | .dwtSetEnabled enabled => ⟨.dwtEnabled,enabled⟩
  | .accelSetSpeed speed => ⟨.accelSpeed,speed⟩

theorem SettingCall.call_option (c : SettingCall D) (d : LibinputDevice F D) :
    (configStore F D).call (some d) c.option = (some (c.apply d),[0]) := by
  cases c <;> rfl

/-- A sequence of them changes the device as the calls of a run do. -/
theorem configStore_after_settings (d : LibinputDevice F D) (cs : List (SettingCall D)) :
    (configStore F D).after (some d) (cs.map SettingCall.option) =
      some (cs.foldl (fun d c => c.apply d) d) := by
  induction cs generalizing d with
  | nil => rfl
  | cons c cs ih =>
    have hstep := congrArg Prod.fst (c.call_option d)
    rw [List.map_cons,OptionStore.after_cons]
    exact (congrArg (fun s => (configStore F D).after s _) hstep).trans (ih (c.apply d))

end LibinputRs
