import LibinputRs.Library.Paths

/-! What a device object advertises against what the tracked device was classified as: both are
computed once from the opened node, and no turn changes either. -/
namespace LibinputRs
open Automata

variable {F D : Type} [F32 F] [F64 D]

/-- The tracked device still is what its node was classified as, and its device object what the
node was advertised as. -/
structure Opened (ctx : LibinputContext F D) (td : TrackedDevice F D) : Prop where
  classified : td.identity =
    (.new td.device td.path td.libDevice : TrackedDevice F D).identity
  passes : passesFilters td.device = true
  advertised : ∃ dev, ctx.devices[td.libDevice]? = some dev ∧
    dev.capabilities = (.ofEvdev td.device td.path : LibinputDevice F D).capabilities

theorem Opened.keep {ctx ctx' : LibinputContext F D} {td td' : TrackedDevice F D}
    (h : Opened ctx td) (hid : td'.identity = td.identity) (hdevices : ctx.KeepsDevices ctx') :
    Opened ctx' td' := by
  have hdevice : td'.device = td.device := congrArg (·.1) hid
  have hpath := TrackedDevice.path_of_identity hid
  have hpointer := TrackedDevice.libDevice_of_identity hid
  obtain ⟨dev,hdev,hcap⟩ := h.advertised
  obtain ⟨dev',hdev',hcap'⟩ := hdevices _ dev hdev
  refine ⟨?_,hdevice ▸ h.passes,dev',hpointer ▸ hdev',?_⟩
  · rw [hid,h.classified,hdevice,hpath,hpointer]
  · rw [hcap',hcap,hdevice,hpath]

namespace LibinputContext

/-- Every tracked device is as it was opened. -/
def Advertised (ctx : LibinputContext F D) : Prop :=
  ∀ fd td, ctx.tracked fd = some td → Opened ctx td

theorem Advertised.shrinks {ctx ctx' : LibinputContext F D} (h : ctx.Advertised)
    (ht : DeviceTable.Shrinks ctx.tracked ctx'.tracked) (hdevices : ctx.KeepsDevices ctx') :
    ctx'.Advertised := by
  intro fd td' htd'
  obtain ⟨td,htd,hid⟩ := ht fd td' htd'
  exact (h fd td htd).keep hid hdevices

variable [FloatCast F D]

/-- A turn that admits no device only shrinks the table. -/
theorem Advertised.turn {ctx ctx' : LibinputContext F D} {o : List (Obs F D)} (h : ctx.Advertised)
    (hturn : Turn ctx o ctx') : ctx'.Advertised ∧ ctx.KeepsDevices ctx' := by
  have hsame : ctx.KeepsDevices ctx := .of_eq rfl
  cases hturn with
  | probeFailed fd hcb => exact ⟨h,hsame⟩
  | filtered fd device hpass => exact ⟨h,hsame⟩
  | alreadyTracked fd device path hpass ht =>
    have hpush : ctx.KeepsDevices { ctx with devices := ctx.devices ++ [.ofEvdev device path] } :=
      .push rfl
    exact ⟨h.shrinks (.refl _) hpush,hpush⟩
  | admitted fd device path hpass ht =>
    have hpush : ctx.KeepsDevices (({ ctx with devices := ctx.devices ++ [.ofEvdev device path] } :
        LibinputContext F D).setTracked fd (.new device path ctx.devices.length)) := .push rfl
    refine ⟨fun fd₁ td₁ ht₁ => ?_,hpush⟩
    rw [setTracked_tracked] at ht₁
    rcases DeviceTable.update_cases ht₁ with ⟨_,heq⟩ | ⟨_,ht₁⟩
    · obtain rfl := Option.some.inj heq
      exact ⟨rfl,hpass,.ofEvdev device path,by simp [TrackedDevice.new,setTracked],rfl⟩
    · exact (h fd₁ td₁ ht₁).keep rfl hpush
  | repeats fd td now ht =>
    refine ⟨h.shrinks ?_ (.of_eq rfl),.of_eq rfl⟩
    rw [setTracked_tracked]
    exact .update ht (TrackedDevice.emitKeyRepeats_identity now td)
  | event fd td typing te ht htyping =>
    refine ⟨h.shrinks ?_ (.of_eq rfl),.of_eq rfl⟩
    change DeviceTable.Shrinks ctx.tracked (ctx.setTracked fd _).tracked
    rw [setTracked_tracked]
    exact .update ht (TrackedDevice.processEvent_identity ..)
  | removed fd td ht =>
    refine ⟨h.shrinks ?_ (.of_eq rfl),.of_eq rfl⟩
    rw [eraseTracked_tracked]
    exact .erase ctx.tracked fd
  | client _ _ ho hview htyping hdevices =>
    refine ⟨h.shrinks ?_ hdevices,hdevices⟩
    rw [show ctx'.tracked = ctx.tracked from congrArg World.tracked hview]
    exact .refl _

omit [F32 F] [F64 D] [FloatCast F D] in
theorem new_advertised [F32 F] [F64 D] (interface : LibinputInterface) (inotify : Bool) :
    (new (F := F) (D := D) interface inotify).Advertised := by
  intro fd td ht
  cases ht

/-- In every state a run reaches, every tracked device is as it was opened. -/
theorem runCalls_advertised (interface : LibinputInterface) (inotify : Bool) (calls : List (Call D)) :
    ((new (F := F) interface inotify).runCalls calls).1.Advertised :=
  (runCalls_turns (new (F := F) interface inotify) calls).history
    (fun (_ : List (Obs F D)) (ctx : LibinputContext F D) => ctx.Advertised)
    (fun _ _ _ _ hadv hturn => (Advertised.turn hadv hturn).1) (new_advertised interface inotify)

end LibinputContext

namespace LibinputDevice

/-- Advertised neither as a keyboard nor as a touch device. -/
def isMouse (dev : LibinputDevice F D) : Bool := !dev.hasKeyboard && !dev.hasTouch

end LibinputDevice

/-- The devices that take the mouse route are those advertised neither as keyboards nor as touch
devices. -/
theorem Opened.isMouse_iff {ctx : LibinputContext F D} {td : TrackedDevice F D}
    (h : Opened ctx td) : ∃ dev, ctx.devices[td.libDevice]? = some dev ∧
      (dev.isMouse = true ↔
        td.isKeyboard = false ∧ td.isAbsolute = false ∧ td.isPointer = true) := by
  obtain ⟨dev,hdev,hcap⟩ := h.advertised
  refine ⟨dev,hdev,?_⟩
  have hpasses := h.passes
  have hclass := h.classified
  simp only [TrackedDevice.identity,TrackedDevice.new,Prod.mk.injEq] at hclass
  obtain ⟨-,-,habs,hkey,hpointer,-⟩ := hclass
  simp only [LibinputDevice.capabilities,LibinputDevice.ofEvdev,Prod.mk.injEq] at hcap
  obtain ⟨hkeyboard,-,htouch,-⟩ := hcap
  rw [LibinputDevice.isMouse,hkeyboard,htouch,habs,hkey,hpointer]
  cases hkeyA : td.device.hasKeyA with
  | true => simp
  | false =>
    have hadvertised : advertisedPointer td.device = true := by
      simpa [passesFilters,hkeyA] using (Bool.and_eq_true_iff.mp hpasses).2
    have hpointer' := hadvertised
    rw [advertisedPointer] at hpointer'
    simp [hadvertised,hpointer']

end LibinputRs
