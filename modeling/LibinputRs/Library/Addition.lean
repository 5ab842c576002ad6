import LibinputRs.Library.Paths

/-! What `libinput_path_add_device` returns and what it leaves behind. Success is read off the
end of the device list, which also holds devices of earlier calls, and one refusal comes after
the device object was pushed. -/
namespace LibinputRs

variable {F D : Type}

namespace LibinputContext

/-- The addition went through: a fresh device, listed, tracked and announced once. -/
structure Added (ctx ctx' : LibinputContext F D) (path : PathBuf) (d : DevicePtr) : Prop where
  fresh : d = ctx.devices.length
  listed : ∃ dev : LibinputDevice F D, ctx'.devices = ctx.devices ++ [dev] ∧ dev.devnode = path
  tracked : ∃ fd td, ctx'.tracked fd = some td ∧ td.libDevice = d ∧ td.path = path
  queue : ctx'.eventQueue = ctx.eventQueue ++ [.added d]

/-- Nothing was added. -/
structure Unchanged (ctx ctx' : LibinputContext F D) : Prop where
  devices : ctx'.devices = ctx.devices
  tracked : ctx'.backend.devices = ctx.backend.devices
  queue : ctx'.eventQueue = ctx.eventQueue

variable [F32 F] [F64 D]

/-- A call of `libinput_path_add_device` succeeds as a whole or returns null and changes
nothing. -/
def AllOrNothing (ctx : LibinputContext F D) (path : PathBuf) (r : OpenResult) : Prop :=
  let ctx' := (ctx.libinputPathAddDevice path r).1
  match ctx'.addedDevice with
  | some d => Added ctx ctx' path d
  | none => Unchanged ctx ctx'

omit [F32 F] [F64 D] in
theorem addedDevice_eq_none (ctx : LibinputContext F D) :
    ctx.addedDevice = none ↔ ctx.devices = [] := by
  simp [addedDevice]

omit [F32 F] [F64 D] in
theorem addedDevice_of_push {ctx ctx' : LibinputContext F D} {dev : LibinputDevice F D}
    (h : ctx'.devices = ctx.devices ++ [dev]) : ctx'.addedDevice = some ctx.devices.length := by
  simp [addedDevice,h]

/-- The three outcomes of a call: refused before anything was allocated, refused because the
descriptor is tracked already, added. -/
theorem libinputPathAddDevice_cases (ctx : LibinputContext F D) (path : PathBuf) (r : OpenResult) :
    (¬ OpensNode ctx.interface (path,r) ∧ (ctx.libinputPathAddDevice path r).1 = ctx) ∨
    (OpensNode ctx.interface (path,r) ∧ ctx.tracked r.rawFd ≠ none ∧
      ∃ dev : LibinputDevice F D, dev.devnode = path ∧
        (ctx.libinputPathAddDevice path r).1 = { ctx with devices := ctx.devices ++ [dev] }) ∨
    (OpensNode ctx.interface (path,r) ∧ ctx.tracked r.rawFd = none ∧
      Added ctx (ctx.libinputPathAddDevice path r).1 path ctx.devices.length) := by
  have hcall : (ctx.libinputPathAddDevice path r).1 = { (ctx.tryOpen path r).1 with
      eventQueue := (ctx.tryOpen path r).1.eventQueue ++ produced (ctx.tryOpen path r).2 } := rfl
  rcases tryOpen_outcomes ctx path r with ⟨hnot,h,hp⟩ | ⟨hopens,ht,device,h,hp⟩ |
    ⟨hopens,ht,device,h,hp⟩
  · refine .inl ⟨hnot,?_⟩
    rw [hcall,h,hp,List.append_nil]
  · refine .inr (.inl ⟨hopens,ht,.ofEvdev device path,rfl,?_⟩)
    rw [hcall,h,hp,List.append_nil]
  · refine .inr (.inr ⟨hopens,ht,?_⟩)
    rw [hcall,h,hp]
    exact ⟨rfl,⟨.ofEvdev device path,rfl,rfl⟩,
      ⟨r.rawFd,.new device path ctx.devices.length,AList.lookup_insert _,rfl,rfl⟩,rfl⟩

/-- A call is all or nothing exactly when it adds the device, or refuses it before the device
object is allocated while no device was ever added. -/
theorem allOrNothing_iff (ctx : LibinputContext F D) (path : PathBuf) (r : OpenResult) :
    AllOrNothing ctx path r ↔
      (OpensNode ctx.interface (path,r) ∧ ctx.tracked r.rawFd = none) ∨
      (¬ OpensNode ctx.interface (path,r) ∧ ctx.devices = []) := by
  unfold AllOrNothing
  rcases libinputPathAddDevice_cases ctx path r with ⟨hnot,h⟩ | ⟨hopens,ht,dev,_,h⟩ | ⟨hopens,ht,h⟩
  · dsimp only
    rw [h]
    simp only [hnot,false_and,not_false_eq_true,true_and,false_or]
    rw [← addedDevice_eq_none]
    cases hadded : ctx.addedDevice with
    | none => exact iff_of_true ⟨rfl,rfl,rfl⟩ rfl
    | some d =>
      refine iff_of_false (fun hadd => ?_) (by simp)
      simpa using hadd.queue
  · dsimp only
    rw [h,addedDevice_of_push rfl]
    refine iff_of_false (fun hadd => ?_) ?_
    · simpa using hadd.queue
    · simp [hopens,ht]
  · obtain ⟨dev,hlisted,_⟩ := h.listed
    dsimp only
    rw [addedDevice_of_push hlisted]
    exact iff_of_true h (.inl ⟨hopens,ht⟩)

/-- A node that cannot be opened, added after a keyboard: the keyboard is returned. -/
theorem refused_addition_returns_keyboard :
    ¬ AllOrNothing ((new (F := ℚ) (D := ℚ) ⟨true,true⟩ false).libinputPathAddDevice
      "/dev/input/event3" ⟨5,some plainKeyboard⟩).1 "/dev/input/event4" ⟨-1,none⟩ := by
  intro h
  have hadd : Added _ _ "/dev/input/event4" 0 := h
  exact absurd hadd.fresh (by decide +kernel)

end LibinputContext
end LibinputRs
