import LibinputRs.Backend.Turns

/-! Invariants of worlds. Every call is a sequence of ticks, so what each tick preserves holds
after every run of calls. -/
namespace LibinputRs

variable {F D : Type} [F32 F] [F64 D] [FloatCast F D]

section Invariants
open Automata

/-- Device pointers are allocated before use, no two tracked devices share one, and only plain
keyboards hold keys. -/
structure World.WellFormed (w : World F D) : Prop where
  allocated : ∀ fd td, w.tracked fd = some td → td.libDevice < w.devices
  distinct : ∀ fd fd' td td', w.tracked fd = some td → w.tracked fd' = some td' →
    td.libDevice = td'.libDevice → fd = fd'
  noKeys : ∀ fd td, w.tracked fd = some td → td.isAbsolute = true → td.heldKeys = []

omit [F32 F] [F64 D] [FloatCast F D] in
/-- Different entries are different devices. -/
theorem World.WellFormed.libDevice_ne {w : World F D} (h : w.WellFormed) {fd fd' : RawFd}
    {td td' : TrackedDevice F D} (ht : w.tracked fd = some td) (ht' : w.tracked fd' = some td')
    (hne : fd' ≠ fd) : td'.libDevice ≠ td.libDevice :=
  fun heq => hne (h.distinct fd' fd td' td ht' ht heq)

omit [F32 F] [F64 D] [FloatCast F D] in
/-- Updating the tracking state of a device keeps the table well formed. -/
theorem World.WellFormed.set {w : World F D} (h : w.WellFormed) {fd : RawFd}
    {td td' : TrackedDevice F D} (htd : w.tracked fd = some td)
    (hid : td'.identity = td.identity) (hkeys : td'.isAbsolute = true → td'.heldKeys = []) :
    (w.set fd (some td')).WellFormed := by
  have hback : ∀ fd₁ td₁, (w.set fd (some td')).tracked fd₁ = some td₁ →
      ∃ td₀, w.tracked fd₁ = some td₀ ∧ td₁.libDevice = td₀.libDevice := by
    intro fd₁ td₁ h₁
    rcases World.tracked_set h₁ with ⟨rfl,heq⟩ | ⟨_,h₁⟩
    · obtain rfl := Option.some.inj heq
      exact ⟨td,htd,TrackedDevice.libDevice_of_identity hid⟩
    · exact ⟨td₁,h₁,rfl⟩
  constructor
  · intro fd₁ td₁ h₁
    obtain ⟨td₀,h₀,heq⟩ := hback fd₁ td₁ h₁
    exact heq ▸ h.allocated fd₁ td₀ h₀
  · intro fd₁ fd₂ td₁ td₂ h₁ h₂ heq
    obtain ⟨td₃,h₃,heq₃⟩ := hback fd₁ td₁ h₁
    obtain ⟨td₄,h₄,heq₄⟩ := hback fd₂ td₂ h₂
    exact h.distinct fd₁ fd₂ td₃ td₄ h₃ h₄ (heq₃ ▸ heq₄ ▸ heq)
  · intro fd₁ td₁ h₁
    rcases World.tracked_set h₁ with ⟨_,heq⟩ | ⟨_,h₁⟩
    · obtain rfl := Option.some.inj heq
      exact hkeys
    · exact h.noKeys fd₁ td₁ h₁

/-- Every handler leaves the held keys of an absolute device alone. -/
theorem processEvent_noKeys (cfg : Settings F) (typing : Option Instant)
    (s : TrackedDevice F D × Option Instant) (te : TimedEvent)
    (h : s.1.isAbsolute = true → s.1.heldKeys = [])
    (habs : (TrackedDevice.processEvent cfg typing s te).1.1.isAbsolute = true) :
    (TrackedDevice.processEvent cfg typing s te).1.1.heldKeys = [] := by
  have hid := TrackedDevice.processEvent_identity cfg typing s te
  have hsame : s.1.isAbsolute = true := (congrArg (·.2.2.1) hid).symm.trans habs
  rcases TrackedDevice.processEvent_cases cfg typing s te with
    ⟨_,hplain,_⟩ | ⟨_,hplain,_,_⟩ | ⟨_,dwt,_,heq⟩ | ⟨_,hplain,_,_⟩
  · simp [hplain] at hsame
  · simp [hplain] at hsame
  · rw [heq]
    exact (TrackedDevice.heldKeys_of_keyState
      (TrackedDevice.processAbsoluteEvent_step te _ _ _ dwt s.1).keyState).trans (h hsame)
  · simp [hplain] at hsame

omit [F32 F] [F64 D] [FloatCast F D] in
theorem emitKeyRepeats_of_noKeys (now : Instant) (td : TrackedDevice F D)
    (h : td.heldKeys = []) : td.emitKeyRepeats now = (td,[]) := by
  unfold TrackedDevice.emitKeyRepeats
  split_ifs
  · rfl
  · cases td
    cases h
    rfl

theorem Tick.wellFormed {w w' : World F D} {o : List (Obs F D)} (h : Tick w o w')
    (hw : w.WellFormed) : w'.WellFormed := by
  cases h.kind with
  | silent o w' hsilent htracked hdevices =>
    constructor
    · exact fun fd td ht => (hw.allocated fd td (htracked ▸ ht)).trans_le hdevices
    · rw [htracked]
      exact hw.distinct
    · rw [htracked]
      exact hw.noKeys
  | admitted fd device path ht =>
    constructor
    · intro fd₁ td₁ h₁
      rcases World.tracked_set h₁ with ⟨_,heq⟩ | ⟨_,h₁⟩
      · obtain rfl := Option.some.inj heq
        exact Nat.lt_succ_self w.devices
      · exact (hw.allocated fd₁ td₁ h₁).trans (Nat.lt_succ_self _)
    · intro fd₁ fd₂ td₁ td₂ h₁ h₂ heq
      rcases World.tracked_set h₁ with ⟨hfd₁,heq₁⟩ | ⟨_,h₁⟩ <;>
        rcases World.tracked_set h₂ with ⟨hfd₂,heq₂⟩ | ⟨_,h₂⟩
      · exact hfd₁.trans hfd₂.symm
      · obtain rfl := Option.some.inj heq₁
        exact absurd heq (hw.allocated fd₂ td₂ h₂).ne'
      · obtain rfl := Option.some.inj heq₂
        exact absurd heq (hw.allocated fd₁ td₁ h₁).ne
      · exact hw.distinct fd₁ fd₂ td₁ td₂ h₁ h₂ heq
    · intro fd₁ td₁ h₁
      rcases World.tracked_set h₁ with ⟨_,heq⟩ | ⟨_,h₁⟩
      · obtain rfl := Option.some.inj heq
        exact fun _ => rfl
      · exact hw.noKeys fd₁ td₁ h₁
  | repeats fd td now ht =>
    have hid := TrackedDevice.emitKeyRepeats_identity (D := D) now td
    refine hw.set ht hid fun habs => ?_
    have hnone := hw.noKeys fd td ht ((congrArg (·.2.2.1) hid).symm.trans habs)
    rw [emitKeyRepeats_of_noKeys now td hnone]
    exact hnone
  | event fd td cfg typing live te ht =>
    exact hw.set ht (TrackedDevice.processEvent_identity cfg typing (td,live) te)
      (processEvent_noKeys cfg typing (td,live) te (hw.noKeys fd td ht))
  | removed fd td ht =>
    have hback : ∀ fd₁ td₁, (w.set fd none).tracked fd₁ = some td₁ →
        w.tracked fd₁ = some td₁ := by
      intro fd₁ td₁ h₁
      rcases World.tracked_set h₁ with ⟨_,heq⟩ | ⟨_,h₁⟩
      · cases heq
      · exact h₁
    exact ⟨fun fd₁ td₁ h₁ => hw.allocated fd₁ td₁ (hback fd₁ td₁ h₁),
      fun fd₁ fd₂ td₁ td₂ h₁ h₂ => hw.distinct fd₁ fd₂ td₁ td₂ (hback _ _ h₁) (hback _ _ h₂),
      fun fd₁ td₁ h₁ => hw.noKeys fd₁ td₁ (hback fd₁ td₁ h₁)⟩

omit [F32 F] [F64 D] [FloatCast F D] in
theorem LibinputContext.new_wellFormed (interface : LibinputInterface) (inotify : Bool) :
    (LibinputContext.new (F := F) (D := D) interface inotify).view.WellFormed :=
  have hnone : ∀ fd, (LibinputContext.new (F := F) (D := D) interface inotify).view.tracked fd =
      none := fun _ => rfl
  ⟨fun fd td h => by simp [hnone] at h,fun fd fd' td td' h => by simp [hnone] at h,
    fun fd td h => by simp [hnone] at h⟩

/-- Ticks make devices and take none away. -/
theorem Tick.devices_le {w w' : World F D} {o : List (Obs F D)} (h : Tick w o w') :
    w.devices ≤ w'.devices := by
  cases h with
  | alreadyTracked fd device hpass ht => exact Nat.le_succ _
  | admitted fd device path hpass ht => exact Nat.le_succ _
  | _ => exact le_rfl

theorem Ticks.devices_le {w w' : World F D} {o : List (Obs F D)} (h : Ticks w o w') :
    w.devices ≤ w'.devices :=
  h.history (fun _ w' => w.devices ≤ w'.devices) (fun _ _ _ _ hI ht => hI.trans ht.devices_le) le_rfl

theorem Ticks.wellFormed {w w' : World F D} {o : List (Obs F D)} (h : Ticks w o w')
    (hw : w.WellFormed) : w'.WellFormed :=
  h.history (fun _ w => w.WellFormed) (fun _ _ _ _ hI ht => ht.wellFormed hI) hw

theorem LibinputContext.handleHotplug_wellFormed {ctx : LibinputContext F D}
    (hw : ctx.view.WellFormed) (inotify : Option (List InotifyEvent)) :
    (ctx.handleHotplug inotify).1.view.WellFormed :=
  (handleHotplug_turns ctx inotify).ticks.wellFormed hw

/-- Every state a new context reaches is well formed. -/
theorem LibinputContext.runCalls_wellFormed (interface : LibinputInterface) (inotify : Bool)
    (calls : List (Call D)) :
    ((LibinputContext.new (F := F) interface inotify).runCalls calls).1.view.WellFormed :=
  (runCalls_ticks _ calls).wellFormed (new_wellFormed interface inotify)

/-- What holds initially and is kept by every tick out of a well-formed world, with what it
outputs, holds after all ticks of a new context. -/
theorem Ticks.history_new {interface : LibinputInterface} {inotify : Bool}
    {out : List (Obs F D)} {w : World F D}
    (h : Ticks (LibinputContext.new interface inotify).view out w)
    (I : List (Obs F D) → World F D → Prop)
    (hinit : I [] (LibinputContext.new interface inotify).view)
    (hstep : ∀ out w o w', w.WellFormed → I out w → Tick w o w' → I (out ++ o) w') :
    w.WellFormed ∧ I out w :=
  h.history (fun out w => w.WellFormed ∧ I out w)
    (fun out w o w' hI ht => ⟨ht.wellFormed hI.1,hstep out w o w' hI.1 hI.2 ht⟩)
    ⟨LibinputContext.new_wellFormed interface inotify,hinit⟩

/-- The same after every run of calls. -/
theorem LibinputContext.runCalls_history (I : List (Obs F D) → World F D → Prop)
    (interface : LibinputInterface) (inotify : Bool)
    (hinit : I [] (LibinputContext.new interface inotify).view)
    (hstep : ∀ out w o w', w.WellFormed → I out w → Tick w o w' → I (out ++ o) w')
    (calls : List (Call D)) :
    I ((LibinputContext.new interface inotify).runCalls calls).2
      ((LibinputContext.new interface inotify).runCalls calls).1.view :=
  (Ticks.history_new (runCalls_ticks _ calls) I hinit hstep).2

/-- What holds of a new context and is kept by every turn, with what it outputs, holds after all
turns of it. -/
theorem Turns.history_new {interface : LibinputInterface} {inotify : Bool}
    {out : List (Obs F D)} {ctx : LibinputContext F D}
    (h : Turns (LibinputContext.new interface inotify) out ctx)
    (I : List (Obs F D) → LibinputContext F D → Prop)
    (hinit : I [] (LibinputContext.new interface inotify))
    (hstep : ∀ out ctx o ctx', ctx.view.WellFormed → I out ctx → Turn ctx o ctx' →
      I (out ++ o) ctx') : ctx.view.WellFormed ∧ I out ctx :=
  h.history (fun out ctx => ctx.view.WellFormed ∧ I out ctx)
    (fun out ctx o ctx' hI ht => ⟨ht.ticks.wellFormed hI.1,hstep out ctx o ctx' hI.1 hI.2 ht⟩)
    ⟨LibinputContext.new_wellFormed interface inotify,hinit⟩

end Invariants
end LibinputRs
