import LibinputRs.Daemon.Reliable

/-! The wrapper on a virtual device that may refuse writes. A refused write ends the event where it
stands, and the loop goes on with the next one: a run is over the wrapper and the outcomes to come. -/
namespace LibinputRs
open Automata

variable {F : Type}

namespace DeviceWrapper

/-- The step leaves a reading of the wrapper as it was, whatever becomes of its writes. -/
def Keeps {α : Type} (read : DeviceWrapper F → α) (p : Step F) : Prop :=
  ∀ s, read (p s).1.1 = read s.1

namespace Keeps
variable {α : Type} {read : DeviceWrapper F → α} {p q : Step F}

theorem skip : Keeps read .skip := fun _ => rfl

theorem emitRaw (ev : InputEvent) : Keeps read (emitRaw ev) := fun _ => rfl

theorem modify {f : DeviceWrapper F → DeviceWrapper F} (hf : ∀ w, read (f w) = read w) :
    Keeps read (modify f) := fun s => hf s.1

/-- A second step that leaves the reading leaves that of the first. -/
theorem read_andThen (hq : Keeps read q) (p : Step F) (s : DeviceWrapper F × VirtualDevice) :
    read (p.andThen q s).1.1 = read (p s).1.1 := by
  cases h : p s with
  | mk t r =>
    obtain ⟨out,ok⟩ := r
    cases ok with
    | false => rw [Fallible.andThen_of_stop h]
    | true =>
      rw [Fallible.andThen_of_ok h]
      exact hq t

theorem andThen (hp : Keeps read p) (hq : Keeps read q) : Keeps read (p.andThen q) :=
  fun s => (hq.read_andThen p s).trans (hp s)

theorem ite {c : Prop} {_ : Decidable c} (hp : Keeps read p) (hq : Keeps read q) :
    Keeps read (if c then p else q) := by
  split_ifs
  · exact hp
  · exact hq

theorem emitTap : Keeps read emitTap := (emitRaw _).andThen ((emitRaw _).andThen (emitRaw _))

theorem emitRel (code : ℕ) (value : ℤ) : Keeps read (emitRel code value) := ite (emitRaw _) skip

theorem forwardButton (te : TimedEvent)
    (hread : ∀ (w : DeviceWrapper F) active, read { w with activeClickButton := active } = read w) :
    Keeps read (forwardButton te) := by
  intro s
  have hclick := mapClick_frame read hread te.ev.code te.ev.value s.1
  unfold DeviceWrapper.forwardButton
  dsimp only
  split_ifs <;> exact hclick

end Keeps

section Lifts
variable {cfg : InputConfig F} {te : TimedEvent} {dwt : Bool} {s : DeviceWrapper F × VirtualDevice}

/-- In the typing window no lift is a tap anyway. -/
theorem isTap_guarded (dwt : Bool) (now : Instant) (w : DeviceWrapper F) :
    (w.guarded dwt).isTap cfg dwt now = w.isTap cfg dwt now := by
  cases dwt with
  | false => rfl
  | true => simp [isTap]

theorem isTap_trackKey (te : TimedEvent) (dwt : Bool) (now : Instant) (w : DeviceWrapper F) :
    (w.trackKey te).isTap cfg dwt now = w.isTap cfg dwt now :=
  trackKey_frame (·.isTap cfg dwt now) (fun _ _ _ _ => rfl) te w

theorem emitRaw_apply (ev : InputEvent) (s : DeviceWrapper F × VirtualDevice) :
    emitRaw ev s = ((s.1,(VirtualDevice.emitRaw ev s.2).1),(VirtualDevice.emitRaw ev s.2).2.1,
      (VirtualDevice.emitRaw ev s.2).2.2) := rfl

/-- The next two writes are accepted. -/
theorem emitRaw_accepted {ev : InputEvent} {s : DeviceWrapper F × VirtualDevice}
    (h : ∀ n < 2,s.2.accepts n = true) :
    emitRaw ev s = ((s.1,⟨fun n => s.2.accepts (n + 2)⟩),accepted ev,true) := by
  have hfirst : VirtualDevice.writeRaw ev s.2 = (⟨fun n => s.2.accepts (n + 1)⟩,[⟨ev,true⟩],true) := by
    rw [VirtualDevice.writeRaw,h 0 (by decide)]
  have hsecond : VirtualDevice.writeRaw .synReport ⟨fun n => s.2.accepts (n + 1)⟩ =
      (⟨fun n => s.2.accepts (n + 2)⟩,[⟨.synReport,true⟩],true) := by
    rw [VirtualDevice.writeRaw,h 1 (by decide)]
  rw [emitRaw_apply,VirtualDevice.emitRaw,Fallible.andThen_of_ok hfirst,hsecond]
  rfl

/-- The click of a tap, all of whose writes are accepted. -/
theorem emitTap_accepted {s : DeviceWrapper F × VirtualDevice}
    (h : ∀ n < 6,s.2.accepts n = true) :
    emitTap s = ((s.1,⟨fun n => s.2.accepts (n + 6)⟩),tapWrites,true) := by
  rw [emitTap,Fallible.andThen_of_ok (emitRaw_accepted fun n hn => h n (by omega)),
    Fallible.andThen_of_ok (emitRaw_accepted fun n hn => h (n + 2) (by omega)),
    emitRaw_accepted fun n hn => h (n + 4) (by omega)]
  rfl

/-- A lift with a tap that is not cut short. -/
theorem touchUp_tap (te : TimedEvent) {dwt : Bool} {s : DeviceWrapper F × VirtualDevice}
    (htap : s.1.isTap cfg dwt te.now = true) (h : ∀ n < 6,s.2.accepts n = true) :
    touchUp te cfg dwt s = ((({ s.1 with touchActive := false } : DeviceWrapper F).resetTouch,
      ⟨fun n => s.2.accepts (n + 6)⟩),tapWrites,true) := by
  have htap' : ({ s.1 with touchActive := false } : DeviceWrapper F).isTap cfg dwt te.now = true :=
    htap
  have hemit := emitTap_accepted (s := (({ s.1 with touchActive := false } : DeviceWrapper F),s.2)) h
  rw [touchUp,if_pos htap',Fallible.andThen_of_ok hemit]
  rfl

theorem touchUp_quiet (te : TimedEvent) {dwt : Bool} {s : DeviceWrapper F × VirtualDevice}
    (htap : s.1.isTap cfg dwt te.now ≠ true) : touchUp te cfg dwt s =
      ((({ s.1 with touchActive := false } : DeviceWrapper F).resetTouch,s.2),[],true) := by
  have htap' : ({ s.1 with touchActive := false } : DeviceWrapper F).isTap cfg dwt te.now ≠ true :=
    htap
  rw [touchUp,if_neg htap',Fallible.skip_andThen]
  rfl

/-- If the event is a lift that taps, the six writes of the click are accepted. -/
def TapAccepted (cfg : InputConfig F) (s : DeviceWrapper F × VirtualDevice) (i : WrapperInput) :
    Prop :=
  i.te.ev.KeyWith KeyCode.btnTouch → i.te.ev.value = 0 →
    s.1.isTap cfg (dwtActive cfg i.typing i.te.now) i.te.now = true → ∀ n < 6,s.2.accepts n = true

instance (cfg : InputConfig F) (s : DeviceWrapper F × VirtualDevice) (i : WrapperInput) :
    Decidable (TapAccepted cfg s i) := inferInstanceAs (Decidable (_ → _ → _ → _))

end Lifts

variable [F32 F] {cfg : InputConfig F} {te : TimedEvent} {dwt : Bool}
  {s : DeviceWrapper F × VirtualDevice}

/-- One event of a wrapper, on a virtual device that may refuse writes. -/
def writeStep (cfg : InputConfig F) (s : DeviceWrapper F × VirtualDevice) (i : WrapperInput) :
    (DeviceWrapper F × VirtualDevice) × List Write :=
  ((processEvent cfg i.typing i.te s).1,(processEvent cfg i.typing i.te s).2.1)

theorem writeStep_isAbsolute (s : DeviceWrapper F × VirtualDevice) (i : WrapperInput) :
    (writeStep cfg s i).1.1.isAbsolute = s.1.isAbsolute :=
  congrArg (·.2.2.1) (processEvent_keeps cfg i.typing i.te s).1

theorem run_isAbsolute (s : DeviceWrapper F × VirtualDevice) (events : List WrapperInput) :
    (run (writeStep cfg) s events).1.1.isAbsolute = s.1.isAbsolute :=
  run_invariant (writeStep cfg) (fun t => t.1.isAbsolute = s.1.isAbsolute)
    (fun t i _ ht => (writeStep_isAbsolute t i).trans ht) rfl

theorem processEvent_absolute (cfg : InputConfig F) (typing : Option Instant) (te : TimedEvent)
    (habs : s.1.isAbsolute = true) : processEvent cfg typing te s =
      processAbsolute te cfg (dwtActive cfg typing te.now) (s.1.trackKey te,s.2) := by
  have habs' : (s.1.trackKey te).isAbsolute = true :=
    (congrArg (·.2.2.1) (trackKey_identity te s.1)).trans habs
  unfold processEvent
  dsimp only
  rw [habs',Bool.not_true,if_neg Bool.false_ne_true]

theorem processAbsolute_key (h : te.ev.eventType = .key) :
    processAbsolute te cfg dwt s = processKey te cfg dwt (s.1.guarded dwt,s.2) := by
  unfold processAbsolute guarded
  rw [h]

theorem processAbsolute_absolute (h : te.ev.eventType = .absolute) :
    processAbsolute te cfg dwt s = (((s.1.guarded dwt).processAxis te,s.2),[],true) := by
  unfold processAbsolute guarded
  rw [h]

theorem processAbsolute_synchronization (h : te.ev.eventType = .synchronization) :
    processAbsolute te cfg dwt s = processSyn te cfg dwt (s.1.guarded dwt,s.2) := by
  unfold processAbsolute guarded
  rw [h]

theorem processAbsolute_other (hkey : te.ev.eventType ≠ .key)
    (habs : te.ev.eventType ≠ .absolute) (hsyn : te.ev.eventType ≠ .synchronization) :
    processAbsolute te cfg dwt s = ((s.1.guarded dwt,s.2),[],true) := by
  unfold processAbsolute guarded
  cases htype : te.ev.eventType with
  | key => exact absurd htype hkey
  | absolute => exact absurd htype habs
  | synchronization => exact absurd htype hsyn
  | relative => rfl
  | other n => rfl

/-- A touch-down is a matter of the wrapper alone. -/
theorem processEvent_touchDown (cfg : InputConfig F) (typing : Option Instant)
    (habs : s.1.isAbsolute = true) (hev : te.ev.KeyWith KeyCode.btnTouch) (hvalue : te.ev.value ≠ 0) :
    processEvent cfg typing te s =
      ((((s.1.trackKey te).guarded (dwtActive cfg typing te.now)).touchDown te,s.2),[],true) := by
  rw [processEvent_absolute cfg typing te habs,processAbsolute_key hev.1,processKey,
    forwardButton_touch hev.2,Fallible.andThen_skip,processTouchKey,if_pos hev.2,if_pos hvalue]
  rfl

/-- A lift is that of the wrapper with its bookkeeping done. -/
theorem processEvent_touchUp (cfg : InputConfig F) (typing : Option Instant)
    (habs : s.1.isAbsolute = true) (hev : te.ev.KeyWith KeyCode.btnTouch) (hvalue : te.ev.value = 0) :
    processEvent cfg typing te s = touchUp te cfg (dwtActive cfg typing te.now)
      ((s.1.trackKey te).guarded (dwtActive cfg typing te.now),s.2) := by
  rw [processEvent_absolute cfg typing te habs,processAbsolute_key hev.1,processKey,
    forwardButton_touch hev.2,Fallible.andThen_skip,processTouchKey,if_pos hev.2,
    if_neg (not_not.mpr hvalue)]

end DeviceWrapper
end LibinputRs
