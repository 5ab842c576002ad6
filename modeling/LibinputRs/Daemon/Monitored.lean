import LibinputRs.Daemon.FailedWrites
import LibinputRs.Daemon.Typing

/-! Devices that are only monitored. A keyboard is opened without a grab, for the typing time alone,
but what `process_event` forwards does not depend on the grab: the test is whether the device has
absolute axes. -/
namespace LibinputRs
open Automata

variable {F : Type}

/-- A write of a key or of a relative axis. -/
def Write.IsInput (x : Write) : Prop := x.ev.eventType = .key ∨ x.ev.eventType = .relative

instance : DecidablePred Write.IsInput := fun _ => inferInstanceAs (Decidable (_ ∨ _))

namespace DeviceWrapper

/-- The key event is the lift of a tap, or one of a button that is forwarded. -/
def ForwardsKey (cfg : InputConfig F) (dwt : Bool) (te : TimedEvent) (w : DeviceWrapper F) : Prop :=
  te.ev.eventType = .key ∧
    (te.ev.code = KeyCode.btnTouch ∧ te.ev.value = 0 ∧ w.isTap cfg dwt te.now = true ∨
      isTouchpadButton (w.mapClick te.ev.code te.ev.value).2 = true)

variable [F32 F]

/-- What the end of a frame rounds for the pointer and for the wheel. -/
def pointerTotal (cfg : InputConfig F) (displacement : ℤ) (remainder : F) : F :=
  F32.ofI32 displacement * hardwareScale * cfg.pointerAcceleration + remainder

def wheelTotal (displacement : ℤ) (remainder : F) : F :=
  F32.ofI32 displacement * wheelScale + remainder

/-- The event ends a frame outside the typing window, and the displacement of the frame rounds to a
motion of the pointer or the wheel. -/
def MovesSomething (cfg : InputConfig F) (dwt : Bool) (te : TimedEvent) (w : DeviceWrapper F) :
    Prop :=
  te.ev.IsReport ∧ dwt = false ∧ (w.currentDx ≠ 0 ∨ w.currentDy ≠ 0) ∧
    (w.touchFingers ≤ 1 ∧ (F32.roundToI32 (pointerTotal cfg w.currentDx w.remainderX) ≠ 0 ∨
        F32.roundToI32 (pointerTotal cfg w.currentDy w.remainderY) ≠ 0) ∨
      w.touchFingers = 2 ∧ F32.roundToI32 (wheelTotal w.currentDy w.remainderY) ≠ 0)

/-- The event is one that `process_event` makes a key or a motion of: on a device without absolute
axes any key and any relative event, on a touchpad a tap, a click or a motion. -/
def Emits (cfg : InputConfig F) (typing : Option Instant) (te : TimedEvent) (w : DeviceWrapper F) :
    Prop :=
  if w.isAbsolute = true then
    w.ForwardsKey cfg (dwtActive cfg typing te.now) te ∨
      w.MovesSomething cfg (dwtActive cfg typing te.now) te
  else te.ev.eventType = .key ∨ te.ev.eventType = .relative

section Outputs
variable {s : DeviceWrapper F × VirtualDevice} {te : TimedEvent} {cfg : InputConfig F} {dwt : Bool}

omit [F32 F] in
/-- An event is written, whatever becomes of it. -/
theorem emitRaw_outputs_iff (ev : InputEvent) : (emitRaw ev).Outputs Write.IsInput s ↔
    ev.eventType = .key ∨ ev.eventType = .relative := by
  unfold Fallible.Outputs
  rw [emitRaw_out]
  split_ifs <;> simp [Write.IsInput,InputEvent.synReport,InputEvent.new]

omit [F32 F] in
theorem emitTap_outputs : (emitTap (F := F)).Outputs Write.IsInput s :=
  Fallible.outputs_andThen_iff.mpr (.inl ((emitRaw_outputs_iff _).mpr (.inl rfl)))

omit [F32 F] in
theorem touchUp_outputs_iff : (touchUp te cfg dwt).Outputs Write.IsInput s ↔
    s.1.isTap cfg dwt te.now = true := by
  have htap : ({ s.1 with touchActive := false } : DeviceWrapper F).isTap cfg dwt te.now =
      s.1.isTap cfg dwt te.now := rfl
  change Fallible.Outputs Write.IsInput (Fallible.andThen (if ({ s.1 with touchActive := false } :
    DeviceWrapper F).isTap cfg dwt te.now then emitTap else .skip) (modify resetTouch)) _ ↔ _
  rw [htap,Fallible.outputs_andThen_iff,Fallible.outputs_ite_iff]
  simp [modify,emitTap_outputs]

omit [F32 F] in
theorem forwardButton_outputs_iff : (forwardButton te).Outputs Write.IsInput s ↔
    isTouchpadButton (s.1.mapClick te.ev.code te.ev.value).2 = true := by
  have hforward : (forwardButton te s).2 =
      if isTouchpadButton (s.1.mapClick te.ev.code te.ev.value).2 then
        (emitRaw (.new .key (s.1.mapClick te.ev.code te.ev.value).2 te.ev.value)
          ((s.1.mapClick te.ev.code te.ev.value).1,s.2)).2 else ([],true) := by
    unfold forwardButton
    dsimp only
    split_ifs <;> rfl
  unfold Fallible.Outputs
  rw [hforward]
  split_ifs with hbutton
  · exact iff_of_true ((emitRaw_outputs_iff _).mpr (.inl rfl)) hbutton
  · exact iff_of_false (by simp) hbutton

omit [F32 F] in
/-- A key event comes through as a tap, or as the button that it is mapped to. -/
theorem processKey_outputs_iff (hkey : te.ev.eventType = .key) :
    (processKey te cfg dwt).Outputs Write.IsInput s ↔ s.1.ForwardsKey cfg dwt te := by
  have hother : ∀ w : DeviceWrapper F, te.ev.code ≠ KeyCode.btnLeft →
      (w.mapClick te.ev.code te.ev.value).2 = te.ev.code := by
    intro w hleft
    rw [mapClick,if_neg hleft]
  unfold ForwardsKey
  rw [and_iff_right hkey]
  by_cases htouch : te.ev.code = KeyCode.btnTouch
  · have hbutton : isTouchpadButton (s.1.mapClick te.ev.code te.ev.value).2 ≠ true := by
      rw [hother _ (by rw [htouch]; decide),htouch]
      decide
    rw [processKey,forwardButton_touch htouch,Fallible.andThen_skip,processTouchKey,if_pos htouch,
      or_iff_left hbutton,and_iff_right htouch,Fallible.outputs_ite_iff,touchUp_outputs_iff]
    simp [modify]
  · -- the finger count may change, which is nothing to a button other than the left one
    have hquiet : ∃ w', processTouchKey te cfg dwt s = ((w',s.2),[],true) ∧
        (w'.mapClick te.ev.code te.ev.value).2 = (s.1.mapClick te.ev.code te.ev.value).2 := by
      rw [processTouchKey,if_neg htouch]
      by_cases hdouble : te.ev.code = KeyCode.btnToolDoubletap
      · have hleft : te.ev.code ≠ KeyCode.btnLeft := by
          rw [hdouble]
          decide
        rw [if_pos hdouble]
        exact ⟨_,rfl,(hother _ hleft).trans (hother _ hleft).symm⟩
      rw [if_neg hdouble]
      by_cases htriple : te.ev.code = KeyCode.btnToolTripletap
      · have hleft : te.ev.code ≠ KeyCode.btnLeft := by
          rw [htriple]
          decide
        rw [if_pos htriple]
        exact ⟨_,rfl,(hother _ hleft).trans (hother _ hleft).symm⟩
      rw [if_neg htriple]
      exact ⟨s.1,rfl,rfl⟩
    obtain ⟨w',hstep,hsame⟩ := hquiet
    have hnone : ¬ (processTouchKey te cfg dwt).Outputs Write.IsInput s :=
      Fallible.not_outputs_of_nil hstep
    rw [processKey,Fallible.outputs_andThen_iff,or_iff_right hnone,hstep,forwardButton_outputs_iff,
      hsame]
    simp [htouch]

theorem motionFrame_outputs_iff : (motionFrame cfg).Outputs Write.IsInput s ↔
    F32.roundToI32 (pointerTotal cfg s.1.currentDx s.1.remainderX) ≠ 0 ∨
      F32.roundToI32 (pointerTotal cfg s.1.currentDy s.1.remainderY) ≠ 0 := by
  have hrel : ∀ (code : ℕ) (value : ℤ) (t : DeviceWrapper F × VirtualDevice),
      (emitRel code value).Outputs Write.IsInput t ↔ value ≠ 0 := by
    intro code value t
    rw [emitRel,Fallible.outputs_ite_iff,emitRaw_outputs_iff]
    simp [InputEvent.new]
  change Fallible.Outputs Write.IsInput (Fallible.andThen
    (emitRel _ (F32.roundToI32 (pointerTotal cfg s.1.currentDx s.1.remainderX)))
    (emitRel _ (F32.roundToI32 (pointerTotal cfg s.1.currentDy s.1.remainderY)))) _ ↔ _
  rw [Fallible.outputs_andThen_iff,hrel,hrel]
  refine or_congr_right' fun hX => and_iff_right ?_
  -- an axis that does not move is skipped
  rw [emitRel,if_neg hX]
  rfl

theorem scrollFrame_outputs_iff : (scrollFrame cfg).Outputs Write.IsInput s ↔
    F32.roundToI32 (wheelTotal s.1.currentDy s.1.remainderY) ≠ 0 := by
  change Fallible.Outputs Write.IsInput (Fallible.andThen
    (if F32.roundToI32 (wheelTotal s.1.currentDy s.1.remainderY) ≠ 0 then emitRaw _ else .skip)
    (modify _)) _ ↔ _
  rw [Fallible.outputs_andThen_iff,Fallible.outputs_ite_iff,emitRaw_outputs_iff]
  simp [modify,InputEvent.new]

theorem movementFrame_outputs_iff : (movementFrame cfg).Outputs Write.IsInput s ↔
    s.1.touchFingers ≤ 1 ∧ (F32.roundToI32 (pointerTotal cfg s.1.currentDx s.1.remainderX) ≠ 0 ∨
        F32.roundToI32 (pointerTotal cfg s.1.currentDy s.1.remainderY) ≠ 0) ∨
      s.1.touchFingers = 2 ∧ F32.roundToI32 (wheelTotal s.1.currentDy s.1.remainderY) ≠ 0 := by
  change Fallible.Outputs Write.IsInput (Fallible.andThen (if s.1.touchFingers ≤ 1 then
    motionFrame cfg else if s.1.touchFingers = 2 then scrollFrame cfg else .skip)
    (modify clearDisplacement)) ({ s.1 with tapEmitted := true },s.2) ↔ _
  rw [Fallible.outputs_andThen_iff,Fallible.outputs_ite_iff,Fallible.outputs_ite_iff,
    motionFrame_outputs_iff,scrollFrame_outputs_iff]
  simp only [modify,Fallible.not_outputs_update,Fallible.not_outputs_skip,and_false,or_false]
  refine or_congr_right ⟨And.right,fun h => ⟨by omega,h⟩⟩

/-- The end of a frame comes through as the motion of the frame. -/
theorem processSyn_outputs_iff (hsyn : te.ev.eventType = .synchronization) :
    (processSyn te cfg dwt).Outputs Write.IsInput s ↔ s.1.MovesSomething cfg dwt te := by
  have hraw : ∀ t : DeviceWrapper F × VirtualDevice,¬ (emitRaw te.ev).Outputs Write.IsInput t := by
    simp [emitRaw_outputs_iff,hsyn]
  have hend : ∀ (c : Bool) (t : DeviceWrapper F × VirtualDevice),
      ¬ (if c then emitRaw te.ev else .skip : Step F).Outputs Write.IsInput t := by
    simp [Fallible.outputs_ite_iff,hraw]
  unfold MovesSomething
  by_cases hcode : te.ev.code = 0
  · have hreport : te.ev.IsReport := ⟨hsyn,hcode⟩
    have hframe : (processSyn te cfg dwt).Outputs Write.IsInput s ↔
        Fallible.Outputs Write.IsInput (if dwt = true then modify discardFrame
          else if decide (s.1.currentDx ≠ 0 ∨ s.1.currentDy ≠ 0) = true then movementFrame cfg
          else .skip) s := by
      have hstep : processSyn te cfg dwt s = Fallible.andThen (if dwt = true then
          modify discardFrame else if decide (s.1.currentDx ≠ 0 ∨ s.1.currentDy ≠ 0) = true then
          movementFrame cfg else .skip) (if decide (s.1.currentDx ≠ 0 ∨ s.1.currentDy ≠ 0) || !dwt
          then emitRaw te.ev else .skip) s := by
        rw [processSyn,if_neg (not_not.mpr hcode)]
      rw [Fallible.outputs_congr hstep,Fallible.outputs_andThen_iff]
      exact or_iff_left fun h => hend _ _ h.2
    rw [hframe,Fallible.outputs_ite_iff,Fallible.outputs_ite_iff,movementFrame_outputs_iff]
    simp [hreport,modify]
  · have hstep : processSyn te cfg dwt s = emitRaw te.ev s := by
      rw [processSyn,if_pos hcode]
    rw [Fallible.outputs_congr hstep]
    exact iff_of_false (hraw s) fun h => hcode h.1.2

omit [F32 F] in
/-- The code of a click depends on the fingers counted and on the button being clicked. -/
theorem mapClick_code {w w' : DeviceWrapper F} (hfingers : w'.touchFingers = w.touchFingers)
    (hactive : w'.activeClickButton = w.activeClickButton) (code : ℕ) (value : ℤ) :
    (w'.mapClick code value).2 = (w.mapClick code value).2 := by
  unfold mapClick
  rw [hfingers,hactive]
  by_cases hleft : code = KeyCode.btnLeft
  · rw [if_pos hleft,if_pos hleft]
    by_cases hdown : value ≠ 0
    · rw [if_pos hdown,if_pos hdown]
    · rw [if_neg hdown,if_neg hdown]
  · rw [if_neg hleft,if_neg hleft]

omit [F32 F] in
/-- The bookkeeping of a key event is nothing to what is forwarded. -/
theorem forwardsKey_tracked (w : DeviceWrapper F) : ((w.trackKey te).guarded dwt).ForwardsKey cfg
    dwt te ↔ w.ForwardsKey cfg dwt te := by
  have hclick := mapClick_code (found_frame (·.touchFingers) (fun _ _ _ _ _ => rfl) te dwt w)
    (found_frame (·.activeClickButton) (fun _ _ _ _ _ => rfl) te dwt w) te.ev.code te.ev.value
  unfold ForwardsKey
  rw [hclick,isTap_guarded,isTap_trackKey]

/-- For every device, event and state: it makes a key or a motion of the event exactly if the event
is one of those. -/
theorem processEvent_outputs_iff (cfg : InputConfig F) (typing : Option Instant) (te : TimedEvent)
    (s : DeviceWrapper F × VirtualDevice) :
    (processEvent cfg typing te).Outputs Write.IsInput s ↔ s.1.Emits cfg typing te := by
  unfold Emits
  by_cases habs : s.1.isAbsolute = true
  · rw [if_pos habs,Fallible.outputs_congr (processEvent_absolute cfg typing te habs)]
    generalize dwtActive cfg typing te.now = dwt
    by_cases hkey : te.ev.eventType = .key
    · have hreport : ¬ s.1.MovesSomething cfg dwt te := fun h => by
        simp [h.1.1] at hkey
      rw [Fallible.outputs_congr (processAbsolute_key hkey),processKey_outputs_iff hkey,
        or_iff_left hreport,forwardsKey_tracked]
    have hforward : ¬ s.1.ForwardsKey cfg dwt te := fun h => hkey h.1
    have htrack : s.1.trackKey te = s.1 := by
      rw [trackKey,if_neg hkey]
    rw [or_iff_right hforward,htrack]
    by_cases haxis : te.ev.eventType = .absolute
    · exact iff_of_false (Fallible.not_outputs_of_nil (processAbsolute_absolute haxis)) fun h => by
        simp [h.1.1] at haxis
    by_cases hsyn : te.ev.eventType = .synchronization
    · rw [Fallible.outputs_congr (processAbsolute_synchronization hsyn),
        processSyn_outputs_iff hsyn]
      cases dwt <;> rfl
    · exact iff_of_false (Fallible.not_outputs_of_nil (processAbsolute_other hkey haxis hsyn))
        fun h => hsyn h.1.1
  · have hstep : processEvent cfg typing te s = emitRaw te.ev (s.1.trackKey te,s.2) := by
      have habs' : (s.1.trackKey te).isAbsolute ≠ true :=
        fun h => habs ((congrArg (·.2.2.1) (trackKey_identity te s.1)).symm.trans h)
      rw [processEvent,if_pos (by simpa using habs')]
    rw [if_neg habs,Fallible.outputs_congr hstep,emitRaw_outputs_iff]

end Outputs
end DeviceWrapper

section Loop
variable [F32 F]

/-- A device opened for monitoring alone has nothing of its events written as a key or a motion. -/
def MonitoredQuiet (trace : List (Handled F)) : Prop :=
  ∀ h ∈ trace,h.wrapper.device.grabbed = false → ∀ x ∈ h.writes,¬ x.IsInput

instance (trace : List (Handled F)) : Decidable (MonitoredQuiet trace) :=
  inferInstanceAs (Decidable (∀ h ∈ trace, _ → ∀ x ∈ h.writes,¬ x.IsInput))

/-- In every run of the daemon no key and no motion of a monitored device is written exactly if
no event of such a device is a key or a motion to `process_event`. -/
theorem EventLoop.monitoredQuiet_iff (cfg : InputConfig F) (v : VirtualDevice)
    (devices : List (DeviceWrapper F)) (inputs : List LoopInput) :
    MonitoredQuiet (handledEvents (EventLoop.runLoop cfg v devices inputs).2) ↔
      ∀ h ∈ handledEvents (EventLoop.runLoop cfg v devices inputs).2,
        h.wrapper.device.grabbed = false → ¬ h.wrapper.Emits cfg h.typing h.event := by
  refine forall₃_congr fun h hmem _ => ?_
  obtain ⟨o,ho,hh⟩ := List.mem_filterMap.mp hmem
  obtain ⟨v',hwrites⟩ := run_outputs (EventLoop.step cfg) (fun _ => True) _
    (fun _ _ _ => trivial) (fun l i _ => l.step_genuine cfg i) trivial inputs o ho h hh
  have houtputs := DeviceWrapper.processEvent_outputs_iff cfg h.typing h.event (h.wrapper,v')
  rw [← houtputs,Fallible.Outputs,← hwrites]
  simp only [not_exists,not_and]

/-- A keyboard that is opened without a grab, and the press of A on it: the press is written. -/
theorem monitored_key_written :
    ¬ MonitoredQuiet (handledEvents (EventLoop.runLoop (F := ℚ) .default .reliable
      (tryOpenDevice "/dev/input/event3" ⟨some plainKeyboard,5,false⟩).toList [keyAt 0 1 0]).2) := by
  decide +kernel

end Loop
end LibinputRs
