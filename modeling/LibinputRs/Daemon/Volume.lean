import LibinputRs.Automata.Potential
import LibinputRs.Daemon.Translation

/-! How much the daemon writes. The click of a tap is two key events and a frame may move on both
axes, for one event read each; the events that went before have paid for it, and no device ever
makes the daemon write more events than were fetched from it. -/
namespace LibinputRs
open Automata

variable {F : Type}

/-- A write that is not the end of a frame. -/
def Write.counts (w : Write) : Bool := decide (w.ev.eventType ≠ .synchronization)

def Write.price (w : Write) : ℕ := if w.counts then 1 else 0

/-- What `emit_raw` writes counts once at most. -/
theorem cost_accepted_le (ev : InputEvent) : cost Write.price (accepted ev) ≤ 1 := by
  have hone : (⟨ev,true⟩ : Write).price ≤ 1 := by
    unfold Write.price
    split_ifs <;> decide
  have hsyn : (⟨.synReport,true⟩ : Write).price = 0 := rfl
  simp only [accepted,cost_cons,cost_nil]
  omega

theorem cost_accepted_syn {ev : InputEvent} (hsyn : ev.eventType = .synchronization) :
    cost Write.price (accepted ev) = 0 := by
  have hzero : (⟨ev,true⟩ : Write).price = 0 := by simp [Write.price,Write.counts,hsyn]
  simp only [accepted,cost_cons,cost_nil,hzero]
  rfl

namespace DeviceWrapper

/-- A lift would tap, if it came soon enough. -/
def tapPending (w : DeviceWrapper F) : Bool := w.touchStartTime.isSome && !w.tapEmitted

/-- A frame would find a displacement. -/
def displaced (w : DeviceWrapper F) : Bool := decide (w.currentDx ≠ 0 ∨ w.currentDy ≠ 0)

/-- The events that have been paid for and are still to be written. -/
def owed (w : DeviceWrapper F) : ℕ := w.tapPending.toNat + w.displaced.toNat

theorem touchUp_affords (te : TimedEvent) (cfg : InputConfig F) (dwt : Bool)
    (w : DeviceWrapper F) : Affords owed Write.price w 1 (reliably (touchUp te cfg dwt) w) := by
  have htap : (w.isTap cfg dwt te.now).toNat ≤ w.tapPending.toNat := by
    refine Bool.toNat_le_toNat fun h => ?_
    simp only [isTap,Bool.and_eq_true] at h
    obtain ⟨⟨⟨_,hemitted⟩,_⟩,hstart⟩ := h
    obtain ⟨start,hsome,_⟩ := (Option.any_eq_true _ _).mp hstart
    simp [tapPending,hemitted,hsome]
  have hout : cost Write.price (reliably (touchUp te cfg dwt) w).2 =
      2 * (w.isTap cfg dwt te.now).toNat := by
    rw [reliably_touchUp]
    dsimp only
    cases w.isTap cfg dwt te.now <;> rfl
  have hzero : (reliably (touchUp te cfg dwt) w).1.owed = 0 := by
    rw [reliably_touchUp]
    rfl
  have hone := Bool.toNat_le (w.isTap cfg dwt te.now)
  unfold Affords
  rw [hout,hzero,owed]
  omega

/-- Another button or number of fingers writes one event at most. -/
theorem forwarded_affords {te : TimedEvent} (htouch : te.ev.code ≠ KeyCode.btnTouch)
    (cfg : InputConfig F) (dwt : Bool) (w : DeviceWrapper F) : Affords owed Write.price w 1
      (reliably ((processTouchKey te cfg dwt).andThen (forwardButton te)) w) := by
  have hkey : ∃ n, reliably (processTouchKey te cfg dwt) w = ({ w with touchFingers := n },[]) := by
    rw [reliably_processTouchKey,if_neg htouch]
    split_ifs
    all_goals exact ⟨_,rfl⟩
  obtain ⟨n,hkey⟩ := hkey
  rw [reliably_andThen (processTouchKey_completes te cfg dwt),hkey,reliably_forwardButton,
    List.nil_append]
  refine .of_cost_le ?_ (mapClick_frame owed (fun _ _ => rfl) _ _ { w with touchFingers := n }).le
  dsimp only
  split_ifs
  · exact cost_accepted_le _
  · exact Nat.zero_le _

/-- A key event writes one event at most, but for the click of a tap. -/
theorem processKey_affords (te : TimedEvent) (cfg : InputConfig F) (dwt : Bool)
    (w : DeviceWrapper F) : Affords owed Write.price w 1
      (reliably ((processTouchKey te cfg dwt).andThen (forwardButton te)) w) := by
  by_cases htouch : te.ev.code = KeyCode.btnTouch
  · rw [forwardButton_touch htouch,Fallible.andThen_skip,reliably_processTouchKey,if_pos htouch]
    split_ifs
    · have hone : (w.touchDown te).tapPending.toNat ≤ 1 := Bool.toNat_le _
      have hsame : (w.touchDown te).displaced = w.displaced := rfl
      simp only [Affords,owed,hsame,cost_nil]
      omega
    · exact touchUp_affords te cfg dwt w
  · exact forwarded_affords htouch cfg dwt w

/-- A position owes the frame that it displaces. -/
theorem processAxis_affords (te : TimedEvent) (w : DeviceWrapper F) :
    Affords owed Write.price w 1 (w.processAxis te,[]) := by
  have htap := processAxis_frame tapPending (fun _ _ _ _ _ _ => rfl) te w
  have hone := Bool.toNat_le (w.processAxis te).displaced
  simp only [Affords,owed,htap,cost_nil]
  omega

variable [F32 F]

theorem cost_relAccepted_le (code : ℕ) (value : ℤ) :
    cost Write.price (relAccepted code value) ≤ 1 := by
  unfold relAccepted
  split_ifs
  · exact cost_accepted_le _
  · exact Nat.zero_le _

/-- A frame writes two events at most, and the displacement has paid for one of them. -/
theorem movementFrame_affords (cfg : InputConfig F) {w : DeviceWrapper F}
    (hmoved : w.displaced = true) :
    Affords owed Write.price w 1 (reliably (movementFrame cfg) w) := by
  have hcost : cost Write.price (reliably (movementFrame cfg) w).2 ≤ 2 := by
    rw [reliably_movementFrame]
    dsimp only
    split_ifs
    · rw [reliably_motionFrame]
      dsimp only
      rw [cost_append]
      exact Nat.add_le_add (cost_relAccepted_le _ _) (cost_relAccepted_le _ _)
    · rw [reliably_scrollFrame]
      dsimp only
      split_ifs
      all_goals first
        | exact (cost_accepted_le _).trans one_le_two
        | exact Nat.zero_le _
    · exact Nat.zero_le _
  have howed : (reliably (movementFrame cfg) w).1.owed = 0 := by
    rw [reliably_movementFrame]
    dsimp only
    split_ifs
    · rw [reliably_motionFrame]
      simp [owed,tapPending,displaced,clearDisplacement]
    · rw [reliably_scrollFrame]
      simp [owed,tapPending,displaced,clearDisplacement]
    · simp [owed,tapPending,displaced,clearDisplacement]
  unfold Affords
  rw [howed,owed,hmoved,Bool.toNat_true]
  omega

theorem processSyn_affords {te : TimedEvent} (hsyn : te.ev.eventType = .synchronization)
    (cfg : InputConfig F) (dwt : Bool) (w : DeviceWrapper F) :
    Affords owed Write.price w 1 (reliably (processSyn te cfg dwt) w) := by
  have hend := cost_accepted_syn hsyn
  by_cases hcode : te.ev.code = 0
  · rw [reliably_processSyn te cfg dwt w hcode]
    have hframe : Affords owed Write.price w 1
        (if dwt then (w.discardFrame,[])
          else if decide (w.currentDx ≠ 0 ∨ w.currentDy ≠ 0) then reliably (movementFrame cfg) w
          else (w,[])) := by
      split_ifs with _ hmoved
      · refine .of_cost_le (Nat.zero_le _) ?_
        simp [owed,tapPending,displaced,discardFrame]
      · exact movementFrame_affords cfg hmoved
      · exact .of_cost_le (Nat.zero_le _) le_rfl
    have hlast : ∀ b : Bool, cost Write.price (if b then accepted te.ev else []) = 0 := by
      intro b
      cases b with
      | false => rfl
      | true => exact hend
    unfold Affords at hframe ⊢
    dsimp only
    rw [cost_append,hlast]
    exact hframe
  · rw [reliably_processSyn_other te cfg dwt w hcode]
    exact .of_cost_le (hend.trans_le (Nat.zero_le _)) le_rfl

theorem processAbsolute_affords (te : TimedEvent) (cfg : InputConfig F) (dwt : Bool)
    (w : DeviceWrapper F) :
    Affords owed Write.price w 1 (reliably (processAbsolute te cfg dwt) w) := by
  have hguard : (w.guarded dwt).owed ≤ w.owed := by
    unfold guarded
    split_ifs
    · simp [owed,tapPending,displaced]
    · exact le_rfl
  refine Affords.of_le ?_ hguard
  by_cases hkey : te.ev.eventType = .key
  · rw [reliably_processAbsolute_key te cfg dwt w hkey]
    exact processKey_affords te cfg dwt _
  · by_cases hsyn : te.ev.eventType = .synchronization
    · rw [reliably_processAbsolute_syn te cfg dwt w hsyn]
      exact processSyn_affords hsyn cfg dwt _
    · by_cases haxis : te.ev.eventType = .absolute
      · rw [reliably_processAbsolute_axis te cfg dwt w haxis]
        exact processAxis_affords te _
      · rw [reliably_processAbsolute_other te cfg dwt w hkey hsyn haxis]
        exact .of_cost_le (Nat.zero_le _) le_rfl

/-- An event of a wrapper is paid for by it and by those before it. -/
theorem eventStep_affords (cfg : InputConfig F) (w : DeviceWrapper F) (i : WrapperInput) :
    Affords owed Write.price w 1 (w.eventStep cfg i) := by
  have htrack : (w.trackKey i.te).owed = w.owed :=
    trackKey_frame owed (fun _ _ _ _ => rfl) i.te w
  unfold eventStep
  cases habs : w.isAbsolute with
  | false =>
    rw [reliably_processEvent_relative cfg i.typing i.te habs]
    exact .of_cost_le (cost_accepted_le _) htrack.le
  | true =>
    rw [reliably_processEvent_absolute cfg i.typing i.te habs]
    exact (processAbsolute_affords i.te cfg _ _).of_le htrack.le

end DeviceWrapper

variable [F32 F]

namespace EventLoop

omit [F32 F] in
/-- The registration of the initial devices handles nothing. -/
theorem handledUnder_start (v : VirtualDevice) (devices : List (DeviceWrapper F)) (t : ℕ) :
    handledUnder t (start v devices).2 = [] := by
  refine handledUnder_of_unhandled ?_
  refine run_outputs (fun (l : EventLoop F) w => l.register true w) (fun _ => True)
    (fun o => o.handledEvent = none) (fun _ _ _ => trivial) (fun l w _ o ho => ?_) trivial devices
  obtain rfl := List.mem_singleton.mp ho
  rfl

/-- In every run, for every token, the events written, the ends of frames apart, are no more than
the events fetched for it. -/
theorem writes_bounded (cfg : InputConfig F) (nodes : List (PathBuf × NodeOpen))
    (inputs : List LoopInput) (t : ℕ) :
    let opened : EventLoop F × List (LoopObs F) := start .reliable (scanInputDevices nodes)
    let r := runLoop cfg .reliable (scanInputDevices nodes) inputs
    (((handledUnder t r.2).flatMap Handled.writes).filter Write.counts).length ≤
      (opened.1.received cfg t inputs).length := by
  intro opened r
  have hreceived : (handledUnder t r.2).map Handled.event = opened.1.received cfg t inputs :=
    run_received cfg t opened.1 inputs
  have hown : handledUnder t (opened.2 ++ r.2) = handledUnder t r.2 := by
    rw [handledUnder_append,handledUnder_start,List.nil_append]
  have hlength : (opened.1.received cfg t inputs).length = (handledUnder t r.2).length := by
    rw [← hreceived,List.length_map]
  cases (runLoop_alone cfg nodes inputs t).byItself with
  | unused hnone hw =>
    rw [← hown,hnone]
    exact Nat.zero_le _
  | registered device path w hregistered hinterprets hw =>
    rw [hown] at hinterprets
    have hwrites : Affords DeviceWrapper.owed Write.price (.new device path : DeviceWrapper F)
        (cost (fun _ => 1) ((handledUnder t r.2).map Handled.input))
        (run (DeviceWrapper.eventStep cfg) (.new device path)
          ((handledUnder t r.2).map Handled.input)) :=
      run_affords (DeviceWrapper.eventStep_affords cfg) _ _
    have hzero : (.new device path : DeviceWrapper F).owed = 0 := rfl
    unfold Affords Write.price at hwrites
    rw [hinterprets,cost_ite,cost_one,hzero,List.length_map,Nat.zero_add] at hwrites
    rw [hlength]
    exact (Nat.le_add_right _ _).trans hwrites

end EventLoop
end LibinputRs
