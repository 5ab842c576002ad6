import LibinputRs.Automata.Potential
import LibinputRs.Library.TouchpadBooks

/-! How much the library has to say. A tap answers one event with two, a frame may scroll on both
axes, and a lift may end a pinch and tap at once; but the events that went before have paid for it,
and but for the beginning of a pinch no device ever gets more events than were read from it. -/
namespace LibinputRs
open Automata

variable {F D : Type}

namespace LibinputEvent

def isPinchBegin (e : LibinputEvent D) : Bool := decide (e.eventType = .gesturePinchBegin)

/-- An event that is not about the device as such, nor the beginning of a pinch. -/
def counts (e : LibinputEvent D) : Bool :=
  match e.eventType with
  | .deviceAdded => false
  | .deviceRemoved => false
  | .gesturePinchBegin => false
  | _ => true

def price (e : LibinputEvent D) : ℕ := if e.counts then 1 else 0

/-- The price where the beginnings of pinches alone are counted. -/
def beginPrice (e : LibinputEvent D) : ℕ := if e.isPinchBegin then 1 else 0

theorem price_le (e : LibinputEvent D) : e.price ≤ 1 := by
  unfold price
  split_ifs <;> decide

end LibinputEvent

/-- A contact: `BTN_TOUCH` with a non-zero value. -/
def InputEvent.isContact (ev : InputEvent) : Bool :=
  decide (ev.KeyWith KeyCode.btnTouch ∧ ev.value ≠ 0)

namespace TrackedDevice

/-- A lift would tap, if it came soon enough. -/
def tapPending (td : TrackedDevice F D) : Bool :=
  td.touchStartTime.isSome && !td.tapEmitted && decide (td.touchFingers ≤ 1)

/-- A frame would find a displacement. -/
def displaced (td : TrackedDevice F D) : Bool := decide (td.currentDx ≠ 0 ∨ td.currentDy ≠ 0)

/-- The events that have been paid for and are still to be queued. -/
def owed (td : TrackedDevice F D) : ℕ :=
  td.pinchActive.toNat + td.tapPending.toNat + td.displaced.toNat

variable [F32 F] [F64 D] [FloatCast F D]

omit [F32 F] [FloatCast F D] in
/-- A touch-down owes the end of the pinch that it begins, or a tap. -/
theorem touchDown_affords (te : TimedEvent) (td : TrackedDevice F D) :
    Affords owed LibinputEvent.price td 1 (td.touchDown te) := by
  unfold touchDown
  dsimp only
  split_ifs with hpinch
  · obtain ⟨hfingers,hopen⟩ := hpinch
    have hmany : ¬ max td.activeSlotCount 1 ≤ 1 := by
      omega
    replace hopen : td.pinchActive = false := hopen
    split
    · simp [Affords,owed,tapPending,displaced,hmany,hopen,LibinputEvent.price,LibinputEvent.counts,
        LibinputEvent.pinchBegin,LibinputEvent.gesture]
      omega
    · simp [Affords,owed,tapPending,displaced,hmany,hopen]
      omega
  · have htap := Bool.toNat_le (decide (max td.activeSlotCount 1 ≤ 1))
    simp only [Affords,owed,tapPending,displaced,cost_nil,Option.isSome_some,Bool.not_false,
      Bool.true_and]
    omega

omit [F32 F] [FloatCast F D] in
/-- A lift ends a pinch that was owed, and a tap is half owed. -/
theorem touchUp_affords (te : TimedEvent) (cfgTap dwt : Bool) (td : TrackedDevice F D) :
    Affords owed LibinputEvent.price td 1 (td.touchUp te cfgTap dwt) := by
  have hpinch : cost LibinputEvent.price (td.liftPinch te) = td.pinchActive.toNat := by
    unfold liftPinch
    cases td.pinchActive <;> rfl
  have htap : (td.isTap te.now cfgTap dwt).toNat ≤ td.tapPending.toNat := by
    refine Bool.toNat_le_toNat fun h => ?_
    simp only [isTap,Bool.and_eq_true] at h
    obtain ⟨⟨⟨⟨_,hemitted⟩,_⟩,hstart⟩,hfingers⟩ := h
    obtain ⟨start,hsome,_⟩ := (Option.any_eq_true _ _).mp hstart
    simp [tapPending,hemitted,hsome,hfingers]
  have hout : cost LibinputEvent.price (td.touchUp te cfgTap dwt).2 =
      td.pinchActive.toNat + 2 * (td.isTap te.now cfgTap dwt).toNat := by
    unfold touchUp
    rw [cost_append,hpinch]
    cases td.isTap te.now cfgTap dwt <;> rfl
  have hone := Bool.toNat_le (td.isTap te.now cfgTap dwt)
  have hzero : (td.touchUp te cfgTap dwt).1.owed = 0 := rfl
  unfold Affords
  rw [hout,hzero,owed]
  omega

omit [F32 F] [F64 D] [FloatCast F D] in
/-- A click is one event, and owes nothing. -/
theorem physicalClick_affords (te : TimedEvent) (td : TrackedDevice F D) :
    Affords owed LibinputEvent.price td 1 (td.physicalClick te) := by
  refine .of_cost_le ((cost_le_length LibinputEvent.price_le _).trans ?_)
    (physicalClick_frame owed (fun _ _ => rfl) te td).le
  unfold physicalClick
  dsimp only
  split_ifs <;> simp

omit [F32 F] [FloatCast F D] in
theorem processAbsoluteKey_affords (te : TimedEvent) (cfgTap dwt : Bool) (td : TrackedDevice F D) :
    Affords owed LibinputEvent.price td 1 (td.processAbsoluteKey te cfgTap dwt) := by
  -- another number of fingers makes a tap possible or not
  have htool : ∀ n, Affords owed LibinputEvent.price td 1
      ({ td with touchFingers := n },([] : List (LibinputEvent D))) := by
    intro n
    have hone := Bool.toNat_le ({ td with touchFingers := n } : TrackedDevice F D).tapPending
    simp only [Affords,owed,displaced,cost_nil]
    omega
  unfold processAbsoluteKey
  dsimp only
  split_ifs
  · exact touchDown_affords te td
  · exact touchUp_affords te cfgTap dwt td
  all_goals first
    | exact htool _
    | exact physicalClick_affords te td

omit [F32 F] [FloatCast F D] in
/-- A position owes the frame that it displaces. -/
theorem processAbsoluteAxis_affords (te : TimedEvent) (td : TrackedDevice F D) :
    Affords owed LibinputEvent.price td 1
      (td.processAbsoluteAxis te,([] : List (LibinputEvent D))) := by
  have hpinch := processAbsoluteAxis_frame (·.pinchActive) (fun _ _ _ => rfl)
    (fun _ _ _ _ _ _ => rfl) te td
  have htap := processAbsoluteAxis_frame tapPending (fun _ _ _ => rfl)
    (fun _ _ _ _ _ _ => rfl) te td
  have hone := Bool.toNat_le (td.processAbsoluteAxis te).displaced
  simp only [Affords,owed,cost_nil,hpinch,htap]
  omega

/-- A frame queues two events at most, and the displacement has paid for one of them. -/
theorem movementFrame_affords (te : TimedEvent) (cfgNat : Bool) (cfgAccel : F)
    {td : TrackedDevice F D} (hmoved : td.displaced = true) :
    Affords owed LibinputEvent.price td 1 (td.movementFrame te cfgNat cfgAccel) := by
  have hscroll : ∀ axis emit (td : TrackedDevice F D),
      (td.scrollAxis te cfgNat axis emit).length ≤ 1 := by
    intro axis emit td
    unfold scrollAxis
    split_ifs <;> simp
  have hlength : (td.movementFrame te cfgNat cfgAccel).2.length ≤ 2 := by
    unfold movementFrame
    dsimp only
    split_ifs
    · unfold motionFrame
      dsimp only
      split_ifs <;> simp
    · rw [scrollFrame,List.length_append]
      exact Nat.add_le_add (hscroll _ _ _) (hscroll _ _ _)
    · simp [swipeFrame]
  have hcost := (cost_le_length LibinputEvent.price_le _).trans hlength
  have howed : (td.movementFrame te cfgNat cfgAccel).1.owed = td.pinchActive.toNat := by
    unfold movementFrame
    dsimp only
    split_ifs <;> simp [motionFrame,scrollFrame,owed,tapPending,displaced]
  unfold Affords
  rw [howed,owed,hmoved,Bool.toNat_true]
  omega

theorem processSyn_affords (te : TimedEvent) (cfgNat : Bool) (cfgAccel : F) (dwt : Bool)
    (td : TrackedDevice F D) :
    Affords owed LibinputEvent.price td 1 (td.processSyn te cfgNat cfgAccel dwt) := by
  unfold processSyn
  split_ifs with _ _ _ hmoved
  · exact .of_cost_le (Nat.zero_le _) le_rfl
  · -- the frame of a pinch discards the displacement
    refine .of_cost_le ((cost_le_length LibinputEvent.price_le _).trans ?_) ?_
    · unfold pinchFrame
      dsimp only
      split <;> simp
    · exact Nat.le_add_right (td.pinchActive.toNat + td.tapPending.toNat) td.displaced.toNat
  · refine .of_cost_le (Nat.zero_le _) ?_
    simp [owed,tapPending,displaced]
    omega
  · exact movementFrame_affords te cfgNat cfgAccel (decide_eq_true hmoved)
  · exact .of_cost_le (Nat.zero_le _) le_rfl

/-- An event of a touchpad is paid for by it and by those before it. -/
theorem processAbsoluteEvent_affords (te : TimedEvent) (cfgTap cfgNat : Bool) (cfgAccel : F)
    (dwt : Bool) (td : TrackedDevice F D) : Affords owed LibinputEvent.price td 1
      (td.processAbsoluteEvent te cfgTap cfgNat cfgAccel dwt) := by
  have hguard : (if dwt then { td with tapEmitted := true } else td).owed ≤ td.owed := by
    split_ifs
    · simp [owed,tapPending,displaced]
    · exact le_rfl
  refine Affords.of_le ?_ hguard
  unfold processAbsoluteEvent
  dsimp only
  generalize (if dwt then { td with tapEmitted := true } else td) = td'
  cases te.ev.eventType with
  | key => exact processAbsoluteKey_affords te cfgTap dwt td'
  | absolute => exact processAbsoluteAxis_affords te td'
  | synchronization => exact processSyn_affords te cfgNat cfgAccel dwt td'
  | relative => exact .of_cost_le (Nat.zero_le _) le_rfl
  | other n => exact .of_cost_le (Nat.zero_le _) le_rfl

/-- So is an event of any device. -/
theorem interpret_affords (td : TrackedDevice F D) (p : Processed F D) :
    Affords owed LibinputEvent.price td 1 (td.interpret p) := by
  unfold interpret
  rcases processEvent_cases p.cfg p.typing (td,none) p.event with
    ⟨_,_,h⟩ | ⟨_,_,_,h⟩ | ⟨_,_,_,h⟩ | ⟨_,_,_,h⟩ <;> rw [h]
  · rcases td.processKeyboardEvent_cases p.event none with ⟨_,_,h⟩ | ⟨_,_,h⟩ | ⟨_,h⟩ <;> rw [h]
    · exact .of_cost_le (cost_le_length LibinputEvent.price_le _) le_rfl
    · exact .of_cost_le (cost_le_length LibinputEvent.price_le _) le_rfl
    · exact .of_cost_le (Nat.zero_le _) le_rfl
  · refine .of_cost_le ((cost_le_length LibinputEvent.price_le _).trans ?_) le_rfl
    unfold processRelativeEvent
    dsimp only
    split
    · split_ifs <;> simp
    · split_ifs <;> simp
    · simp
  · exact processAbsoluteEvent_affords p.event _ _ _ _ td
  · exact .of_cost_le (Nat.zero_le _) le_rfl

/-- The payment for the beginnings of pinches. -/
def contactPay (p : Processed F D) : ℕ := if p.event.ev.isContact then 1 else 0

/-- A pinch begins with a contact. -/
theorem processAbsoluteEvent_beginnings (te : TimedEvent) (cfgTap cfgNat : Bool) (cfgAccel : F)
    (dwt : Bool) (td : TrackedDevice F D) :
    cost LibinputEvent.beginPrice (td.processAbsoluteEvent te cfgTap cfgNat cfgAccel dwt).2 ≤
      if te.ev.isContact then 1 else 0 := by
  cases td.processAbsoluteEvent_effect te cfgTap cfgNat cfgAccel dwt with
  | contact hev hvalue hstate hout => simp [hout]
  | pinchBegins hev hvalue fingers hclosed hstate hout =>
    have hcontact : te.ev.isContact = true := decide_eq_true ⟨hev,hvalue⟩
    rw [hout,if_pos hcontact,cost_singleton]
    rfl
  | lift hev hvalue ends taps hends htaps hstate hout =>
    have hzero : cost LibinputEvent.beginPrice (ends ++ taps) = 0 := by
      rcases hends with ⟨_,scale,angle,rfl⟩ | ⟨_,rfl⟩ <;> rcases htaps with rfl | rfl <;> rfl
    rw [hout,hzero]
    exact Nat.zero_le _
  | leftPress hev hvalue mapped hmapped hstate hout =>
    rw [hout]
    exact Nat.zero_le _
  | leftRelease hev hvalue hstate hout =>
    rw [hout]
    split_ifs <;> exact Nat.zero_le _
  | otherButton code hev hcode hleft hstate hout =>
    rw [hout]
    exact Nat.zero_le _
  | quiet hev hstate hout => simp [hout]
  | frame hev hstate hout =>
    have hzero : cost LibinputEvent.beginPrice
        (td.processAbsoluteEvent te cfgTap cfgNat cfgAccel dwt).2 = 0 := by
      rcases hout with ⟨_,hout | ⟨scale,angle,hout⟩⟩ | ⟨_,hmoves⟩
      · rw [hout]
        rfl
      · rw [hout]
        rfl
      · refine cost_eq_zero fun e he => ?_
        have hmove := (hmoves e he).2
        unfold LibinputEvent.beginPrice LibinputEvent.isPinchBegin
        cases htype : e.eventType <;> rw [htype] at hmove <;> first | rfl | cases hmove
    rw [hzero]
    exact Nat.zero_le _

theorem interpret_beginnings (td : TrackedDevice F D) (p : Processed F D) :
    Affords (fun _ => 0) LibinputEvent.beginPrice td (contactPay p) (td.interpret p) := by
  refine .of_cost_le ?_ le_rfl
  unfold interpret contactPay
  rcases processEvent_cases p.cfg p.typing (td,none) p.event with
    ⟨_,_,h⟩ | ⟨_,_,_,h⟩ | ⟨_,_,_,h⟩ | ⟨_,_,_,h⟩ <;> rw [h]
  · rcases td.processKeyboardEvent_cases p.event none with ⟨_,_,h⟩ | ⟨_,_,h⟩ | ⟨_,h⟩ <;> rw [h] <;>
      exact Nat.zero_le _
  · have hzero : cost LibinputEvent.beginPrice (td.processRelativeEvent (D := D) p.event) = 0 := by
      unfold processRelativeEvent
      dsimp only
      split
      · split_ifs <;> rfl
      · split_ifs <;> rfl
      · rfl
    exact hzero.trans_le (Nat.zero_le _)
  · exact processAbsoluteEvent_beginnings p.event _ _ _ _ td
  · exact Nat.zero_le _

end TrackedDevice

variable [F32 F] [F64 D] [FloatCast F D]

/-- In every run no device gets more events than were read from it, the repeats of held keys and the
beginnings of pinches apart, and no more of these than there were contacts. -/
theorem LibinputContext.answers_bounded (interface : LibinputInterface) (inotify : Bool)
    (calls : List (Call D)) (d : DevicePtr) :
    let r := (new (F := F) interface inotify).runCalls calls
    let answers := answersTo (eventsOf d (obtainable r))
    (answers.filter LibinputEvent.counts).length ≤ (records d r.2).length ∧
      (answers.filter LibinputEvent.isPinchBegin).length ≤
        ((records d r.2).filter fun p => p.event.ev.isContact).length := by
  extract_lets r answers
  let read := records d r.2
  -- whatever the device was opened from, what it is told before and after it is read is not counted
  have hbound : ∀ (device : EvdevDevice) (path : PathBuf) (rest : List (LibinputEvent D)),
      rest.filter LibinputEvent.counts = [] → rest.filter LibinputEvent.isPinchBegin = [] →
      answers = .added d :: (run TrackedDevice.interpret (.new device path d) read).2 ++ rest →
      (answers.filter LibinputEvent.counts).length ≤ read.length ∧
        (answers.filter LibinputEvent.isPinchBegin).length ≤
          (read.filter fun p => p.event.ev.isContact).length := by
    intro device path rest hcounts hbegins h
    let opened : TrackedDevice F D := .new device path d
    have hanswers : Affords TrackedDevice.owed LibinputEvent.price opened (cost (fun _ => 1) read)
      (run TrackedDevice.interpret opened read) := run_affords TrackedDevice.interpret_affords _ _
    have hcontacts : Affords (fun _ => 0) LibinputEvent.beginPrice opened
      (cost TrackedDevice.contactPay read) (run TrackedDevice.interpret opened read) :=
        run_affords TrackedDevice.interpret_beginnings _ _
    have hzero : opened.owed = 0 := rfl
    unfold Affords LibinputEvent.price at hanswers
    unfold Affords LibinputEvent.beginPrice TrackedDevice.contactPay at hcontacts
    rw [cost_ite,cost_one,hzero] at hanswers
    rw [cost_ite,cost_ite (fun p : Processed F D => p.event.ev.isContact)] at hcontacts
    have hadded : (LibinputEvent.added (D := D) d).counts = false := rfl
    have hadded' : (LibinputEvent.added (D := D) d).isPinchBegin = false := rfl
    rw [h,List.cons_append,List.filter_cons,List.filter_cons,List.filter_append,List.filter_append,
      hcounts,hbegins,hadded,hadded',List.append_nil,List.append_nil]
    constructor
    · exact (Nat.le_add_right _ _).trans (hanswers.trans (Nat.zero_add _).le)
    · exact hcontacts.trans (Nat.zero_add _).le
  cases (runCalls_translated (F := F) interface inotify calls d).byItself
      (delivered_append_queue interface inotify calls) with
  | absent hevents hrecords =>
    have hnone : answers = [] := congrArg answersTo hevents
    rw [hnone]
    exact ⟨Nat.zero_le _,Nat.zero_le _⟩
  | tracked fd td ht hd hevents hstate =>
    exact hbound td.device td.path [] rfl rfl (hevents.trans (List.append_nil _).symm)
  | removed device path hnone hevents => exact hbound device path [.removed d] rfl rfl hevents

end LibinputRs
