import LibinputRs.Automata.Registers
import LibinputRs.Backend.TouchpadClock
import LibinputRs.Library.Slots

/-! Pinch sessions against the contacts. A session opens and closes only when `BTN_TOUCH` does, it
measures whatever two contacts come first in the slots, and it ends on slots that are empty. -/
namespace LibinputRs
open Automata

variable {F D : Type}

section Follows

/-- A pinch session is open in the queue. -/
def PinchOpen (out : List (LibinputEvent D)) : Prop :=
  ∃ fingers, pinchAfter out = some (some fingers)

/-- The touch that is on began with two contacts or more. -/
def BeganWithTwo (inputs : List (TouchInput F)) : Prop :=
  ∃ before down after, inputs = before ++ down :: after ∧
    down.te.ev.Presses KeyCode.btnTouch ∧ 2 ≤ (contactsOf (before.map (·.te.ev))).length ∧
    ∀ j ∈ after, ¬ j.te.ev.Releases KeyCode.btnTouch

variable [F64 D]

namespace TrackedDevice

theorem primarySlotDistance_isSome (td : TrackedDevice F D) :
    td.primarySlotDistance.isSome = true ↔ 2 ≤ td.activeSlotCount := by
  unfold primarySlotDistance activeSlotCount
  match td.activeSlots with
  | [] => simp
  | [_] => simp
  | _ :: _ :: _ => simp

theorem touchDown_pinchActive (te : TimedEvent) (td : TrackedDevice F D) :
    (td.touchDown te).1.pinchActive = (td.pinchActive || decide (2 ≤ td.activeSlotCount)) := by
  have hdist := td.primarySlotDistance_isSome
  rw [touchDown_eq]
  dsimp only
  unfold pinchBase
  by_cases htwo : 2 ≤ td.activeSlotCount
  · obtain ⟨dist,hsome⟩ := Option.isSome_iff_exists.mp (hdist.mpr htwo)
    cases hpinch : td.pinchActive <;> simp [htwo,hsome]
  · have hfew : ¬ 2 ≤ max td.activeSlotCount 1 := by omega
    simp [htwo,hfew]

variable [F32 F] [FloatCast F D]

/-- The flag of the device as a latch. -/
theorem touchStep_pinchLatch : Latch (touchStep (F := F) (D := D)) (fun td => td.pinchActive = true)
    (fun td i => i.te.ev.Presses KeyCode.btnTouch ∧ 2 ≤ td.activeSlotCount)
    (fun i => i.te.ev.Releases KeyCode.btnTouch) := by
  have hdown : ∀ (td : TrackedDevice F D) (i : TouchInput F), i.te.ev.Presses KeyCode.btnTouch →
      (td.touchStep i).1.pinchActive = (td.pinchActive || decide (2 ≤ td.activeSlotCount)) := by
    intro td i hev
    rw [td.touchStep_key i hev.1.1,processAbsoluteKey,if_pos hev.1.2,if_pos hev.2,
      touchDown_pinchActive]
    cases i.dwtActive <;> rfl
  constructor
  · rintro td i ⟨hev,htwo⟩
    simp [hdown td i hev,htwo]
  · intro td i _ hev
    rw [td.touchStep_key i hev.1.1,processAbsoluteKey,if_pos hev.1.2,if_neg (not_not.mpr hev.2)]
    exact Bool.false_ne_true
  · intro td i hset hrel
    by_cases hpress : i.te.ev.Presses KeyCode.btnTouch
    · have hfew : ¬ 2 ≤ td.activeSlotCount := fun htwo => hset ⟨hpress,htwo⟩
      simp [hdown td i hpress,hfew]
    · have hsame : ∀ {touch : Bool} {fingers : ℤ} {active : Option ℕ},
          (td.touchStep i).1.gestureState = (touch,td.pinchActive,fingers,active) →
          ((td.touchStep i).1.pinchActive = true ↔ td.pinchActive = true) := by
        intro touch fingers active h
        rw [show (td.touchStep i).1.pinchActive = td.pinchActive from congrArg (·.2.1) h]
      cases td.processAbsoluteEvent_effect i.te i.cfgTap i.cfgNat i.cfgAccel i.dwtActive with
      | contact hev hvalue => exact absurd ⟨hev,hvalue⟩ hpress
      | pinchBegins hev hvalue => exact absurd ⟨hev,hvalue⟩ hpress
      | lift hev hvalue => exact absurd ⟨hev,hvalue⟩ hrel
      | leftPress hev hvalue mapped hmapped hs hout => exact hsame hs
      | leftRelease hev hvalue hs hout => exact hsame hs
      | otherButton code hev hcode hleft hs hout => exact hsame hs
      | quiet hev hs hout => exact hsame hs
      | frame hev hs hout => exact hsame hs

end TrackedDevice

variable [F32 F] [FloatCast F D] (device : EvdevDevice) (path : PathBuf) (d : DevicePtr)

/-- A session is open in the queue exactly while the device believes so. -/
theorem pinchOpen_iff_active (inputs : List (TouchInput F)) :
    PinchOpen (run TrackedDevice.touchStep (.new device path d : TrackedDevice F D) inputs).2 ↔
      (TrackedDevice.afterInputs device path d inputs : TrackedDevice F D).pinchActive = true := by
  unfold PinchOpen
  rw [(run_pinchTracked device path d inputs).session,TrackedDevice.openPinch]
  split_ifs with hactive
  · exact iff_of_true ⟨_,rfl⟩ hactive
  · exact iff_of_false (by simp) hactive

/-- A session is open exactly while a touch is on that began with two contacts. -/
theorem pinchOpen_iff (inputs : List (TouchInput F)) :
    PinchOpen (run TrackedDevice.touchStep (.new device path d : TrackedDevice F D) inputs).2 ↔
      BeganWithTwo inputs := by
  rw [pinchOpen_iff_active,TrackedDevice.afterInputs,TrackedDevice.touchStep_pinchLatch.run_iff
    Bool.false_ne_true]
  unfold SetSince BeganWithTwo
  simp only [TrackedDevice.afterInputs_activeSlotCount,and_assoc]

/-- At every `SYN_REPORT` a pinch session is open exactly if two contacts are down, as far as at
every `SYN_REPORT` two contacts are down exactly if the touch that is on began with two. -/
theorem pinch_follows_iff (inputs : List (TouchInput F)) :
    let out := fun front => (run TrackedDevice.touchStep
      (.new device path d : TrackedDevice F D) front).2
    AtEach (fun front i => i.te.ev.IsReport →
        (PinchOpen (out front) ↔ 2 ≤ (contactsOf (front.map (·.te.ev))).length)) inputs ↔
      AtEach (fun front i => i.te.ev.IsReport →
        (BeganWithTwo front ↔ 2 ≤ (contactsOf (front.map (·.te.ev))).length)) inputs := by
  intro out
  simp only [out,pinchOpen_iff]

/-- Two fingers that land one after the other are two contacts without a session. -/
def staggeredFingers : List (TouchInput ℚ) := atOnce
  [(.absolute,AbsoluteAxisCode.absMtTrackingId,1),(.key,KeyCode.btnTouch,1),
    (.key,KeyCode.btnToolFinger,1),(.synchronization,0,0),
    (.absolute,AbsoluteAxisCode.absMtSlot,1),(.absolute,AbsoluteAxisCode.absMtTrackingId,2),
    (.key,KeyCode.btnToolFinger,0),(.key,KeyCode.btnToolDoubletap,1),(.synchronization,0,0)]

theorem staggered_fingers_open_no_pinch :
    KernelContacts (staggeredFingers.map (·.te.ev)) ∧
      ¬ AtEach (fun front i => i.te.ev.IsReport →
        (PinchOpen (run TrackedDevice.touchStep
          (.new plainTouchpad "/dev/input/event5" 0 : TrackedDevice ℚ ℚ) front).2 ↔
            2 ≤ (contactsOf (front.map (·.te.ev))).length)) staggeredFingers := by
  refine ⟨by decide +kernel,fun h => ?_⟩
  have hlast := h (staggeredFingers.take 8) ⟨⟨⟨1,.synchronization,0,0⟩,0⟩,true,true,1,false⟩ [] rfl
    (by decide)
  rw [pinchOpen_iff_active] at hlast
  exact absurd hlast (by decide +kernel)

end Follows

section Scales

/-- The scale that a pinch has had last, from one event to the next: a session begins with one. -/
def LibinputEvent.scaleAfter [F64 D] (scale : D) (e : LibinputEvent D) : D :=
  match e.payload with
  | .gesturePinchBegin _ => 1.0
  | .gesturePinchUpdate g => g.scale
  | _ => scale

/-- The scale of the latest update in the session, one before the first. -/
def sessionScale [F64 D] (out : List (LibinputEvent D)) : D :=
  out.foldl LibinputEvent.scaleAfter 1.0

/-- Every end of a session reports the scale of its latest update. -/
def EndsReportScale [F64 D] (out : List (LibinputEvent D)) : Prop :=
  AtEach (fun front e => ∀ g, e.eventType = .gesturePinchEnd → e.payload = .gesturePinchEnd g →
    g.scale = sessionScale front) out

variable [F64 D]

namespace TrackedDevice

/-- The scale measured by an event: one where it begins a session, and the distance of the first two
contacts against the base distance at the end of a frame. -/
def measuredScale (td : TrackedDevice F D) (i : TouchInput F) : Option D :=
  if i.te.ev.Presses KeyCode.btnTouch then td.pinchBase.map fun _ => 1.0
  else if i.te.ev.IsReport ∧ i.dwtActive = false ∧ td.pinchActive = true then
    td.primarySlotDistance.map td.pinchScale
  else none

end TrackedDevice

/-- Events that begin and update no session leave the scale. -/
theorem foldl_scaleAfter_of_quiet {l : List (LibinputEvent D)}
    (h : ∀ e ∈ l, ∀ scale : D, e.scaleAfter scale = scale) (scale : D) :
    l.foldl LibinputEvent.scaleAfter scale = scale := by
  induction l with
  | nil => rfl
  | cons e l ih =>
    rw [List.foldl_cons,h e List.mem_cons_self]
    exact ih fun e' he' => h e' (List.mem_cons_of_mem _ he')

variable [F32 F] [FloatCast F D]

namespace TrackedDevice

/-- The key events that are no touch-down queue nothing that sets a scale. -/
theorem touchStep_scale_key (td : TrackedDevice F D) (i : TouchInput F)
    (htype : i.te.ev.eventType = .key) (hpress : ¬ i.te.ev.Presses KeyCode.btnTouch) :
    ∀ e ∈ (td.touchStep i).2, ∀ scale : D, e.scaleAfter scale = scale := by
  have hbutton : ∀ d t code state, ∀ e ∈ [(LibinputEvent.button d t code state : LibinputEvent D)],
      ∀ scale : D, e.scaleAfter scale = scale :=
    fun d t code state => List.forall_mem_singleton.mpr fun _ => rfl
  unfold touchStep
  cases td.processAbsoluteEvent_effect i.te i.cfgTap i.cfgNat i.cfgAccel i.dwtActive with
  | contact hev hvalue => exact absurd ⟨hev,hvalue⟩ hpress
  | pinchBegins hev hvalue => exact absurd ⟨hev,hvalue⟩ hpress
  | lift hev hvalue ends taps hends htaps hs hout =>
    rw [hout,List.forall_mem_append]
    constructor
    · rcases hends with ⟨_,scale,angle,rfl⟩ | ⟨_,rfl⟩
      · exact List.forall_mem_singleton.mpr fun _ => rfl
      · exact List.forall_mem_nil _
    · rcases htaps with rfl | rfl
      · exact List.forall_mem_nil _
      · exact List.forall_mem_cons.mpr ⟨fun _ => rfl,hbutton _ _ _ _⟩
  | leftPress hev hvalue mapped hmapped hs hout => rw [hout]; exact hbutton _ _ _ _
  | leftRelease hev hvalue hs hout =>
    rw [hout]
    split_ifs
    · exact hbutton _ _ _ _
    · exact List.forall_mem_nil _
  | otherButton code hev hcode hleft hs hout => rw [hout]; exact hbutton _ _ _ _
  | quiet hev hs hout => rw [hout]; exact List.forall_mem_nil _
  | frame hev hs hout =>
    rw [htype] at hev
    cases hev

theorem movementFrame_scale (te : TimedEvent) (cfgNat : Bool) (cfgAccel : F)
    (td : TrackedDevice F D) :
    ∀ e ∈ (td.movementFrame te cfgNat cfgAccel).2, ∀ scale : D, e.scaleAfter scale = scale := by
  have hscroll : ∀ axis emit (td : TrackedDevice F D), ∀ e ∈ td.scrollAxis te cfgNat axis emit,
      ∀ scale : D, e.scaleAfter scale = scale := by
    intro axis emit td
    unfold scrollAxis
    split_ifs
    · exact List.forall_mem_singleton.mpr fun _ => rfl
    · exact List.forall_mem_singleton.mpr fun _ => rfl
    · exact List.forall_mem_nil _
  unfold movementFrame
  dsimp only
  split_ifs
  · unfold motionFrame
    dsimp only
    split_ifs
    · exact List.forall_mem_singleton.mpr fun _ => rfl
    · exact List.forall_mem_nil _
  · exact List.forall_mem_append.mpr ⟨hscroll 0 _ _,hscroll 1 _ _⟩
  · exact List.forall_mem_singleton.mpr fun _ => rfl

theorem processSyn_scale (i : TouchInput F) (td : TrackedDevice F D)
    (htype : i.te.ev.eventType = .synchronization) (scale : D) :
    (td.processSyn i.te i.cfgNat i.cfgAccel i.dwtActive).2.foldl LibinputEvent.scaleAfter scale =
      (td.measuredScale i).getD scale := by
  have hpress : ¬ i.te.ev.Presses KeyCode.btnTouch := by
    intro hev
    rw [hev.1.1] at htype
    cases htype
  unfold measuredScale processSyn
  rw [if_neg hpress]
  by_cases hcode : i.te.ev.code = 0
  · rw [if_neg (not_not.mpr hcode)]
    have hreport : i.te.ev.IsReport := ⟨htype,hcode⟩
    cases hdwt : i.dwtActive with
    | true => simp
    | false =>
      cases hpinch : td.pinchActive with
      | true =>
        simp only [hreport,pinchFrame]
        cases td.primarySlotDistance <;> rfl
      | false =>
        have hquiet := foldl_scaleAfter_of_quiet
          (td.movementFrame_scale i.te i.cfgNat i.cfgAccel) scale
        by_cases hmoved : td.currentDx ≠ 0 ∨ td.currentDy ≠ 0 <;> simp [hmoved,hquiet]
  · rw [if_pos hcode,if_neg fun h => hcode h.1.2]
    rfl

/-- Every event leaves the session at the scale that it measures, if it measures one. -/
theorem touchStep_scale (td : TrackedDevice F D) (i : TouchInput F) (scale : D) :
    (td.touchStep i).2.foldl LibinputEvent.scaleAfter scale = (td.measuredScale i).getD scale := by
  have hguard : (if i.dwtActive then { td with tapEmitted := true } else td).measuredScale i =
      td.measuredScale i := by
    split_ifs <;> rfl
  have hother : i.te.ev.eventType ≠ .key → i.te.ev.eventType ≠ .synchronization →
      td.measuredScale i = none := by
    intro hkey hsyn
    unfold measuredScale
    rw [if_neg fun h => hkey h.1.1,if_neg fun h => hsyn h.1.1]
  by_cases hkey : i.te.ev.eventType = .key
  · by_cases hpress : i.te.ev.Presses KeyCode.btnTouch
    · have hbase : (if i.dwtActive then { td with tapEmitted := true } else td).pinchBase =
          td.pinchBase := by
        split_ifs <;> rfl
      rw [td.touchStep_key i hkey,processAbsoluteKey,if_pos hpress.1.2,if_pos hpress.2,touchDown_eq,
        measuredScale,if_pos hpress]
      dsimp only
      rw [hbase]
      cases td.pinchBase <;> rfl
    · have hnone : td.measuredScale i = none := by
        unfold measuredScale
        rw [if_neg hpress,if_neg fun h => absurd (hkey.symm.trans h.1.1) (by simp)]
      rw [hnone,foldl_scaleAfter_of_quiet (td.touchStep_scale_key i hkey hpress)]
      rfl
  · by_cases hsyn : i.te.ev.eventType = .synchronization
    · rw [td.touchStep_synchronization i hsyn,processSyn_scale i _ hsyn,hguard]
    · rw [hother hkey hsyn,td.touchStep_silent i hkey hsyn]
      rfl

/-- The scale that the queue has had last, as a register. -/
theorem touchStep_scaleRegister : Register (touchStep (F := F) (D := D))
    (fun out _ => sessionScale out) measuredScale := by
  intro out td i
  dsimp only [sessionScale]
  rw [List.foldl_append,touchStep_scale]

/-- Which input each type of event comes from. -/
theorem touchStep_types (td : TrackedDevice F D) (i : TouchInput F) : ∀ e ∈ (td.touchStep i).2,
    (e.eventType = .gesturePinchBegin ∧ i.te.ev.Presses KeyCode.btnTouch) ∨
    (e.eventType = .gesturePinchEnd ∧ i.te.ev.Releases KeyCode.btnTouch) ∨
    (e.eventType = .pointerButton ∧ i.te.ev.eventType = .key) ∨
    ((e.eventType = .gesturePinchUpdate ∨ e.eventType.isMovement = true) ∧
      i.te.ev.eventType = .synchronization) := by
  have hbutton : ∀ d t code state, i.te.ev.eventType = .key →
      ∀ e ∈ [(LibinputEvent.button d t code state : LibinputEvent D)],
        e.eventType = .pointerButton ∧ i.te.ev.eventType = .key :=
    fun d t code state hkey => List.forall_mem_singleton.mpr ⟨rfl,hkey⟩
  unfold touchStep
  cases td.processAbsoluteEvent_effect i.te i.cfgTap i.cfgNat i.cfgAccel i.dwtActive with
  | contact hev hvalue hs hout => rw [hout]; exact List.forall_mem_nil _
  | pinchBegins hev hvalue fingers hclosed hs hout =>
    rw [hout]
    exact List.forall_mem_singleton.mpr (.inl ⟨rfl,hev,hvalue⟩)
  | lift hev hvalue ends taps hends htaps hs hout =>
    rw [hout,List.forall_mem_append]
    constructor
    · rcases hends with ⟨_,scale,angle,rfl⟩ | ⟨_,rfl⟩
      · exact List.forall_mem_singleton.mpr (.inr (.inl ⟨rfl,hev,hvalue⟩))
      · exact List.forall_mem_nil _
    · rcases htaps with rfl | rfl
      · exact List.forall_mem_nil _
      · exact List.forall_mem_cons.mpr ⟨.inr (.inr (.inl ⟨rfl,hev.1⟩)),
          fun e he => .inr (.inr (.inl (hbutton _ _ _ _ hev.1 e he)))⟩
  | leftPress hev hvalue mapped hmapped hs hout =>
    rw [hout]
    exact fun e he => .inr (.inr (.inl (hbutton _ _ _ _ hev.1 e he)))
  | leftRelease hev hvalue hs hout =>
    rw [hout]
    split_ifs
    · exact fun e he => .inr (.inr (.inl (hbutton _ _ _ _ hev.1 e he)))
    · exact List.forall_mem_nil _
  | otherButton code hev hcode hleft hs hout =>
    rw [hout]
    exact fun e he => .inr (.inr (.inl (hbutton _ _ _ _ hev.1 e he)))
  | quiet hev hs hout => rw [hout]; exact List.forall_mem_nil _
  | frame hev hs hout =>
    rcases hout with ⟨_,hout | ⟨scale,angle,hout⟩⟩ | ⟨_,hout⟩
    · rw [hout]
      exact List.forall_mem_nil _
    · rw [hout]
      exact List.forall_mem_singleton.mpr (.inr (.inr (.inr ⟨.inl rfl,hev⟩)))
    · exact fun e he => .inr (.inr (.inr ⟨.inr (hout e he).2,hev⟩))

/-- No event but a lift queues the end of a session. -/
theorem touchStep_no_end (td : TrackedDevice F D) (i : TouchInput F)
    (hrel : ¬ i.te.ev.Releases KeyCode.btnTouch) :
    ∀ e ∈ (td.touchStep i).2, e.eventType ≠ .gesturePinchEnd := by
  intro e he hend
  rcases td.touchStep_types i e he with ⟨h,_⟩ | ⟨_,h⟩ | ⟨h,_⟩ | ⟨h | h,_⟩
  · cases hend.symm.trans h
  · exact hrel h
  · cases hend.symm.trans h
  · cases hend.symm.trans h
  · rw [hend] at h
    cases h

/-- Only the lift of a pinch queues an end, with the scale of the slots as they are then. -/
theorem touchStep_ends (td : TrackedDevice F D) (i : TouchInput F)
    (P : List (LibinputEvent D) → D → Prop) :
    AtEach (fun front e => ∀ g, e.eventType = .gesturePinchEnd → e.payload = .gesturePinchEnd g →
        P front g.scale) (td.touchStep i).2 ↔
      (i.te.ev.Releases KeyCode.btnTouch → td.pinchActive = true →
        P [] ((td.primarySlotDistance.map td.pinchScale).getD 1.0)) := by
  by_cases hrel : i.te.ev.Releases KeyCode.btnTouch
  · have hguard : (if i.dwtActive then { td with tapEmitted := true } else td).liftPinch i.te =
        td.liftPinch i.te := by
      split_ifs <;> rfl
    have htaps : ∀ (tap : Bool) (d : DevicePtr) (t code : ℕ), ∀ e ∈ (if tap = true then
        [.button d t code 1,.button d t code 0] else [] : List (LibinputEvent D)),
        e.eventType ≠ .gesturePinchEnd := by
      intro tap d t code
      cases tap <;> simp
    rw [td.touchStep_key i hrel.1.1,processAbsoluteKey,if_pos hrel.1.2,if_neg (not_not.mpr hrel.2),
      touchUp]
    dsimp only
    rw [hguard,atEach_append,and_iff_left (atEach_of_forall fun e he front g hend =>
      absurd hend (htaps _ _ _ _ e he)),liftPinch]
    by_cases hactive : td.pinchActive = true
    · rw [if_pos hactive,atEach_singleton]
      constructor
      · exact fun h _ _ => h _ rfl rfl
      · rintro h g - hg
        obtain rfl := EventPayload.gesturePinchEnd.inj hg
        exact h hrel hactive
    · rw [if_neg hactive]
      exact iff_of_true atEach_nil fun _ hopen => absurd hopen hactive
  · exact iff_of_true (atEach_of_forall fun e he front g hend =>
      absurd hend (td.touchStep_no_end i hrel e he)) fun h => absurd h hrel

end TrackedDevice

variable (device : EvdevDevice) (path : PathBuf) (d : DevicePtr)

/-- In the kernel's order, where the slots are empty when `BTN_TOUCH` is released, every end of a
session reports the scale of its latest update exactly if whenever a touch that began with two
contacts is lifted the latest scale measured was one. -/
theorem ends_report_scale_iff (inputs : List (TouchInput F))
    (horder : AtEach (fun front i => i.te.ev.Releases KeyCode.btnTouch →
      contactsOf (front.map (·.te.ev)) = []) inputs) :
    EndsReportScale (run TrackedDevice.touchStep
        (.new device path d : TrackedDevice F D) inputs).2 ↔
      AtEach (fun front i => i.te.ev.Releases KeyCode.btnTouch → BeganWithTwo front →
        ∀ scale, LastWrote TrackedDevice.touchStep TrackedDevice.measuredScale
          (.new device path d : TrackedDevice F D) front scale → scale = 1.0) inputs := by
  unfold EndsReportScale
  rw [atEach_run]
  refine atEach_congr fun front i back heq _ => ?_
  rw [TrackedDevice.touchStep_ends _ i fun before scale =>
    scale = sessionScale ((run TrackedDevice.touchStep
      (.new device path d : TrackedDevice F D) front).2 ++ before)]
  refine forall_congr' fun hrel => ?_
  have hnone : (TrackedDevice.afterInputs device path d front :
      TrackedDevice F D).primarySlotDistance = none := by
    rw [← Option.not_isSome_iff_eq_none,TrackedDevice.primarySlotDistance_isSome,
      TrackedDevice.afterInputs_activeSlotCount,horder front i back heq hrel]
    simp
  rw [hnone,List.append_nil,← pinchOpen_iff_active,pinchOpen_iff]
  refine forall_congr' fun _ => ?_
  rw [← TrackedDevice.touchStep_scaleRegister.run_iff (a := 1.0) rfl]
  exact eq_comm

/-- Two fingers that land together, spread to twice their distance and lift together. -/
def spreadFingers : List (TouchInput ℚ) := atOnce
  [(.absolute,AbsoluteAxisCode.absMtTrackingId,1),(.absolute,AbsoluteAxisCode.absMtSlot,1),
    (.absolute,AbsoluteAxisCode.absMtTrackingId,2),(.absolute,AbsoluteAxisCode.absMtPositionX,50),
    (.key,KeyCode.btnTouch,1),(.key,KeyCode.btnToolDoubletap,1),(.synchronization,0,0),
    (.absolute,AbsoluteAxisCode.absMtPositionX,100),(.synchronization,0,0),
    (.absolute,AbsoluteAxisCode.absMtTrackingId,-1),(.absolute,AbsoluteAxisCode.absMtSlot,0),
    (.absolute,AbsoluteAxisCode.absMtTrackingId,-1),(.key,KeyCode.btnTouch,0),
    (.key,KeyCode.btnToolDoubletap,0),(.synchronization,0,0)]

theorem spread_fingers_scale_iff :
    EndsReportScale (run TrackedDevice.touchStep
        (.new plainTouchpad "/dev/input/event5" 0 : TrackedDevice ℚ ℚ) spreadFingers).2 ↔
      AtEach (fun front i => i.te.ev.Releases KeyCode.btnTouch → BeganWithTwo front →
        ∀ scale, LastWrote TrackedDevice.touchStep TrackedDevice.measuredScale
          (.new plainTouchpad "/dev/input/event5" 0 : TrackedDevice ℚ ℚ) front scale →
            scale = 1.0) spreadFingers :=
  ends_report_scale_iff plainTouchpad "/dev/input/event5" 0 spreadFingers (by decide +kernel)

/-- The fingers end at twice their distance, and the end of the session reports one. -/
theorem spread_fingers_end_at_one :
    KernelContacts (spreadFingers.map (·.te.ev)) ∧
      ¬ EndsReportScale (run TrackedDevice.touchStep
        (.new plainTouchpad "/dev/input/event5" 0 : TrackedDevice ℚ ℚ) spreadFingers).2 := by
  refine ⟨by decide +kernel,fun h => ?_⟩
  have hout : (run TrackedDevice.touchStep
      (.new plainTouchpad "/dev/input/event5" 0 : TrackedDevice ℚ ℚ) spreadFingers).2 =
      [.pinchBegin 0 1 2,.pinchUpdate 0 1 2 1 0,.pinchUpdate 0 1 2 2 0,.pinchEnd 0 1 2 1 0] := by
    decide +kernel
  rw [hout] at h
  have hend := h [.pinchBegin 0 1 2,.pinchUpdate 0 1 2 1 0,.pinchUpdate 0 1 2 2 0]
    (.pinchEnd 0 1 2 1 0) [] rfl _ rfl rfl
  exact absurd hend (by decide +kernel)

end Scales
end LibinputRs
