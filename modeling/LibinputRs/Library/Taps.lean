import LibinputRs.Automata.Spans
import LibinputRs.Library.Buttons

/-! Taps of a touchpad, over any stream of events and any timing. The flag that forbids a tap and
the time of the touch are set and cleared in many branches; together they say what has happened
since the latest touch-down. -/
namespace LibinputRs
open Automata

variable {F D : Type}

/-- A synthesized click: press and release of the left button, one right after the other. -/
def QueuesClick (out : List (LibinputEvent D)) : Prop :=
  ∃ front d t d' t' back, out = front ++
    .button d t KeyCode.btnLeft 1 :: .button d' t' KeyCode.btnLeft 0 :: back

namespace TrackedDevice

/-- The event is a `SYN_REPORT` outside an open pinch that finds a displacement. -/
def FindsDisplacement (td : TrackedDevice F D) (i : TouchInput F) : Prop :=
  i.te.ev.eventType = .synchronization ∧ i.te.ev.code = 0 ∧ td.pinchActive = false ∧
    (td.currentDx ≠ 0 ∨ td.currentDy ≠ 0)

/-- What keeps the touch from becoming a tap. -/
def SpoilsTap (td : TrackedDevice F D) (i : TouchInput F) : Prop :=
  i.dwtActive = true ∨ td.FindsDisplacement i

/-- Nothing spoils the tap when no event comes in the typing window and no frame has moved. -/
theorem atEach_not_spoilsTap (state : List (TouchInput F) → TrackedDevice F D)
    (after : List (TouchInput F)) : AtEach (fun mid j => ¬ (state mid).SpoilsTap j) after ↔
      (∀ j ∈ after, j.dwtActive = false) ∧
        AtEach (fun mid j => ¬ (state mid).FindsDisplacement j) after := by
  simp only [SpoilsTap,not_or,atEach_and,Bool.not_eq_true]
  rw [atEach_const]

/-- What the decision about a tap remembers of the touch. -/
def tapState (td : TrackedDevice F D) : Option Instant × Bool := (td.touchStartTime,td.tapEmitted)

variable [F64 D]

/-- A touch-down starts the touch and allows a tap, also in the typing window. -/
theorem touchDown_tapState (te : TimedEvent) (td : TrackedDevice F D) :
    (td.touchDown te).1.tapState = (some te.now,false) :=
  touchDown_frame tapState (fun _ _ _ _ _ => rfl) te td

omit [F64 D] in
theorem physicalClick_tapState (te : TimedEvent) (td : TrackedDevice F D) :
    (td.physicalClick te).1.tapState = td.tapState :=
  physicalClick_frame tapState (fun _ _ => rfl) te td

/-- The other keys do not touch the decision. -/
theorem processAbsoluteKey_tapState (te : TimedEvent) (cfgTap dwt : Bool) (td : TrackedDevice F D)
    (hcode : te.ev.code ≠ KeyCode.btnTouch) :
    (td.processAbsoluteKey te cfgTap dwt).1.tapState = td.tapState := by
  unfold processAbsoluteKey
  dsimp only
  rw [if_neg hcode]
  split_ifs
  all_goals first
    | rfl
    | exact td.physicalClick_tapState te

theorem processAbsoluteAxis_tapState (te : TimedEvent) (td : TrackedDevice F D) :
    (td.processAbsoluteAxis te).tapState = td.tapState :=
  processAbsoluteAxis_frame tapState (fun _ _ _ => rfl) (fun _ _ _ _ _ _ => rfl) te td

variable [F32 F] [FloatCast F D]

theorem movementFrame_tapState (te : TimedEvent) (cfgNat : Bool) (cfgAccel : F)
    (td : TrackedDevice F D) :
    (td.movementFrame te cfgNat cfgAccel).1.tapState = (td.touchStartTime,true) := by
  unfold movementFrame
  dsimp only
  split_ifs <;> rfl

/-- In the typing window every frame end leaves the tap forbidden. -/
theorem processSyn_tapState_of_dwt (te : TimedEvent) (cfgNat : Bool) (cfgAccel : F)
    (td : TrackedDevice F D) (hflag : td.tapEmitted = true) :
    (td.processSyn te cfgNat cfgAccel true).1.tapState = (td.touchStartTime,true) := by
  unfold processSyn
  split_ifs with hcode hpinch htrue
  · exact Prod.ext rfl hflag
  · simp at hpinch
  · rfl
  all_goals exact absurd rfl htrue

/-- Outside the typing window only a frame that finds a displacement forbids the tap. -/
theorem processSyn_tapState (i : TouchInput F) (td : TrackedDevice F D)
    (hev : i.te.ev.eventType = .synchronization) (hdwt : i.dwtActive = false) :
    (td.processSyn i.te i.cfgNat i.cfgAccel i.dwtActive).1.touchStartTime = td.touchStartTime ∧
      ((td.processSyn i.te i.cfgNat i.cfgAccel i.dwtActive).1.tapEmitted = false ↔
        td.tapEmitted = false ∧ ¬ td.FindsDisplacement i) := by
  unfold processSyn
  rw [hdwt]
  split_ifs with hcode hpinch hfalse hmoved
  · exact ⟨rfl,(and_iff_left fun hfinds => hcode hfinds.2.1).symm⟩
  · refine ⟨rfl,(and_iff_left fun hfinds => ?_).symm⟩
    rw [hfinds.2.2.1] at hpinch
    cases hpinch
  · cases hfalse
  · have hstate := td.movementFrame_tapState i.te i.cfgNat i.cfgAccel
    have hclosed : td.pinchActive = false := by simpa using hpinch
    refine ⟨congrArg Prod.fst hstate,iff_of_false ?_ fun h => h.2 ?_⟩
    · have hflag := congrArg Prod.snd hstate
      simp only [tapState] at hflag
      simp [hflag]
    · exact ⟨hev,not_not.mp hcode,hclosed,hmoved⟩
  · exact ⟨rfl,(and_iff_left fun hfinds => hmoved hfinds.2.2.2).symm⟩

/-- The events that are not `BTN_TOUCH` keep the touch, and its tap while they do not spoil it. -/
theorem touchStep_tapState (td : TrackedDevice F D) (i : TouchInput F)
    (hev : ¬ i.te.ev.KeyWith KeyCode.btnTouch) :
    (td.touchStep i).1.touchStartTime = td.touchStartTime ∧
      ((td.touchStep i).1.tapEmitted = false ↔ td.tapEmitted = false ∧ ¬ td.SpoilsTap i) := by
  have hguard : (if i.dwtActive then { td with tapEmitted := true } else td).tapState =
      (td.touchStartTime,td.tapEmitted || i.dwtActive) := by
    cases i.dwtActive <;> simp [tapState]
  have hsame : ∀ td' : TrackedDevice F D, i.te.ev.eventType ≠ .synchronization →
      td'.tapState = (td.touchStartTime,td.tapEmitted || i.dwtActive) →
      td'.touchStartTime = td.touchStartTime ∧
        (td'.tapEmitted = false ↔ td.tapEmitted = false ∧ ¬ td.SpoilsTap i) := by
    intro td' hsyn h
    simp only [tapState,Prod.mk.injEq] at h
    refine ⟨h.1,?_⟩
    rw [h.2]
    simp [SpoilsTap,FindsDisplacement,hsyn]
  unfold touchStep processAbsoluteEvent
  dsimp only
  cases htype : i.te.ev.eventType with
  | key =>
    apply hsame _ (by simp [htype])
    rw [processAbsoluteKey_tapState _ _ _ _ fun hcode => hev ⟨htype,hcode⟩,hguard]
  | absolute =>
    apply hsame _ (by simp [htype])
    rw [processAbsoluteAxis_tapState,hguard]
  | synchronization =>
    cases hdwt : i.dwtActive with
    | false =>
      have hsyn := td.processSyn_tapState i htype hdwt
      rw [hdwt] at hsyn
      simpa [SpoilsTap,hdwt] using hsyn
    | true =>
      have hsyn := processSyn_tapState_of_dwt i.te i.cfgNat i.cfgAccel
        { td with tapEmitted := true } rfl
      simp only [tapState,Prod.mk.injEq] at hsyn
      simp [SpoilsTap,hdwt,hsyn]
  | relative => exact hsame _ (by simp [htype]) hguard
  | other n => exact hsame _ (by simp [htype]) hguard

/-- The start and the flag as marks of the span since the latest touch-down. -/
theorem touchStep_marks : SpanMarks (touchStep (F := F) (D := D))
    (fun _ => True) (fun i => i.te.ev.Presses KeyCode.btnTouch) (fun i => i.te.ev.Releases KeyCode.btnTouch)
    SpoilsTap (fun _ i => i.te.now) touchStartTime (fun td => td.tapEmitted = false) := by
  refine ⟨⟨fun _ _ _ => trivial,?_,?_⟩,?_⟩
  · intro td i _ hev
    have hstate := touchDown_tapState i.te
      (if i.dwtActive then { td with tapEmitted := true } else td)
    rw [td.touchStep_key i hev.1.1,processAbsoluteKey,if_pos hev.1.2,if_pos hev.2]
    exact ⟨congrArg Prod.fst hstate,congrArg Prod.snd hstate⟩
  · intro td i _ hpress hrelease
    refine td.touchStep_tapState i fun hev => ?_
    by_cases hvalue : i.te.ev.value = 0
    · exact hrelease ⟨hev,hvalue⟩
    · exact hpress ⟨hev,hvalue⟩
  · intro td i _ hev
    rw [td.touchStep_key i hev.1.1,processAbsoluteKey,if_pos hev.1.2,if_neg (not_not.mpr hev.2)]
    rfl

end TrackedDevice

variable [F64 D] [F32 F] [FloatCast F D]

/-- A lift queues a click exactly when it is a tap. -/
theorem TrackedDevice.queuesClick_iff (td : TrackedDevice F D) (i : TouchInput F)
    (hev : i.te.ev.Releases KeyCode.btnTouch) :
    QueuesClick (td.touchStep i).2 ↔ td.isTap i.te.now i.cfgTap i.dwtActive = true := by
  have hstates := td.touchStep_lift i hev KeyCode.btnLeft
  constructor
  · rintro ⟨front,d,t,d',t',back,hout⟩
    by_contra htap
    rw [if_neg fun h => htap h.2,hout,buttonStates_append,buttonStates_button,if_pos rfl] at hstates
    simp at hstates
  · intro htap
    have hguard : (if i.dwtActive then { td with tapEmitted := true } else td).isTap i.te.now
        i.cfgTap i.dwtActive = true := by
      cases hdwt : i.dwtActive with
      | false => rwa [hdwt] at htap
      | true => simp [isTap,hdwt] at htap
    rw [td.touchStep_key i hev.1.1,processAbsoluteKey,if_pos hev.1.2,if_neg (not_not.mpr hev.2),
      touchUp]
    dsimp only
    rw [if_pos hguard]
    exact ⟨_,_,_,_,_,[],rfl⟩

omit [F64 D] [F32 F] [FloatCast F D] in
theorem TrackedDevice.isTap_iff (now : Instant) (cfgTap dwt : Bool) (td : TrackedDevice F D) :
    td.isTap now cfgTap dwt = true ↔ cfgTap = true ∧ dwt = false ∧ td.touchFingers ≤ 1 ∧
      ∃ start, start.elapsed now < fromMillis 250 ∧
        td.touchStartTime = some start ∧ td.tapEmitted = false := by
  simp only [isTap,Bool.and_eq_true,Bool.not_eq_true',decide_eq_true_eq,Option.any_eq_true]
  constructor
  · rintro ⟨⟨⟨⟨htap,hflag⟩,hdwt⟩,start,hstart,hrecent⟩,hfingers⟩
    exact ⟨htap,hdwt,hfingers,start,hrecent,hstart,hflag⟩
  · rintro ⟨htap,hdwt,hfingers,start,hrecent,hstart,hflag⟩
    exact ⟨⟨⟨⟨htap,hflag⟩,hdwt⟩,start,hstart,hrecent⟩,hfingers⟩

/-- A click is queued for a lift exactly when tap is on, the typing window is over, at most one
finger is counted, and the latest touch-down, which no lift has followed, was less than 250 ms ago
and has been followed by no event in the typing window and no frame that found a displacement. -/
theorem tap_iff (device : EvdevDevice) (path : PathBuf) (d : DevicePtr)
    (front : List (TouchInput F)) (i : TouchInput F) (hlift : i.te.ev.Releases KeyCode.btnTouch) :
    let state := fun before => (run TrackedDevice.touchStep
      (.new device path d : TrackedDevice F D) before).1
    QueuesClick ((state front).touchStep i).2 ↔
      i.cfgTap = true ∧ i.dwtActive = false ∧ (state front).touchFingers ≤ 1 ∧
      ∃ before down after, front = before ++ down :: after ∧
        down.te.ev.Presses KeyCode.btnTouch ∧ (∀ j ∈ after, ¬ j.te.ev.KeyWith KeyCode.btnTouch) ∧
        down.te.now.elapsed i.te.now < fromMillis 250 ∧ (∀ j ∈ after, j.dwtActive = false) ∧
        AtEach (fun mid j => ¬ (state (before ++ down :: mid)).FindsDisplacement j) after := by
  intro state
  have hmarks := fun start => TrackedDevice.touchStep_marks.run_iff
    (s := (.new device path d : TrackedDevice F D)) trivial rfl front start
  have hspoils := fun before down => TrackedDevice.atEach_not_spoilsTap
    fun mid => state (before ++ down :: mid)
  have hother : ∀ j : TouchInput F, (¬ j.te.ev.Presses KeyCode.btnTouch ∧
      ¬ j.te.ev.Releases KeyCode.btnTouch) ↔ ¬ j.te.ev.KeyWith KeyCode.btnTouch := by
    intro j
    unfold InputEvent.Presses InputEvent.Releases
    tauto
  rw [TrackedDevice.queuesClick_iff _ i hlift,TrackedDevice.isTap_iff]
  refine and_congr_right fun _ => and_congr_right fun _ => and_congr_right fun _ => ?_
  constructor
  · rintro ⟨start,hrecent,hstate⟩
    obtain ⟨before,down,after,heq,hdown,hafter,rfl,hclean⟩ := (hmarks start).mp hstate
    exact ⟨before,down,after,heq,hdown,fun j hj => (hother j).mp (hafter j hj),hrecent,
      (hspoils before down after).mp hclean⟩
  · rintro ⟨before,down,after,heq,hdown,hafter,hrecent,hclean⟩
    exact ⟨_,hrecent,(hmarks _).mpr ⟨before,down,after,heq,hdown,
      fun j hj => (hother j).mpr (hafter j hj),rfl,(hspoils before down after).mpr hclean⟩⟩

/-- A finger that rests for 100 ms and is lifted. -/
theorem resting_finger_taps :
    let down : TouchInput ℚ := ⟨⟨⟨1,.key,KeyCode.btnTouch,1⟩,0⟩,true,true,1,false⟩
    QueuesClick (((run TrackedDevice.touchStep (.new plainTouchpad "/dev/input/event5" 0 :
        TrackedDevice ℚ ℚ) [down]).1.touchStep
      ⟨⟨⟨2,.key,KeyCode.btnTouch,0⟩,fromMillis 100⟩,true,true,1,false⟩).2) :=
  (tap_iff plainTouchpad "/dev/input/event5" 0 _ _ (by decide)).mpr
    ⟨rfl,rfl,by decide +kernel,[],_,[],rfl,by decide,by simp,by decide,by simp,atEach_nil⟩

end LibinputRs
