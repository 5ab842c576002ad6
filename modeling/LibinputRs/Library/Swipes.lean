import LibinputRs.Library.PinchContacts

/-! Swipes. A frame that moves under three fingers or more queues an update; nothing queues the
begin or the end of a swipe, so the updates are never part of a session. -/
namespace LibinputRs
open Automata

variable {F D : Type}

/-- The part of a swipe session an event is, with its finger count. -/
def swipeTag (e : LibinputEvent D) : Option (SessionTag ℤ) :=
  match e.eventType,e.payload with
  | .gestureSwipeBegin,.gestureSwipeBegin g => some (.begin g.fingerCount)
  | .gestureSwipeUpdate,.gestureSwipeUpdate g => some (.update g.fingerCount)
  | .gestureSwipeEnd,.gestureSwipeEnd g => some (.finish g.fingerCount)
  | _,_ => none

/-- The swipe events of a sequence. -/
def swipeTags (l : List (LibinputEvent D)) : List (SessionTag ℤ) := l.filterMap swipeTag

@[simp] theorem swipeTags_nil : swipeTags ([] : List (LibinputEvent D)) = [] := rfl

@[simp] theorem swipeTags_append (l m : List (LibinputEvent D)) :
    swipeTags (l ++ m) = swipeTags l ++ swipeTags m := List.filterMap_append

/-- The finger count of the swipe that is open after a sequence. -/
def swipeAfter (l : List (LibinputEvent D)) : Option (Option ℤ) := followAll none (swipeTags l)

theorem swipeTag_of_type {e : LibinputEvent D}
    (h : e.eventType ∉ [.gestureSwipeBegin,.gestureSwipeUpdate,.gestureSwipeEnd]) :
    swipeTag e = none := by
  unfold swipeTag
  cases ht : e.eventType <;> simp_all

theorem swipeTags_of_types {l : List (LibinputEvent D)}
    (h : ∀ e ∈ l, e.eventType ∉ [.gestureSwipeBegin,.gestureSwipeUpdate,.gestureSwipeEnd]) :
    swipeTags l = [] :=
  List.filterMap_eq_nil_iff.mpr fun e he => swipeTag_of_type (h e he)

namespace TrackedDevice

/-- The event ends a frame that has moved under three fingers or more, outside a pinch and the
typing window. -/
def Swipes (td : TrackedDevice F D) (i : TouchInput F) : Prop :=
  i.te.ev.IsReport ∧ i.dwtActive = false ∧ td.pinchActive = false ∧
    (td.currentDx ≠ 0 ∨ td.currentDy ≠ 0) ∧ 3 ≤ max td.activeSlotCount td.touchFingers

instance (td : TrackedDevice F D) (i : TouchInput F) : Decidable (td.Swipes i) :=
  inferInstanceAs (Decidable (_ ∧ _ ∧ _ ∧ _ ∧ _))

variable [F64 D] [F32 F] [FloatCast F D]

theorem movementFrame_swipeTags (te : TimedEvent) (cfgNat : Bool) (cfgAccel : F)
    (td : TrackedDevice F D) : swipeTags (td.movementFrame te cfgNat cfgAccel).2 =
      if 3 ≤ max td.activeSlotCount td.touchFingers then
        [.update (max td.activeSlotCount td.touchFingers : ℕ)] else [] := by
  have hscroll : ∀ axis emit (td : TrackedDevice F D),
      swipeTags (td.scrollAxis te cfgNat axis emit) = [] := by
    intro axis emit td
    unfold scrollAxis
    split_ifs <;> rfl
  have hcount : ({ td with tapEmitted := true } : TrackedDevice F D).activeSlotCount =
      td.activeSlotCount := rfl
  unfold movementFrame
  dsimp only
  rw [hcount]
  by_cases hone : max td.activeSlotCount td.touchFingers ≤ 1
  · have hmotion : ∀ td : TrackedDevice F D, swipeTags (td.motionFrame te cfgAccel).2 = [] := by
      intro td
      unfold motionFrame
      dsimp only
      split_ifs <;> rfl
    have hfew : ¬ 3 ≤ max td.activeSlotCount td.touchFingers := by omega
    rw [if_neg hfew,if_pos hone,hmotion]
  · rw [if_neg hone]
    by_cases htwo : max td.activeSlotCount td.touchFingers = 2
    · have hfew : ¬ 3 ≤ max td.activeSlotCount td.touchFingers := by omega
      rw [if_neg hfew,if_pos htwo,scrollFrame]
      dsimp only
      rw [swipeTags_append,hscroll,hscroll]
      rfl
    · have hmany : 3 ≤ max td.activeSlotCount td.touchFingers := by omega
      rw [if_pos hmany,if_neg htwo]
      rfl

/-- What an event queues of a swipe: an update at most. -/
theorem touchStep_swipeTags (td : TrackedDevice F D) (i : TouchInput F) :
    swipeTags (td.touchStep i).2 =
      if td.Swipes i then [.update (max td.activeSlotCount td.touchFingers : ℕ)] else [] := by
  by_cases hsyn : i.te.ev.eventType = .synchronization
  · rw [td.touchStep_synchronization i hsyn,processSyn]
    by_cases hcode : i.te.ev.code = 0
    · have hreport : i.te.ev.IsReport := ⟨hsyn,hcode⟩
      rw [if_neg (not_not.mpr hcode)]
      simp only [Swipes,hreport,true_and]
      cases hdwt : i.dwtActive with
      | true => simp
      | false =>
        cases hactive : td.pinchActive with
        | true =>
          have hpinch : swipeTags (td.pinchFrame i.te).2 = [] := by
            unfold pinchFrame
            cases td.primarySlotDistance <;> rfl
          simpa [hactive] using hpinch
        | false =>
          by_cases hmoved : td.currentDx ≠ 0 ∨ td.currentDy ≠ 0
          · simpa [hactive,hmoved] using td.movementFrame_swipeTags i.te i.cfgNat i.cfgAccel
          · simp [hactive,hmoved]
    · have hnot : ¬ td.Swipes i := fun h => hcode h.1.2
      rw [if_pos hcode,if_neg hnot,swipeTags_nil]
  · rw [if_neg fun h => hsyn h.1.1]
    refine swipeTags_of_types fun e he => ?_
    rcases td.touchStep_types i e he with ⟨h,_⟩ | ⟨h,_⟩ | ⟨h,_⟩ | ⟨_,h⟩
    · simp [h]
    · simp [h]
    · simp [h]
    · exact absurd h hsyn

/-- A run queues updates only, and none exactly if none of its frames swipes. -/
theorem run_swipeTags (td : TrackedDevice F D) (inputs : List (TouchInput F)) :
    ∃ fingers : List ℤ, swipeTags (run touchStep td inputs).2 = fingers.map .update ∧
      (fingers = [] ↔ AtEach (fun front i => ¬ (run touchStep td front).1.Swipes i) inputs) := by
  induction inputs using List.reverseRecOn with
  | nil => exact ⟨[],rfl,by simp⟩
  | append_singleton inputs i ih =>
    obtain ⟨fingers,htags,hnone⟩ := ih
    rw [run_append,run_singleton,swipeTags_append,touchStep_swipeTags,htags,atEach_append,
      atEach_singleton,List.append_nil,← hnone]
    by_cases hswipes : (run touchStep td inputs).1.Swipes i
    · rw [if_pos hswipes]
      exact ⟨fingers ++ [_],by rw [List.map_append,List.map_singleton],by simp [hswipes]⟩
    · rw [if_neg hswipes]
      exact ⟨fingers,List.append_nil _,by simp [hswipes]⟩

end TrackedDevice

section Protocol
variable [F64 D] [F32 F] [FloatCast F D] (device : EvdevDevice) (path : PathBuf) (d : DevicePtr)

/-- The swipe events of a stream are sessions, an unfinished one last at most, and none is open
while `BTN_TOUCH` is up, exactly if no frame of the stream swipes. -/
theorem swipe_sessions_iff (inputs : List (TouchInput F)) :
    let out := fun front => (run TrackedDevice.touchStep
      (.new device path d : TrackedDevice F D) front).2
    (swipeTags (out inputs) ∈ prefixes (KStar.kstar (session ℤ)) ∧
        ∀ front back, inputs = front ++ back →
          ¬ KernelDown KeyCode.btnTouch (front.map (·.te.ev)) →
            ∀ fingers, swipeAfter (out front) ≠ some (some fingers)) ↔
      AtEach (fun front i =>
        ¬ (TrackedDevice.afterInputs device path d front : TrackedDevice F D).Swipes i) inputs := by
  intro out
  constructor
  · rintro ⟨hwords,-⟩
    obtain ⟨fingers,htags,hnone⟩ := TrackedDevice.run_swipeTags
      (.new device path d : TrackedDevice F D) inputs
    refine hnone.mp ?_
    cases fingers with
    | nil => rfl
    | cons n fingers =>
      rw [htags,List.map_cons] at hwords
      exact absurd hwords (update_not_mem_prefixes _ _)
  · intro hquiet
    have hempty : ∀ front back, inputs = front ++ back → swipeTags (out front) = [] := by
      intro front back heq
      obtain ⟨fingers,htags,hnone⟩ := TrackedDevice.run_swipeTags
        (.new device path d : TrackedDevice F D) front
      rw [heq,atEach_append] at hquiet
      rw [htags,hnone.mpr hquiet.1,List.map_nil]
    constructor
    · rw [hempty inputs [] (List.append_nil _).symm]
      exact ⟨[],Language.nil_mem_kstar _⟩
    · intro front back heq _ fingers
      rw [swipeAfter,hempty front back heq]
      simp

/-- One finger lands, two more follow, and the three move. -/
def threeFingers : List (TouchInput ℚ) := atOnce
  [(.absolute,AbsoluteAxisCode.absMtTrackingId,1),(.key,KeyCode.btnTouch,1),
    (.key,KeyCode.btnToolFinger,1),(.absolute,AbsoluteAxisCode.absX,100),(.synchronization,0,0),
    (.absolute,AbsoluteAxisCode.absMtSlot,1),(.absolute,AbsoluteAxisCode.absMtTrackingId,2),
    (.absolute,AbsoluteAxisCode.absMtSlot,2),(.absolute,AbsoluteAxisCode.absMtTrackingId,3),
    (.key,KeyCode.btnToolFinger,0),(.key,KeyCode.btnToolTripletap,1),
    (.absolute,AbsoluteAxisCode.absX,110),(.synchronization,0,0)]

/-- The movement is queued as the update of a swipe that has not begun. -/
theorem three_fingers_swipe_unbegun :
    KernelContacts (threeFingers.map (·.te.ev)) ∧
      swipeTags (run TrackedDevice.touchStep
        (.new plainTouchpad "/dev/input/event5" 0 : TrackedDevice ℚ ℚ) threeFingers).2 ∉
          prefixes (KStar.kstar (session ℤ)) := by
  refine ⟨by decide +kernel,?_⟩
  have htags : swipeTags (run TrackedDevice.touchStep
      (.new plainTouchpad "/dev/input/event5" 0 : TrackedDevice ℚ ℚ) threeFingers).2 =
      [.update 3] := by
    decide +kernel
  rw [htags]
  exact update_not_mem_prefixes 3 []

end Protocol
end LibinputRs
