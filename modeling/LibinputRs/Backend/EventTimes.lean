import LibinputRs.Backend.DeviceSteps

/-! The events that kernel events make the backend queue, and the time they carry. Whatever a
kernel event makes the backend queue has the time of that event; a repeat has the time of the
press. -/
namespace LibinputRs

variable {F D : Type}

/-- The `time_usec` of an event; the notifications about a device have none. -/
def LibinputEvent.timeUsec (e : LibinputEvent D) : Option ℕ :=
  match e.payload with
  | .pointerMotion m => some m.timeUsec
  | .pointerMotionAbsolute m => some m.timeUsec
  | .pointerButton b => some b.timeUsec
  | .pointerAxis a => some a.timeUsec
  | .keyboardKey k => some k.timeUsec
  | .touchDown t => some t.timeUsec
  | .touchUp t => some t.timeUsec
  | .touchMotion t => some t.timeUsec
  | .touchCancel t => some t.timeUsec
  | .touchFrame timeUsec => some timeUsec
  | .gestureSwipeBegin g => some g.timeUsec
  | .gestureSwipeUpdate g => some g.timeUsec
  | .gestureSwipeEnd g => some g.timeUsec
  | .gesturePinchBegin g => some g.timeUsec
  | .gesturePinchUpdate g => some g.timeUsec
  | .gesturePinchEnd g => some g.timeUsec
  | .switchToggle s => some s.timeUsec
  | .deviceAdded => none
  | .deviceRemoved => none

/-- The events that the handlers queue, with the time they are given. -/
inductive LibinputEvent.EmittedAt (t : ℕ) : LibinputEvent D → Prop
  | key (d : DevicePtr) (code state : ℕ) : EmittedAt t (.key d t code state)
  | button (d : DevicePtr) (code state : ℕ) : EmittedAt t (.button d t code state)
  | motion (d : DevicePtr) (dx dy dxUnaccel dyUnaccel : D) :
      EmittedAt t ⟨.pointerMotion,.pointerMotion ⟨t,dx,dy,dxUnaccel,dyUnaccel⟩,d⟩
  | scroll (eventType : LibinputEventType) (d : DevicePtr) (axis : ℕ) (value : D) (v : ℤ)
      (source : ℕ) (h : eventType = .pointerScrollWheel ∨ eventType = .pointerScrollFinger) :
      EmittedAt t ⟨eventType,.pointerAxis ⟨t,axis,value,v,source⟩,d⟩
  | pinchBegin [F64 D] (d : DevicePtr) (fingers : ℤ) : EmittedAt t (.pinchBegin d t fingers)
  | pinchUpdate [F64 D] (d : DevicePtr) (fingers : ℤ) (scale angle : D) :
      EmittedAt t (.pinchUpdate d t fingers scale angle)
  | pinchEnd [F64 D] (d : DevicePtr) (fingers : ℤ) (scale angle : D) :
      EmittedAt t (.pinchEnd d t fingers scale angle)
  | swipeUpdate [F64 D] (d : DevicePtr) (fingers : ℤ) (dx dy : D) :
      EmittedAt t (.swipeUpdate d t fingers dx dy)

theorem LibinputEvent.EmittedAt.timeUsec_eq {t : ℕ} {e : LibinputEvent D} (h : e.EmittedAt t) :
    e.timeUsec = some t := by
  cases h <;> rfl

@[simp] theorem timeUsec_added (d : DevicePtr) :
    (.added d : LibinputEvent D).timeUsec = none := rfl

@[simp] theorem timeUsec_removed (d : DevicePtr) :
    (.removed d : LibinputEvent D).timeUsec = none := rfl

/-- Every event carries the given time. -/
def StampedAt (t : ℕ) (l : List (LibinputEvent D)) : Prop := ∀ e ∈ l, e.timeUsec = some t

namespace TrackedDevice
open LibinputEvent (EmittedAt)

theorem emitKeyRepeats_emitted (now : Instant) (td : TrackedDevice F D) :
    ∀ e ∈ (td.emitKeyRepeats now).2, ∃ hk ∈ td.heldKeys, e.EmittedAt hk.tsUsec := by
  intro e he
  obtain ⟨hk,hmem,rfl⟩ := td.emitKeyRepeats_out now e he
  exact ⟨hk,hmem,.key _ _ _⟩

theorem processKeyboardEvent_emitted (te : TimedEvent) (td : TrackedDevice F D)
    (t : Option Instant) :
    ∀ e ∈ (td.processKeyboardEvent te t).2.2, e.EmittedAt (systimeToUsec te.ev.time) := by
  rcases td.processKeyboardEvent_cases te t with ⟨_,_,h⟩ | ⟨_,_,h⟩ | ⟨_,h⟩ <;> rw [h]
  · exact List.forall_mem_singleton.mpr (.key _ _ _)
  · exact List.forall_mem_singleton.mpr (.key _ _ _)
  · exact List.forall_mem_nil _

section Handlers
variable [F64 D]

theorem processRelativeEvent_emitted (te : TimedEvent) (td : TrackedDevice F D) :
    ∀ e ∈ td.processRelativeEvent te, e.EmittedAt (systimeToUsec te.ev.time) := by
  unfold processRelativeEvent
  dsimp only
  split
  · split_ifs
    · exact List.forall_mem_singleton.mpr (.motion _ _ _ _ _)
    · exact List.forall_mem_singleton.mpr (.motion _ _ _ _ _)
    · exact List.forall_mem_singleton.mpr (.scroll _ _ _ _ _ _ (.inl rfl))
    · exact List.forall_mem_singleton.mpr (.scroll _ _ _ _ _ _ (.inl rfl))
    · exact List.forall_mem_nil _
  · split_ifs
    · exact List.forall_mem_singleton.mpr (.button _ _ _)
    · exact List.forall_mem_nil _
  · exact List.forall_mem_nil _

theorem touchDown_emitted (te : TimedEvent) (td : TrackedDevice F D) :
    ∀ e ∈ (td.touchDown te).2, e.EmittedAt (systimeToUsec te.ev.time) := by
  unfold touchDown
  dsimp only
  split_ifs
  · split
    · exact List.forall_mem_singleton.mpr (.pinchBegin _ _)
    · exact List.forall_mem_nil _
  · exact List.forall_mem_nil _

theorem touchUp_emitted (te : TimedEvent) (cfgTap dwt : Bool) (td : TrackedDevice F D) :
    ∀ e ∈ (td.touchUp te cfgTap dwt).2, e.EmittedAt (systimeToUsec te.ev.time) := by
  unfold touchUp liftPinch
  refine List.forall_mem_append.mpr ⟨?_,?_⟩
  · split_ifs
    · exact List.forall_mem_singleton.mpr (.pinchEnd _ _ _ _)
    · exact List.forall_mem_nil _
  · split_ifs
    · exact List.forall_mem_cons.mpr ⟨.button _ _ _,List.forall_mem_singleton.mpr (.button _ _ _)⟩
    · exact List.forall_mem_nil _

omit [F64 D] in
theorem physicalClick_emitted (te : TimedEvent) (td : TrackedDevice F D) :
    ∀ e ∈ (td.physicalClick te).2, e.EmittedAt (systimeToUsec te.ev.time) := by
  unfold physicalClick
  dsimp only
  split_ifs
  · exact List.forall_mem_singleton.mpr (.button _ _ _)
  · exact List.forall_mem_nil _

theorem processAbsoluteKey_emitted (te : TimedEvent) (cfgTap dwt : Bool)
    (td : TrackedDevice F D) :
    ∀ e ∈ (td.processAbsoluteKey te cfgTap dwt).2, e.EmittedAt (systimeToUsec te.ev.time) := by
  unfold processAbsoluteKey
  by_cases htouch : te.ev.code = KeyCode.btnTouch
  · rw [if_pos htouch]
    split_ifs
    · exact td.touchDown_emitted te
    · exact td.touchUp_emitted te cfgTap dwt
  · rw [if_neg htouch]
    split_ifs
    any_goals exact List.forall_mem_nil _
    exact td.physicalClick_emitted te

theorem scrollAxis_emittedAt (te : TimedEvent) (cfgNat : Bool) (axis : ℕ) (emit : ℤ)
    (td : TrackedDevice F D) :
    ∀ e ∈ td.scrollAxis te cfgNat axis emit, e.EmittedAt (systimeToUsec te.ev.time) := by
  unfold scrollAxis
  split_ifs
  · exact List.forall_mem_singleton.mpr (.scroll _ _ _ _ _ _ (.inr rfl))
  · exact List.forall_mem_singleton.mpr (.scroll _ _ _ _ _ _ (.inr rfl))
  · exact List.forall_mem_nil _

theorem pinchFrame_emitted (te : TimedEvent) (td : TrackedDevice F D) :
    ∀ e ∈ (td.pinchFrame te).2, e.EmittedAt (systimeToUsec te.ev.time) := by
  unfold pinchFrame
  split
  · exact List.forall_mem_singleton.mpr (.pinchUpdate _ _ _ _)
  · exact List.forall_mem_nil _

variable [F32 F] [FloatCast F D]

theorem movementFrame_emitted (te : TimedEvent) (cfgNat : Bool) (cfgAccel : F)
    (td : TrackedDevice F D) :
    ∀ e ∈ (td.movementFrame te cfgNat cfgAccel).2, e.EmittedAt (systimeToUsec te.ev.time) := by
  unfold movementFrame
  dsimp only
  split_ifs
  · unfold motionFrame
    dsimp only
    split_ifs
    · exact List.forall_mem_singleton.mpr (.motion _ _ _ _ _)
    · exact List.forall_mem_nil _
  · exact List.forall_mem_append.mpr
      ⟨scrollAxis_emittedAt te cfgNat _ _ _,scrollAxis_emittedAt te cfgNat _ _ _⟩
  · exact List.forall_mem_singleton.mpr (.swipeUpdate _ _ _ _)

theorem processSyn_emitted (te : TimedEvent) (cfgNat : Bool) (cfgAccel : F) (dwt : Bool)
    (td : TrackedDevice F D) :
    ∀ e ∈ (td.processSyn te cfgNat cfgAccel dwt).2, e.EmittedAt (systimeToUsec te.ev.time) := by
  unfold processSyn
  split_ifs
  · exact List.forall_mem_nil _
  · exact td.pinchFrame_emitted te
  · exact List.forall_mem_nil _
  · exact td.movementFrame_emitted te cfgNat cfgAccel
  · exact List.forall_mem_nil _

theorem processAbsoluteEvent_emitted (te : TimedEvent) (cfgTap cfgNat : Bool) (cfgAccel : F)
    (dwt : Bool) (td : TrackedDevice F D) :
    ∀ e ∈ (td.processAbsoluteEvent te cfgTap cfgNat cfgAccel dwt).2,
      e.EmittedAt (systimeToUsec te.ev.time) := by
  unfold processAbsoluteEvent
  dsimp only
  split
  · exact processAbsoluteKey_emitted te cfgTap dwt _
  · exact List.forall_mem_nil _
  · exact processSyn_emitted te cfgNat cfgAccel dwt _
  · exact List.forall_mem_nil _

/-- Everything a kernel event makes the backend queue comes from one of its handlers. -/
theorem processEvent_emitted (cfg : Settings F) (typing : Option Instant)
    (s : TrackedDevice F D × Option Instant) (te : TimedEvent) :
    ∀ e ∈ (processEvent cfg typing s te).2, e.EmittedAt (systimeToUsec te.ev.time) := by
  rcases processEvent_cases cfg typing s te with ⟨_,_,h⟩ | ⟨_,_,_,h⟩ | ⟨_,_,_,h⟩ | ⟨_,_,_,h⟩ <;>
    rw [h]
  · exact s.1.processKeyboardEvent_emitted te s.2
  · exact s.1.processRelativeEvent_emitted te
  · exact s.1.processAbsoluteEvent_emitted te _ _ _ _
  · exact List.forall_mem_nil _

/-- Everything a kernel event makes the backend queue carries the time of that event. -/
theorem processEvent_stamped (cfg : Settings F) (typing : Option Instant)
    (s : TrackedDevice F D × Option Instant) (te : TimedEvent) :
    StampedAt (systimeToUsec te.ev.time) (processEvent cfg typing s te).2 :=
  fun e he => (processEvent_emitted cfg typing s te e he).timeUsec_eq

end Handlers
end TrackedDevice
end LibinputRs
