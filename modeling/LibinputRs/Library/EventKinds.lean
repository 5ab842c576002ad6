import LibinputRs.Accessors
import LibinputRs.Backend.EventTimes
import LibinputRs.Library.Lifecycle

/-! The type of an event and its payload are two fields. In every event that a client obtains they
agree, so exactly one cast gives the event back and the accessors of its family read its payload. -/
namespace LibinputRs
open Automata

variable {F D : Type}

/-- The types of event that a payload belongs to. -/
def EventPayload.types : EventPayload D → List LibinputEventType
  | .pointerMotion _ => [.pointerMotion]
  | .pointerMotionAbsolute _ => [.pointerMotionAbsolute]
  | .pointerButton _ => [.pointerButton]
  | .pointerAxis _ =>
    [.pointerAxis,.pointerScrollWheel,.pointerScrollFinger,.pointerScrollContinuous]
  | .keyboardKey _ => [.keyboardKey]
  | .touchDown _ => [.touchDown]
  | .touchUp _ => [.touchUp]
  | .touchMotion _ => [.touchMotion]
  | .touchCancel _ => [.touchCancel]
  | .touchFrame _ => [.touchFrame]
  | .gestureSwipeBegin _ => [.gestureSwipeBegin]
  | .gestureSwipeUpdate _ => [.gestureSwipeUpdate]
  | .gestureSwipeEnd _ => [.gestureSwipeEnd]
  | .gesturePinchBegin _ => [.gesturePinchBegin]
  | .gesturePinchUpdate _ => [.gesturePinchUpdate]
  | .gesturePinchEnd _ => [.gesturePinchEnd]
  | .switchToggle _ => [.switchToggle]
  | .deviceAdded => [.deviceAdded]
  | .deviceRemoved => [.deviceRemoved]

/-- The eight casts. -/
def eventCasts : List (LibinputEvent D → Option (LibinputEvent D)) :=
  [LibinputEvent.libinputEventGetKeyboardEvent,LibinputEvent.libinputEventGetPointerEvent,
    LibinputEvent.libinputEventGetTouchEvent,LibinputEvent.libinputEventGetGestureEvent,
    LibinputEvent.libinputEventGetSwitchEvent,LibinputEvent.libinputEventGetTabletToolEvent,
    LibinputEvent.libinputEventGetTabletPadEvent,LibinputEvent.libinputEventGetDeviceNotifyEvent]

namespace LibinputEvent
variable {e : LibinputEvent D}

/-- The payload is one of the type of the event. -/
def Agrees (e : LibinputEvent D) : Prop := e.eventType ∈ e.payload.types

theorem agrees_added (d : DevicePtr) : (added d : LibinputEvent D).Agrees :=
  List.mem_singleton_self _

theorem agrees_removed (d : DevicePtr) : (removed d : LibinputEvent D).Agrees :=
  List.mem_singleton_self _

/-- The handlers queue events whose type and payload agree. -/
theorem EmittedAt.agrees {t : ℕ} (h : e.EmittedAt t) : e.Agrees := by
  cases h with
  | scroll eventType d axis value v source h =>
    rcases h with rfl | rfl <;> simp [Agrees,EventPayload.types]
  | _ => exact List.mem_singleton_self _

/-- A type other than `NONE` is in exactly one of the families. -/
theorem eventCasts_filterMap (h : e.eventType ≠ .none) : eventCasts.filterMap (· e) = [e] := by
  cases htype : e.eventType
  case none => exact absurd htype h
  all_goals simp [eventCasts,libinputEventGetKeyboardEvent,libinputEventGetPointerEvent,
    libinputEventGetTouchEvent,libinputEventGetGestureEvent,libinputEventGetSwitchEvent,
    libinputEventGetTabletToolEvent,libinputEventGetTabletPadEvent,
    libinputEventGetDeviceNotifyEvent,castTo,htype]

/-- No payload is one of the type `NONE`. -/
theorem Agrees.eventType_ne_none (h : e.Agrees) : e.eventType ≠ .none := by
  intro hnone
  unfold Agrees at h
  rw [hnone] at h
  cases hpayload : e.payload <;> simp [hpayload,EventPayload.types] at h

/-- Where the cast to a family gives the event, the accessor of the family reads the time that is
stored in it. -/
def ReadsTime (cast : LibinputEvent D → Option (LibinputEvent D)) (time : LibinputEvent D → ℕ)
    (e : LibinputEvent D) : Prop :=
  cast e = some e → e.timeUsec = some (time e)

theorem Agrees.mem_types {family : List LibinputEventType} (h : e.Agrees)
    (hcast : e.castTo family = some e) : ∃ t ∈ e.payload.types, t ∈ family := by
  refine ⟨e.eventType,h,?_⟩
  by_contra hmem
  rw [castTo,if_neg hmem] at hcast
  cases hcast

theorem Agrees.keyboard_time (h : e.Agrees) :
    e.ReadsTime libinputEventGetKeyboardEvent libinputEventKeyboardGetTimeUsec := by
  intro hcast
  have hmeet := h.mem_types hcast
  obtain ⟨eventType,payload,d⟩ := e
  cases payload with
  | keyboardKey k => rfl
  | _ => simp [EventPayload.types] at hmeet

theorem Agrees.pointer_time (h : e.Agrees) :
    e.ReadsTime libinputEventGetPointerEvent libinputEventPointerGetTimeUsec := by
  intro hcast
  have hmeet := h.mem_types hcast
  obtain ⟨eventType,payload,d⟩ := e
  cases payload with
  | pointerMotion m => rfl
  | pointerMotionAbsolute m => rfl
  | pointerButton b => rfl
  | pointerAxis a => rfl
  | _ => simp [EventPayload.types] at hmeet

theorem Agrees.gesture_time (h : e.Agrees) :
    e.ReadsTime libinputEventGetGestureEvent libinputEventGestureGetTimeUsec := by
  intro hcast
  have hmeet := h.mem_types hcast
  obtain ⟨eventType,payload,d⟩ := e
  cases payload with
  | gestureSwipeBegin g => rfl
  | gestureSwipeUpdate g => rfl
  | gestureSwipeEnd g => rfl
  | gesturePinchBegin g => rfl
  | gesturePinchUpdate g => rfl
  | gesturePinchEnd g => rfl
  | _ => simp [EventPayload.types] at hmeet

end LibinputEvent

section Runs
variable [F32 F] [F64 D] [FloatCast F D]

/-- Every tick queues events whose type and payload agree. -/
theorem Tick.agrees {w w' : World F D} {o : List (Obs F D)}
    (h : Tick w o w') : ∀ e ∈ produced o, e.Agrees := by
  cases h.kind with
  | silent o w' hsilent htracked hdevices =>
    rw [produced_of_silent hsilent]
    exact List.forall_mem_nil _
  | admitted fd device path ht =>
    rw [produced_admission]
    exact List.forall_mem_singleton.mpr (LibinputEvent.agrees_added _)
  | repeats fd td now ht =>
    rw [produced_map_queued]
    intro e he
    obtain ⟨hk,_,hemitted⟩ := td.emitKeyRepeats_emitted now e he
    exact hemitted.agrees
  | event fd td cfg typing live te ht =>
    rw [TrackedDevice.produced_observeEvent]
    exact fun e he => (TrackedDevice.processEvent_emitted cfg typing (td,live) te e he).agrees
  | removed fd td ht =>
    rw [produced_removal]
    exact List.forall_mem_singleton.mpr (LibinputEvent.agrees_removed _)

theorem Ticks.agrees {w w' : World F D} {out : List (Obs F D)} (h : Ticks w out w') :
    ∀ e ∈ produced out, e.Agrees := by
  refine h.history (fun out _ => ∀ e ∈ produced out, e.Agrees) (fun out w o w' hout ht => ?_)
    (List.forall_mem_nil _)
  rw [produced_append]
  exact List.forall_mem_append.mpr ⟨hout,ht.agrees⟩

/-- In every event that a client obtains type and payload agree; exactly one cast gives it, and on
keyboard, pointer and gesture events the accessor of the family reads the time stored in it. -/
theorem delivered_events_agree (interface : LibinputInterface) (inotify : Bool)
    (calls : List (Call D)) :
    ∀ e ∈ delivered ((.new interface inotify : LibinputContext F D).runCalls calls).2,
      e.Agrees ∧ eventCasts.filterMap (· e) = [e] ∧
        e.ReadsTime LibinputEvent.libinputEventGetKeyboardEvent
          LibinputEvent.libinputEventKeyboardGetTimeUsec ∧
        e.ReadsTime LibinputEvent.libinputEventGetPointerEvent
          LibinputEvent.libinputEventPointerGetTimeUsec ∧
        e.ReadsTime LibinputEvent.libinputEventGetGestureEvent
          LibinputEvent.libinputEventGestureGetTimeUsec := by
  intro e he
  have hproduced : e ∈ produced ((.new interface inotify : LibinputContext F D).runCalls calls).2 := by
    rw [← LibinputContext.delivered_append_queue]
    exact List.mem_append_left _ he
  have hagrees := (LibinputContext.runCalls_ticks (.new interface inotify) calls).agrees e hproduced
  exact ⟨hagrees,LibinputEvent.eventCasts_filterMap hagrees.eventType_ne_none,hagrees.keyboard_time,
    hagrees.pointer_time,hagrees.gesture_time⟩

/-- A keyboard is added, a press of A is read, and the client obtains both events. -/
def pressObtained : List (Call ℚ) :=
  [.addDevice "/dev/input/event3" ⟨5,some plainKeyboard⟩,
    .dispatch ⟨none,0,[],fun fd =>
      if fd = 5 then .batch [⟨⟨7,.key,KeyCode.keyA,1⟩,0⟩] else .wouldBlock⟩,
    .getEvent,.getEvent]

theorem press_obtained_agrees :
    ∃ e ∈ delivered ((.new ⟨true,true⟩ false : LibinputContext ℚ ℚ).runCalls pressObtained).2,
      e.eventType = .keyboardKey ∧ e.Agrees ∧ eventCasts.filterMap (· e) = [e] := by
  -- the first event is the addition of the keyboard
  have hmem := List.get_mem (delivered
    ((.new ⟨true,true⟩ false : LibinputContext ℚ ℚ).runCalls pressObtained).2) ⟨1,by decide +kernel⟩
  obtain ⟨hagrees,hcast,_⟩ := delivered_events_agree ⟨true,true⟩ false pressObtained _ hmem
  exact ⟨_,hmem,by decide +kernel,hagrees,hcast⟩

end Runs
end LibinputRs
