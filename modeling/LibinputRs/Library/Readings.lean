import LibinputRs.Backend.TouchpadSteps
import LibinputRs.Library.EventKinds

/-! What the accessors tell of an event. A client has an event as a pointer, and only the accessors
look into it. Of the events that it obtains they tell all but three things: the axis of a scroll is
not among what they read, the angle at the end of a pinch reads as zero, and the steps of a scroll
are read as a floating-point number. -/
namespace LibinputRs
open Automata

variable {F D : Type}

/-- All that the accessors give for one event. -/
structure EventReading (D : Type) where
  eventType : LibinputEventType
  device : DevicePtr
  keyboardTime : ℕ × ℕ
  key : ℕ × ℕ × ℕ
  pointerTime : ℕ × ℕ
  motion : D × D × D × D
  absolute : D × D × (ℕ → D) × (ℕ → D)
  button : ℕ × ℕ × ℕ
  hasAxis : ℕ → Bool
  axisValue : (ℕ → D) × (ℕ → D) × (ℕ → D) × (ℕ → D)
  axisSource : ℕ
  touchTime : ℕ × ℕ
  touchSlot : ℤ × ℤ
  touchPoint : D × D × (ℕ → D) × (ℕ → D)
  gestureTime : ℕ × ℕ
  fingerCount : ℤ
  gestureMotion : D × D × D × D
  gestureTurn : D × D
  cancelled : Bool
  switchTime : ℕ × ℕ
  switch : ℕ × ℕ

/-- Two events that the accessors cannot tell apart. -/
inductive ReadAlike [F64 D] : LibinputEvent D → LibinputEvent D → Prop
  | same (e : LibinputEvent D) : ReadAlike e e
  | scroll (eventType : LibinputEventType) (d : DevicePtr) (t axis axis' : ℕ) (v v' : ℤ)
      (source : ℕ) (hsteps : (F64.ofI32 v : D) = F64.ofI32 v') :
      ReadAlike (.scroll eventType d t axis v source) (.scroll eventType d t axis' v' source)
  | pinchEnd (d : DevicePtr) (t : ℕ) (fingers : ℤ) (scale angle angle' : D) :
      ReadAlike (.pinchEnd d t fingers scale angle) (.pinchEnd d t fingers scale angle')

namespace LibinputEvent

variable [F64 D]

def reading (e : LibinputEvent D) : EventReading D where
  eventType := e.eventType
  device := e.device
  keyboardTime := (e.libinputEventKeyboardGetTime,e.libinputEventKeyboardGetTimeUsec)
  key := (e.libinputEventKeyboardGetKey,e.libinputEventKeyboardGetKeyState,
    e.libinputEventKeyboardGetSeatKeyCount)
  pointerTime := (e.libinputEventPointerGetTime,e.libinputEventPointerGetTimeUsec)
  motion := (e.libinputEventPointerGetDx,e.libinputEventPointerGetDy,
    e.libinputEventPointerGetDxUnaccelerated,e.libinputEventPointerGetDyUnaccelerated)
  absolute := (e.libinputEventPointerGetAbsoluteX,e.libinputEventPointerGetAbsoluteY,
    e.libinputEventPointerGetAbsoluteXTransformed,e.libinputEventPointerGetAbsoluteYTransformed)
  button := (e.libinputEventPointerGetButton,e.libinputEventPointerGetButtonState,
    e.libinputEventPointerGetSeatButtonCount)
  hasAxis := e.libinputEventPointerHasAxis
  axisValue := (e.libinputEventPointerGetAxisValue,e.libinputEventPointerGetAxisValueDiscrete,
    e.libinputEventPointerGetScrollValue,e.libinputEventPointerGetScrollValueV120)
  axisSource := e.libinputEventPointerGetAxisSource
  touchTime := (e.libinputEventTouchGetTime,e.libinputEventTouchGetTimeUsec)
  touchSlot := (e.libinputEventTouchGetSlot,e.libinputEventTouchGetSeatSlot)
  touchPoint := (e.libinputEventTouchGetX,e.libinputEventTouchGetY,
    e.libinputEventTouchGetXTransformed,e.libinputEventTouchGetYTransformed)
  gestureTime := (e.libinputEventGestureGetTime,e.libinputEventGestureGetTimeUsec)
  fingerCount := e.libinputEventGestureGetFingerCount
  gestureMotion := (e.libinputEventGestureGetDx,e.libinputEventGestureGetDy,
    e.libinputEventGestureGetDxUnaccelerated,e.libinputEventGestureGetDyUnaccelerated)
  gestureTurn := (e.libinputEventGestureGetScale,e.libinputEventGestureGetAngleDelta)
  cancelled := e.libinputEventGestureGetCancelled
  switchTime := (e.libinputEventSwitchGetTime,e.libinputEventSwitchGetTimeUsec)
  switch := (e.libinputEventSwitchGetSwitch,e.libinputEventSwitchGetSwitchState)

/-- The events that the library queues, with the fields that are always the same. -/
inductive Formed : LibinputEvent D → Prop
  | added (d : DevicePtr) : Formed (.added d)
  | removed (d : DevicePtr) : Formed (.removed d)
  | key (d : DevicePtr) (t code state : ℕ) : Formed (.key d t code state)
  | button (d : DevicePtr) (t code state : ℕ) : Formed (.button d t code state)
  | motion (d : DevicePtr) (t : ℕ) (dx dy dxUnaccel dyUnaccel : D) :
      Formed ⟨.pointerMotion,.pointerMotion ⟨t,dx,dy,dxUnaccel,dyUnaccel⟩,d⟩
  | wheel (d : DevicePtr) (t axis : ℕ) (v : ℤ) (source : ℕ) :
      Formed (.scroll .pointerScrollWheel d t axis v source)
  | finger (d : DevicePtr) (t axis : ℕ) (v : ℤ) (source : ℕ) :
      Formed (.scroll .pointerScrollFinger d t axis v source)
  | pinchBegin (d : DevicePtr) (t : ℕ) (fingers : ℤ) : Formed (.pinchBegin d t fingers)
  | pinchUpdate (d : DevicePtr) (t : ℕ) (fingers : ℤ) (scale angle : D) :
      Formed (.pinchUpdate d t fingers scale angle)
  | pinchEnd (d : DevicePtr) (t : ℕ) (fingers : ℤ) (scale angle : D) :
      Formed (.pinchEnd d t fingers scale angle)
  | swipeUpdate (d : DevicePtr) (t : ℕ) (fingers : ℤ) (dx dy : D) :
      Formed (.swipeUpdate d t fingers dx dy)

theorem reading_of_readAlike {e e' : LibinputEvent D} (h : ReadAlike e e') :
    e.reading = e'.reading := by
  cases h with
  | same => rfl
  | scroll eventType d t axis axis' v v' source hsteps =>
    have hvalue : (F64.ofI32 v : D) * 15.0 = F64.ofI32 v' * 15.0 := by rw [hsteps]
    have hread : (scroll eventType d t axis v source).libinputEventPointerGetAxisValue =
        (scroll eventType d t axis' v' source : LibinputEvent D).libinputEventPointerGetAxisValue :=
      funext fun _ => hvalue
    have hdiscrete : (scroll eventType d t axis v source).libinputEventPointerGetAxisValueDiscrete =
        (scroll eventType d t axis' v' source :
          LibinputEvent D).libinputEventPointerGetAxisValueDiscrete := funext fun _ => hsteps
    have hv120 : (scroll eventType d t axis v source).libinputEventPointerGetScrollValueV120 =
        (scroll eventType d t axis' v' source :
          LibinputEvent D).libinputEventPointerGetScrollValueV120 :=
      funext fun _ => congrArg (· * 120.0) hvalue
    have hscroll : (scroll eventType d t axis v source).libinputEventPointerGetScrollValue =
        (scroll eventType d t axis' v' source :
          LibinputEvent D).libinputEventPointerGetScrollValue := funext fun _ => hvalue
    unfold reading
    rw [hread,hdiscrete,hv120,hscroll]
    rfl
  | pinchEnd d t fingers scale angle angle' => rfl

/-- Queued events that read alike differ in nothing else. -/
theorem Formed.readAlike {e e' : LibinputEvent D} (h : e.Formed) (h' : e'.Formed)
    (hreading : e.reading = e'.reading) : ReadAlike e e' := by
  have htype : e.eventType = e'.eventType := congrArg EventReading.eventType hreading
  have hdevice : e.device = e'.device := congrArg EventReading.device hreading
  have hkeyTime := congrArg EventReading.keyboardTime hreading
  have hpointerTime := congrArg EventReading.pointerTime hreading
  have hgestureTime := congrArg EventReading.gestureTime hreading
  cases h with
  | added d =>
    cases h' with
    | added d' =>
      obtain rfl : d = d' := hdevice
      exact .same _
    | _ => cases htype
  | removed d =>
    cases h' with
    | removed d' =>
      obtain rfl : d = d' := hdevice
      exact .same _
    | _ => cases htype
  | key d t code state =>
    cases h' with
    | key d' t' code' state' =>
      obtain rfl : d = d' := hdevice
      obtain rfl : t = t' := congrArg (·.2) hkeyTime
      obtain rfl : code = code' := congrArg (·.key.1) hreading
      obtain rfl : state = state' := congrArg (·.key.2.1) hreading
      exact .same _
    | _ => cases htype
  | button d t code state =>
    cases h' with
    | button d' t' code' state' =>
      obtain rfl : d = d' := hdevice
      obtain rfl : t = t' := congrArg (·.2) hpointerTime
      obtain rfl : code = code' := congrArg (·.button.1) hreading
      obtain rfl : state = state' := congrArg (·.button.2.1) hreading
      exact .same _
    | _ => cases htype
  | motion d t dx dy dxUnaccel dyUnaccel =>
    cases h' with
    | motion d' t' dx' dy' dxUnaccel' dyUnaccel' =>
      obtain rfl : d = d' := hdevice
      obtain rfl : t = t' := congrArg (·.2) hpointerTime
      obtain rfl : dx = dx' := congrArg (·.motion.1) hreading
      obtain rfl : dy = dy' := congrArg (·.motion.2.1) hreading
      obtain rfl : dxUnaccel = dxUnaccel' := congrArg (·.motion.2.2.1) hreading
      obtain rfl : dyUnaccel = dyUnaccel' := congrArg (·.motion.2.2.2) hreading
      exact .same _
    | _ => cases htype
  | wheel d t axis v source =>
    cases h' with
    | wheel d' t' axis' v' source' =>
      obtain rfl : d = d' := hdevice
      obtain rfl : t = t' := congrArg (·.2) hpointerTime
      obtain rfl : source = source' := congrArg EventReading.axisSource hreading
      exact .scroll _ d t axis axis' v v' source (congrArg (·.axisValue.2.1 0) hreading)
    | _ => cases htype
  | finger d t axis v source =>
    cases h' with
    | finger d' t' axis' v' source' =>
      obtain rfl : d = d' := hdevice
      obtain rfl : t = t' := congrArg (·.2) hpointerTime
      obtain rfl : source = source' := congrArg EventReading.axisSource hreading
      exact .scroll _ d t axis axis' v v' source (congrArg (·.axisValue.2.1 0) hreading)
    | _ => cases htype
  | pinchBegin d t fingers =>
    cases h' with
    | pinchBegin d' t' fingers' =>
      obtain rfl : d = d' := hdevice
      obtain rfl : t = t' := congrArg (·.2) hgestureTime
      obtain rfl : fingers = fingers' := congrArg EventReading.fingerCount hreading
      exact .same _
    | _ => cases htype
  | pinchUpdate d t fingers scale angle =>
    cases h' with
    | pinchUpdate d' t' fingers' scale' angle' =>
      obtain rfl : d = d' := hdevice
      obtain rfl : t = t' := congrArg (·.2) hgestureTime
      obtain rfl : fingers = fingers' := congrArg EventReading.fingerCount hreading
      obtain rfl : scale = scale' := congrArg (·.gestureTurn.1) hreading
      obtain rfl : angle = angle' := congrArg (·.gestureTurn.2) hreading
      exact .same _
    | _ => cases htype
  | pinchEnd d t fingers scale angle =>
    cases h' with
    | pinchEnd d' t' fingers' scale' angle' =>
      obtain rfl : d = d' := hdevice
      obtain rfl : t = t' := congrArg (·.2) hgestureTime
      obtain rfl : fingers = fingers' := congrArg EventReading.fingerCount hreading
      obtain rfl : scale = scale' := congrArg (·.gestureTurn.1) hreading
      exact .pinchEnd d t fingers scale angle angle'
    | _ => cases htype
  | swipeUpdate d t fingers dx dy =>
    cases h' with
    | swipeUpdate d' t' fingers' dx' dy' =>
      obtain rfl : d = d' := hdevice
      obtain rfl : t = t' := congrArg (·.2) hgestureTime
      obtain rfl : fingers = fingers' := congrArg EventReading.fingerCount hreading
      obtain rfl : dx = dx' := congrArg (·.gestureMotion.1) hreading
      obtain rfl : dy = dy' := congrArg (·.gestureMotion.2.1) hreading
      exact .same _
    | _ => cases htype

end LibinputEvent

section Handlers
open LibinputEvent (Formed)

namespace TrackedDevice

theorem processKeyboardEvent_formed [F64 D] (te : TimedEvent) (td : TrackedDevice F D)
    (t : Option Instant) : ∀ e ∈ (td.processKeyboardEvent (D := D) te t).2.2, e.Formed := by
  intro e he
  obtain ⟨_,_,_,rfl⟩ := processKeyboardEvent_out te td t e he
  exact .key _ _ _ _

theorem emitKeyRepeats_formed [F64 D] (now : Instant) (td : TrackedDevice F D) :
    ∀ e ∈ (td.emitKeyRepeats (D := D) now).2, e.Formed := by
  intro e he
  obtain ⟨_,_,rfl⟩ := td.emitKeyRepeats_out now e he
  exact .key _ _ _ _

variable [F64 D]

theorem processRelativeEvent_formed (te : TimedEvent) (td : TrackedDevice F D) :
    ∀ e ∈ td.processRelativeEvent te, e.Formed := by
  unfold processRelativeEvent
  dsimp only
  split
  · split_ifs
    · exact List.forall_mem_singleton.mpr (.motion _ _ _ _ _ _)
    · exact List.forall_mem_singleton.mpr (.motion _ _ _ _ _ _)
    · exact List.forall_mem_singleton.mpr (.wheel _ _ _ _ _)
    · exact List.forall_mem_singleton.mpr (.wheel _ _ _ _ _)
    · exact List.forall_mem_nil _
  · split_ifs
    · exact List.forall_mem_singleton.mpr (.button _ _ _ _)
    · exact List.forall_mem_nil _
  · exact List.forall_mem_nil _

/-- What is not a frame queues pinches and buttons alone. -/
theorem TouchEffect.formed {td : TrackedDevice F D} {ev : InputEvent}
    {r : TrackedDevice F D × List (LibinputEvent D)} (h : TouchEffect td ev r)
    (hframe : ev.eventType ≠ .synchronization) : ∀ e ∈ r.2, e.Formed := by
  cases h with
  | contact _ _ _ hout =>
    rw [hout]
    exact List.forall_mem_nil _
  | pinchBegins _ _ _ _ _ hout =>
    rw [hout]
    exact List.forall_mem_singleton.mpr (.pinchBegin _ _ _)
  | lift _ _ ends taps hends htaps _ hout =>
    rw [hout]
    refine List.forall_mem_append.mpr ⟨?_,?_⟩
    · rcases hends with ⟨_,_,_,rfl⟩ | ⟨_,rfl⟩
      · exact List.forall_mem_singleton.mpr (.pinchEnd _ _ _ _ _)
      · exact List.forall_mem_nil _
    · rcases htaps with rfl | rfl
      · exact List.forall_mem_nil _
      · exact List.forall_mem_cons.mpr
          ⟨.button _ _ _ _,List.forall_mem_singleton.mpr (.button _ _ _ _)⟩
  | leftPress _ _ _ _ _ hout =>
    rw [hout]
    exact List.forall_mem_singleton.mpr (.button _ _ _ _)
  | leftRelease _ _ _ hout =>
    rw [hout]
    split_ifs
    · exact List.forall_mem_singleton.mpr (.button _ _ _ _)
    · exact List.forall_mem_nil _
  | otherButton _ _ _ _ _ hout =>
    rw [hout]
    exact List.forall_mem_singleton.mpr (.button _ _ _ _)
  | quiet _ _ hout =>
    rw [hout]
    exact List.forall_mem_nil _
  | frame hev => exact absurd hev hframe

theorem scrollAxis_formed (te : TimedEvent) (cfgNat : Bool) (axis : ℕ) (emit : ℤ)
    (td : TrackedDevice F D) : ∀ e ∈ td.scrollAxis te cfgNat axis emit, e.Formed := by
  unfold scrollAxis
  split_ifs
  · exact List.forall_mem_singleton.mpr (.finger _ _ _ _ _)
  · exact List.forall_mem_singleton.mpr (.finger _ _ _ _ _)
  · exact List.forall_mem_nil _

variable [F32 F] [FloatCast F D]

theorem movementFrame_formed (te : TimedEvent) (cfgNat : Bool) (cfgAccel : F)
    (td : TrackedDevice F D) : ∀ e ∈ (td.movementFrame te cfgNat cfgAccel).2, e.Formed := by
  unfold movementFrame
  dsimp only
  split_ifs
  · unfold motionFrame
    dsimp only
    split_ifs
    · exact List.forall_mem_singleton.mpr (.motion _ _ _ _ _ _)
    · exact List.forall_mem_nil _
  · exact List.forall_mem_append.mpr
      ⟨scrollAxis_formed te cfgNat _ _ _,scrollAxis_formed te cfgNat _ _ _⟩
  · exact List.forall_mem_singleton.mpr (.swipeUpdate _ _ _ _ _)

theorem processSyn_formed (te : TimedEvent) (cfgNat : Bool) (cfgAccel : F) (dwt : Bool)
    (td : TrackedDevice F D) : ∀ e ∈ (td.processSyn te cfgNat cfgAccel dwt).2, e.Formed := by
  unfold processSyn
  split_ifs
  · exact List.forall_mem_nil _
  · unfold pinchFrame
    split
    · exact List.forall_mem_singleton.mpr (.pinchUpdate _ _ _ _ _)
    · exact List.forall_mem_nil _
  · exact List.forall_mem_nil _
  · exact td.movementFrame_formed te cfgNat cfgAccel
  · exact List.forall_mem_nil _

theorem processAbsoluteEvent_formed (te : TimedEvent) (cfgTap cfgNat : Bool) (cfgAccel : F)
    (dwt : Bool) (td : TrackedDevice F D) :
    ∀ e ∈ (td.processAbsoluteEvent te cfgTap cfgNat cfgAccel dwt).2, e.Formed := by
  by_cases hsyn : te.ev.eventType = .synchronization
  · unfold processAbsoluteEvent
    rw [hsyn]
    exact processSyn_formed te cfgNat cfgAccel dwt _
  · exact (processAbsoluteEvent_effect te cfgTap cfgNat cfgAccel dwt td).formed hsyn

theorem processEvent_formed (cfg : Settings F) (typing : Option Instant)
    (s : TrackedDevice F D × Option Instant) (te : TimedEvent) :
    ∀ e ∈ (processEvent cfg typing s te).2, e.Formed := by
  rcases processEvent_cases cfg typing s te with ⟨_,_,h⟩ | ⟨_,_,_,h⟩ | ⟨_,_,_,h⟩ | ⟨_,_,_,h⟩ <;>
    rw [h]
  · exact s.1.processKeyboardEvent_formed te s.2
  · exact s.1.processRelativeEvent_formed te
  · exact s.1.processAbsoluteEvent_formed te _ _ _ _
  · exact List.forall_mem_nil _

end TrackedDevice
end Handlers

section Runs
variable [F32 F] [F64 D] [FloatCast F D]

theorem Tick.formed {w w' : World F D} {o : List (Obs F D)} (h : Tick w o w') :
    ∀ e ∈ produced o, e.Formed := by
  cases h.kind with
  | silent o w' hsilent htracked hdevices =>
    rw [produced_of_silent hsilent]
    exact List.forall_mem_nil _
  | admitted fd device path ht =>
    rw [produced_admission]
    exact List.forall_mem_singleton.mpr (.added _)
  | repeats fd td now ht =>
    rw [produced_map_queued]
    exact td.emitKeyRepeats_formed now
  | event fd td cfg typing live te ht =>
    rw [TrackedDevice.produced_observeEvent]
    exact TrackedDevice.processEvent_formed cfg typing (td,live) te
  | removed fd td ht =>
    rw [produced_removal]
    exact List.forall_mem_singleton.mpr (.removed _)

theorem LibinputContext.delivered_formed (interface : LibinputInterface) (inotify : Bool)
    (calls : List (Call D)) :
    ∀ e ∈ delivered ((.new interface inotify : LibinputContext F D).runCalls calls).2, e.Formed := by
  intro e he
  have hproduced : e ∈ produced ((.new interface inotify : LibinputContext F D).runCalls calls).2 := by
    rw [← LibinputContext.delivered_append_queue]
    exact List.mem_append_left _ he
  refine (LibinputContext.runCalls_ticks (.new interface inotify) calls).history
    (fun out _ => ∀ e ∈ produced out, e.Formed) (fun out w o w' hout ht => ?_)
    (List.forall_mem_nil _) e hproduced
  rw [produced_append]
  exact List.forall_mem_append.mpr ⟨hout,ht.formed⟩

/-- Whatever a client obtains, in this run or another, the accessors tell apart up to the axis and
the exact steps of a scroll and the angle at the end of a pinch. -/
theorem LibinputContext.readings_eq_iff (interface interface' : LibinputInterface)
    (inotify inotify' : Bool) (calls calls' : List (Call D)) :
    ∀ e ∈ delivered ((.new interface inotify : LibinputContext F D).runCalls calls).2,
      ∀ e' ∈ delivered ((.new interface' inotify' : LibinputContext F D).runCalls calls').2,
        e.reading = e'.reading ↔ ReadAlike e e' := by
  intro e he e' he'
  have hformed := LibinputContext.delivered_formed interface inotify calls e he
  have hformed' := LibinputContext.delivered_formed interface' inotify' calls' e' he'
  exact ⟨hformed.readAlike hformed',LibinputEvent.reading_of_readAlike⟩

/-- A mouse is added, one of its wheels is turned by a step, and the client obtains both events. -/
def wheelObtained (code : ℕ) : List (Call ℚ) :=
  [.addDevice "/dev/input/event4" ⟨5,some plainMouse⟩,
    .dispatch ⟨none,0,[],fun fd =>
      if fd = 5 then .batch [⟨⟨7,.relative,code,1⟩,0⟩] else .wouldBlock⟩,
    .getEvent,.getEvent]

/-- The two wheels of a mouse read alike. -/
theorem wheels_read_alike :
    ∃ e ∈ delivered ((.new ⟨true,true⟩ false : LibinputContext ℚ ℚ).runCalls
        (wheelObtained RelativeAxisCode.relWheel)).2,
      ∃ e' ∈ delivered ((.new ⟨true,true⟩ false : LibinputContext ℚ ℚ).runCalls
        (wheelObtained RelativeAxisCode.relHwheel)).2,
        e ≠ e' ∧ e.reading = e'.reading := by
  have hmem : (.scroll .pointerScrollWheel 0 7 0 1 1 : LibinputEvent ℚ) ∈ delivered
      ((.new ⟨true,true⟩ false : LibinputContext ℚ ℚ).runCalls
        (wheelObtained RelativeAxisCode.relWheel)).2 := by decide +kernel
  have hmem' : (.scroll .pointerScrollWheel 0 7 1 1 1 : LibinputEvent ℚ) ∈ delivered
      ((.new ⟨true,true⟩ false : LibinputContext ℚ ℚ).runCalls
        (wheelObtained RelativeAxisCode.relHwheel)).2 := by decide +kernel
  refine ⟨_,hmem,_,hmem',by decide +kernel,?_⟩
  exact (LibinputContext.readings_eq_iff ⟨true,true⟩ ⟨true,true⟩ false false _ _ _ hmem _ hmem').mpr
    (.scroll _ 0 7 0 1 1 1 1 rfl)

end Runs
end LibinputRs
