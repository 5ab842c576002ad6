import LibinputRs.Backend.Drain

/-! What one processing step can do to a device and to the queue, whatever the branch: it
keeps the identity of the device, and it queues only input events of that device. -/
namespace LibinputRs

variable {F D : Type}

/-- The kinds of event a mouse or a touchpad queues. -/
def LibinputEventType.isPointerOrGesture : LibinputEventType → Bool
  | .pointerMotion | .pointerButton | .pointerScrollWheel | .pointerScrollFinger => true
  | .gesturePinchBegin | .gesturePinchUpdate | .gesturePinchEnd | .gestureSwipeUpdate => true
  | _ => false

/-- A pointer or gesture event of the device. -/
def LibinputEvent.PointerOf (d : DevicePtr) (e : LibinputEvent D) : Prop :=
  e.device = d ∧ e.eventType.isPointerOrGesture

/-- A keyboard event of the device, with its code and state. -/
def LibinputEvent.KeyOf (d : DevicePtr) (e : LibinputEvent D) : Prop :=
  ∃ timeUsec code state, e = .key d timeUsec code state

/-- An input event of the device. -/
def LibinputEvent.InputOf (d : DevicePtr) (e : LibinputEvent D) : Prop :=
  e.device = d ∧ e.isInput = true

theorem LibinputEvent.PointerOf.inputOf {d : DevicePtr} {e : LibinputEvent D}
    (h : e.PointerOf d) : e.InputOf d := by
  refine ⟨h.1,?_⟩
  have ht := h.2
  cases he : e.eventType <;>
    simp_all [isInput,LibinputEventType.isPointerOrGesture]

theorem LibinputEvent.KeyOf.inputOf {d : DevicePtr} {e : LibinputEvent D}
    (h : e.KeyOf d) : e.InputOf d := by
  obtain ⟨timeUsec,code,state,rfl⟩ := h
  exact ⟨rfl,rfl⟩

namespace TrackedDevice

/-- The fields fixed when the device was opened. -/
def identity (td : TrackedDevice F D) : EvdevDevice × PathBuf × Bool × Bool × Bool × DevicePtr :=
  (td.device,td.path,td.isAbsolute,td.isKeyboard,td.isPointer,td.libDevice)

/-- The keyboard state, which the pointer branches never touch. -/
def keyState (td : TrackedDevice F D) : List HeldKey × Option Instant :=
  (td.heldKeys,td.lastTypingTime)

theorem libDevice_of_identity {td td' : TrackedDevice F D} (h : td'.identity = td.identity) :
    td'.libDevice = td.libDevice := congrArg (·.2.2.2.2.2) h

theorem path_of_identity {td td' : TrackedDevice F D} (h : td'.identity = td.identity) :
    td'.path = td.path := congrArg (·.2.1) h

theorem heldKeys_of_keyState {td td' : TrackedDevice F D} (h : td'.keyState = td.keyState) :
    td'.heldKeys = td.heldKeys := congrArg (·.1) h

section Keyboard

theorem emitKeyRepeats_identity (now : Instant) (td : TrackedDevice F D) :
    (td.emitKeyRepeats now).1.identity = td.identity := by
  unfold emitKeyRepeats
  split_ifs <;> rfl

theorem emitKeyRepeats_out (now : Instant) (td : TrackedDevice F D) :
    ∀ e ∈ (td.emitKeyRepeats now).2, ∃ hk ∈ td.heldKeys,
      e = .key td.libDevice hk.tsUsec hk.code 2 := by
  intro e he
  unfold emitKeyRepeats at he
  split_ifs at he
  · simp at he
  · obtain ⟨hk,hmem,he⟩ := List.mem_flatMap.mp he
    refine ⟨hk,hmem,?_⟩
    unfold HeldKey.fire at he
    split_ifs at he
    · simpa using he
    · simp at he

/-- The repeat pass fires keys but holds the same ones. -/
theorem emitKeyRepeats_codes (now : Instant) (td : TrackedDevice F D) :
    (td.emitKeyRepeats now).1.heldKeys.map HeldKey.code = td.heldKeys.map HeldKey.code := by
  unfold emitKeyRepeats
  split_ifs
  · rfl
  · simp only [List.map_map]
    refine List.map_congr_left fun hk _ => ?_
    simp only [Function.comp_apply,HeldKey.fire]
    split_ifs <;> rfl

/-- The three things a keyboard event can be: a press, a release, or ignored. -/
theorem processKeyboardEvent_cases (te : TimedEvent) (td : TrackedDevice F D)
    (t : Option Instant) :
    (te.ev.eventType = .key ∧ te.ev.value = 1 ∧ td.processKeyboardEvent te t =
      ({ td with
          lastTypingTime := some te.now
          heldKeys := td.heldKeys ++ [⟨te.ev.code,systimeToUsec te.ev.time,te.now,false⟩] },
        some te.now,[.key td.libDevice (systimeToUsec te.ev.time) te.ev.code 1])) ∨
    (te.ev.eventType = .key ∧ te.ev.value = 0 ∧ td.processKeyboardEvent te t =
      ({ td with heldKeys := td.heldKeys.filter fun k => k.code ≠ te.ev.code },
        t,[.key td.libDevice (systimeToUsec te.ev.time) te.ev.code 0])) ∨
    (¬ (te.ev.eventType = .key ∧ (te.ev.value = 1 ∨ te.ev.value = 0)) ∧
      td.processKeyboardEvent te t = (td,t,[])) := by
  unfold processKeyboardEvent
  by_cases hkey : te.ev.eventType = .key
  · rw [if_neg (not_not.mpr hkey)]
    by_cases hpress : te.ev.value = 1
    · rw [if_pos hpress]
      exact .inl ⟨hkey,hpress,rfl⟩
    · rw [if_neg hpress]
      by_cases hrelease : te.ev.value = 0
      · rw [if_pos hrelease]
        exact .inr (.inl ⟨hkey,hrelease,rfl⟩)
      · rw [if_neg hrelease]
        exact .inr (.inr ⟨fun h => h.2.elim hpress hrelease,rfl⟩)
  · rw [if_pos hkey]
    exact .inr (.inr ⟨fun h => hkey h.1,rfl⟩)

theorem processKeyboardEvent_identity (te : TimedEvent) (td : TrackedDevice F D)
    (t : Option Instant) : (td.processKeyboardEvent te t).1.identity = td.identity := by
  rcases td.processKeyboardEvent_cases te t with ⟨_,_,h⟩ | ⟨_,_,h⟩ | ⟨_,h⟩ <;> rw [h] <;> rfl

theorem processKeyboardEvent_out (te : TimedEvent) (td : TrackedDevice F D)
    (t : Option Instant) : ∀ e ∈ (td.processKeyboardEvent te t).2.2, e.KeyOf td.libDevice := by
  rcases td.processKeyboardEvent_cases te t with ⟨_,_,h⟩ | ⟨_,_,h⟩ | ⟨_,h⟩ <;> rw [h]
  · exact List.forall_mem_singleton.mpr ⟨_,_,_,rfl⟩
  · exact List.forall_mem_singleton.mpr ⟨_,_,_,rfl⟩
  · exact List.forall_mem_nil _

end Keyboard

section Pointer
variable [F64 D]

theorem processRelativeEvent_out (te : TimedEvent) (td : TrackedDevice F D) :
    ∀ e ∈ td.processRelativeEvent te, e.PointerOf td.libDevice := by
  intro e he
  unfold processRelativeEvent at he
  dsimp only at he
  split at he
  · split_ifs at he
    all_goals simp only [List.mem_singleton,List.not_mem_nil] at he
    all_goals subst he; exact ⟨rfl,rfl⟩
  · split_ifs at he
    · rw [List.mem_singleton] at he
      subst he; exact ⟨rfl,rfl⟩
    · simp at he
  · simp at he

end Pointer

/-- What a branch of the touchpad handler may do: new tracking state, own pointer events. -/
structure PointerStep (td : TrackedDevice F D)
    (r : TrackedDevice F D × List (LibinputEvent D)) : Prop where
  identity : r.1.identity = td.identity
  keyState : r.1.keyState = td.keyState
  out : ∀ e ∈ r.2, e.PointerOf td.libDevice

namespace PointerStep
variable {td td' : TrackedDevice F D} {e : LibinputEvent D}

theorem silent (hid : td'.identity = td.identity) (hkey : td'.keyState = td.keyState) :
    PointerStep td (td',[]) := ⟨hid,hkey,by simp⟩

theorem single (hid : td'.identity = td.identity) (hkey : td'.keyState = td.keyState)
    (he : e.PointerOf td.libDevice) : PointerStep td (td',[e]) :=
  ⟨hid,hkey,by simpa using he⟩

/-- A step of a device that differs in tracking state only. -/
theorem of_tracking {r : TrackedDevice F D × List (LibinputEvent D)} (h : PointerStep td' r)
    (hid : td'.identity = td.identity) (hkey : td'.keyState = td.keyState) :
    PointerStep td r :=
  ⟨h.identity.trans hid,h.keyState.trans hkey,libDevice_of_identity hid ▸ h.out⟩

end PointerStep

section Touchpad
variable [F64 D]

theorem touchDown_step (te : TimedEvent) (td : TrackedDevice F D) :
    PointerStep td (td.touchDown te) := by
  unfold touchDown
  dsimp only
  split_ifs
  · split
    · exact .single rfl rfl ⟨rfl,rfl⟩
    · exact .silent rfl rfl
  · exact .silent rfl rfl

theorem liftPinch_out (te : TimedEvent) (td : TrackedDevice F D) :
    ∀ e ∈ td.liftPinch te, e.PointerOf td.libDevice := by
  unfold liftPinch
  split_ifs
  · simpa using ⟨rfl,rfl⟩
  · simp

theorem touchUp_step (te : TimedEvent) (cfgTap dwt : Bool) (td : TrackedDevice F D) :
    PointerStep td (td.touchUp te cfgTap dwt) := by
  refine ⟨rfl,rfl,fun e he => ?_⟩
  rcases List.mem_append.mp he with he | he
  · exact liftPinch_out te td e he
  · split_ifs at he
    · simp only [List.mem_cons,List.not_mem_nil,or_false] at he
      rcases he with rfl | rfl <;> exact ⟨rfl,rfl⟩
    · simp at he

omit [F64 D] in
theorem mapClick_step (code : ℕ) (value : ℤ) (td : TrackedDevice F D) :
    PointerStep td ((td.mapClick code value).1,[]) := by
  unfold mapClick
  by_cases hcode : code = KeyCode.btnLeft
  · rw [if_pos hcode]
    by_cases hval : value = 0
    · rw [if_neg (not_not.mpr hval)]
      cases td.activeClickButton <;> exact .silent rfl rfl
    · rw [if_pos hval]
      exact .silent rfl rfl
  · rw [if_neg hcode]
    exact .silent rfl rfl

omit [F64 D] in
theorem physicalClick_step (te : TimedEvent) (td : TrackedDevice F D) :
    PointerStep td (td.physicalClick te) := by
  have hmap := mapClick_step te.ev.code te.ev.value td
  unfold physicalClick
  dsimp only
  split_ifs
  · exact .single hmap.identity hmap.keyState ⟨libDevice_of_identity hmap.identity,rfl⟩
  · exact hmap

theorem processAbsoluteKey_step (te : TimedEvent) (cfgTap dwt : Bool)
    (td : TrackedDevice F D) : PointerStep td (td.processAbsoluteKey te cfgTap dwt) := by
  unfold processAbsoluteKey
  dsimp only
  split_ifs
  · exact touchDown_step te td
  · exact touchUp_step te cfgTap dwt td
  all_goals first
    | exact physicalClick_step te td
    | exact .silent rfl rfl

theorem processAbsoluteAxis_step (te : TimedEvent) (td : TrackedDevice F D) :
    PointerStep td (td.processAbsoluteAxis te,[]) := by
  unfold processAbsoluteAxis
  dsimp only
  split_ifs <;> exact .silent rfl rfl

theorem pinchFrame_step (te : TimedEvent) (td : TrackedDevice F D) :
    PointerStep td (td.pinchFrame te) := by
  unfold pinchFrame
  split
  · exact .single rfl rfl ⟨rfl,rfl⟩
  · exact .silent rfl rfl

theorem scrollAxis_out (te : TimedEvent) (cfgNat : Bool) (axis : ℕ) (emit : ℤ)
    (td : TrackedDevice F D) :
    ∀ e ∈ td.scrollAxis te cfgNat axis emit, e.PointerOf td.libDevice := by
  unfold scrollAxis
  split_ifs
  · exact List.forall_mem_singleton.mpr ⟨rfl,rfl⟩
  · exact List.forall_mem_singleton.mpr ⟨rfl,rfl⟩
  · exact List.forall_mem_nil _

variable [F32 F]

theorem scrollFrame_step (te : TimedEvent) (cfgNat : Bool) (td : TrackedDevice F D) :
    PointerStep td (td.scrollFrame te cfgNat) := by
  refine ⟨rfl,rfl,fun e he => ?_⟩
  rcases List.mem_append.mp he with he | he
  · exact scrollAxis_out te cfgNat _ _ td e he
  · exact scrollAxis_out te cfgNat _ _ td e he

variable [FloatCast F D]

theorem motionFrame_step (te : TimedEvent) (cfgAccel : F) (td : TrackedDevice F D) :
    PointerStep td (td.motionFrame te cfgAccel) := by
  unfold motionFrame
  dsimp only
  split_ifs
  · exact .single rfl rfl ⟨rfl,rfl⟩
  · exact .silent rfl rfl

theorem movementFrame_step (te : TimedEvent) (cfgNat : Bool) (cfgAccel : F)
    (td : TrackedDevice F D) : PointerStep td (td.movementFrame te cfgNat cfgAccel) := by
  have hmotion := motionFrame_step te cfgAccel { td with tapEmitted := true }
  have hscroll := scrollFrame_step te cfgNat { td with tapEmitted := true }
  unfold movementFrame
  dsimp only
  split_ifs
  · exact ⟨hmotion.identity,hmotion.keyState,hmotion.out⟩
  · exact ⟨hscroll.identity,hscroll.keyState,hscroll.out⟩
  · exact .single rfl rfl ⟨rfl,rfl⟩

theorem processSyn_step (te : TimedEvent) (cfgNat : Bool) (cfgAccel : F) (dwt : Bool)
    (td : TrackedDevice F D) : PointerStep td (td.processSyn te cfgNat cfgAccel dwt) := by
  unfold processSyn
  split_ifs
  · exact .silent rfl rfl
  · exact pinchFrame_step te td
  · exact .silent rfl rfl
  · exact movementFrame_step te cfgNat cfgAccel td
  · exact .silent rfl rfl

/-- A touchpad keeps its identity and its keyboard state, and queues only pointer and gesture
events of its own. -/
theorem processAbsoluteEvent_step (te : TimedEvent) (cfgTap cfgNat : Bool) (cfgAccel : F)
    (dwt : Bool) (td : TrackedDevice F D) :
    PointerStep td (td.processAbsoluteEvent te cfgTap cfgNat cfgAccel dwt) := by
  have hid : (if dwt then { td with tapEmitted := true } else td).identity = td.identity := by
    split_ifs <;> rfl
  have hkey : (if dwt then { td with tapEmitted := true } else td).keyState = td.keyState := by
    split_ifs <;> rfl
  unfold processAbsoluteEvent
  dsimp only
  refine PointerStep.of_tracking ?_ hid hkey
  generalize (if dwt then { td with tapEmitted := true } else td) = td'
  split
  · exact processAbsoluteKey_step te cfgTap dwt td'
  · exact processAbsoluteAxis_step te td'
  · exact processSyn_step te cfgNat cfgAccel dwt td'
  · exact .silent rfl rfl

/-- Routing: the event goes to the keyboard handler, to the mouse handler, to the touchpad
handler, or nowhere. -/
theorem processEvent_cases (cfg : Settings F) (typing : Option Instant)
    (s : TrackedDevice F D × Option Instant) (te : TimedEvent) :
    (s.1.isKeyboard = true ∧ s.1.isAbsolute = false ∧
      processEvent cfg typing s te = (((s.1.processKeyboardEvent te s.2).1,
        (s.1.processKeyboardEvent te s.2).2.1),(s.1.processKeyboardEvent te s.2).2.2)) ∨
    (s.1.isKeyboard = false ∧ s.1.isAbsolute = false ∧ s.1.isPointer = true ∧
      processEvent cfg typing s te = (s,s.1.processRelativeEvent te)) ∨
    (s.1.isAbsolute = true ∧ ∃ dwt, dwt = dwtActive cfg.cfgDwt typing te.now ∧
      processEvent cfg typing s te =
        (((s.1.processAbsoluteEvent te cfg.cfgTap cfg.cfgNat cfg.cfgAccel dwt).1,s.2),
          (s.1.processAbsoluteEvent te cfg.cfgTap cfg.cfgNat cfg.cfgAccel dwt).2)) ∨
    (s.1.isKeyboard = false ∧ s.1.isAbsolute = false ∧ s.1.isPointer = false ∧
      processEvent cfg typing s te = (s,[])) := by
  unfold processEvent
  cases hk : s.1.isKeyboard <;> cases ha : s.1.isAbsolute <;> cases hp : s.1.isPointer <;> simp

/-- The record of an event queues what the event makes the backend queue. -/
theorem produced_observeEvent (cfg : Settings F) (typing : Option Instant)
    (s : TrackedDevice F D × Option Instant) (te : TimedEvent) :
    produced (observeEvent cfg typing s te).2 = (processEvent cfg typing s te).2 :=
  List.append_nil _

theorem processEvent_identity (cfg : Settings F) (typing : Option Instant)
    (s : TrackedDevice F D × Option Instant) (te : TimedEvent) :
    (processEvent cfg typing s te).1.1.identity = s.1.identity := by
  rcases processEvent_cases cfg typing s te with ⟨_,_,h⟩ | ⟨_,_,_,h⟩ | ⟨_,_,_,h⟩ | ⟨_,_,_,h⟩
  · rw [h]; exact processKeyboardEvent_identity te s.1 s.2
  · rw [h]
  · rw [h]; exact (processAbsoluteEvent_step te _ _ _ _ s.1).identity
  · rw [h]

theorem processEvent_out (cfg : Settings F) (typing : Option Instant)
    (s : TrackedDevice F D × Option Instant) (te : TimedEvent) :
    ∀ e ∈ (processEvent cfg typing s te).2, e.InputOf s.1.libDevice := by
  rcases processEvent_cases cfg typing s te with ⟨_,_,h⟩ | ⟨_,_,_,h⟩ | ⟨_,_,_,h⟩ | ⟨_,_,_,h⟩
  · rw [h]; exact fun e he => (processKeyboardEvent_out te s.1 s.2 e he).inputOf
  · rw [h]; exact fun e he => (processRelativeEvent_out te s.1 e he).inputOf
  · rw [h]; exact fun e he => ((processAbsoluteEvent_step te _ _ _ _ s.1).out e he).inputOf
  · rw [h]; simp

theorem processEvent_type (cfg : Settings F) (typing : Option Instant)
    (s : TrackedDevice F D × Option Instant) (te : TimedEvent) :
    ∀ e ∈ (processEvent cfg typing s te).2,
      e.eventType = .keyboardKey ∨ e.eventType.isPointerOrGesture = true := by
  rcases processEvent_cases cfg typing s te with ⟨_,_,h⟩ | ⟨_,_,_,h⟩ | ⟨_,_,_,h⟩ | ⟨_,_,_,h⟩
  · rw [h]
    intro e he
    obtain ⟨_,_,_,rfl⟩ := processKeyboardEvent_out te s.1 s.2 e he
    exact .inl rfl
  · rw [h]; exact fun e he => .inr (processRelativeEvent_out te s.1 e he).2
  · rw [h]; exact fun e he => .inr ((processAbsoluteEvent_step te _ _ _ _ s.1).out e he).2
  · rw [h]; simp

end Touchpad
end TrackedDevice
end LibinputRs
