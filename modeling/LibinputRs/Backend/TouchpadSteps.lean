import LibinputRs.Backend.DeviceSteps

/-! What the branches of the touchpad handler leave alone, what one event does to the gesture and
click state, and which gesture and button events it queues for that. -/
namespace LibinputRs

variable {F D : Type}

/-- The events a finger movement can become. -/
def LibinputEventType.isMovement : LibinputEventType → Bool
  | .pointerMotion | .pointerScrollFinger | .gestureSwipeUpdate => true
  | _ => false

/-- A kernel key event with the given code. -/
def InputEvent.KeyWith (code : ℕ) (ev : InputEvent) : Prop := ev.eventType = .key ∧ ev.code = code

instance (code : ℕ) : DecidablePred (InputEvent.KeyWith code) :=
  fun _ => inferInstanceAs (Decidable (_ ∧ _))

namespace TrackedDevice

section Frame
variable {α : Type} (read : TrackedDevice F D → α)

/-- Whether a touch begins a pinch is nothing to what does not depend on the pinch. -/
theorem touchDown_frame [F64 D]
    (hread : ∀ (td : TrackedDevice F D) active dist angle fingers,
      read { td with
        pinchActive := active
        pinchBaseDist := dist
        pinchBaseAngle := angle
        pinchFingers := fingers } = read td)
    (te : TimedEvent) (td : TrackedDevice F D) :
    read (td.touchDown te).1 = read { td with
      touchActive := true
      touchStartTime := some te.now
      tapEmitted := false
      touchFingers := max td.activeSlotCount 1
      lastX := none
      lastY := none } := by
  generalize hlanded : ({ td with
      touchActive := true
      touchStartTime := some te.now
      tapEmitted := false
      touchFingers := max td.activeSlotCount 1
      lastX := none
      lastY := none } : TrackedDevice F D) = landed
  unfold touchDown
  rw [hlanded]
  dsimp only
  split_ifs
  · split
    · exact hread landed true _ _ _
    · rfl
  · rfl

/-- A click keeps whatever does not depend on the button being clicked. -/
theorem physicalClick_frame
    (hread : ∀ (td : TrackedDevice F D) active,
      read { td with activeClickButton := active } = read td)
    (te : TimedEvent) (td : TrackedDevice F D) : read (td.physicalClick te).1 = read td := by
  unfold physicalClick mapClick
  by_cases hleft : te.ev.code = KeyCode.btnLeft
  · rw [if_pos hleft]
    by_cases hdown : te.ev.value ≠ 0
    · rw [if_pos hdown]
      exact hread td _
    · rw [if_neg hdown]
      cases td.activeClickButton with
      | none => rfl
      | some code => exact hread td none
  · rw [if_neg hleft]

/-- A click commutes with a change of what it does not read. -/
theorem physicalClick_commutes (f : TrackedDevice F D → TrackedDevice F D)
    (hread : ∀ td : TrackedDevice F D, (f td).activeClickButton = td.activeClickButton ∧
      (f td).touchFingers = td.touchFingers ∧ (f td).libDevice = td.libDevice)
    (hset : ∀ (td : TrackedDevice F D) active,
      { f td with activeClickButton := active } = f { td with activeClickButton := active })
    (te : TimedEvent) (td : TrackedDevice F D) :
    (f td).physicalClick te = (f (td.physicalClick te).1,(td.physicalClick te).2) := by
  have hmap : (f td).mapClick te.ev.code te.ev.value =
      (f (td.mapClick te.ev.code te.ev.value).1,(td.mapClick te.ev.code te.ev.value).2) := by
    unfold mapClick
    simp only [hset]
    rw [(hread td).1,(hread td).2.1]
    split_ifs
    · rfl
    · rfl
    · rfl
    · cases td.activeClickButton <;> rfl
    · rfl
  unfold physicalClick
  rw [hmap]
  dsimp only
  rw [(hread _).2.2]

/-- The absolute events keep whatever depends neither on the slots nor on positions. -/
theorem processAbsoluteAxis_frame [F64 D]
    (hslots : ∀ (td : TrackedDevice F D) slots current,
      read { td with
        mtSlots := slots
        currentSlot := current } = read td)
    (hposition : ∀ (td : TrackedDevice F D) x y dx dy last,
      read { td with
        lastX := x
        lastY := y
        currentDx := dx
        currentDy := dy
        lastMovementTime := last } = read td)
    (te : TimedEvent) (td : TrackedDevice F D) : read (td.processAbsoluteAxis te) = read td := by
  have hmodify : ∀ f, read (td.modifySlot f) = read td := fun f => hslots td _ td.currentSlot
  unfold processAbsoluteAxis
  dsimp only
  split_ifs
  · exact hslots td td.mtSlots _
  · rfl
  · exact hmodify _
  · exact hmodify _
  · exact hmodify _
  · exact hmodify _
  · exact hposition td _ td.lastY _ td.currentDy _
  · exact hposition td td.lastX _ td.currentDx _ _
  · rfl

/-- The end of a frame keeps whatever depends neither on the displacement and the remainders nor on
the tap. -/
theorem processSyn_frame [F64 D] [F32 F] [FloatCast F D]
    (hread : ∀ (td : TrackedDevice F D) dx dy x y tap,
      read { td with
        currentDx := dx
        currentDy := dy
        remainderX := x
        remainderY := y
        tapEmitted := tap } = read td)
    (te : TimedEvent) (cfgNat : Bool) (cfgAccel : F) (dwt : Bool) (td : TrackedDevice F D) :
    read (td.processSyn te cfgNat cfgAccel dwt).1 = read td := by
  have hmove : read (td.movementFrame te cfgNat cfgAccel).1 = read td := by
    unfold movementFrame
    dsimp only
    split_ifs
    · exact hread td _ _ _ _ true
    · exact hread td _ _ _ _ true
    · exact hread td _ _ td.remainderX td.remainderY true
  unfold processSyn
  split_ifs
  · rfl
  · exact hread td _ _ td.remainderX td.remainderY td.tapEmitted
  · exact hread td _ _ _ _ true
  · exact hmove
  · rfl

end Frame

/-- Whether a finger is down, the pinch with its fingers, and the button being clicked. -/
def gestureState (td : TrackedDevice F D) : Bool × Bool × ℤ × Option ℕ :=
  (td.touchActive,td.pinchActive,td.pinchFingers,td.activeClickButton)

variable [F64 D]

/-- The effects of one event on gestures and clicks. -/
inductive TouchEffect (td : TrackedDevice F D) (ev : InputEvent)
    (r : TrackedDevice F D × List (LibinputEvent D)) : Prop
  | contact (hev : ev.KeyWith KeyCode.btnTouch) (hvalue : ev.value ≠ 0)
      (hstate : r.1.gestureState =
        (true,td.pinchActive,td.pinchFingers,td.activeClickButton)) (hout : r.2 = [])
  | pinchBegins (hev : ev.KeyWith KeyCode.btnTouch) (hvalue : ev.value ≠ 0) (fingers : ℤ)
      (hclosed : td.pinchActive = false)
      (hstate : r.1.gestureState = (true,true,fingers,td.activeClickButton))
      (hout : r.2 = [.pinchBegin td.libDevice (systimeToUsec ev.time) fingers])
  | lift (hev : ev.KeyWith KeyCode.btnTouch) (hvalue : ev.value = 0)
      (ends taps : List (LibinputEvent D))
      (hends : (td.pinchActive = true ∧ ∃ scale angle,
          ends = [.pinchEnd td.libDevice (systimeToUsec ev.time) td.pinchFingers scale angle]) ∨
        (td.pinchActive = false ∧ ends = []))
      (htaps : taps = [] ∨
        taps = [.button td.libDevice (systimeToUsec ev.time) KeyCode.btnLeft 1,
          .button td.libDevice (systimeToUsec ev.time) KeyCode.btnLeft 0])
      (hstate : r.1.gestureState = (false,false,td.pinchFingers,td.activeClickButton))
      (hout : r.2 = ends ++ taps)
  | leftPress (hev : ev.KeyWith KeyCode.btnLeft) (hvalue : ev.value ≠ 0) (mapped : ℕ)
      (hmapped : isTouchpadButton mapped = true)
      (hstate : r.1.gestureState = (td.touchActive,td.pinchActive,td.pinchFingers,some mapped))
      (hout : r.2 = [.button td.libDevice (systimeToUsec ev.time) mapped (asU32 ev.value)])
  | leftRelease (hev : ev.KeyWith KeyCode.btnLeft) (hvalue : ev.value = 0)
      (hstate : r.1.gestureState = (td.touchActive,td.pinchActive,td.pinchFingers,none))
      (hout : r.2 = if isTouchpadButton (td.activeClickButton.getD KeyCode.btnLeft) then
        [.button td.libDevice (systimeToUsec ev.time)
          (td.activeClickButton.getD KeyCode.btnLeft) (asU32 ev.value)] else [])
  | otherButton (code : ℕ) (hev : ev.KeyWith code) (hcode : isTouchpadButton code = true)
      (hleft : code ≠ KeyCode.btnLeft) (hstate : r.1.gestureState = td.gestureState)
      (hout : r.2 = [.button td.libDevice (systimeToUsec ev.time) code (asU32 ev.value)])
  | quiet (hev : ∀ code, ev.KeyWith code →
        code ≠ KeyCode.btnTouch ∧ isTouchpadButton code = false)
      (hstate : r.1.gestureState = td.gestureState) (hout : r.2 = [])
  | frame (hev : ev.eventType = .synchronization) (hstate : r.1.gestureState = td.gestureState)
      (hout : (td.pinchActive = true ∧ (r.2 = [] ∨ ∃ scale angle,
          r.2 = [.pinchUpdate td.libDevice (systimeToUsec ev.time) td.pinchFingers scale angle])) ∨
        (td.pinchActive = false ∧
          ∀ e ∈ r.2, e.device = td.libDevice ∧ e.eventType.isMovement = true))

variable [F32 F]

omit [F32 F] in
theorem touchDown_effect (te : TimedEvent) (td : TrackedDevice F D)
    (hev : te.ev.KeyWith KeyCode.btnTouch) (hvalue : te.ev.value ≠ 0) :
    TouchEffect td te.ev (td.touchDown te) := by
  unfold touchDown
  dsimp only
  split_ifs with hpinch
  · split
    · exact .pinchBegins hev hvalue _ hpinch.2 rfl rfl
    · exact .contact hev hvalue rfl rfl
  · exact .contact hev hvalue rfl rfl

omit [F32 F] in
theorem touchUp_effect (te : TimedEvent) (cfgTap dwt : Bool) (td : TrackedDevice F D)
    (hev : te.ev.KeyWith KeyCode.btnTouch) (hvalue : te.ev.value = 0) :
    TouchEffect td te.ev (td.touchUp te cfgTap dwt) := by
  refine .lift hev hvalue (td.liftPinch te) _ ?_ ?_ rfl rfl
  · unfold liftPinch
    cases td.pinchActive with
    | true => exact .inl ⟨rfl,_,_,rfl⟩
    | false => exact .inr ⟨rfl,rfl⟩
  · split_ifs
    · exact .inr rfl
    · exact .inl rfl

omit [F32 F] [F64 D] in
/-- The code of a click: a press is remapped, a release repeats the press. -/
theorem mapClick_cases (code : ℕ) (value : ℤ) (td : TrackedDevice F D) :
    (code = KeyCode.btnLeft ∧ value ≠ 0 ∧ ∃ mapped, isTouchpadButton mapped = true ∧
      td.mapClick code value = ({ td with activeClickButton := some mapped },mapped)) ∨
    (code = KeyCode.btnLeft ∧ value = 0 ∧ td.mapClick code value =
      ({ td with activeClickButton := none },td.activeClickButton.getD KeyCode.btnLeft)) ∨
    (code ≠ KeyCode.btnLeft ∧ td.mapClick code value = (td,code)) := by
  unfold mapClick
  by_cases hcode : code = KeyCode.btnLeft
  · rw [if_pos hcode]
    by_cases hvalue : value = 0
    · rw [if_neg (not_not.mpr hvalue)]
      refine .inr (.inl ⟨hcode,hvalue,?_⟩)
      cases hactive : td.activeClickButton with
      | none =>
        have hsame : { td with activeClickButton := none } = td := by rw [← hactive]
        rw [hsame,hcode]
        rfl
      | some active => rfl
    · rw [if_pos hvalue]
      refine .inl ⟨hcode,hvalue,_,?_,rfl⟩
      rw [hcode]
      split_ifs <;> rfl
  · rw [if_neg hcode]
    exact .inr (.inr ⟨hcode,rfl⟩)

omit [F32 F] in
theorem physicalClick_effect (te : TimedEvent) (td : TrackedDevice F D)
    (hkey : te.ev.eventType = .key) (htouch : te.ev.code ≠ KeyCode.btnTouch) :
    TouchEffect td te.ev (td.physicalClick te) := by
  unfold physicalClick
  rcases td.mapClick_cases te.ev.code te.ev.value with
    ⟨hcode,hvalue,mapped,hmapped,h⟩ | ⟨hcode,hvalue,h⟩ | ⟨hcode,h⟩ <;> rw [h]
  · exact .leftPress ⟨hkey,hcode⟩ hvalue mapped hmapped rfl (if_pos hmapped)
  · exact .leftRelease ⟨hkey,hcode⟩ hvalue rfl rfl
  · by_cases hbutton : isTouchpadButton te.ev.code = true
    · exact .otherButton te.ev.code ⟨hkey,rfl⟩ hbutton hcode rfl (if_pos hbutton)
    · refine .quiet (fun code hev => ?_) rfl (if_neg hbutton)
      obtain rfl := hev.2
      exact ⟨htouch,Bool.eq_false_iff.mpr hbutton⟩

omit [F32 F] in
theorem processAbsoluteKey_effect (te : TimedEvent) (cfgTap dwt : Bool)
    (td : TrackedDevice F D) (hkey : te.ev.eventType = .key) :
    TouchEffect td te.ev (td.processAbsoluteKey te cfgTap dwt) := by
  have htool : ∀ (r : TrackedDevice F D × List (LibinputEvent D)) (code : ℕ),
      te.ev.code = code → code ≠ KeyCode.btnTouch → isTouchpadButton code = false →
      r.1.gestureState = td.gestureState → r.2 = [] → TouchEffect td te.ev r := by
    intro r code hcode htouch hbutton hstate hout
    refine .quiet (fun code' hev => ?_) hstate hout
    obtain rfl := hev.2
    exact hcode ▸ ⟨htouch,hbutton⟩
  unfold processAbsoluteKey
  dsimp only
  split_ifs with htouch hvalue hdouble hvalue htriple hvalue hquad hvalue
  · exact touchDown_effect te td ⟨hkey,htouch⟩ hvalue
  · exact touchUp_effect te cfgTap dwt td ⟨hkey,htouch⟩ (not_not.mp hvalue)
  all_goals first
    | exact physicalClick_effect te td hkey htouch
    | exact htool _ _ hdouble (by decide) (by decide) rfl rfl
    | exact htool _ _ htriple (by decide) (by decide) rfl rfl
    | exact htool _ _ hquad (by decide) (by decide) rfl rfl

omit [F64 D] [F32 F] in
theorem processAbsoluteAxis_gestureState [F64 D] (te : TimedEvent) (td : TrackedDevice F D) :
    (td.processAbsoluteAxis te).gestureState = td.gestureState :=
  processAbsoluteAxis_frame gestureState (fun _ _ _ => rfl) (fun _ _ _ _ _ _ => rfl) te td

variable [FloatCast F D]

theorem movementFrame_movement (te : TimedEvent) (cfgNat : Bool) (cfgAccel : F)
    (td : TrackedDevice F D) :
    ∀ e ∈ (td.movementFrame te cfgNat cfgAccel).2,
      e.device = td.libDevice ∧ e.eventType.isMovement = true := by
  have hscroll : ∀ axis emit (td : TrackedDevice F D), ∀ e ∈ td.scrollAxis te cfgNat axis emit,
      e.device = td.libDevice ∧ e.eventType.isMovement = true := by
    intro axis emit td
    unfold scrollAxis
    split_ifs
    · exact List.forall_mem_singleton.mpr ⟨rfl,rfl⟩
    · exact List.forall_mem_singleton.mpr ⟨rfl,rfl⟩
    · exact List.forall_mem_nil _
  unfold movementFrame
  dsimp only
  split_ifs
  · unfold motionFrame
    dsimp only
    split_ifs
    · exact List.forall_mem_singleton.mpr ⟨rfl,rfl⟩
    · exact List.forall_mem_nil _
  · intro e he
    rcases List.mem_append.mp he with he | he
    · exact hscroll 0 _ _ e he
    · exact hscroll 1 _ _ e he
  · exact List.forall_mem_singleton.mpr ⟨rfl,rfl⟩

theorem movementFrame_gestureState (te : TimedEvent) (cfgNat : Bool) (cfgAccel : F)
    (td : TrackedDevice F D) :
    (td.movementFrame te cfgNat cfgAccel).1.gestureState = td.gestureState := by
  unfold movementFrame
  dsimp only
  split_ifs <;> rfl

theorem processSyn_effect (te : TimedEvent) (cfgNat : Bool) (cfgAccel : F) (dwt : Bool)
    (td : TrackedDevice F D) (hev : te.ev.eventType = .synchronization) :
    TouchEffect td te.ev (td.processSyn te cfgNat cfgAccel dwt) := by
  have hnothing : ∀ td' : TrackedDevice F D, td'.gestureState = td.gestureState →
      TouchEffect td te.ev (td',[]) := by
    intro td' hstate
    refine .quiet (fun code hkey => ?_) hstate rfl
    rw [hkey.1] at hev
    cases hev
  unfold processSyn
  split_ifs with hcode hpinch hdwt hmoved
  · exact hnothing td rfl
  · rw [Bool.and_eq_true] at hpinch
    refine .frame hev rfl (.inl ⟨hpinch.1,?_⟩)
    unfold pinchFrame
    cases td.primarySlotDistance with
    | none => exact .inl rfl
    | some dist => exact .inr ⟨_,_,rfl⟩
  · exact hnothing _ rfl
  · have hclosed : td.pinchActive = false := by simpa [hdwt] using hpinch
    exact .frame hev (movementFrame_gestureState te cfgNat cfgAccel td)
      (.inr ⟨hclosed,movementFrame_movement te cfgNat cfgAccel td⟩)
  · exact hnothing td rfl

omit [F32 F] [FloatCast F D] in
/-- Tracking state outside gestures and clicks does not matter for the effect. -/
theorem TouchEffect.of_same {td td' : TrackedDevice F D} {ev : InputEvent}
    {r : TrackedDevice F D × List (LibinputEvent D)} (h : TouchEffect td' ev r)
    (hstate : td'.gestureState = td.gestureState) (hid : td'.libDevice = td.libDevice) :
    TouchEffect td ev r := by
  simp only [gestureState,Prod.mk.injEq] at hstate
  obtain ⟨htouch,hpinch,hfingers,hactive⟩ := hstate
  cases h with
  | contact hev hvalue hs hout => exact .contact hev hvalue (by rw [hs,hpinch,hfingers,hactive]) hout
  | pinchBegins hev hvalue fingers hclosed hs hout =>
    exact .pinchBegins hev hvalue fingers (hpinch ▸ hclosed) (by rw [hs,hactive]) (hid ▸ hout)
  | lift hev hvalue ends taps hends htaps hs hout =>
    exact .lift hev hvalue ends taps (by simpa only [hpinch,hid,hfingers] using hends)
      (by simpa only [hid] using htaps) (by rw [hs,hfingers,hactive]) hout
  | leftPress hev hvalue mapped hmapped hs hout =>
    exact .leftPress hev hvalue mapped hmapped (by rw [hs,htouch,hpinch,hfingers]) (hid ▸ hout)
  | leftRelease hev hvalue hs hout =>
    exact .leftRelease hev hvalue (by rw [hs,htouch,hpinch,hfingers])
      (by simpa only [hactive,hid] using hout)
  | otherButton code hev hcode hleft hs hout =>
    refine .otherButton code hev hcode hleft ?_ (hid ▸ hout)
    rw [hs]
    simp only [gestureState,htouch,hpinch,hfingers,hactive]
  | quiet hev hs hout =>
    refine .quiet hev ?_ hout
    rw [hs]
    simp only [gestureState,htouch,hpinch,hfingers,hactive]
  | frame hev hs hout =>
    refine .frame hev ?_ (by simpa only [hpinch,hid,hfingers] using hout)
    rw [hs]
    simp only [gestureState,htouch,hpinch,hfingers,hactive]

/-- Every event of a touchpad has one of the effects. -/
theorem processAbsoluteEvent_effect (te : TimedEvent) (cfgTap cfgNat : Bool) (cfgAccel : F)
    (dwt : Bool) (td : TrackedDevice F D) :
    TouchEffect td te.ev (td.processAbsoluteEvent te cfgTap cfgNat cfgAccel dwt) := by
  have hstate : (if dwt then { td with tapEmitted := true } else td).gestureState =
      td.gestureState := by
    split_ifs <;> rfl
  have hid : (if dwt then { td with tapEmitted := true } else td).libDevice = td.libDevice := by
    split_ifs <;> rfl
  unfold processAbsoluteEvent
  dsimp only
  refine TouchEffect.of_same ?_ hstate hid
  generalize (if dwt then { td with tapEmitted := true } else td) = td'
  cases hev : te.ev.eventType with
  | key => exact processAbsoluteKey_effect te cfgTap dwt td' hev
  | absolute =>
    refine .quiet (fun code hkey => ?_) (processAbsoluteAxis_gestureState te td') rfl
    rw [hkey.1] at hev
    cases hev
  | synchronization => exact processSyn_effect te cfgNat cfgAccel dwt td' hev
  | relative =>
    refine .quiet (fun code hkey => ?_) rfl rfl
    rw [hkey.1] at hev
    cases hev
  | other n =>
    refine .quiet (fun code hkey => ?_) rfl rfl
    rw [hkey.1] at hev
    cases hev

end TrackedDevice
end LibinputRs
