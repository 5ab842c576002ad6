import LibinputRs.Automata.Sessions
import LibinputRs.Backend.Ticks
import LibinputRs.Backend.TouchpadSteps
import LibinputRs.Library.KeyRepeat

/-! What is left pressed or open in the queue, device by device, against what the kernel
reported: the account that every processed event keeps. -/
namespace LibinputRs
open Automata

variable {F D : Type}

namespace InputEvent

def Presses (code : ℕ) (ev : InputEvent) : Prop := ev.KeyWith code ∧ ev.value ≠ 0

def Releases (code : ℕ) (ev : InputEvent) : Prop := ev.KeyWith code ∧ ev.value = 0

/-- An absolute event of the given axis. -/
def AxisWith (code : ℕ) (ev : InputEvent) : Prop := ev.eventType = .absolute ∧ ev.code = code

instance (code : ℕ) (ev : InputEvent) : Decidable (ev.Presses code) :=
  inferInstanceAs (Decidable (_ ∧ _))

instance (code : ℕ) (ev : InputEvent) : Decidable (ev.Releases code) :=
  inferInstanceAs (Decidable (_ ∧ _))

instance (code : ℕ) (ev : InputEvent) : Decidable (ev.AxisWith code) :=
  inferInstanceAs (Decidable (_ ∧ _))

end InputEvent

/-- The kernel reported the key or button down and not up again. -/
def KernelDown (code : ℕ) (rd : List InputEvent) : Prop :=
  OpenAfter (InputEvent.Presses code) (InputEvent.Releases code) rd

/-- The kernel reports no press of the left button while it is down already. -/
def LeftAlternates (rd : List InputEvent) : Prop :=
  AtEach (fun before ev => ev.Presses KeyCode.btnLeft → ¬ KernelDown KeyCode.btnLeft before) rd

namespace KernelDown

theorem press {code : ℕ} {rd : List InputEvent} {ev : InputEvent} (h : ev.Presses code) :
    KernelDown code (rd ++ [ev]) :=
  openAfter_append.mpr (.inl (openAfter_singleton.mpr h))

theorem keep {code : ℕ} {rd : List InputEvent} {ev : InputEvent} (h : KernelDown code rd)
    (hev : ¬ ev.Releases code) : KernelDown code (rd ++ [ev]) :=
  OpenAfter.append h (List.forall_mem_singleton.mpr hev)

theorem keep_of_ne {code code' : ℕ} {rd : List InputEvent} {ev : InputEvent}
    (h : KernelDown code rd) (hev : ev.KeyWith code') (hne : code ≠ code') :
    KernelDown code (rd ++ [ev]) :=
  h.keep fun hrel => hne (hrel.1.2.symm.trans hev.2)

end KernelDown

/-- The kernel events read from a device, in order. -/
def reads (d : DevicePtr) (l : List (Obs F D)) : List InputEvent :=
  l.filterMap fun
    | .processed p => if p.device = d then some p.event.ev else none
    | _ => none

@[simp] theorem reads_nil (d : DevicePtr) : reads d ([] : List (Obs F D)) = [] := rfl

@[simp] theorem reads_append (d : DevicePtr) (l m : List (Obs F D)) :
    reads d (l ++ m) = reads d l ++ reads d m := List.filterMap_append

@[simp] theorem reads_fd (d : DevicePtr) (a : FdAction) (l : List (Obs F D)) :
    reads d (.fd a :: l) = reads d l := rfl

namespace LibinputEvent

def PressesButton (d : DevicePtr) (code : ℕ) (e : LibinputEvent D) : Prop :=
  ∃ timeUsec state, e = .button d timeUsec code state ∧ state ≠ 0

def ReleasesButton (d : DevicePtr) (code : ℕ) (e : LibinputEvent D) : Prop :=
  ∃ timeUsec, e = .button d timeUsec code 0

def OfType (t : LibinputEventType) (d : DevicePtr) (e : LibinputEvent D) : Prop :=
  e.device = d ∧ e.eventType = t

end LibinputEvent

/-- A key of the device is pressed in the queue and not released. -/
def KeyLeft (d : DevicePtr) (code : ℕ) (q : List (LibinputEvent D)) : Prop :=
  OpenAfter (·.IsKey d code 1) (·.IsKey d code 0) q

/-- A button of the device is pressed in the queue and not released. -/
def ButtonLeft (d : DevicePtr) (code : ℕ) (q : List (LibinputEvent D)) : Prop :=
  OpenAfter (·.PressesButton d code) (·.ReleasesButton d code) q

/-- A pinch of the device is begun in the queue and not ended. -/
def PinchLeft (d : DevicePtr) (q : List (LibinputEvent D)) : Prop :=
  OpenAfter (·.OfType .gesturePinchBegin d) (·.OfType .gesturePinchEnd d) q

/-- The queue's view of a tracked device agrees with what was read from it. -/
structure Accounted (td : TrackedDevice F D) (q : List (LibinputEvent D))
    (rd : List InputEvent) : Prop where
  keys : ∀ code, KeyLeft td.libDevice code q →
    (td.isKeyboard = true ∧ td.isAbsolute = false) ∧ KernelDown code rd
  pinch : PinchLeft td.libDevice q →
    (td.isAbsolute = true ∧ td.pinchActive = true) ∧ KernelDown KeyCode.btnTouch rd
  mouse : ∀ code, td.isAbsolute = false → ButtonLeft td.libDevice code q →
    (td.isKeyboard = false ∧ td.isPointer = true ∧ isMouseButton code = true) ∧ KernelDown code rd
  touchpad : ∀ code, td.isAbsolute = true → LeftAlternates rd → ButtonLeft td.libDevice code q →
    isTouchpadButton code = true ∧ ((code ≠ KeyCode.btnLeft ∧ KernelDown code rd) ∨
      (td.activeClickButton = some code ∧ KernelDown KeyCode.btnLeft rd))

/-- The event types that press, release, open or close nothing. -/
def LibinputEventType.isInert : LibinputEventType → Bool
  | .keyboardKey | .pointerButton | .gesturePinchBegin | .gesturePinchEnd => false
  | _ => true

theorem LibinputEventType.isInert_of_isMovement {t : LibinputEventType}
    (h : t.isMovement = true) : t.isInert = true := by
  cases t <;> first | rfl | cases h

/-- Neither a key, nor a button, nor a beginning or end of a pinch of the device. -/
def LibinputEvent.Inert (d : DevicePtr) (e : LibinputEvent D) : Prop :=
  (∀ code, ¬ e.IsKey d code 1 ∧ ¬ e.IsKey d code 0) ∧
    (∀ code, ¬ e.PressesButton d code ∧ ¬ e.ReleasesButton d code) ∧
    ¬ e.OfType .gesturePinchBegin d ∧ ¬ e.OfType .gesturePinchEnd d

namespace LibinputEvent

theorem Inert.of_device_ne {d : DevicePtr} {e : LibinputEvent D} (h : e.device ≠ d) :
    e.Inert d := by
  refine ⟨fun code => ⟨?_,?_⟩,fun code => ⟨?_,?_⟩,fun he => h he.1,fun he => h he.1⟩
  · rintro ⟨t,rfl⟩
    exact h rfl
  · rintro ⟨t,rfl⟩
    exact h rfl
  · rintro ⟨t,s,rfl,_⟩
    exact h rfl
  · rintro ⟨t,rfl⟩
    exact h rfl

theorem Inert.of_type {d : DevicePtr} {e : LibinputEvent D} (h : e.eventType.isInert = true) :
    e.Inert d := by
  have hne : ∀ t : LibinputEventType, t.isInert = false → e.eventType ≠ t := by
    rintro t ht rfl
    simp [h] at ht
  refine ⟨fun code => ⟨not_isKey_of_type (hne _ rfl),not_isKey_of_type (hne _ rfl)⟩,
    fun code => ⟨?_,?_⟩,fun he => hne _ rfl he.2,fun he => hne _ rfl he.2⟩
  · rintro ⟨t,s,rfl,_⟩
    exact hne _ rfl rfl
  · rintro ⟨t,rfl⟩
    exact hne _ rfl rfl

end LibinputEvent

section Brackets
variable {d : DevicePtr} {q es : List (LibinputEvent D)}

theorem keyLeft_append_inert (h : ∀ e ∈ es, e.Inert d) (code : ℕ) :
    KeyLeft d code (q ++ es) ↔ KeyLeft d code q :=
  openAfter_append_of_neutral fun e he => (h e he).1 code

theorem buttonLeft_append_inert (h : ∀ e ∈ es, e.Inert d) (code : ℕ) :
    ButtonLeft d code (q ++ es) ↔ ButtonLeft d code q :=
  openAfter_append_of_neutral fun e he => (h e he).2.1 code

theorem pinchLeft_append_inert (h : ∀ e ∈ es, e.Inert d) :
    PinchLeft d (q ++ es) ↔ PinchLeft d q :=
  openAfter_append_of_neutral fun e he => (h e he).2.2

end Brackets

namespace Accounted
variable {td td' : TrackedDevice F D} {q es : List (LibinputEvent D)} {rd : List InputEvent}

/-- Inert events of the queue, with nothing read, change nothing. -/
theorem inert (h : Accounted td q rd) (hes : ∀ e ∈ es, e.Inert td.libDevice)
    (hid : td'.identity = td.identity) (hpinch : td'.pinchActive = td.pinchActive)
    (hactive : td'.activeClickButton = td.activeClickButton) : Accounted td' (q ++ es) rd := by
  simp only [TrackedDevice.identity,Prod.mk.injEq] at hid
  obtain ⟨-,-,habs,hkbd,hptr,hlib⟩ := hid
  rw [← hlib] at hes
  constructor
  · intro code hleft
    rw [keyLeft_append_inert hes,hlib] at hleft
    rw [hkbd,habs]
    exact h.keys code hleft
  · intro hleft
    rw [pinchLeft_append_inert hes,hlib] at hleft
    rw [habs,hpinch]
    exact h.pinch hleft
  · intro code hmouse hleft
    rw [buttonLeft_append_inert hes,hlib] at hleft
    rw [hkbd,hptr]
    exact h.mouse code (habs ▸ hmouse) hleft
  · intro code htouchpad halt hleft
    rw [buttonLeft_append_inert hes,hlib] at hleft
    rw [hactive]
    exact h.touchpad code (habs ▸ htouchpad) halt hleft

/-- A device that queued nothing yet has nothing left pressed or open. -/
theorem of_inert (h : ∀ e ∈ q, e.Inert td.libDevice) : Accounted td q rd := by
  rw [← List.nil_append q]
  constructor
  · intro code hleft
    rw [keyLeft_append_inert h] at hleft
    exact absurd hleft not_openAfter_nil
  · intro hleft
    rw [pinchLeft_append_inert h] at hleft
    exact absurd hleft not_openAfter_nil
  · intro code _ hleft
    rw [buttonLeft_append_inert h] at hleft
    exact absurd hleft not_openAfter_nil
  · intro code _ _ hleft
    rw [buttonLeft_append_inert h] at hleft
    exact absurd hleft not_openAfter_nil

end Accounted

section ButtonEvents
variable {d d' : DevicePtr} {timeUsec code code' state : ℕ}

theorem button_pressesButton : (LibinputEvent.button d timeUsec code state :
    LibinputEvent D).PressesButton d' code' ↔ d = d' ∧ code = code' ∧ state ≠ 0 := by
  constructor
  · rintro ⟨t,s,h,hs⟩
    simp only [LibinputEvent.button,LibinputEvent.mk.injEq,EventPayload.pointerButton.injEq,
      PointerButtonEvent.mk.injEq] at h
    exact ⟨h.2.2,h.2.1.2.1,h.2.1.2.2 ▸ hs⟩
  · rintro ⟨rfl,rfl,hs⟩
    exact ⟨timeUsec,state,rfl,hs⟩

theorem button_releasesButton : (LibinputEvent.button d timeUsec code state :
    LibinputEvent D).ReleasesButton d' code' ↔ d = d' ∧ code = code' ∧ state = 0 := by
  constructor
  · rintro ⟨t,h⟩
    simp only [LibinputEvent.button,LibinputEvent.mk.injEq,EventPayload.pointerButton.injEq,
      PointerButtonEvent.mk.injEq] at h
    exact ⟨h.2.2,h.2.1.2.1,h.2.1.2.2⟩
  · rintro ⟨rfl,rfl,rfl⟩
    exact ⟨timeUsec,rfl⟩

theorem key_not_button : ¬ (LibinputEvent.key d timeUsec code state :
      LibinputEvent D).PressesButton d' code' ∧
    ¬ (LibinputEvent.key d timeUsec code state : LibinputEvent D).ReleasesButton d' code' := by
  constructor
  · rintro ⟨t,s,h,_⟩
    cases h
  · rintro ⟨t,h⟩
    cases h

theorem key_not_pinch : ¬ (LibinputEvent.key d timeUsec code state :
      LibinputEvent D).OfType .gesturePinchBegin d' ∧
    ¬ (LibinputEvent.key d timeUsec code state : LibinputEvent D).OfType .gesturePinchEnd d' := by
  simp [LibinputEvent.OfType]

theorem button_not_pinch : ¬ (LibinputEvent.button d timeUsec code state :
      LibinputEvent D).OfType .gesturePinchBegin d' ∧
    ¬ (LibinputEvent.button d timeUsec code state : LibinputEvent D).OfType .gesturePinchEnd d' := by
  simp [LibinputEvent.OfType]

end ButtonEvents

namespace Accounted
variable {td td' : TrackedDevice F D} {q es : List (LibinputEvent D)} {rd : List InputEvent}

/-- A device that is neither of the three kinds leaves nothing, whatever is read from it. -/
theorem ignored (h : Accounted td q rd) (hkbd : td.isKeyboard = false)
    (habs : td.isAbsolute = false) (hptr : td.isPointer = false) (ev : InputEvent) :
    Accounted td q (rd ++ [ev]) := by
  constructor
  · intro code hleft
    have hkind := (h.keys code hleft).1.1
    simp [hkbd] at hkind
  · intro hleft
    have hkind := (h.pinch hleft).1.1
    simp [habs] at hkind
  · intro code hmouse hleft
    have hkind := (h.mouse code hmouse hleft).1.2.1
    simp [hptr] at hkind
  · intro code htouchpad
    simp [habs] at htouchpad

theorem keyboard (h : Accounted td q rd) (hkbd : td.isKeyboard = true)
    (habs : td.isAbsolute = false) (te : TimedEvent) (t : Option Instant) :
    Accounted (td.processKeyboardEvent te t).1 (q ++ (td.processKeyboardEvent te t).2.2)
      (rd ++ [te.ev]) := by
  have hid := td.processKeyboardEvent_identity te t
  have hout := td.processKeyboardEvent_out te t
  simp only [TrackedDevice.identity,Prod.mk.injEq] at hid
  obtain ⟨-,-,habs',hkbd',-,hlib⟩ := hid
  constructor
  · intro code hleft
    rw [hlib] at hleft
    rw [hkbd',habs']
    refine ⟨⟨hkbd,habs⟩,?_⟩
    rcases td.processKeyboardEvent_cases te t with ⟨hkey,hvalue,heq⟩ | ⟨hkey,hvalue,heq⟩ | ⟨hno,heq⟩ <;>
      rw [heq] at hleft
    · rcases openAfter_append.mp hleft with hleft | ⟨hleft,_⟩
      · obtain ⟨_,hcode,_⟩ := LibinputEvent.isKey_key.mp (openAfter_singleton.mp hleft)
        exact .press ⟨⟨hkey,hcode⟩,by simp [hvalue]⟩
      · exact (h.keys code hleft).2.keep fun hrel =>
          absurd (hvalue.symm.trans hrel.2) one_ne_zero
    · rcases openAfter_append.mp hleft with hleft | ⟨hleft,hends⟩
      · have hstate := (LibinputEvent.isKey_key.mp (openAfter_singleton.mp hleft)).2.2
        simp at hstate
      · refine (h.keys code hleft).2.keep fun hrel => ?_
        exact hends _ List.mem_cons_self (LibinputEvent.isKey_key.mpr ⟨rfl,hrel.1.2,rfl⟩)
    · rw [List.append_nil] at hleft
      exact (h.keys code hleft).2.keep fun hrel => hno ⟨hrel.1.1,.inr hrel.2⟩
  · intro hleft
    rw [hlib] at hleft
    have hpinch : PinchLeft td.libDevice q := by
      refine (openAfter_append_of_neutral fun e he => ?_).mp hleft
      obtain ⟨_,_,_,rfl⟩ := hout e he
      exact key_not_pinch
    have hkind := (h.pinch hpinch).1.1
    simp [habs] at hkind
  · intro code hmouse hleft
    rw [hlib] at hleft
    have hbutton : ButtonLeft td.libDevice code q := by
      refine (openAfter_append_of_neutral fun e he => ?_).mp hleft
      obtain ⟨_,_,_,rfl⟩ := hout e he
      exact key_not_button
    have hkind := (h.mouse code habs hbutton).1.1
    simp [hkbd] at hkind
  · intro code htouchpad
    simp [habs',habs] at htouchpad

variable [F64 D]

/-- A mouse forwards a button event as it reads it, and queues motion and scrolling. -/
theorem processRelativeEvent_cases (te : TimedEvent) (td : TrackedDevice F D) :
    (te.ev.eventType = .key ∧ isMouseButton te.ev.code = true ∧ td.processRelativeEvent te =
      [.button td.libDevice (systimeToUsec te.ev.time) te.ev.code (asU32 te.ev.value)]) ∨
    ((∀ code, te.ev.KeyWith code → isMouseButton code = false) ∧
      ∀ e ∈ td.processRelativeEvent te, e.Inert td.libDevice) := by
  have hnokey : te.ev.eventType ≠ .key →
      ∀ code, te.ev.KeyWith code → isMouseButton code = false :=
    fun hne code hev => absurd hev.1 hne
  unfold TrackedDevice.processRelativeEvent
  cases hev : te.ev.eventType with
  | relative =>
    refine .inr ⟨hnokey (by simp [hev]),?_⟩
    dsimp only
    split_ifs
    · exact List.forall_mem_singleton.mpr (.of_type rfl)
    · exact List.forall_mem_singleton.mpr (.of_type rfl)
    · exact List.forall_mem_singleton.mpr (.of_type rfl)
    · exact List.forall_mem_singleton.mpr (.of_type rfl)
    · exact List.forall_mem_nil _
  | key =>
    dsimp only
    by_cases hbutton : isMouseButton te.ev.code = true
    · exact .inl ⟨rfl,hbutton,if_pos hbutton⟩
    · refine .inr ⟨fun code hkey => ?_,?_⟩
      · rw [← hkey.2]
        exact Bool.eq_false_iff.mpr hbutton
      · rw [if_neg hbutton]
        exact List.forall_mem_nil _
  | synchronization => exact .inr ⟨hnokey (by simp [hev]),List.forall_mem_nil _⟩
  | absolute => exact .inr ⟨hnokey (by simp [hev]),List.forall_mem_nil _⟩
  | other n => exact .inr ⟨hnokey (by simp [hev]),List.forall_mem_nil _⟩

theorem relative (h : Accounted td q rd) (hkbd : td.isKeyboard = false)
    (habs : td.isAbsolute = false) (hptr : td.isPointer = true) (te : TimedEvent) :
    Accounted td (q ++ td.processRelativeEvent te) (rd ++ [te.ev]) := by
  have hpointer := td.processRelativeEvent_out te
  constructor
  · intro code hleft
    have hkeys : KeyLeft td.libDevice code q :=
      (openAfter_append_of_neutral fun e he =>
        ⟨(hpointer e he).not_isKey,(hpointer e he).not_isKey⟩).mp hleft
    have hkind := (h.keys code hkeys).1.1
    simp [hkbd] at hkind
  · intro hleft
    have hpinch : PinchLeft td.libDevice q := by
      rcases processRelativeEvent_cases te td with ⟨_,_,heq⟩ | ⟨_,hinert⟩
      · rw [heq] at hleft
        exact (openAfter_append_of_neutral (List.forall_mem_singleton.mpr button_not_pinch)).mp hleft
      · exact (pinchLeft_append_inert hinert).mp hleft
    have hkind := (h.pinch hpinch).1.1
    simp [habs] at hkind
  · intro code _ hleft
    rcases processRelativeEvent_cases te td with ⟨hkey,hbutton,heq⟩ | ⟨hno,hinert⟩
    · rw [heq] at hleft
      rcases openAfter_append.mp hleft with hleft | ⟨hleft,hends⟩
      · obtain ⟨_,hcode,hstate⟩ := button_pressesButton.mp (openAfter_singleton.mp hleft)
        refine ⟨⟨hkbd,hptr,hcode ▸ hbutton⟩,.press ⟨⟨hkey,hcode⟩,fun hvalue => hstate ?_⟩⟩
        rw [hvalue]
        rfl
      · obtain ⟨hkind,hdown⟩ := h.mouse code habs hleft
        refine ⟨hkind,hdown.keep fun hrel => ?_⟩
        refine hends _ List.mem_cons_self (button_releasesButton.mpr ⟨rfl,hrel.1.2,?_⟩)
        rw [hrel.2]
        rfl
    · obtain ⟨hkind,hdown⟩ := h.mouse code habs ((buttonLeft_append_inert hinert code).mp hleft)
      refine ⟨hkind,hdown.keep fun hrel => ?_⟩
      have := hno code hrel.1
      simp [hkind.2.2] at this
  · intro code htouchpad
    simp [habs] at htouchpad

omit [F64 D] in
/-- The step of a touchpad, from what it means for the pinch and for the buttons. -/
theorem of_touchpad (h : Accounted td q rd) (habs : td.isAbsolute = true) {ev : InputEvent}
    (hid : td'.identity = td.identity) (hes : ∀ e ∈ es, e.PointerOf td.libDevice)
    (hpinch : PinchLeft td.libDevice (q ++ es) →
      td'.pinchActive = true ∧ KernelDown KeyCode.btnTouch (rd ++ [ev]))
    (hbutton : ∀ code, LeftAlternates rd →
      (ev.Presses KeyCode.btnLeft → ¬ KernelDown KeyCode.btnLeft rd) →
      ButtonLeft td.libDevice code (q ++ es) → isTouchpadButton code = true ∧
        ((code ≠ KeyCode.btnLeft ∧ KernelDown code (rd ++ [ev])) ∨
          (td'.activeClickButton = some code ∧ KernelDown KeyCode.btnLeft (rd ++ [ev])))) :
    Accounted td' (q ++ es) (rd ++ [ev]) := by
  simp only [TrackedDevice.identity,Prod.mk.injEq] at hid
  obtain ⟨-,-,habs',-,-,hlib⟩ := hid
  constructor
  · intro code hleft
    rw [hlib] at hleft
    have hkeys : KeyLeft td.libDevice code q :=
      (openAfter_append_of_neutral fun e he =>
        ⟨(hes e he).not_isKey,(hes e he).not_isKey⟩).mp hleft
    have hkind := (h.keys code hkeys).1.2
    simp [habs] at hkind
  · intro hleft
    rw [hlib] at hleft
    obtain ⟨hactive,hdown⟩ := hpinch hleft
    exact ⟨⟨habs'.trans habs,hactive⟩,hdown⟩
  · intro code hmouse
    simp [habs',habs] at hmouse
  · intro code _ halt hleft
    rw [hlib] at hleft
    obtain ⟨halt,hnew⟩ := atEach_append.mp halt
    exact hbutton code halt (by simpa using atEach_singleton.mp hnew) hleft

omit [F64 D] in
/-- A button of a touchpad that is left pressed stays accounted for when another key is read. -/
theorem button_keep {code code' : ℕ} {ev : InputEvent} {active : Option ℕ}
    (h : isTouchpadButton code = true ∧ ((code ≠ KeyCode.btnLeft ∧ KernelDown code rd) ∨
      (active = some code ∧ KernelDown KeyCode.btnLeft rd)))
    (hev : ev.KeyWith code') (hne : isTouchpadButton code' = false) :
    isTouchpadButton code = true ∧ ((code ≠ KeyCode.btnLeft ∧ KernelDown code (rd ++ [ev])) ∨
      (active = some code ∧ KernelDown KeyCode.btnLeft (rd ++ [ev]))) := by
  have hneq : ∀ code, isTouchpadButton code = true → code ≠ code' := by
    rintro code hcode rfl
    simp [hne] at hcode
  refine ⟨h.1,?_⟩
  rcases h.2 with ⟨hleft,hdown⟩ | ⟨hactive,hdown⟩
  · exact .inl ⟨hleft,hdown.keep_of_ne hev (hneq code h.1)⟩
  · exact .inr ⟨hactive,hdown.keep_of_ne hev (hneq _ rfl)⟩

omit [F64 D] in
theorem buttonLeft_singleton {d : DevicePtr} {code mapped timeUsec state : ℕ}
    (h : ButtonLeft d code (q ++ [.button d timeUsec mapped state])) :
    (code = mapped ∧ state ≠ 0) ∨ (ButtonLeft d code q ∧ ¬ (code = mapped ∧ state = 0)) := by
  rcases openAfter_append.mp h with h | ⟨h,hends⟩
  · obtain ⟨_,hcode,hstate⟩ := button_pressesButton.mp (openAfter_singleton.mp h)
    exact .inl ⟨hcode.symm,hstate⟩
  · refine .inr ⟨h,fun hrel => ?_⟩
    exact hends _ List.mem_cons_self (button_releasesButton.mpr ⟨rfl,hrel.1.symm,hrel.2⟩)

omit [F64 D] in
/-- Buttons are no part of a pinch. -/
theorem pinchLeft_append_button {d c : DevicePtr} {code timeUsec state : ℕ}
    (h : PinchLeft d (q ++ [.button c timeUsec code state])) : PinchLeft d q :=
  (openAfter_append_of_neutral (List.forall_mem_singleton.mpr button_not_pinch)).mp h

theorem touchpad_contact (h : Accounted td q rd) (habs : td.isAbsolute = true) {ev : InputEvent}
    {r : TrackedDevice F D × List (LibinputEvent D)} (hstep : TrackedDevice.PointerStep td r)
    (hev : ev.KeyWith KeyCode.btnTouch) (hvalue : ev.value ≠ 0)
    (hactive : r.1.activeClickButton = td.activeClickButton)
    (hout : (r.2 = [] ∧ r.1.pinchActive = td.pinchActive) ∨ (r.1.pinchActive = true ∧
      ∃ fingers, r.2 = [.pinchBegin td.libDevice (systimeToUsec ev.time) fingers])) :
    Accounted r.1 (q ++ r.2) (rd ++ [ev]) := by
  refine h.of_touchpad habs hstep.identity hstep.out (fun hleft => ?_) fun code halt _ hleft => ?_
  · refine ⟨?_,.press ⟨hev,hvalue⟩⟩
    rcases hout with ⟨hout,hpinch⟩ | ⟨hpinch,_⟩
    · rw [hout,List.append_nil] at hleft
      exact hpinch.trans (h.pinch hleft).1.2
    · exact hpinch
  · have hbutton : ButtonLeft td.libDevice code q := by
      rcases hout with ⟨hout,_⟩ | ⟨_,fingers,hout⟩
      · rwa [hout,List.append_nil] at hleft
      · rw [hout] at hleft
        refine (openAfter_append_of_neutral (List.forall_mem_singleton.mpr ⟨?_,?_⟩)).mp hleft
        · rintro ⟨t,s,he,_⟩
          cases he
        · rintro ⟨t,he⟩
          cases he
    rw [hactive]
    exact button_keep (h.touchpad code habs halt hbutton) hev rfl

theorem touchpad_lift (h : Accounted td q rd) (habs : td.isAbsolute = true) {ev : InputEvent}
    {r : TrackedDevice F D × List (LibinputEvent D)} (hstep : TrackedDevice.PointerStep td r)
    (hev : ev.KeyWith KeyCode.btnTouch) (ends taps : List (LibinputEvent D))
    (hends : (td.pinchActive = true ∧ ∃ scale angle,
        ends = [.pinchEnd td.libDevice (systimeToUsec ev.time) td.pinchFingers scale angle]) ∨
      (td.pinchActive = false ∧ ends = []))
    (htaps : taps = [] ∨ taps = [.button td.libDevice (systimeToUsec ev.time) KeyCode.btnLeft 1,
        .button td.libDevice (systimeToUsec ev.time) KeyCode.btnLeft 0])
    (hactive : r.1.activeClickButton = td.activeClickButton) (hout : r.2 = ends ++ taps) :
    Accounted r.1 (q ++ r.2) (rd ++ [ev]) := by
  refine h.of_touchpad habs hstep.identity hstep.out (fun hleft => ?_) fun code halt _ hleft => ?_
  · exfalso
    have hpinch : PinchLeft td.libDevice (q ++ ends) := by
      rw [hout,← List.append_assoc] at hleft
      rcases htaps with rfl | rfl
      · rwa [List.append_nil] at hleft
      · rw [List.append_cons] at hleft
        exact pinchLeft_append_button (pinchLeft_append_button hleft)
    rcases hends with ⟨_,scale,angle,rfl⟩ | ⟨hclosed,rfl⟩
    · rcases openAfter_append.mp hpinch with hopen | ⟨_,hnone⟩
      · have ht := (openAfter_singleton.mp hopen).2
        cases ht
      · exact hnone _ List.mem_cons_self ⟨rfl,rfl⟩
    · rw [List.append_nil] at hpinch
      have hopen := (h.pinch hpinch).1.2
      simp [hclosed] at hopen
  · have hrest : ButtonLeft td.libDevice code (q ++ ends) := by
      rw [hout,← List.append_assoc] at hleft
      rcases htaps with rfl | rfl
      · rwa [List.append_nil] at hleft
      · rw [List.append_cons] at hleft
        rcases buttonLeft_singleton hleft with ⟨_,hstate⟩ | ⟨hleft,hcode⟩
        · simp at hstate
        · rcases buttonLeft_singleton hleft with ⟨rfl,_⟩ | ⟨hleft,_⟩
          · exact absurd ⟨rfl,rfl⟩ hcode
          · exact hleft
    have hbutton : ButtonLeft td.libDevice code q := by
      refine (openAfter_append_of_neutral fun e he => ?_).mp hrest
      rcases hends with ⟨_,scale,angle,rfl⟩ | ⟨_,rfl⟩
      · obtain rfl := List.mem_singleton.mp he
        constructor
        · rintro ⟨t,s,he,_⟩
          cases he
        · rintro ⟨t,he⟩
          cases he
      · cases he
    rw [hactive]
    exact button_keep (h.touchpad code habs halt hbutton) hev rfl

omit [F64 D] in
theorem touchpad_leftPress (h : Accounted td q rd) (habs : td.isAbsolute = true)
    {ev : InputEvent} {r : TrackedDevice F D × List (LibinputEvent D)}
    (hstep : TrackedDevice.PointerStep td r) (hev : ev.KeyWith KeyCode.btnLeft)
    (hvalue : ev.value ≠ 0) (mapped : ℕ) (hmapped : isTouchpadButton mapped = true)
    (hpinch : r.1.pinchActive = td.pinchActive) (hactive : r.1.activeClickButton = some mapped)
    (hout : r.2 = [.button td.libDevice (systimeToUsec ev.time) mapped (asU32 ev.value)]) :
    Accounted r.1 (q ++ r.2) (rd ++ [ev]) := by
  refine h.of_touchpad habs hstep.identity hstep.out (fun hleft => ?_)
    fun code halt hnew hleft => ?_
  · rw [hout] at hleft
    obtain ⟨⟨_,hopen⟩,hdown⟩ := h.pinch (pinchLeft_append_button hleft)
    exact ⟨hpinch.trans hopen,hdown.keep_of_ne hev (by decide)⟩
  · rw [hout] at hleft
    rcases buttonLeft_singleton hleft with ⟨rfl,_⟩ | ⟨hleft,_⟩
    · exact ⟨hmapped,.inr ⟨hactive,.press ⟨hev,hvalue⟩⟩⟩
    · obtain ⟨hcode,hcase⟩ := h.touchpad code habs halt hleft
      rcases hcase with ⟨hne,hdown⟩ | ⟨_,hdown⟩
      · exact ⟨hcode,.inl ⟨hne,hdown.keep_of_ne hev hne⟩⟩
      · exact absurd hdown (hnew ⟨hev,hvalue⟩)

omit [F64 D] in
theorem touchpad_leftRelease (h : Accounted td q rd) (habs : td.isAbsolute = true)
    {ev : InputEvent} {r : TrackedDevice F D × List (LibinputEvent D)}
    (hstep : TrackedDevice.PointerStep td r) (hev : ev.KeyWith KeyCode.btnLeft)
    (hvalue : ev.value = 0) (hpinch : r.1.pinchActive = td.pinchActive)
    (hout : r.2 = if isTouchpadButton (td.activeClickButton.getD KeyCode.btnLeft) then
      [.button td.libDevice (systimeToUsec ev.time)
        (td.activeClickButton.getD KeyCode.btnLeft) (asU32 ev.value)] else []) :
    Accounted r.1 (q ++ r.2) (rd ++ [ev]) := by
  have hzero : asU32 ev.value = 0 := by rw [hvalue]; rfl
  refine h.of_touchpad habs hstep.identity hstep.out (fun hleft => ?_) fun code halt _ hleft => ?_
  · have hleft' : PinchLeft td.libDevice q := by
      rw [hout] at hleft
      split_ifs at hleft
      · exact pinchLeft_append_button hleft
      · rwa [List.append_nil] at hleft
    obtain ⟨⟨_,hopen⟩,hdown⟩ := h.pinch hleft'
    exact ⟨hpinch.trans hopen,hdown.keep_of_ne hev (by decide)⟩
  · have hrest : ButtonLeft td.libDevice code q ∧
        (isTouchpadButton (td.activeClickButton.getD KeyCode.btnLeft) = true →
          code ≠ td.activeClickButton.getD KeyCode.btnLeft) := by
      rw [hout] at hleft
      split_ifs at hleft with hbutton
      · rcases buttonLeft_singleton hleft with ⟨_,hstate⟩ | ⟨hleft,hcode⟩
        · exact absurd hzero hstate
        · exact ⟨hleft,fun _ heq => hcode ⟨heq,hzero⟩⟩
      · rw [List.append_nil] at hleft
        exact ⟨hleft,fun hb => absurd hb hbutton⟩
    obtain ⟨hcode,hcase⟩ := h.touchpad code habs halt hrest.1
    rcases hcase with ⟨hne,hdown⟩ | ⟨hactive,_⟩
    · exact ⟨hcode,.inl ⟨hne,hdown.keep_of_ne hev hne⟩⟩
    · rw [hactive,Option.getD_some] at hrest
      exact absurd rfl (hrest.2 hcode)

omit [F64 D] in
theorem touchpad_otherButton (h : Accounted td q rd) (habs : td.isAbsolute = true)
    {ev : InputEvent} {r : TrackedDevice F D × List (LibinputEvent D)}
    (hstep : TrackedDevice.PointerStep td r) (code' : ℕ) (hev : ev.KeyWith code')
    (hcode' : isTouchpadButton code' = true) (hother : code' ≠ KeyCode.btnLeft)
    (hpinch : r.1.pinchActive = td.pinchActive)
    (hactive : r.1.activeClickButton = td.activeClickButton)
    (hout : r.2 = [.button td.libDevice (systimeToUsec ev.time) code' (asU32 ev.value)]) :
    Accounted r.1 (q ++ r.2) (rd ++ [ev]) := by
  refine h.of_touchpad habs hstep.identity hstep.out (fun hleft => ?_) fun code halt _ hleft => ?_
  · rw [hout] at hleft
    obtain ⟨⟨_,hopen⟩,hdown⟩ := h.pinch (pinchLeft_append_button hleft)
    refine ⟨hpinch.trans hopen,hdown.keep_of_ne hev ?_⟩
    rintro rfl
    cases hcode'
  · rw [hout] at hleft
    rcases buttonLeft_singleton hleft with ⟨rfl,hstate⟩ | ⟨hleft,hends⟩
    · refine ⟨hcode',.inl ⟨hother,.press ⟨hev,fun hvalue => hstate ?_⟩⟩⟩
      rw [hvalue]
      rfl
    · obtain ⟨hcode,hcase⟩ := h.touchpad code habs halt hleft
      refine ⟨hcode,?_⟩
      rcases hcase with ⟨hne,hdown⟩ | ⟨hact,hdown⟩
      · refine .inl ⟨hne,hdown.keep fun hrel => hends ⟨hrel.1.2.symm.trans hev.2,?_⟩⟩
        rw [hrel.2]
        rfl
      · exact .inr ⟨hactive.trans hact,hdown.keep_of_ne hev hother.symm⟩

omit [F64 D] in
/-- The effects that queue nothing about keys, buttons and pinch sessions. -/
theorem touchpad_inert (h : Accounted td q rd) (habs : td.isAbsolute = true) {ev : InputEvent}
    {r : TrackedDevice F D × List (LibinputEvent D)} (hstep : TrackedDevice.PointerStep td r)
    (hev : ∀ code, ev.KeyWith code → code ≠ KeyCode.btnTouch ∧ isTouchpadButton code = false)
    (hpinch : r.1.pinchActive = td.pinchActive)
    (hactive : r.1.activeClickButton = td.activeClickButton)
    (hout : ∀ e ∈ r.2, e.Inert td.libDevice) : Accounted r.1 (q ++ r.2) (rd ++ [ev]) := by
  have hkeep : ∀ code, code = KeyCode.btnTouch ∨ isTouchpadButton code = true →
      KernelDown code rd → KernelDown code (rd ++ [ev]) := by
    intro code hcode hdown
    refine hdown.keep fun hrel => ?_
    obtain ⟨htouch,hbutton⟩ := hev code hrel.1
    rcases hcode with hcode | hcode
    · exact htouch hcode
    · simp [hbutton] at hcode
  refine h.of_touchpad habs hstep.identity hstep.out (fun hleft => ?_) fun code halt _ hleft => ?_
  · obtain ⟨⟨_,hopen⟩,hdown⟩ := h.pinch ((pinchLeft_append_inert hout).mp hleft)
    exact ⟨hpinch.trans hopen,hkeep _ (.inl rfl) hdown⟩
  · obtain ⟨hcode,hcase⟩ := h.touchpad code habs halt ((buttonLeft_append_inert hout code).mp hleft)
    refine ⟨hcode,?_⟩
    rcases hcase with ⟨hne,hdown⟩ | ⟨hact,hdown⟩
    · exact .inl ⟨hne,hkeep code (.inr hcode) hdown⟩
    · exact .inr ⟨hactive.trans hact,hkeep _ (.inr rfl) hdown⟩

/-- Every event of a touchpad keeps the account, one case for an effect. -/
theorem touchpad_effect (h : Accounted td q rd) (habs : td.isAbsolute = true) {ev : InputEvent}
    {r : TrackedDevice F D × List (LibinputEvent D)} (hstep : TrackedDevice.PointerStep td r)
    (heff : TrackedDevice.TouchEffect td ev r) : Accounted r.1 (q ++ r.2) (rd ++ [ev]) := by
  have hpinchOf : ∀ {a b c d}, r.1.gestureState = (a,b,c,d) → r.1.pinchActive = b :=
    fun hs => congrArg (·.2.1) hs
  have hactiveOf : ∀ {a b c d}, r.1.gestureState = (a,b,c,d) → r.1.activeClickButton = d :=
    fun hs => congrArg (·.2.2.2) hs
  cases heff with
  | contact hev hvalue hs hout =>
    exact h.touchpad_contact habs hstep hev hvalue (hactiveOf hs) (.inl ⟨hout,hpinchOf hs⟩)
  | pinchBegins hev hvalue fingers hclosed hs hout =>
    exact h.touchpad_contact habs hstep hev hvalue (hactiveOf hs)
      (.inr ⟨hpinchOf hs,fingers,hout⟩)
  | lift hev hvalue ends taps hends htaps hs hout =>
    exact h.touchpad_lift habs hstep hev ends taps hends htaps (hactiveOf hs) hout
  | leftPress hev hvalue mapped hmapped hs hout =>
    exact h.touchpad_leftPress habs hstep hev hvalue mapped hmapped (hpinchOf hs) (hactiveOf hs) hout
  | leftRelease hev hvalue hs hout =>
    exact h.touchpad_leftRelease habs hstep hev hvalue (hpinchOf hs) hout
  | otherButton code hev hcode hleft hs hout =>
    exact h.touchpad_otherButton habs hstep code hev hcode hleft (hpinchOf hs) (hactiveOf hs) hout
  | quiet hev hs hout =>
    exact h.touchpad_inert habs hstep hev (hpinchOf hs) (hactiveOf hs) (by simp [hout])
  | frame hev hs hout =>
    refine h.touchpad_inert habs hstep (fun code hkey => ?_) (hpinchOf hs) (hactiveOf hs) ?_
    · have hsync := hkey.1
      rw [hev] at hsync
      cases hsync
    · rcases hout with ⟨_,hout | ⟨scale,angle,hout⟩⟩ | ⟨_,hout⟩
      · simp [hout]
      · rw [hout]
        exact List.forall_mem_singleton.mpr (.of_type rfl)
      · exact fun e he => .of_type (LibinputEventType.isInert_of_isMovement (hout e he).2)

end Accounted
end LibinputRs
