import LibinputRs.Automata.Faults
import LibinputRs.Automata.Toggles
import LibinputRs.Library.Pinch

/-! Button events of a touchpad. Forwarded buttons, remapped left clicks and taps are reported
under the same three codes with no common state, so a code alternates only while at most one of
the three holds it down. -/
namespace LibinputRs
open Automata

variable {F D : Type}

/-- The buttons of a touchpad that are forwarded. -/
def touchpadButtons : List ℕ := [KeyCode.btnLeft,KeyCode.btnRight,KeyCode.btnMiddle]

theorem mem_touchpadButtons {code : ℕ} :
    code ∈ touchpadButtons ↔ isTouchpadButton code = true := by
  simp [touchpadButtons,isTouchpadButton,or_assoc]

section Values

/-- The values the kernel reports for one key or button, in order. -/
def keyValues (code : ℕ) (rd : List InputEvent) : List ℤ :=
  rd.filterMap fun ev => if ev.KeyWith code then some ev.value else none

theorem keyValues_append (code : ℕ) (rd rd' : List InputEvent) :
    keyValues code (rd ++ rd') = keyValues code rd ++ keyValues code rd' := List.filterMap_append

theorem keyValues_singleton (code : ℕ) (ev : InputEvent) :
    keyValues code [ev] = if ev.KeyWith code then [ev.value] else [] := by
  by_cases h : ev.KeyWith code <;> simp [keyValues,h]

/-- The states queued for one button, in order. -/
def buttonStates (code : ℕ) (l : List (LibinputEvent D)) : List ℕ :=
  l.filterMap (LibinputEvent.buttonState code)

@[simp] theorem buttonStates_nil (code : ℕ) :
    buttonStates code ([] : List (LibinputEvent D)) = [] := rfl

@[simp] theorem buttonStates_append (code : ℕ) (l m : List (LibinputEvent D)) :
    buttonStates code (l ++ m) = buttonStates code l ++ buttonStates code m :=
  List.filterMap_append

theorem buttonStates_button (code : ℕ) (d : DevicePtr) (timeUsec code' state : ℕ)
    (l : List (LibinputEvent D)) : buttonStates code (.button d timeUsec code' state :: l) =
      (if code = code' then [state] else []) ++ buttonStates code l := by
  by_cases h : code = code'
  · simp [buttonStates,LibinputEvent.buttonState,LibinputEvent.button,h]
  · simp [buttonStates,LibinputEvent.buttonState,LibinputEvent.button,h,Ne.symm h]

/-- Other events say nothing about buttons. -/
theorem buttonStates_eq_nil (code : ℕ) {l : List (LibinputEvent D)}
    (h : ∀ e ∈ l, e.eventType ≠ .pointerButton) : buttonStates code l = [] := by
  refine List.filterMap_eq_nil_iff.mpr fun e he => ?_
  have htype := h e he
  unfold LibinputEvent.buttonState
  split
  · contradiction
  · rfl

/-- The button is physically down after the events read so far. -/
def ButtonDown (code : ℕ) (rd : List InputEvent) : Prop :=
  level false (keyValues code rd) = some true

instance (code : ℕ) (rd : List InputEvent) : Decidable (ButtonDown code rd) :=
  inferInstanceAs (Decidable (_ = _))

/-- Every physical button is pressed and released in turn. -/
def PhysicalAlternates (rd : List InputEvent) : Prop :=
  ∀ code ∈ touchpadButtons, Alternates (keyValues code rd)

instance (rd : List InputEvent) : Decidable (PhysicalAlternates rd) :=
  inferInstanceAs (Decidable (∀ code ∈ touchpadButtons, _))

theorem PhysicalAlternates.of_append {rd rd' : List InputEvent}
    (h : PhysicalAlternates (rd ++ rd')) : PhysicalAlternates rd := by
  intro code hcode
  have := h code hcode
  rw [keyValues,List.filterMap_append] at this
  exact this.of_append

/-- The next event of a button whose level is known presses it or releases it. -/
theorem PhysicalAlternates.next {rd : List InputEvent} {ev : InputEvent} {code : ℕ}
    (h : PhysicalAlternates (rd ++ [ev])) (hcode : code ∈ touchpadButtons)
    (hev : ev.KeyWith code) :
    (¬ ButtonDown code rd ∧ ev.value = 1 ∧ ButtonDown code (rd ++ [ev])) ∨
      (ButtonDown code rd ∧ ev.value = 0 ∧ ¬ ButtonDown code (rd ++ [ev])) := by
  obtain ⟨high',hnext⟩ := (h code hcode).exists_level
  obtain ⟨high,hlevel⟩ := (h.of_append code hcode).exists_level
  have htoggle := hnext
  rw [keyValues_append,keyValues_singleton,if_pos hev,level_append_of hlevel,level_singleton] at htoggle
  unfold ButtonDown
  rw [hlevel,hnext]
  rcases toggle_cases htoggle with ⟨rfl,hvalue,rfl⟩ | ⟨rfl,hvalue,rfl⟩
  · exact .inl ⟨by simp,hvalue,rfl⟩
  · exact .inr ⟨rfl,hvalue,by simp⟩

theorem buttonDown_append_of_not {rd : List InputEvent} {ev : InputEvent} {code : ℕ}
    (hev : ¬ ev.KeyWith code) : ButtonDown code (rd ++ [ev]) ↔ ButtonDown code rd := by
  rw [ButtonDown,keyValues_append,keyValues_singleton,if_neg hev,List.append_nil,ButtonDown]

end Values

section Effects

/-- What one event means for the buttons: a tap, a left click under some code, its release,
an event of another button, or nothing. -/
inductive ClickEffect (td : TrackedDevice F D) (i : TouchInput F)
    (r : TrackedDevice F D × List (LibinputEvent D)) : Prop
  | tap (hev : i.te.ev.Releases KeyCode.btnTouch)
      (htap : td.isTap i.te.now i.cfgTap i.dwtActive = true)
      (hactive : r.1.activeClickButton = td.activeClickButton)
      (hout : ∀ code, buttonStates code r.2 = if code = KeyCode.btnLeft then [1,0] else [])
  | leftPress (hev : i.te.ev.Presses KeyCode.btnLeft) (mapped : ℕ)
      (hmapped : mapped = (td.mapClick KeyCode.btnLeft i.te.ev.value).2)
      (hbutton : mapped ∈ touchpadButtons) (hactive : r.1.activeClickButton = some mapped)
      (hout : ∀ code, buttonStates code r.2 =
        if code = mapped then [asU32 i.te.ev.value] else [])
  | leftRelease (hev : i.te.ev.Releases KeyCode.btnLeft) (hactive : r.1.activeClickButton = none)
      (hout : ∀ code, buttonStates code r.2 =
        if code = td.activeClickButton.getD KeyCode.btnLeft ∧ code ∈ touchpadButtons then [0] else [])
  | other (code : ℕ) (hev : i.te.ev.KeyWith code) (hcode : code ∈ touchpadButtons)
      (hleft : code ≠ KeyCode.btnLeft) (hactive : r.1.activeClickButton = td.activeClickButton)
      (hout : ∀ code', buttonStates code' r.2 =
        if code' = code then [asU32 i.te.ev.value] else [])
  | quiet (hev : ∀ code, i.te.ev.KeyWith code → code ∉ touchpadButtons)
      (htap : i.te.ev.Releases KeyCode.btnTouch →
        td.isTap i.te.now i.cfgTap i.dwtActive = false)
      (hactive : r.1.activeClickButton = td.activeClickButton)
      (hout : ∀ code, buttonStates code r.2 = [])

variable [F64 D]

theorem TrackedDevice.liftPinch_type (te : TimedEvent) (td : TrackedDevice F D) :
    ∀ e ∈ td.liftPinch te, e.eventType ≠ .pointerButton := by
  unfold liftPinch
  split_ifs
  · exact List.forall_mem_singleton.mpr nofun
  · exact List.forall_mem_nil _

variable [F32 F] [FloatCast F D]

/-- The taps of a lift are those of `isTap`. -/
theorem TrackedDevice.touchStep_lift (td : TrackedDevice F D) (i : TouchInput F)
    (hev : i.te.ev.Releases KeyCode.btnTouch) (code : ℕ) :
    buttonStates code (td.touchStep i).2 =
      if code = KeyCode.btnLeft ∧ td.isTap i.te.now i.cfgTap i.dwtActive = true then [1,0] else [] := by
  have htap : (if i.dwtActive then { td with tapEmitted := true } else td).isTap i.te.now i.cfgTap
      i.dwtActive = td.isTap i.te.now i.cfgTap i.dwtActive := by
    cases h : i.dwtActive <;> simp [isTap]
  rw [td.touchStep_key i hev.1.1,processAbsoluteKey,if_pos hev.1.2,if_neg (not_not.mpr hev.2),
    touchUp]
  dsimp only
  rw [htap,buttonStates_append,buttonStates_eq_nil code (liftPinch_type i.te _),List.nil_append]
  cases td.isTap i.te.now i.cfgTap i.dwtActive with
  | false => simp
  | true => by_cases hcode : code = KeyCode.btnLeft <;> simp [buttonStates_button,hcode]

/-- The code of a left click is that of `mapClick`. -/
theorem TrackedDevice.touchStep_leftPress (td : TrackedDevice F D) (i : TouchInput F)
    (hev : i.te.ev.Presses KeyCode.btnLeft) : (td.touchStep i).1.activeClickButton =
      some (td.mapClick KeyCode.btnLeft i.te.ev.value).2 := by
  rw [td.touchStep_key i hev.1.1,processAbsoluteKey,hev.1.2,if_neg (by decide),if_neg (by decide),
    if_neg (by decide),if_neg (by decide),physicalClick,hev.1.2]
  unfold mapClick
  rw [if_pos rfl,if_pos hev.2,if_pos rfl,if_pos hev.2]
  cases i.dwtActive <;> rfl

theorem TrackedDevice.touchStep_clickEffect (td : TrackedDevice F D) (i : TouchInput F) :
    ClickEffect td i (td.touchStep i) := by
  have hactive : ∀ {touch pinch : Bool} {fingers : ℤ} {active : Option ℕ},
      (td.touchStep i).1.gestureState = (touch,pinch,fingers,active) →
      (td.touchStep i).1.activeClickButton = active := fun h => congrArg (·.2.2.2) h
  have hsingle : ∀ d t button state, (td.touchStep i).2 = [.button d t button state] →
      ∀ code, buttonStates code (td.touchStep i).2 = if code = button then [state] else [] := by
    intro d t button state hout code
    rw [hout,buttonStates_button,buttonStates_nil,List.append_nil]
  have hother : ∀ code, i.te.ev.KeyWith code → code ∉ touchpadButtons →
      ∀ code', i.te.ev.KeyWith code' → code' ∉ touchpadButtons := by
    intro code hev hcode code' hev'
    rwa [← hev'.2,hev.2]
  cases td.processAbsoluteEvent_effect i.te i.cfgTap i.cfgNat i.cfgAccel i.dwtActive with
  | contact hev hvalue hs hout =>
    refine .quiet (hother _ hev (by decide)) (fun hlift => absurd hlift.2 hvalue) (hactive hs) ?_
    exact fun code => buttonStates_eq_nil code (by simp [touchStep,hout])
  | pinchBegins hev hvalue fingers hclosed hs hout =>
    refine .quiet (hother _ hev (by decide)) (fun hlift => absurd hlift.2 hvalue) (hactive hs) ?_
    refine fun code => buttonStates_eq_nil code ?_
    rw [touchStep,hout]
    exact List.forall_mem_singleton.mpr nofun
  | lift hev hvalue ends taps hends htaps hs hout =>
    have hstates := td.touchStep_lift i ⟨hev,hvalue⟩
    cases htap : td.isTap i.te.now i.cfgTap i.dwtActive with
    | true => exact .tap ⟨hev,hvalue⟩ htap (hactive hs) (by simpa [htap] using hstates)
    | false =>
      exact .quiet (hother _ hev (by decide)) (fun _ => htap) (hactive hs)
        (by simpa [htap] using hstates)
  | leftPress hev hvalue mapped hmapped hs hout =>
    have hclick := td.touchStep_leftPress i ⟨hev,hvalue⟩
    have heq : mapped = (td.mapClick KeyCode.btnLeft i.te.ev.value).2 :=
      Option.some.inj ((hactive hs).symm.trans hclick)
    exact .leftPress ⟨hev,hvalue⟩ mapped heq (mem_touchpadButtons.mpr hmapped) (hactive hs)
      (hsingle _ _ _ _ hout)
  | leftRelease hev hvalue hs hout =>
    refine .leftRelease ⟨hev,hvalue⟩ (hactive hs) fun code => ?_
    have hzero : asU32 i.te.ev.value = 0 := by rw [hvalue]; rfl
    rw [touchStep,hout,hzero]
    by_cases hcode : code = td.activeClickButton.getD KeyCode.btnLeft
    · rw [← hcode]
      by_cases hbutton : isTouchpadButton code = true <;>
        simp [buttonStates_button,mem_touchpadButtons,hbutton]
    · have hnone : (if code = td.activeClickButton.getD KeyCode.btnLeft ∧ code ∈ touchpadButtons
          then [0] else []) = ([] : List ℕ) := if_neg fun h => hcode h.1
      rw [hnone]
      split_ifs
      · rw [buttonStates_button,if_neg hcode]
        rfl
      · rfl
  | otherButton code hev hcode hleft hs hout =>
    exact .other code hev (mem_touchpadButtons.mpr hcode) hleft (congrArg (·.2.2.2) hs)
      (hsingle _ _ _ _ hout)
  | quiet hev hs hout =>
    refine .quiet (fun code hkey => ?_) (fun hlift => ?_) (congrArg (·.2.2.2) hs) ?_
    · rw [mem_touchpadButtons,(hev code hkey).2]
      simp
    · exact absurd rfl (hev _ hlift.1).1
    · exact fun code => buttonStates_eq_nil code (by simp [touchStep,hout])
  | frame hev hs hout =>
    have hnokey : ∀ code, ¬ i.te.ev.KeyWith code := by
      intro code hkey
      have := hkey.1
      rw [hev] at this
      cases this
    refine .quiet (fun code hkey => absurd hkey (hnokey code))
      (fun hlift => absurd hlift.1 (hnokey _)) (congrArg (·.2.2.2) hs) fun code => ?_
    refine buttonStates_eq_nil code fun e he => ?_
    rcases hout with ⟨_,hout | ⟨scale,angle,hout⟩⟩ | ⟨_,hout⟩
    · simp [touchStep,hout] at he
    · rw [touchStep,hout,List.mem_singleton] at he
      rw [he]
      exact nofun
    · have hmove := (hout e he).2
      intro htype
      rw [htype] at hmove
      cases hmove

end Effects

section Alternation

/-- The event adds no second holder to a button that is down already: no tap while a left click
is reported as itself, no left click mapped onto a button that is held, no press of a button
that a left click stands for. -/
structure NoOverlap (rd : List InputEvent) (td : TrackedDevice F D) (i : TouchInput F) : Prop where
  tap : i.te.ev.Releases KeyCode.btnTouch → td.isTap i.te.now i.cfgTap i.dwtActive = true →
    td.activeClickButton ≠ some KeyCode.btnLeft
  click : i.te.ev.Presses KeyCode.btnLeft →
    ¬ ButtonDown (td.mapClick KeyCode.btnLeft i.te.ev.value).2 rd
  press : ∀ code, i.te.ev.Presses code → code ≠ KeyCode.btnLeft →
    td.activeClickButton ≠ some code

instance (rd : List InputEvent) (td : TrackedDevice F D) (i : TouchInput F) :
    Decidable (NoOverlap rd td i) :=
  decidable_of_iff ((i.te.ev.Releases KeyCode.btnTouch →
      td.isTap i.te.now i.cfgTap i.dwtActive = true → td.activeClickButton ≠ some KeyCode.btnLeft) ∧
    (i.te.ev.Presses KeyCode.btnLeft →
      ¬ ButtonDown (td.mapClick KeyCode.btnLeft i.te.ev.value).2 rd) ∧
    (i.te.ev.Presses i.te.ev.code → i.te.ev.code ≠ KeyCode.btnLeft →
      td.activeClickButton ≠ some i.te.ev.code))
    ⟨fun h => ⟨h.1,h.2.1,fun _ hpress => hpress.1.2 ▸ h.2.2 ⟨⟨hpress.1.1,rfl⟩,hpress.2⟩⟩,
      fun h => ⟨h.tap,h.click,h.press i.te.ev.code⟩⟩

/-- What keeps a code reported as pressed: a left click that stands for it, or the button. -/
def Reported (rd : List InputEvent) (td : TrackedDevice F D) (code : ℕ) : Prop :=
  td.activeClickButton = some code ∨
    (code ∈ touchpadButtons ∧ code ≠ KeyCode.btnLeft ∧ ButtonDown code rd)

instance (rd : List InputEvent) (td : TrackedDevice F D) : DecidablePred (Reported rd td) :=
  fun _ => inferInstanceAs (Decidable (_ ∨ _))

/-- Each code is down in the queue exactly while one of its two holders keeps it down. -/
structure ClicksTracked (rd : List InputEvent) (out : List (LibinputEvent D))
    (td : TrackedDevice F D) : Prop where
  idle : td.activeClickButton = none → ¬ ButtonDown KeyCode.btnLeft rd
  clicking : ∀ mapped, td.activeClickButton = some mapped → mapped ∈ touchpadButtons ∧
    ButtonDown KeyCode.btnLeft rd ∧ (mapped ≠ KeyCode.btnLeft → ¬ ButtonDown mapped rd)
  reported : ∀ code, level false (buttonStates code out) = some (decide (Reported rd td code))

namespace ClicksTracked
variable {rd : List InputEvent} {out : List (LibinputEvent D)} {td : TrackedDevice F D}
  {i : TouchInput F} {r : TrackedDevice F D × List (LibinputEvent D)}

theorem alternates (h : ClicksTracked rd out td) (code : ℕ) :
    Alternates (buttonStates code out) := .of_level (h.reported code)

theorem level_append (h : ClicksTracked rd out td) (code : ℕ) (es : List (LibinputEvent D)) :
    level false (buttonStates code (out ++ es)) =
      level (decide (Reported rd td code)) (buttonStates code es) := by
  rw [buttonStates_append,level_append_of (h.reported code)]

/-- No physical button changes, and no click. -/
theorem step_same (h : ClicksTracked rd out td)
    (hactive : r.1.activeClickButton = td.activeClickButton)
    (hev : ∀ code ∈ touchpadButtons, ¬ i.te.ev.KeyWith code)
    (hout : ∀ code, level (decide (Reported rd td code)) (buttonStates code r.2) =
      some (decide (Reported rd td code))) : ClicksTracked (rd ++ [i.te.ev]) (out ++ r.2) r.1 := by
  have hdown : ∀ code ∈ touchpadButtons,
      (ButtonDown code (rd ++ [i.te.ev]) ↔ ButtonDown code rd) :=
    fun code hcode => buttonDown_append_of_not (hev code hcode)
  have hleft := hdown KeyCode.btnLeft (by decide)
  refine ⟨fun hnone => ?_,fun mapped hmapped => ?_,fun code => ?_⟩
  · rw [hleft]
    exact h.idle (hactive ▸ hnone)
  · obtain ⟨hbutton,hclick,hfree⟩ := h.clicking mapped (hactive ▸ hmapped)
    exact ⟨hbutton,hleft.mpr hclick,fun hne => (hdown mapped hbutton).not.mpr (hfree hne)⟩
  · have hsame : Reported (rd ++ [i.te.ev]) r.1 code ↔ Reported rd td code := by
      unfold Reported
      rw [hactive]
      exact or_congr_right (and_congr_right fun hcode => by rw [hdown code hcode])
    rw [h.level_append,hout code]
    simp only [hsame]

/-- A left click is pressed. -/
theorem leftPress (h : ClicksTracked rd out td) (hvalid : PhysicalAlternates (rd ++ [i.te.ev]))
    (hev : i.te.ev.Presses KeyCode.btnLeft) {mapped : ℕ} (hbutton : mapped ∈ touchpadButtons)
    (hfree : ¬ ButtonDown mapped rd) (hactive : r.1.activeClickButton = some mapped)
    (hout : ∀ code, buttonStates code r.2 =
      if code = mapped then [asU32 i.te.ev.value] else []) :
    ClicksTracked (rd ++ [i.te.ev]) (out ++ r.2) r.1 := by
  obtain ⟨hup,hvalue,hdown⟩ := (hvalid.next (by decide) hev.1).resolve_right
    fun hrel => hev.2 hrel.2.1
  have hnone : td.activeClickButton = none :=
    Option.eq_none_iff_forall_ne_some.mpr fun m hm => hup (h.clicking m hm).2.1
  have hother : ∀ code, code ≠ KeyCode.btnLeft →
      (ButtonDown code (rd ++ [i.te.ev]) ↔ ButtonDown code rd) :=
    fun code hne => buttonDown_append_of_not fun hkey => hne (hkey.2.symm.trans hev.1.2)
  refine ⟨fun hidle => ?_,fun m hm => ?_,fun code => ?_⟩
  · rw [hactive] at hidle
    cases hidle
  · obtain rfl := Option.some.inj (hactive.symm.trans hm)
    exact ⟨hbutton,hdown,fun hne => (hother _ hne).not.mpr hfree⟩
  · rw [h.level_append,hout code]
    by_cases hcode : code = mapped
    · subst hcode
      have hbefore : ¬ Reported rd td code := by simp [Reported,hnone,hfree]
      have hafter : Reported (rd ++ [i.te.ev]) r.1 code := .inl hactive
      have hone : asU32 i.te.ev.value = 1 := by rw [hvalue]; rfl
      simp [hbefore,hafter,hone]
    · have hsame : Reported (rd ++ [i.te.ev]) r.1 code ↔ Reported rd td code := by
        simp only [Reported,hactive,hnone,Option.some.injEq,Ne.symm hcode,reduceCtorEq,false_or]
        exact and_congr_right fun _ => and_congr_right fun hne => hother code hne
      simp [hcode,hsame]

/-- A left click is released, under the code of its press. -/
theorem leftRelease (h : ClicksTracked rd out td)
    (hvalid : PhysicalAlternates (rd ++ [i.te.ev])) (hev : i.te.ev.Releases KeyCode.btnLeft)
    (hactive : r.1.activeClickButton = none)
    (hout : ∀ code, buttonStates code r.2 =
      if code = td.activeClickButton.getD KeyCode.btnLeft ∧ code ∈ touchpadButtons then [0] else []) :
    ClicksTracked (rd ++ [i.te.ev]) (out ++ r.2) r.1 := by
  obtain ⟨hdown,-,hup⟩ := (hvalid.next (by decide) hev.1).resolve_left fun hpress => by
    have := hpress.2.1
    rw [hev.2] at this
    cases this
  obtain ⟨mapped,hmapped⟩ := Option.ne_none_iff_exists'.mp fun hnone => h.idle hnone hdown
  obtain ⟨hbutton,-,hfree⟩ := h.clicking mapped hmapped
  have hother : ∀ code, code ≠ KeyCode.btnLeft →
      (ButtonDown code (rd ++ [i.te.ev]) ↔ ButtonDown code rd) :=
    fun code hne => buttonDown_append_of_not fun hkey => hne (hkey.2.symm.trans hev.1.2)
  refine ⟨fun _ => hup,fun m hm => ?_,fun code => ?_⟩
  · rw [hactive] at hm
    cases hm
  · rw [h.level_append,hout code,hmapped,Option.getD_some]
    by_cases hcode : code = mapped
    · subst hcode
      have hbefore : Reported rd td code := .inl hmapped
      have hafter : ¬ Reported (rd ++ [i.te.ev]) r.1 code := by
        rintro (hm | ⟨-,hne,hheld⟩)
        · rw [hactive] at hm
          cases hm
        · exact hfree hne ((hother code hne).mp hheld)
      simp [hbefore,hafter,hbutton]
    · have hsame : Reported (rd ++ [i.te.ev]) r.1 code ↔ Reported rd td code := by
        simp only [Reported,hactive,hmapped,Option.some.injEq,Ne.symm hcode,reduceCtorEq,false_or]
        exact and_congr_right fun _ => and_congr_right fun hne => hother code hne
      simp [hcode,hsame]

/-- Another button is pressed or released, while no left click stands for it. -/
theorem other (h : ClicksTracked rd out td) (hvalid : PhysicalAlternates (rd ++ [i.te.ev]))
    {code : ℕ} (hev : i.te.ev.KeyWith code) (hcode : code ∈ touchpadButtons)
    (hleft : code ≠ KeyCode.btnLeft) (hfree : td.activeClickButton ≠ some code)
    (hactive : r.1.activeClickButton = td.activeClickButton)
    (hout : ∀ code', buttonStates code' r.2 =
      if code' = code then [asU32 i.te.ev.value] else []) :
    ClicksTracked (rd ++ [i.te.ev]) (out ++ r.2) r.1 := by
  have hother : ∀ code', code' ≠ code →
      (ButtonDown code' (rd ++ [i.te.ev]) ↔ ButtonDown code' rd) :=
    fun code' hne => buttonDown_append_of_not fun hkey => hne (hkey.2.symm.trans hev.2)
  refine ⟨fun hnone => ?_,fun m hm => ?_,fun code' => ?_⟩
  · rw [hother _ (Ne.symm hleft)]
    exact h.idle (hactive ▸ hnone)
  · have hm' : td.activeClickButton = some m := hactive ▸ hm
    obtain ⟨hbutton,hclick,hup⟩ := h.clicking m hm'
    have hne : m ≠ code := by
      rintro rfl
      exact hfree hm'
    exact ⟨hbutton,(hother _ (Ne.symm hleft)).mpr hclick,fun hl => (hother m hne).not.mpr (hup hl)⟩
  · rw [h.level_append,hout code']
    by_cases hcode' : code' = code
    · subst hcode'
      have hreported : ∀ rd' (td' : TrackedDevice F D),
          td'.activeClickButton = td.activeClickButton →
          (Reported rd' td' code' ↔ ButtonDown code' rd') := by
        intro rd' td' hsame
        simp [Reported,hsame,hfree,hcode,hleft]
      simp only [hreported rd td rfl,hreported _ _ hactive]
      rcases hvalid.next hcode hev with ⟨hup,hvalue,hdown⟩ | ⟨hdown,hvalue,hup⟩
      · have hone : asU32 i.te.ev.value = 1 := by rw [hvalue]; rfl
        simp [hup,hdown,hone]
      · have hzero : asU32 i.te.ev.value = 0 := by rw [hvalue]; rfl
        simp [hup,hdown,hzero]
    · have hsame : Reported (rd ++ [i.te.ev]) r.1 code' ↔ Reported rd td code' := by
        simp only [Reported,hactive,hother code' hcode']
      simp [hcode',hsame]

/-- Every event that overlaps with no holder keeps the codes tracked. -/
theorem effect (h : ClicksTracked rd out td) (hvalid : PhysicalAlternates (rd ++ [i.te.ev]))
    (hsafe : NoOverlap rd td i) (heff : ClickEffect td i r) :
    ClicksTracked (rd ++ [i.te.ev]) (out ++ r.2) r.1 := by
  cases heff with
  | tap hev htap hactive hout =>
    refine h.step_same hactive (fun code hcode hkey => ?_) fun code => ?_
    · rw [← hkey.2,hev.1.2] at hcode
      exact absurd hcode (by decide)
    · rw [hout code]
      by_cases hcode : code = KeyCode.btnLeft
      · have hup : ¬ Reported rd td code := by
          rintro (hm | ⟨-,hne,-⟩)
          · exact hsafe.tap hev htap (hcode ▸ hm)
          · exact hne hcode
        simp [hcode ▸ hup,hcode,level]
      · simp [hcode]
  | leftPress hev mapped hmapped hbutton hactive hout =>
    exact h.leftPress hvalid hev hbutton (hmapped ▸ hsafe.click hev) hactive hout
  | leftRelease hev hactive hout => exact h.leftRelease hvalid hev hactive hout
  | other code hev hcode hleft hactive hout =>
    refine h.other hvalid hev hcode hleft (fun hm => ?_) hactive hout
    rcases hvalid.next hcode hev with ⟨_,hvalue,_⟩ | ⟨hdown,_,_⟩
    · exact hsafe.press code ⟨hev,by simp [hvalue]⟩ hleft hm
    · exact (h.clicking code hm).2.2 hleft hdown
  | quiet hev htap hactive hout =>
    refine h.step_same hactive (fun code hcode hkey => hev code hkey hcode) fun code => ?_
    rw [hout code,level_nil]

/-- The first event that overlaps with a holder reports a second press. -/
theorem fault (h : ClicksTracked rd out td) (hvalid : PhysicalAlternates (rd ++ [i.te.ev]))
    (hfault : ¬ NoOverlap rd td i) (heff : ClickEffect td i r) :
    ∃ code, ¬ Alternates (buttonStates code (out ++ r.2)) := by
  have hbreak : ∀ code, Reported rd td code → ∀ rest, buttonStates code r.2 = 1 :: rest →
      ∃ code, ¬ Alternates (buttonStates code (out ++ r.2)) := by
    intro code hrep rest hstates
    refine ⟨code,?_⟩
    rw [buttonStates_append]
    exact not_alternates_append (h.reported code) (by simp [hrep,hstates,level])
  cases heff with
  | tap hev htap hactive hout =>
    by_cases hleft : td.activeClickButton = some KeyCode.btnLeft
    · exact hbreak KeyCode.btnLeft (.inl hleft) [0] (by rw [hout,if_pos rfl])
    · exact absurd ⟨fun _ _ => hleft,fun hpress => absurd hev.2 hpress.2,
        fun _ hpress => absurd hev.2 hpress.2⟩ hfault
  | leftPress hev mapped hmapped hbutton hactive hout =>
    obtain ⟨hup,hvalue,-⟩ := (hvalid.next (by decide) hev.1).resolve_right
      fun hrel => hev.2 hrel.2.1
    by_cases hheld : ButtonDown mapped rd
    · have hne : mapped ≠ KeyCode.btnLeft := by
        rintro rfl
        exact hup hheld
      apply hbreak mapped (.inr ⟨hbutton,hne,hheld⟩) []
      rw [hout,if_pos rfl,hvalue]
      rfl
    · exact absurd ⟨fun hrel => absurd hrel.2 hev.2,fun _ => hmapped ▸ hheld,
        fun code hpress hne => absurd (hpress.1.2.symm.trans hev.1.2) hne⟩ hfault
  | leftRelease hev hactive hout =>
    refine absurd ⟨fun hrel => ?_,fun hpress => absurd hev.2 hpress.2,
      fun _ hpress => absurd hev.2 hpress.2⟩ hfault
    exact absurd (hrel.1.2.symm.trans hev.1.2) (by decide)
  | other code hev hcode hleft hactive hout =>
    by_cases hheld : td.activeClickButton = some code ∧ i.te.ev.value ≠ 0
    · obtain ⟨-,hvalue,-⟩ := (hvalid.next hcode hev).resolve_right fun hrel => hheld.2 hrel.2.1
      apply hbreak code (.inl hheld.1) []
      rw [hout,if_pos rfl,hvalue]
      rfl
    · refine absurd ⟨fun hrel => ?_,fun hpress => ?_,fun code' hpress hne hm => ?_⟩ hfault
      · rw [← hev.2,hrel.1.2] at hcode
        exact absurd hcode (by decide)
      · exact absurd (hev.2.symm.trans hpress.1.2) hleft
      · obtain rfl : code' = code := hpress.1.2.symm.trans hev.2
        exact hheld ⟨hm,hpress.2⟩
  | quiet hev htap hactive hout =>
    refine absurd ⟨fun hrel htapped => ?_,fun hpress => ?_,fun code hpress _ hm => ?_⟩ hfault
    · simp [htap hrel] at htapped
    · exact absurd (by decide) (hev _ hpress.1)
    · exact hev code hpress.1 (h.clicking code hm).1

end ClicksTracked

variable [F32 F] [F64 D] [FloatCast F D]

/-- Over any stream in which the physical buttons alternate, the button events of each code
alternate exactly when no event overlaps with what holds its code down. -/
theorem buttons_alternate_iff (device : EvdevDevice) (path : PathBuf) (d : DevicePtr)
    (inputs : List (TouchInput F)) (hphysical : PhysicalAlternates (inputs.map (·.te.ev))) :
    (∀ code, Alternates (buttonStates code
        (run TrackedDevice.touchStep (.new device path d : TrackedDevice F D) inputs).2)) ↔
      AtEach (fun before i => NoOverlap (before.map (·.te.ev))
        (run TrackedDevice.touchStep (.new device path d : TrackedDevice F D) before).1 i) inputs := by
  have hline : FaultLine (TrackedDevice.touchStep (F := F) (D := D))
      (fun is => PhysicalAlternates (is.map (·.te.ev)))
      (fun out => ∀ code, Alternates (buttonStates code out))
      (fun is td i => NoOverlap (is.map (·.te.ev)) td i)
      (fun is out td => ClicksTracked (is.map (·.te.ev)) out td) := by
    refine ⟨fun is js h => ?_,fun out o h code => ?_,fun is out td h => h.alternates,
      fun is out td i hvalid h hsafe => ?_,fun is out td i hvalid h hfault hgood => ?_⟩
    · rw [List.map_append] at h
      exact h.of_append
    · have := h code
      rw [buttonStates_append] at this
      exact this.of_append
    · rw [List.map_append] at hvalid ⊢
      exact h.effect hvalid hsafe (td.touchStep_clickEffect i)
    · rw [List.map_append] at hvalid
      obtain ⟨code,hbad⟩ := h.fault hvalid hfault (td.touchStep_clickEffect i)
      exact hbad (hgood code)
  refine hline.run_iff ⟨fun _ => ?_,fun m hm => ?_,fun code => ?_⟩ inputs hphysical
  · simp [ButtonDown,keyValues]
  · cases hm
  · simp [Reported,TrackedDevice.new,ButtonDown,keyValues]

/-- A tap while the right button is held. -/
theorem right_click_and_tap_alternate :
    let inputs : List (TouchInput ℚ) :=
      [⟨⟨⟨1,.key,KeyCode.btnRight,1⟩,0⟩,true,true,1,false⟩,⟨⟨⟨2,.key,KeyCode.btnTouch,1⟩,0⟩,true,true,1,false⟩,
        ⟨⟨⟨3,.key,KeyCode.btnTouch,0⟩,1⟩,true,true,1,false⟩]
    ∀ code, Alternates (buttonStates code (run TrackedDevice.touchStep
      (.new plainTouchpad "/dev/input/event5" 0 : TrackedDevice ℚ ℚ) inputs).2) :=
  (buttons_alternate_iff _ _ _ _ (by decide +kernel)).mpr
    (atEach_cons.mpr ⟨by decide +kernel,atEach_cons.mpr ⟨by decide +kernel,
      atEach_cons.mpr ⟨by decide +kernel,atEach_nil⟩⟩⟩)

/-- A tap while the left button is held: two presses in a row. -/
theorem left_click_and_tap_overlap :
    let inputs : List (TouchInput ℚ) :=
      [⟨⟨⟨1,.key,KeyCode.btnLeft,1⟩,0⟩,true,true,1,false⟩,⟨⟨⟨2,.key,KeyCode.btnTouch,1⟩,0⟩,true,true,1,false⟩,
        ⟨⟨⟨3,.key,KeyCode.btnTouch,0⟩,1⟩,true,true,1,false⟩]
    PhysicalAlternates (inputs.map (·.te.ev)) ∧
      ¬ ∀ code, Alternates (buttonStates code (run TrackedDevice.touchStep
        (.new plainTouchpad "/dev/input/event5" 0 : TrackedDevice ℚ ℚ) inputs).2) := by
  refine ⟨by decide +kernel,fun h => ?_⟩
  exact absurd (h KeyCode.btnLeft) (by decide +kernel)

end Alternation

end LibinputRs
