import LibinputRs.Automata.Spans
import LibinputRs.Daemon.Reliable
import LibinputRs.Library.Buttons
import LibinputRs.Pipeline.Samples

/-! Physical left clicks in both programs. A press is reported under the button that its finger
count stands for and remembered under that button, whatever the fingers do until the release. -/
namespace LibinputRs
open Automata

variable {F D : Type}

/-- The button that a left click stands for with so many fingers. -/
def clickCode (fingers : ℕ) : ℕ :=
  if fingers = 2 then KeyCode.btnRight
  else if 3 ≤ fingers then KeyCode.btnMiddle
  else KeyCode.btnLeft

theorem clickCode_mem (fingers : ℕ) : isTouchpadButton (clickCode fingers) = true := by
  unfold clickCode
  split_ifs <;> rfl

/-- The presses and releases of the left button as ones and zeros; a press has any value but
zero. -/
def leftLevels (rd : List InputEvent) : List ℕ :=
  (keyValues KeyCode.btnLeft rd).map fun v => if v = 0 then 0 else 1

/-- The left button is pressed and released in turn. -/
def LeftInTurn (rd : List InputEvent) : Prop := Alternates (leftLevels rd)

instance (rd : List InputEvent) : Decidable (LeftInTurn rd) :=
  inferInstanceAs (Decidable (Alternates _))

theorem leftLevels_append (rd rd' : List InputEvent) :
    leftLevels (rd ++ rd') = leftLevels rd ++ leftLevels rd' := by
  rw [leftLevels,keyValues_append,List.map_append]
  rfl

theorem leftLevels_release {e : InputEvent} (he : e.Releases KeyCode.btnLeft) :
    leftLevels [e] = [0] := by
  simp [leftLevels,keyValues,he.1,he.2]

theorem leftLevels_other {e : InputEvent} (he : ¬ e.KeyWith KeyCode.btnLeft) :
    leftLevels [e] = [] := by
  simp [leftLevels,keyValues,he]

section Streams
variable {σ ι ω : Type*}

/-- Every release of the left button is reported under the code of the press before it, which is
the one that the fingers counted at the press stand for. -/
def ClicksPaired (step : σ → ι → σ × List ω) (ev : ι → InputEvent) (fingers : σ → ℕ)
    (buttons : List ω → List (ℕ × ℕ)) (s : σ) (inputs : List ι) : Prop :=
  let state := fun before => (run step s before).1
  ∀ before release back, inputs = before ++ release :: back →
    (ev release).Releases KeyCode.btnLeft → ∃ front press mid, before = front ++ press :: mid ∧
      (ev press).Presses KeyCode.btnLeft ∧ (∀ j ∈ mid, ¬ (ev j).KeyWith KeyCode.btnLeft) ∧
      buttons (step (state front) press).2 =
        [(clickCode (fingers (state front)),asU32 (ev press).value)] ∧
      buttons (step (state before) release).2 = [(clickCode (fingers (state front)),0)]

/-- The button that is down was pressed, and nothing has been heard of it since. -/
theorem exists_press {ev : ι → InputEvent} {is : List ι}
    (h : level false (leftLevels (is.map ev)) = some true) :
    ∃ front press mid, is = front ++ press :: mid ∧ (ev press).Presses KeyCode.btnLeft ∧
      ∀ j ∈ mid, ¬ (ev j).KeyWith KeyCode.btnLeft := by
  induction is using List.reverseRecOn with
  | nil => simp [leftLevels,keyValues] at h
  | append_singleton is i ih =>
    rw [List.map_append,List.map_singleton,leftLevels_append] at h
    by_cases hi : (ev i).KeyWith KeyCode.btnLeft
    · refine ⟨is,i,[],rfl,⟨hi,fun hvalue => ?_⟩,List.forall_mem_nil _⟩
      rw [leftLevels_release ⟨hi,hvalue⟩,level_append,Option.bind_eq_some_iff] at h
      obtain ⟨high,_,hlast⟩ := h
      rw [level_singleton] at hlast
      rcases toggle_cases hlast with ⟨_,hone,_⟩ | ⟨_,_,hlow⟩
      · cases hone
      · cases hlow
    · rw [leftLevels_other hi,List.append_nil] at h
      obtain ⟨front,press,mid,rfl,hpress,hmid⟩ := ih h
      refine ⟨front,press,mid ++ [i],by simp,hpress,?_⟩
      rw [List.forall_mem_append]
      exact ⟨hmid,List.forall_mem_singleton.mpr hi⟩

/-- Before a release the button is down. -/
theorem LeftInTurn.down {rd rd' : List InputEvent} {e : InputEvent}
    (h : LeftInTurn (rd ++ e :: rd')) (he : e.Releases KeyCode.btnLeft) :
    level false (leftLevels rd) = some true := by
  unfold LeftInTurn at h
  rw [List.append_cons,leftLevels_append,leftLevels_append,leftLevels_release he] at h
  obtain ⟨high,hlevel⟩ := h.of_append.of_append.exists_level
  obtain ⟨high',hnext⟩ := h.of_append.exists_level
  rw [level_append_of hlevel,level_singleton] at hnext
  rcases toggle_cases hnext with ⟨_,hone,_⟩ | ⟨rfl,_,_⟩
  · cases hone
  · exact hlevel

/-- The remembered button pairs every release with its press. -/
theorem clicksPaired_of_marks {step : σ → ι → σ × List ω} {I : σ → Prop} {ev : ι → InputEvent}
    {fingers : σ → ℕ} {active : σ → Option ℕ} {buttons : List ω → List (ℕ × ℕ)}
    (h : SpanMarks step I (fun i => (ev i).Presses KeyCode.btnLeft)
      (fun i => (ev i).Releases KeyCode.btnLeft) (fun _ _ => False)
      (fun s _ => clickCode (fingers s)) active (fun _ => True))
    (hpress : ∀ s i, I s → (ev i).Presses KeyCode.btnLeft →
      buttons (step s i).2 = [(clickCode (fingers s),asU32 (ev i).value)])
    (hrelease : ∀ s i n, I s → (ev i).Releases KeyCode.btnLeft → active s = some (clickCode n) →
      buttons (step s i).2 = [(clickCode n,0)])
    {s : σ} (hI : I s) {inputs : List ι} (hturn : LeftInTurn (inputs.map ev)) :
    ClicksPaired step ev fingers buttons s inputs := by
  intro before release back heq hrel
  rw [heq,List.map_append,List.map_cons] at hturn
  obtain ⟨front,press,mid,rfl,hdown,hmid⟩ := exists_press (hturn.down hrel)
  have hkeep : ∀ is, I (run step s is).1 := fun is => run_invariant step I (fun t j _ => h.keep t j) hI
  have hactive : active (run step s (front ++ press :: mid)).1 =
      some (clickCode (fingers (run step s front).1)) :=
    (h.run_opened hI _ hdown fun j hj => ⟨fun hp => hmid j hj hp.1,fun hr => hmid j hj hr.1⟩).1
  exact ⟨front,press,mid,rfl,hdown,hmid,hpress _ press (hkeep front) hdown,
    hrelease _ release _ (hkeep _) hrel hactive⟩

end Streams

section Library
variable [F64 D] [F32 F] [FloatCast F D]

omit [F64 D] [F32 F] [FloatCast F D] in
theorem TrackedDevice.mapClick_press {value : ℤ} (hvalue : value ≠ 0) (td : TrackedDevice F D) :
    td.mapClick KeyCode.btnLeft value = ({ td with
      activeClickButton := some (clickCode td.touchFingers) },clickCode td.touchFingers) := by
  unfold mapClick
  rw [if_pos rfl,if_pos hvalue]
  rfl

/-- An event of the left button is a physical click. -/
theorem TrackedDevice.touchStep_left (td : TrackedDevice F D) (i : TouchInput F)
    (hev : i.te.ev.KeyWith KeyCode.btnLeft) : td.touchStep i =
      (if i.dwtActive then { td with tapEmitted := true } else td).physicalClick i.te := by
  rw [td.touchStep_key i hev.1,processAbsoluteKey,hev.2,if_neg (by decide),if_neg (by decide),
    if_neg (by decide),if_neg (by decide)]

theorem TrackedDevice.touchStep_clickMarks : SpanMarks (touchStep (F := F) (D := D))
    (fun _ => True) (fun i => i.te.ev.Presses KeyCode.btnLeft)
    (fun i => i.te.ev.Releases KeyCode.btnLeft) (fun _ _ => False)
    (fun td _ => clickCode td.touchFingers) activeClickButton (fun _ => True) := by
  refine ⟨⟨fun _ _ _ => trivial,?_,?_⟩,?_⟩
  · intro td i _ hev
    rw [td.touchStep_left i hev.1,physicalClick,hev.1.2,mapClick_press hev.2]
    cases i.dwtActive <;> exact ⟨rfl,trivial⟩
  · intro td i _ hpress hrelease
    refine ⟨?_,iff_of_true trivial ⟨trivial,not_false⟩⟩
    cases td.touchStep_clickEffect i with
    | tap hev htap hactive hout => exact hactive
    | leftPress hev mapped hmapped hbutton hactive hout => exact absurd hev hpress
    | leftRelease hev hactive hout => exact absurd hev hrelease
    | other code hev hcode hleft hactive hout => exact hactive
    | quiet hev htap hactive hout => exact hactive
  · intro td i _ hev
    rw [td.touchStep_left i hev.1,physicalClick]
    rcases mapClick_cases i.te.ev.code i.te.ev.value
      (if i.dwtActive then { td with tapEmitted := true } else td) with
      ⟨_,hvalue,_⟩ | ⟨_,_,h⟩ | ⟨hcode,_⟩
    · exact absurd hev.2 hvalue
    · rw [h]
    · exact absurd hev.1.2 hcode

theorem TrackedDevice.touchStep_press (td : TrackedDevice F D) (i : TouchInput F)
    (hev : i.te.ev.Presses KeyCode.btnLeft) : libraryButtons (td.touchStep i).2 =
      [(clickCode td.touchFingers,asU32 i.te.ev.value)] := by
  rw [td.touchStep_left i hev.1,physicalClick,hev.1.2,mapClick_press hev.2]
  dsimp only
  rw [if_pos (clickCode_mem _)]
  cases i.dwtActive <;> rfl

theorem TrackedDevice.touchStep_release (td : TrackedDevice F D) (i : TouchInput F) {n : ℕ}
    (hev : i.te.ev.Releases KeyCode.btnLeft) (hactive : td.activeClickButton = some (clickCode n)) :
    libraryButtons (td.touchStep i).2 = [(clickCode n,0)] := by
  have hguard : (if i.dwtActive then { td with tapEmitted := true } else td).activeClickButton =
      some (clickCode n) := by
    cases i.dwtActive <;> exact hactive
  rw [td.touchStep_left i hev.1,physicalClick,hev.1.2,hev.2]
  unfold mapClick
  rw [if_pos rfl,if_neg (not_not.mpr rfl),hguard]
  dsimp only
  rw [if_pos (clickCode_mem n)]
  cases i.dwtActive <;> rfl

end Library

section Daemon

namespace DeviceWrapper

/-- What clicks depend on: the fingers counted and the button being clicked. -/
def clickState (w : DeviceWrapper F) : ℕ × Option ℕ := (w.touchFingers,w.activeClickButton)

/-- The states of a touchpad's wrapper: the daemon counts at most three fingers. -/
def Counting (w : DeviceWrapper F) : Prop := w.isAbsolute = true ∧ w.touchFingers ≤ 3

theorem trackKey_clickState (te : TimedEvent) (w : DeviceWrapper F) :
    (w.trackKey te).clickState = w.clickState :=
  trackKey_frame clickState (fun _ _ _ _ => rfl) te w

theorem processTouchKey_clickState (te : TimedEvent) (cfg : InputConfig F) (dwt : Bool)
    (w : DeviceWrapper F) (hfew : w.touchFingers ≤ 3) :
    (reliably (processTouchKey te cfg dwt) w).1.touchFingers ≤ 3 ∧
      (reliably (processTouchKey te cfg dwt) w).1.activeClickButton = w.activeClickButton := by
  rw [reliably_processTouchKey,reliably_touchUp]
  split_ifs <;> simp [touchDown,resetTouch,hfew]

theorem processAxis_clickState (te : TimedEvent) (w : DeviceWrapper F) :
    (w.processAxis te).clickState = w.clickState :=
  processAxis_frame clickState (fun _ _ _ _ _ _ => rfl) te w

variable [F32 F]

theorem processSyn_clickState (te : TimedEvent) (cfg : InputConfig F) (dwt : Bool)
    (w : DeviceWrapper F) : (reliably (processSyn te cfg dwt) w).1.clickState = w.clickState := by
  by_cases hcode : te.ev.code = 0
  · rw [reliably_processSyn te cfg dwt w hcode]
    dsimp only
    split_ifs
    · rfl
    · rw [reliably_movementFrame]
      dsimp only
      split_ifs
      · rw [reliably_motionFrame]
        rfl
      · rw [reliably_scrollFrame]
        rfl
      · rfl
    · rfl
  · rw [reliably_processSyn_other te cfg dwt w hcode]

omit [F32 F] in
theorem mapClick_press {value : ℤ} (hvalue : value ≠ 0) {w : DeviceWrapper F}
    (hfew : w.touchFingers ≤ 3) : w.mapClick KeyCode.btnLeft value = ({ w with
      activeClickButton := some (clickCode w.touchFingers) },clickCode w.touchFingers) := by
  have hthree : w.touchFingers = 3 ↔ 3 ≤ w.touchFingers := by omega
  unfold mapClick clickCode
  rw [if_pos rfl,if_pos hvalue]
  simp only [hthree]

omit [F32 F] in
theorem mapClick_other {code : ℕ} (hcode : code ≠ KeyCode.btnLeft) (value : ℤ)
    (w : DeviceWrapper F) : w.mapClick code value = (w,code) := by
  unfold mapClick
  rw [if_neg hcode]

omit [F32 F] in
theorem found_clickState (te : TimedEvent) (dwt : Bool) (w : DeviceWrapper F) :
    ((w.trackKey te).guarded dwt).clickState = w.clickState :=
  found_frame clickState (fun _ _ _ _ _ => rfl) te dwt w

/-- An event of the left button comes down to the forwarding of buttons. -/
theorem eventStep_left (cfg : InputConfig F) {w : DeviceWrapper F} (i : WrapperInput)
    (habs : w.isAbsolute = true) (hev : i.te.ev.KeyWith KeyCode.btnLeft) :
    ∃ w' : DeviceWrapper F, w'.clickState = w.clickState ∧
      w.eventStep cfg i = reliably (forwardButton i.te) w' := by
  have hskip : processTouchKey i.te cfg (dwtActive cfg i.typing i.te.now) = .skip := by
    unfold processTouchKey
    rw [hev.2]
    rfl
  refine ⟨(w.trackKey i.te).guarded (dwtActive cfg i.typing i.te.now),
    found_clickState i.te _ w,?_⟩
  rw [eventStep,reliably_processEvent_absolute cfg _ _ habs,
    reliably_processAbsolute_key _ _ _ _ hev.1,hskip]
  rfl

/-- The other events leave the button being clicked alone, and no event counts a fourth finger. -/
theorem eventStep_clickState (cfg : InputConfig F) {w : DeviceWrapper F} (i : WrapperInput)
    (hw : w.Counting) : (w.eventStep cfg i).1.touchFingers ≤ 3 ∧
      (¬ i.te.ev.KeyWith KeyCode.btnLeft →
        (w.eventStep cfg i).1.activeClickButton = w.activeClickButton) := by
  have hsame : ∀ w' : DeviceWrapper F, w'.clickState = w.clickState → w'.touchFingers ≤ 3 ∧
      w'.activeClickButton = w.activeClickButton := by
    intro w' h
    simp only [clickState,Prod.mk.injEq] at h
    exact ⟨h.1 ▸ hw.2,h.2⟩
  have hfound := found_clickState i.te (dwtActive cfg i.typing i.te.now) w
  rw [eventStep,reliably_processEvent_absolute cfg _ _ hw.1]
  cases htype : i.te.ev.eventType with
  | key =>
    rw [reliably_processAbsolute_key _ _ _ _ htype,
      reliably_andThen (processTouchKey_completes _ _ _),reliably_forwardButton]
    obtain ⟨hfew,hactive⟩ := processTouchKey_clickState i.te cfg
      (dwtActive cfg i.typing i.te.now) _ (hsame _ hfound).1
    by_cases hleft : i.te.ev.code = KeyCode.btnLeft
    · refine ⟨?_,fun hev => absurd ⟨htype,hleft⟩ hev⟩
      dsimp only
      unfold mapClick
      split_ifs <;> exact hfew
    · rw [mapClick_other hleft]
      exact ⟨hfew,fun _ => hactive.trans (hsame _ hfound).2⟩
  | synchronization =>
    rw [reliably_processAbsolute_syn _ _ _ _ htype]
    have h := hsame _ ((processSyn_clickState i.te cfg (dwtActive cfg i.typing i.te.now) _).trans
      hfound)
    exact ⟨h.1,fun _ => h.2⟩
  | absolute =>
    rw [reliably_processAbsolute_axis _ _ _ _ htype]
    have h := hsame _ ((processAxis_clickState i.te _).trans hfound)
    exact ⟨h.1,fun _ => h.2⟩
  | relative =>
    rw [reliably_processAbsolute_other _ _ _ _ (by simp [htype]) (by simp [htype]) (by simp [htype])]
    exact ⟨(hsame _ hfound).1,fun _ => (hsame _ hfound).2⟩
  | other n =>
    rw [reliably_processAbsolute_other _ _ _ _ (by simp [htype]) (by simp [htype]) (by simp [htype])]
    exact ⟨(hsame _ hfound).1,fun _ => (hsame _ hfound).2⟩

theorem eventStep_clickMarks (cfg : InputConfig F) : SpanMarks (eventStep cfg) Counting
    (fun i => i.te.ev.Presses KeyCode.btnLeft) (fun i => i.te.ev.Releases KeyCode.btnLeft)
    (fun _ _ => False) (fun w _ => clickCode w.touchFingers) activeClickButton (fun _ => True) := by
  refine ⟨⟨fun w i hw => ?_,?_,?_⟩,?_⟩
  · exact ⟨(eventStep_isAbsolute cfg w i).trans hw.1,(eventStep_clickState cfg i hw).1⟩
  · intro w i hw hev
    obtain ⟨w',hstate,hstep⟩ := eventStep_left cfg i hw.1 hev.1
    simp only [clickState,Prod.mk.injEq] at hstate
    rw [hstep,reliably_forwardButton,hev.1.2,mapClick_press hev.2 (hstate.1 ▸ hw.2),hstate.1]
    exact ⟨rfl,trivial⟩
  · intro w i hw hpress hrelease
    refine ⟨(eventStep_clickState cfg i hw).2 fun hev => ?_,iff_of_true trivial ⟨trivial,not_false⟩⟩
    by_cases hvalue : i.te.ev.value = 0
    · exact hrelease ⟨hev,hvalue⟩
    · exact hpress ⟨hev,hvalue⟩
  · intro w i hw hev
    obtain ⟨w',_,hstep⟩ := eventStep_left cfg i hw.1 hev.1
    rw [hstep,reliably_forwardButton,hev.1.2,hev.2]
    rfl

theorem eventStep_press (cfg : InputConfig F) {w : DeviceWrapper F} (i : WrapperInput)
    (hw : w.Counting) (hev : i.te.ev.Presses KeyCode.btnLeft) :
    daemonButtons (w.eventStep cfg i).2 = [(clickCode w.touchFingers,asU32 i.te.ev.value)] := by
  obtain ⟨w',hstate,hstep⟩ := eventStep_left cfg i hw.1 hev.1
  simp only [clickState,Prod.mk.injEq] at hstate
  rw [hstep,reliably_forwardButton,hev.1.2,mapClick_press hev.2 (hstate.1 ▸ hw.2),hstate.1]
  dsimp only
  rw [if_pos (clickCode_mem _)]
  rfl

theorem eventStep_release (cfg : InputConfig F) {w : DeviceWrapper F} (i : WrapperInput) {n : ℕ}
    (hw : w.Counting) (hev : i.te.ev.Releases KeyCode.btnLeft)
    (hactive : w.activeClickButton = some (clickCode n)) :
    daemonButtons (w.eventStep cfg i).2 = [(clickCode n,0)] := by
  obtain ⟨w',hstate,hstep⟩ := eventStep_left cfg i hw.1 hev.1
  simp only [clickState,Prod.mk.injEq,hactive] at hstate
  rw [hstep,reliably_forwardButton,hev.1.2,hev.2]
  unfold mapClick
  rw [if_pos rfl,if_neg (not_not.mpr rfl),hstate.2]
  dsimp only [Option.getD_some]
  rw [if_pos (clickCode_mem n)]
  rfl

end DeviceWrapper

end Daemon

variable [F64 D] [F32 F] [FloatCast F D]

/-- In both programs every release of the left button is reported under the code of the press
before it, which is the one that the fingers counted at the press stand for. -/
theorem clicks_paired (device : EvdevDevice) (path : PathBuf) (d : DevicePtr)
    (inputs : List (TouchInput F)) (hinputs : LeftInTurn (inputs.map (·.te.ev)))
    (cfg : InputConfig F) (touchpad : AbsoluteDevice) (rawFd : RawFd) (grabbed : Bool)
    (events : List WrapperInput) (hevents : LeftInTurn (events.map (·.te.ev))) :
    ClicksPaired TrackedDevice.touchStep (·.te.ev) TrackedDevice.touchFingers libraryButtons
        (.new device path d : TrackedDevice F D) inputs ∧
      ClicksPaired (DeviceWrapper.eventStep cfg) (·.te.ev) DeviceWrapper.touchFingers daemonButtons
        (.new ⟨touchpad,rawFd,grabbed⟩ path) events := by
  constructor
  · exact clicksPaired_of_marks TrackedDevice.touchStep_clickMarks
      (fun td i _ => td.touchStep_press i) (fun td i _ _ => td.touchStep_release i) trivial hinputs
  · exact clicksPaired_of_marks (DeviceWrapper.eventStep_clickMarks cfg)
      (fun _ i => DeviceWrapper.eventStep_press cfg i)
      (fun _ i _ => DeviceWrapper.eventStep_release cfg i) ⟨touchpad.2,Nat.zero_le _⟩ hevents

/-- A click with two fingers that are lifted before the button is. -/
theorem two_finger_click_paired :
    let click : List InputEvent := [⟨1,.key,KeyCode.btnTouch,1⟩,⟨2,.key,KeyCode.btnToolDoubletap,1⟩,
      ⟨3,.key,KeyCode.btnLeft,1⟩,⟨4,.key,KeyCode.btnTouch,0⟩,⟨5,.key,KeyCode.btnLeft,0⟩]
    ClicksPaired TrackedDevice.touchStep (·.te.ev) TrackedDevice.touchFingers libraryButtons
        (.new plainTouchpad "/dev/input/event5" 0 : TrackedDevice ℚ ℚ)
        (click.map fun ev => ⟨⟨ev,0⟩,true,true,1,false⟩) ∧
      ClicksPaired (DeviceWrapper.eventStep (F := ℚ) .default) (·.te.ev) DeviceWrapper.touchFingers
        daemonButtons (.new ⟨plainTouchpad,5,true⟩ "/dev/input/event5")
        (click.map fun ev => ⟨⟨ev,0⟩,none⟩) :=
  clicks_paired plainTouchpad "/dev/input/event5" 0 _ (by decide) .default ⟨plainTouchpad,rfl⟩ 5
    true _ (by decide)

end LibinputRs
