import LibinputRs.Automata.Spans
import LibinputRs.Daemon.Outcomes
import LibinputRs.Library.TouchTaps

/-! Taps and physical clicks in one touch, in the library and in the daemon. What spoils a tap is a
movement or the typing window; a click under the finger is not looked at, so a quick touch with a
click in it ends in a second one. -/
namespace LibinputRs
open Automata

variable {F D : Type}

/-- A write of the daemon that presses the left button, accepted or not. -/
def WritesClick (out : List Write) : Prop := ∃ x ∈ out, x.ev.Presses KeyCode.btnLeft

namespace DeviceWrapper

/-- The event is a `SYN_REPORT` that finds a displacement. -/
def FindsDisplacement (w : DeviceWrapper F) (i : WrapperInput) : Prop :=
  i.te.ev.IsReport ∧ (w.currentDx ≠ 0 ∨ w.currentDy ≠ 0)

/-- What keeps the touch from becoming a tap. -/
def SpoilsTap (cfg : InputConfig F) (w : DeviceWrapper F) (i : WrapperInput) : Prop :=
  dwtActive cfg i.typing i.te.now = true ∨ w.FindsDisplacement i

instance (w : DeviceWrapper F) (i : WrapperInput) : Decidable (w.FindsDisplacement i) :=
  inferInstanceAs (Decidable (_ ∧ _))

instance (cfg : InputConfig F) (w : DeviceWrapper F) (i : WrapperInput) :
    Decidable (SpoilsTap cfg w i) := inferInstanceAs (Decidable (_ ∨ _))

/-- What the decision about a tap remembers of the touch. -/
def tapState (w : DeviceWrapper F) : Option Instant × Bool := (w.touchStartTime,w.tapEmitted)

/-- The keys other than `BTN_TOUCH` do not touch the decision. -/
theorem processKey_tapState (te : TimedEvent) (cfg : InputConfig F) (dwt : Bool)
    (hcode : te.ev.code ≠ KeyCode.btnTouch) : Keeps tapState (processKey te cfg dwt) := by
  unfold processKey processTouchKey
  dsimp only
  rw [if_neg hcode]
  refine Keeps.andThen (.ite (.modify ?_) (.ite (.modify ?_) .skip)) (.forwardButton te ?_)
  · exact fun _ => rfl
  · exact fun _ => rfl
  · exact fun _ _ => rfl

theorem processAxis_tapState (te : TimedEvent) (w : DeviceWrapper F) :
    (w.processAxis te).tapState = w.tapState :=
  processAxis_frame tapState (fun _ _ _ _ _ _ => rfl) te w

variable [F32 F]

/-- A frame that moves forbids the tap before its first write. -/
theorem movementFrame_tapState (cfg : InputConfig F) (s : DeviceWrapper F × VirtualDevice) :
    (movementFrame cfg s).1.1.tapState = (s.1.touchStartTime,true) := by
  have hmotion : Keeps tapState (motionFrame cfg) :=
    fun s => Keeps.andThen (.emitRel _ _) (.emitRel _ _) _
  have hscroll : Keeps tapState (scrollFrame cfg) := by
    intro s
    unfold scrollFrame
    refine Keeps.andThen (.ite (.emitRaw _) .skip) (.modify ?_) _
    exact fun _ => rfl
  refine Keeps.andThen (.ite hmotion (.ite hscroll .skip)) (.modify ?_) _
  exact fun _ => rfl

/-- A frame end forbids the tap in the typing window, and where it finds a displacement. -/
theorem processSyn_tapState (te : TimedEvent) (cfg : InputConfig F) (dwt : Bool)
    (s : DeviceWrapper F × VirtualDevice) : (processSyn te cfg dwt s).1.1.tapState =
      (s.1.touchStartTime,s.1.tapEmitted ||
        decide (te.ev.code = 0 ∧ (dwt = true ∨ s.1.currentDx ≠ 0 ∨ s.1.currentDy ≠ 0))) := by
  unfold processSyn
  by_cases hcode : te.ev.code = 0
  · have hemit : ∀ c : Bool, Keeps tapState (if c then emitRaw te.ev else .skip : Step F) :=
      fun c => .ite (.emitRaw _) .skip
    rw [if_neg (not_not.mpr hcode)]
    dsimp only
    rw [(hemit _).read_andThen]
    cases dwt with
    | true => simp [modify,discardFrame,tapState,hcode]
    | false =>
      by_cases hmoved : s.1.currentDx ≠ 0 ∨ s.1.currentDy ≠ 0
      · rw [if_neg Bool.false_ne_true,if_pos (decide_eq_true hmoved),movementFrame_tapState]
        simp [hcode,hmoved]
      · rw [if_neg Bool.false_ne_true,if_neg (by simpa using hmoved)]
        simp [hmoved,tapState]
  · rw [if_pos hcode]
    simp [hcode,tapState,emitRaw]

/-- The events that are not `BTN_TOUCH` keep the touch, and its tap while they do not spoil it. -/
theorem writeStep_tapState (cfg : InputConfig F) (i : WrapperInput)
    (s : DeviceWrapper F × VirtualDevice) (habs : s.1.isAbsolute = true)
    (hev : ¬ i.te.ev.KeyWith KeyCode.btnTouch) :
    (writeStep cfg s i).1.1.touchStartTime = s.1.touchStartTime ∧
      ((writeStep cfg s i).1.1.tapEmitted = false ↔
        s.1.tapEmitted = false ∧ ¬ SpoilsTap cfg s.1 i) := by
  have hstate := trackKey_frame tapState (fun _ _ _ _ => rfl) i.te s.1
  have hdx := trackKey_frame (·.currentDx) (fun _ _ _ _ => rfl) i.te s.1
  have hdy := trackKey_frame (·.currentDy) (fun _ _ _ _ => rfl) i.te s.1
  have hguard : ∀ dwt, ((s.1.trackKey i.te).guarded dwt).tapState =
        (s.1.touchStartTime,s.1.tapEmitted || dwt) ∧
      ((s.1.trackKey i.te).guarded dwt).currentDx = s.1.currentDx ∧
      ((s.1.trackKey i.te).guarded dwt).currentDy = s.1.currentDy := by
    intro dwt
    simp only [tapState,Prod.mk.injEq] at hstate
    unfold guarded
    cases dwt <;> simp [tapState,hstate,hdx,hdy]
  have hflag : ∀ (w' : DeviceWrapper F) (spoilt : Bool),
      w'.tapState = (s.1.touchStartTime,s.1.tapEmitted || spoilt) →
      (spoilt = true ↔ SpoilsTap cfg s.1 i) →
      w'.touchStartTime = s.1.touchStartTime ∧
        (w'.tapEmitted = false ↔ s.1.tapEmitted = false ∧ ¬ SpoilsTap cfg s.1 i) := by
    intro w' spoilt h hspoilt
    simp only [tapState,Prod.mk.injEq] at h
    rw [h.1,h.2,← hspoilt]
    simp
  have hquiet : i.te.ev.eventType ≠ .synchronization →
      (dwtActive cfg i.typing i.te.now = true ↔ SpoilsTap cfg s.1 i) :=
    fun hsyn => (or_iff_left fun h => hsyn h.1.1).symm
  unfold writeStep
  rw [processEvent_absolute cfg i.typing i.te habs]
  generalize hdwt : dwtActive cfg i.typing i.te.now = dwt at hquiet ⊢
  obtain ⟨hstart,hdx,hdy⟩ := hguard dwt
  cases htype : i.te.ev.eventType with
  | key =>
    rw [processAbsolute_key htype]
    refine hflag _ dwt ?_ (hquiet (by simp [htype]))
    exact (processKey_tapState i.te cfg dwt (fun hcode => hev ⟨htype,hcode⟩) _).trans hstart
  | absolute =>
    rw [processAbsolute_absolute htype]
    exact hflag _ dwt ((processAxis_tapState i.te _).trans hstart) (hquiet (by simp [htype]))
  | synchronization =>
    rw [processAbsolute_synchronization htype]
    have hsyn := processSyn_tapState i.te cfg dwt ((s.1.trackKey i.te).guarded dwt,s.2)
    rw [hdx,hdy] at hsyn
    simp only [tapState,Prod.mk.injEq] at hstart
    rw [hstart.1,hstart.2,Bool.or_assoc] at hsyn
    refine hflag _ _ hsyn ?_
    simp only [SpoilsTap,FindsDisplacement,InputEvent.IsReport,htype,hdwt]
    cases dwt <;> simp
  | relative =>
    rw [processAbsolute_other (by simp [htype]) (by simp [htype]) (by simp [htype])]
    exact hflag _ dwt hstart (hquiet (by simp [htype]))
  | other n =>
    rw [processAbsolute_other (by simp [htype]) (by simp [htype]) (by simp [htype])]
    exact hflag _ dwt hstart (hquiet (by simp [htype]))

/-- The start and the flag as marks of the span since the latest touch-down, as far as no touch is
lifted: a refused write of a tap leaves the start. -/
theorem writeStep_marks (cfg : InputConfig F) : SpanKept (writeStep cfg)
    (fun s => s.1.isAbsolute = true) (fun i => i.te.ev.Presses KeyCode.btnTouch)
    (fun i => i.te.ev.Releases KeyCode.btnTouch) (fun s i => SpoilsTap cfg s.1 i)
    (fun _ i => i.te.now) (fun s => s.1.touchStartTime) (fun s => s.1.tapEmitted = false) := by
  refine ⟨fun s i hs => (writeStep_isAbsolute s i).trans hs,?_,?_⟩
  · intro s i hs hev
    rw [writeStep,processEvent_touchDown cfg i.typing hs hev.1 hev.2]
    exact ⟨rfl,rfl⟩
  · intro s i hs hpress hrelease
    refine writeStep_tapState cfg i s hs fun hev => ?_
    by_cases hvalue : i.te.ev.value = 0
    · exact hrelease ⟨hev,hvalue⟩
    · exact hpress ⟨hev,hvalue⟩

omit [F32 F] in
/-- A lift begins with the press of a click exactly when it is a tap. -/
theorem touchUp_writesClick (te : TimedEvent) (cfg : InputConfig F) (dwt : Bool)
    (s : DeviceWrapper F × VirtualDevice) :
    WritesClick (touchUp te cfg dwt s).2.1 ↔ s.1.isTap cfg dwt te.now = true := by
  by_cases htap : s.1.isTap cfg dwt te.now = true
  · refine iff_of_true ?_ htap
    let lifted : DeviceWrapper F × VirtualDevice := ({ s.1 with touchActive := false },s.2)
    let press : Write := ⟨.new .key KeyCode.btnLeft 1,s.2.accepts 0⟩
    have hpress : press ∈ (emitRaw (.new .key KeyCode.btnLeft 1) lifted).2.1 :=
      Fallible.mem_andThen_left (List.mem_singleton.mpr rfl) (VirtualDevice.writeRaw .synReport)
    have htap' : ({ s.1 with touchActive := false } : DeviceWrapper F).isTap cfg dwt te.now = true :=
      htap
    unfold touchUp
    dsimp only
    rw [if_pos htap']
    exact ⟨press,Fallible.mem_andThen_left (Fallible.mem_andThen_left hpress _) _,⟨rfl,rfl⟩,
      one_ne_zero⟩
  · rw [touchUp_quiet te htap]
    exact iff_of_false (fun ⟨_,hmem,_⟩ => absurd hmem List.not_mem_nil) htap

theorem writesClick_iff (cfg : InputConfig F) (i : WrapperInput)
    (s : DeviceWrapper F × VirtualDevice) (habs : s.1.isAbsolute = true)
    (hev : i.te.ev.Releases KeyCode.btnTouch) : WritesClick (writeStep cfg s i).2 ↔
      s.1.isTap cfg (dwtActive cfg i.typing i.te.now) i.te.now = true := by
  rw [writeStep,processEvent_touchUp cfg i.typing habs hev.1 hev.2,touchUp_writesClick,isTap_guarded,
    isTap_trackKey]

/-- Other nodes than touchpads pass the event on as it is. -/
theorem not_writesClick_of_relative (cfg : InputConfig F) (i : WrapperInput)
    (s : DeviceWrapper F × VirtualDevice) (habs : s.1.isAbsolute = false)
    (hev : i.te.ev.KeyWith KeyCode.btnTouch) : ¬ WritesClick (writeStep cfg s i).2 := by
  have habs' : (s.1.trackKey i.te).isAbsolute = false :=
    (congrArg (·.2.2.1) (trackKey_identity i.te s.1)).trans habs
  have hemit : (writeStep cfg s i).2 = (VirtualDevice.emitRaw i.te.ev s.2).2.1 := by
    unfold writeStep processEvent
    dsimp only
    rw [habs']
    rfl
  rintro ⟨x,hx,hpress⟩
  rw [hemit] at hx
  rcases VirtualDevice.emitRaw_ev _ _ x hx with h | h
  · rw [h] at hpress
    exact absurd (hpress.1.2.symm.trans hev.2) (by decide)
  · rw [h] at hpress
    cases hpress.1.1

end DeviceWrapper

section Touches
open DeviceWrapper
variable [F32 F] (cfg : InputConfig F) (node : Device) (path : PathBuf) (v : VirtualDevice)

/-- The touch is a tap of the daemon: on a touchpad, with tapping on, outside the typing window from
the touch-down to the lift, quick, and without a frame that finds a displacement. -/
structure TapsInDaemon (before : List WrapperInput) (down : WrapperInput)
    (after : List WrapperInput) (lift : WrapperInput) : Prop where
  touchpad : node.probe.supports .absolute = true
  enabled : cfg.tapToClick = true
  quick : down.te.now.elapsed lift.te.now < fromMillis 250
  awake : DeviceWrapper.dwtActive cfg lift.typing lift.te.now = false ∧
    ∀ j ∈ after, DeviceWrapper.dwtActive cfg j.typing j.te.now = false
  still : AtEach (fun mid j => ¬ (run (writeStep cfg) (.new node path,v)
    (before ++ down :: mid)).1.1.FindsDisplacement j) after

/-- A click is written at the lift of a touch exactly if the touch is a tap. -/
theorem writesClick_iff_tapsInDaemon {inputs before after : List WrapperInput}
    {down lift : WrapperInput} (htouch : WholeTouch (·.te.ev) inputs before down after lift) :
    WritesClick (writeStep cfg (run (writeStep cfg) (.new node path,v)
        (before ++ down :: after)).1 lift).2 ↔
      TapsInDaemon cfg node path v before down after lift := by
  have hnode : ∀ front, (run (writeStep cfg) (.new node path,v) front).1.1.isAbsolute =
      node.probe.supports .absolute := fun front => run_isAbsolute (.new node path,v) front
  by_cases habs : node.probe.supports .absolute = true
  · have hneither : ∀ j ∈ after, ¬ j.te.ev.Presses KeyCode.btnTouch ∧
        ¬ j.te.ev.Releases KeyCode.btnTouch :=
      fun j hj => ⟨fun h => htouch.inside j hj h.1,fun h => htouch.inside j hj h.1⟩
    obtain ⟨hstart,hclean⟩ := (writeStep_marks cfg).run_opened
      (s := (.new node path,v)) habs before htouch.down hneither
    simp only [SpoilsTap,not_or,atEach_and,Bool.not_eq_true] at hclean
    rw [atEach_const] at hclean
    rw [writesClick_iff cfg lift _ ((hnode _).trans habs) htouch.lift,isTap]
    simp only [Bool.and_eq_true,Bool.not_eq_true',Option.any_eq_true,decide_eq_true_eq]
    constructor
    · rintro ⟨⟨⟨henabled,hflag⟩,hdwt⟩,start,hmark,hquick⟩
      obtain rfl := Option.some.inj (hstart.symm.trans hmark)
      obtain ⟨hawake,hstill⟩ := hclean.mp hflag
      exact ⟨habs,henabled,hquick,⟨hdwt,hawake⟩,hstill⟩
    · intro h
      exact ⟨⟨⟨h.enabled,hclean.mpr ⟨h.awake.2,h.still⟩⟩,h.awake.1⟩,_,hstart,h.quick⟩
  · refine iff_of_false ?_ fun h => habs h.touchpad
    exact not_writesClick_of_relative cfg lift _
      ((hnode _).trans (Bool.eq_false_iff.mpr habs)) htouch.lift.1

end Touches

section Clicks
open TrackedDevice DeviceWrapper
variable [F64 D] [F32 F] [FloatCast F D]

/-- A physical click is pressed inside a touch. -/
def HadClick {ι : Type} (ev : ι → InputEvent) (after : List ι) : Prop :=
  ∃ j ∈ after, (ev j).Presses KeyCode.btnLeft

instance {ι : Type} (ev : ι → InputEvent) (after : List ι) : Decidable (HadClick ev after) :=
  inferInstanceAs (Decidable (∃ j ∈ after, (ev j).Presses KeyCode.btnLeft))

/-- No touch of the stream with a physical click in it ends in a second click, exactly if none of
them is a tap; in the library, and in the daemon whatever becomes of its writes. -/
theorem one_click_per_touch_iff (device : EvdevDevice) (path : PathBuf) (d : DevicePtr)
    (inputs : List (TouchInput F)) (cfg : InputConfig F) (node : Device) (v : VirtualDevice)
    (events : List WrapperInput) :
    ((∀ before down after lift, WholeTouch (·.te.ev) inputs before down after lift →
          HadClick (·.te.ev) after →
            ¬ QueuesClick (touchStep (afterInputs device path d (before ++ down :: after) :
              TrackedDevice F D) lift).2) ↔
        ∀ before down after lift, WholeTouch (·.te.ev) inputs before down after lift →
          HadClick (·.te.ev) after → ¬ TapsAtLift D device path d before down after lift) ∧
      ((∀ before down after lift, WholeTouch (·.te.ev) events before down after lift →
          HadClick (·.te.ev) after →
            ¬ WritesClick (writeStep cfg (run (writeStep cfg) (.new node path,v)
              (before ++ down :: after)).1 lift).2) ↔
        ∀ before down after lift, WholeTouch (·.te.ev) events before down after lift →
          HadClick (·.te.ev) after → ¬ TapsInDaemon cfg node path v before down after lift) := by
  constructor
  · refine forall₄_congr fun before down after lift => forall_congr' fun htouch => ?_
    rw [queuesClick_iff_tapsAtLift device path d htouch]
  · refine forall₄_congr fun before down after lift => forall_congr' fun htouch => ?_
    rw [writesClick_iff_tapsInDaemon cfg node path v htouch]

/-- A finger that lands, clicks and is lifted at once. -/
def quickClick : List (TouchInput ℚ) := atOnce
  [(.key,KeyCode.btnTouch,1),(.key,KeyCode.btnToolFinger,1),(.synchronization,0,0),
    (.key,KeyCode.btnLeft,1),(.synchronization,0,0),(.key,KeyCode.btnLeft,0),(.synchronization,0,0),
    (.key,KeyCode.btnTouch,0),(.key,KeyCode.btnToolFinger,0),(.synchronization,0,0)]

/-- It clicks a second time at the lift, in the library and in the daemon. -/
theorem quick_click_taps :
    (¬ ∀ before down after lift, WholeTouch (·.te.ev) quickClick before down after lift →
        HadClick (·.te.ev) after →
          ¬ QueuesClick (touchStep (afterInputs plainTouchpad "/dev/input/event5" 0
            (before ++ down :: after) : TrackedDevice ℚ ℚ) lift).2) ∧
      ¬ ∀ before down after lift, WholeTouch (·.te.ev)
          (quickClick.map fun i => (⟨i.te,none⟩ : WrapperInput)) before down after lift →
        HadClick (·.te.ev) after →
          ¬ WritesClick (writeStep .default (run (writeStep (.default : InputConfig ℚ))
            (.new ⟨plainTouchpad,5,true⟩ "/dev/input/event5",.reliable)
              (before ++ down :: after)).1 lift).2 := by
  constructor
  · intro h
    refine h [] ⟨⟨⟨1,.key,KeyCode.btnTouch,1⟩,0⟩,true,true,1,false⟩ ((quickClick.drop 1).take 6)
      ⟨⟨⟨1,.key,KeyCode.btnTouch,0⟩,0⟩,true,true,1,false⟩
      ⟨⟨quickClick.drop 8,rfl⟩,by decide,by decide,by decide⟩ (by decide) ?_
    exact (queuesClick_iff _ _ (by decide)).mpr (by decide +kernel)
  · intro h
    refine h [] ⟨⟨⟨1,.key,KeyCode.btnTouch,1⟩,0⟩,none⟩
      (((quickClick.drop 1).take 6).map fun i => (⟨i.te,none⟩ : WrapperInput))
      ⟨⟨⟨1,.key,KeyCode.btnTouch,0⟩,0⟩,none⟩
      ⟨⟨(quickClick.drop 8).map fun i => (⟨i.te,none⟩ : WrapperInput),rfl⟩,by decide,by decide,
        by decide⟩ (by decide) ?_
    exact (writesClick_iff _ _ _ rfl (by decide)).mpr (by decide +kernel)

end Clicks
end LibinputRs
