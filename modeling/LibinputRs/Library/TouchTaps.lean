import LibinputRs.Library.Slots
import LibinputRs.Library.Taps

/-! Which whole touches of a touchpad end in a synthesized click, and what that means for touches
of several fingers and for touches with a physical click. The decision is made at the lift alone, so
what the touch showed in between is forgotten. -/
namespace LibinputRs
open Automata

variable {ι F D : Type}

section Touches
variable (ev : ι → InputEvent)

/-- A touch of the stream, from the touch-down to the matching lift. -/
structure WholeTouch (inputs before : List ι) (down : ι) (after : List ι) (lift : ι) : Prop where
  part : ∃ rest, inputs = before ++ down :: after ++ lift :: rest
  down : (ev down).Presses KeyCode.btnTouch
  inside : ∀ j ∈ after, ¬ (ev j).KeyWith KeyCode.btnTouch
  lift : (ev lift).Releases KeyCode.btnTouch

/-- At some moment of the touch two slots or more are active. -/
def HadTwo (before : List ι) (down : ι) (after : List ι) : Prop :=
  ∃ mid back, after = mid ++ back ∧ 2 ≤ (contactsOf ((before ++ down :: mid).map ev)).length

end Touches

section Fingers

/-- The tool keys that tell of more fingers than one. -/
def countingTools : List ℕ :=
  [KeyCode.btnToolDoubletap,KeyCode.btnToolTripletap,KeyCode.btnToolQuadtap]

/-- The keys show one finger: the last of the tool keys was `BTN_TOOL_DOUBLETAP` released, or there
was none and the touch began with so few. -/
def ShowsOne (slots : ℕ) (keys : List (ℕ × Bool)) : Prop :=
  OpenAfter (· = (KeyCode.btnToolDoubletap,false)) (·.1 ∈ countingTools) keys ∨
    (slots ≤ 1 ∧ ∀ key ∈ keys, key.1 ∉ countingTools)

instance (slots : ℕ) (keys : List (ℕ × Bool)) : Decidable (ShowsOne slots keys) :=
  inferInstanceAs (Decidable (_ ∨ _))

/-- One more key: it shows one finger, or leaves the others as they were. -/
theorem showsOne_concat (slots : ℕ) (keys : List (ℕ × Bool)) (key : ℕ × Bool) :
    ShowsOne slots (keys ++ [key]) ↔ key = (KeyCode.btnToolDoubletap,false) ∨
      (key.1 ∉ countingTools ∧ ShowsOne slots keys) := by
  unfold ShowsOne
  rw [openAfter_append,openAfter_singleton,List.forall_mem_append,List.forall_mem_singleton]
  tauto

/-- The count that the tool keys leave is one at most exactly if they show one finger. -/
theorem foldl_countTool_le_one (slots : ℕ) (keys : List (ℕ × Bool)) :
    keys.foldl countTool slots ≤ 1 ↔ ShowsOne slots keys := by
  induction keys using List.reverseRecOn with
  | nil => simp [ShowsOne]
  | append_singleton keys key ih =>
    rw [List.foldl_concat,showsOne_concat,← ih]
    obtain ⟨code,pressed⟩ := key
    unfold countTool
    by_cases hdouble : code = KeyCode.btnToolDoubletap
    · cases pressed <;> simp [hdouble,countingTools]
    · by_cases htriple : code = KeyCode.btnToolTripletap
      · cases pressed <;> simp [htriple,countingTools,KeyCode.btnToolTripletap,KeyCode.btnToolDoubletap]
      · by_cases hquad : code = KeyCode.btnToolQuadtap
        · cases pressed <;> simp [hquad,countingTools,KeyCode.btnToolQuadtap,
            KeyCode.btnToolTripletap,KeyCode.btnToolDoubletap]
        · simp [hdouble,htriple,hquad,countingTools]

end Fingers

section Taps
open TrackedDevice
variable [F64 D] [F32 F] [FloatCast F D] (device : EvdevDevice) (path : PathBuf) (d : DevicePtr)

/-- The touch is a tap: tapping is on, the typing window is over from the touch-down to the lift, it
is quick, none of its frames finds a displacement, and at the lift the keys show one finger. -/
structure TapsAtLift (D : Type) [F64 D] [FloatCast F D] (device : EvdevDevice) (path : PathBuf)
    (d : DevicePtr) (before : List (TouchInput F)) (down : TouchInput F)
    (after : List (TouchInput F)) (lift : TouchInput F) : Prop where
  enabled : lift.cfgTap = true
  quick : down.te.now.elapsed lift.te.now < fromMillis 250
  awake : lift.dwtActive = false ∧ ∀ j ∈ after, j.dwtActive = false
  still : AtEach (fun mid j => ¬ (afterInputs device path d (before ++ down :: mid) :
    TrackedDevice F D).FindsDisplacement j) after
  single : ShowsOne (contactsOf (before.map (·.te.ev))).length (fingerKeys after)

omit [F64 D] [F32 F] [FloatCast F D] in
/-- The tool keys inside a touch are not `BTN_TOUCH`. -/
theorem fingerKeys_ne_touch {after : List (TouchInput F)}
    (h : ∀ j ∈ after, ¬ j.te.ev.KeyWith KeyCode.btnTouch) :
    ∀ key ∈ fingerKeys after, key.1 ≠ KeyCode.btnTouch := by
  intro key hkey htouch
  obtain ⟨j,hj,hfinger⟩ := List.mem_filterMap.mp hkey
  obtain ⟨htype,rfl⟩ := fingerKey_eq_some hfinger
  exact h j hj ⟨htype,htouch⟩

/-- The count at the lift is one exactly if the keys show one finger. -/
theorem touchFingers_le_one_iff {before after : List (TouchInput F)} {down : TouchInput F}
    (hdown : down.te.ev.Presses KeyCode.btnTouch)
    (hinside : ∀ j ∈ after, ¬ j.te.ev.KeyWith KeyCode.btnTouch) :
    (afterInputs device path d (before ++ down :: after) : TrackedDevice F D).touchFingers ≤ 1 ↔
      ShowsOne (contactsOf (before.map (·.te.ev))).length (fingerKeys after) := by
  have hkey : fingerKey down.te.ev = some (KeyCode.btnTouch,true) := by
    unfold fingerKey
    rw [hdown.1.2,if_pos ⟨hdown.1.1,by decide⟩,decide_eq_true hdown.2]
  have hstart : ∀ td : TrackedDevice F D,
      (td.touchStep down).1.touchFingers = max td.activeSlotCount 1 := by
    intro td
    rw [touchStep_touchFingers,hkey]
    rfl
  rw [afterInputs,run_append,run_cons]
  dsimp only
  rw [run_touchFingers _ (fingerKeys_ne_touch hinside),hstart,foldl_countTool_le_one,
    afterInputs_activeSlotCount]
  simp [ShowsOne]

/-- A click is queued at the lift of a touch exactly if the touch is a tap. -/
theorem queuesClick_iff_tapsAtLift {inputs before after : List (TouchInput F)}
    {down lift : TouchInput F} (htouch : WholeTouch (·.te.ev) inputs before down after lift) :
    QueuesClick (touchStep (afterInputs device path d (before ++ down :: after) :
        TrackedDevice F D) lift).2 ↔ TapsAtLift D device path d before down after lift := by
  have hneither : ∀ j ∈ after, ¬ j.te.ev.Presses KeyCode.btnTouch ∧
      ¬ j.te.ev.Releases KeyCode.btnTouch :=
    fun j hj => ⟨fun h => htouch.inside j hj h.1,fun h => htouch.inside j hj h.1⟩
  obtain ⟨hstart,hclean⟩ := touchStep_marks.run_opened
    (s := (.new device path d : TrackedDevice F D)) trivial before htouch.down hneither
  rw [atEach_not_spoilsTap fun mid => (run touchStep (.new device path d : TrackedDevice F D)
    (before ++ down :: mid)).1] at hclean
  rw [queuesClick_iff _ _ htouch.lift,isTap_iff,
    touchFingers_le_one_iff device path d htouch.down htouch.inside]
  constructor
  · rintro ⟨henabled,hdwt,hsingle,start,hquick,hmark,hflag⟩
    obtain rfl := Option.some.inj (hstart.symm.trans hmark)
    obtain ⟨hawake,hstill⟩ := hclean.mp hflag
    exact ⟨henabled,hquick,⟨hdwt,hawake⟩,hstill,hsingle⟩
  · intro h
    exact ⟨h.enabled,h.awake.1,h.single,_,h.quick,hstart,hclean.mpr ⟨h.awake.2,h.still⟩⟩

/-- No touch of the stream that had two contacts at some moment ends in a click, exactly if none of
them is a tap. -/
theorem several_fingers_never_click_iff (inputs : List (TouchInput F)) :
    (∀ before down after lift, WholeTouch (·.te.ev) inputs before down after lift →
        HadTwo (·.te.ev) before down after →
          ¬ QueuesClick (touchStep (afterInputs device path d (before ++ down :: after) :
            TrackedDevice F D) lift).2) ↔
      ∀ before down after lift, WholeTouch (·.te.ev) inputs before down after lift →
        HadTwo (·.te.ev) before down after →
          ¬ TapsAtLift D device path d before down after lift := by
  refine forall₄_congr fun before down after lift => forall_congr' fun htouch => ?_
  rw [queuesClick_iff_tapsAtLift device path d htouch]

/-- Two fingers that land together and are lifted one after the other. -/
def oneByOne : List (TouchInput ℚ) := atOnce
  [(.absolute,AbsoluteAxisCode.absMtTrackingId,1),(.absolute,AbsoluteAxisCode.absMtSlot,1),
    (.absolute,AbsoluteAxisCode.absMtTrackingId,2),(.key,KeyCode.btnTouch,1),
    (.key,KeyCode.btnToolDoubletap,1),(.synchronization,0,0),
    (.absolute,AbsoluteAxisCode.absMtTrackingId,-1),(.key,KeyCode.btnToolFinger,1),
    (.key,KeyCode.btnToolDoubletap,0),(.synchronization,0,0),
    (.absolute,AbsoluteAxisCode.absMtSlot,0),(.absolute,AbsoluteAxisCode.absMtTrackingId,-1),
    (.key,KeyCode.btnTouch,0),(.key,KeyCode.btnToolFinger,0),(.synchronization,0,0)]

/-- Their touch ends in a click. -/
theorem one_by_one_clicks :
    KernelContacts (oneByOne.map (·.te.ev)) ∧
      ¬ ∀ before down after lift, WholeTouch (·.te.ev) oneByOne before down after lift →
        HadTwo (·.te.ev) before down after →
          ¬ QueuesClick (touchStep (afterInputs plainTouchpad "/dev/input/event5" 0
            (before ++ down :: after) : TrackedDevice ℚ ℚ) lift).2 := by
  refine ⟨by decide +kernel,fun h => ?_⟩
  refine h (oneByOne.take 3) ⟨⟨⟨1,.key,KeyCode.btnTouch,1⟩,0⟩,true,true,1,false⟩
    ((oneByOne.drop 4).take 8) ⟨⟨⟨1,.key,KeyCode.btnTouch,0⟩,0⟩,true,true,1,false⟩
    ⟨⟨oneByOne.drop 13,rfl⟩,by decide,by decide,by decide⟩
    ⟨[],_,rfl,by decide +kernel⟩ ?_
  exact (queuesClick_iff _ _ (by decide)).mpr (by decide +kernel)

end Taps
end LibinputRs
