import LibinputRs.Automata.Strokes
import LibinputRs.Pipeline.Gain

/-! The `i32` arithmetic of the displacements. Each axis measures the strokes of a finger, and no
sum overflows exactly if no stroke and no sum of strokes in a frame is longer than `i32` reaches;
what natural scrolling negates is far from the end of the range at every admitted acceleration. -/
namespace LibinputRs
open Automata

namespace TouchAxis

/-- The code of the coordinate. -/
def code (a : TouchAxis) : ℕ := a.select AbsoluteAxisCode.absX AbsoluteAxisCode.absY

end TouchAxis

namespace Pointing
variable {a : TouchAxis} {p : Pointing} {te : TimedEvent}

/-- An axis as a ruler: the stored coordinate and the displacement. -/
def ruler (a : TouchAxis) (p : Pointing) : Ruler ℤ :=
  ⟨a.select p.lastX p.lastY,a.select p.currentDx p.currentDy⟩

/-- The `i32` sums that an event makes on an axis, in the library and in the daemon. -/
def summed (a : TouchAxis) (p : Pointing) (te : TimedEvent) : List ℤ :=
  if te.ev.AxisWith a.code then
    sums (a.select p.currentDx p.currentDy)
      (if p.stalled te.now then none else a.select p.lastX p.lastY) te.ev.value
  else []

/-- What an event of the library marks on an axis: a touch and a stall lose the coordinate, and
a lift and the end of a frame set the displacement to zero. -/
def marks (a : TouchAxis) (p : Pointing) (te : TimedEvent) : List (Mark ℤ) :=
  if te.ev.IsTouch then if te.ev.value ≠ 0 then [.lose] else [.lose,.zero]
  else if te.ev.AxisWith a.code then
    if p.stalled te.now then [.lose,.reach te.ev.value] else [.reach te.ev.value]
  else if te.ev.IsReport then [.zero]
  else []

/-- In the daemon a stall loses the coordinates of both axes. -/
def marksShared (a : TouchAxis) (p : Pointing) (te : TimedEvent) : List (Mark ℤ) :=
  (if te.ev.IsPosition ∧ p.stalled te.now = true then [.lose] else []) ++ p.marks a te

/-- A coordinate is added to the displacement as the code does. -/
theorem read_reach (r : Ruler ℤ) (v : ℤ) : r.read i32Wrap (.reach v) =
    ⟨some v,TrackedDevice.accumulate r.shown r.held v⟩ := by
  obtain ⟨held,shown⟩ := r
  cases held <;> rfl

theorem marks_touch (h : te.ev.IsTouch) :
    p.marks a te = if te.ev.value ≠ 0 then [.lose] else [.lose,.zero] := if_pos h

theorem marks_axis (h : te.ev.AxisWith a.code) : p.marks a te =
    if p.stalled te.now then [.lose,.reach te.ev.value] else [.reach te.ev.value] := by
  rw [marks,if_neg h.not_touch,if_pos h]

theorem marks_report (h : te.ev.IsReport) : p.marks a te = [.zero] := by
  rw [marks,if_neg h.not_touch,if_neg h.not_axis,if_pos h]

theorem marks_other (htouch : ¬ te.ev.IsTouch) (haxis : ¬ te.ev.AxisWith a.code)
    (hreport : ¬ te.ev.IsReport) : p.marks a te = [] := by
  rw [marks,if_neg htouch,if_neg haxis,if_neg hreport]

/-- An event of the library moves the ruler as its marks do. -/
theorem ruler_next (a : TouchAxis) (p : Pointing) (te : TimedEvent) :
    (p.next te).ruler a = (p.marks a te).foldl (Ruler.read i32Wrap) (p.ruler a) := by
  by_cases htouch : te.ev.IsTouch
  · rw [next_touch htouch,marks_touch htouch,touch]
    split_ifs <;> cases a <;> rfl
  by_cases haxis : te.ev.AxisWith a.code
  · rw [marks_axis haxis]
    cases a with
    | x =>
      rw [next_x haxis,moveX]
      cases p.stalled te.now with
      | true => rfl
      | false => exact (read_reach (p.ruler .x) te.ev.value).symm
    | y =>
      rw [next_y haxis,moveY]
      cases p.stalled te.now with
      | true => rfl
      | false => exact (read_reach (p.ruler .y) te.ev.value).symm
  by_cases hreport : te.ev.IsReport
  · rw [next_report hreport,marks_report hreport]
    cases a <;> rfl
  rw [marks_other htouch haxis hreport]
  -- a position on the other axis leaves this one alone
  by_cases hpos : te.ev.IsPosition
  · cases a with
    | x =>
      have hy : te.ev.AxisWith AbsoluteAxisCode.absY :=
        ⟨hpos.1,hpos.2.resolve_left (haxis ⟨hpos.1,·⟩)⟩
      rw [next_y hy]
      rfl
    | y =>
      have hx : te.ev.AxisWith AbsoluteAxisCode.absX :=
        ⟨hpos.1,hpos.2.resolve_right (haxis ⟨hpos.1,·⟩)⟩
      rw [next_x hx]
      rfl
  · rw [next_of_neutral htouch hpos hreport]
    rfl

theorem ruler_nextShared (a : TouchAxis) (p : Pointing) (te : TimedEvent) :
    (p.nextShared te).ruler a = (p.marksShared a te).foldl (Ruler.read i32Wrap) (p.ruler a) := by
  have hmarks : (p.shared te).marks a te = p.marks a te := by
    unfold shared
    split_ifs <;> rfl
  rw [nextShared,ruler_next,hmarks,marksShared,List.foldl_append]
  unfold shared
  split_ifs <;> cases a <;> rfl

/-- The sums of an event are those of its marks. -/
theorem summed_iff (a : TouchAxis) (p : Pointing) (te : TimedEvent) (fits : ℤ → Prop) :
    AtEach (fun front m => ∀ z ∈ (front.foldl (Ruler.read i32Wrap) (p.ruler a)).sums m, fits z)
      (p.marks a te) ↔ ∀ z ∈ p.summed a te, fits z := by
  by_cases haxis : te.ev.AxisWith a.code
  · rw [marks_axis haxis,summed,if_pos haxis]
    cases p.stalled te.now with
    | true => simp [atEach_cons,Ruler.sums,Ruler.read,sums]
    | false =>
      cases hheld : a.select p.lastX p.lastY <;> simp [Ruler.sums,ruler,hheld,sums]
  · have hquiet : ∀ m ∈ p.marks a te, ∀ r : Ruler ℤ, r.sums m = [] := by
      intro m hm r
      rw [marks,if_neg haxis] at hm
      split_ifs at hm <;> simp at hm
      · rw [hm]
        rfl
      · rcases hm with rfl | rfl <;> rfl
      · rw [hm]
        rfl
    rw [summed,if_neg haxis]
    exact iff_of_true (atEach_of_forall fun m hm front => by rw [hquiet m hm]; simp) (by simp)

theorem summedShared_iff (a : TouchAxis) (p : Pointing) (te : TimedEvent) (fits : ℤ → Prop) :
    AtEach (fun front m => ∀ z ∈ (front.foldl (Ruler.read i32Wrap) (p.ruler a)).sums m, fits z)
      (p.marksShared a te) ↔ ∀ z ∈ p.summed a te, fits z := by
  by_cases hstall : te.ev.IsPosition ∧ p.stalled te.now = true
  · have hshared : p.shared te = { p with lastX := none, lastY := none } := if_pos hstall
    have hsummed : (p.shared te).summed a te = p.summed a te := by
      have hstalled : (p.shared te).stalled te.now = true := by
        rw [hshared]
        exact hstall.2
      unfold summed
      rw [hstalled,hstall.2,hshared]
      rfl
    have hruler : (p.shared te).ruler a = (p.ruler a).read i32Wrap .lose := by
      rw [hshared]
      cases a <;> rfl
    have hmarks : (p.shared te).marks a te = p.marks a te := by
      rw [hshared]
      rfl
    rw [← hsummed,← summed_iff,hruler,hmarks,marksShared,if_pos hstall,List.singleton_append,
      atEach_cons]
    exact and_iff_right (by simp [Ruler.sums])
  · rw [marksShared,if_neg hstall,List.nil_append]
    exact summed_iff a p te fits

end Pointing

section Rounding

/-- Negating a rounded number stays in `i32` exactly above the end of its range. -/
theorem fitsI32_neg_round_iff (q : ℚ) : FitsI32 (-F32.roundToI32 q) ↔ -2^31 + 1/2 < q := by
  have hsaturate : FitsI32 (-saturateI32 (roundHalfAway q)) ↔ -2^31 < roundHalfAway q := by
    unfold FitsI32 saturateI32
    omega
  change FitsI32 (-saturateI32 (roundHalfAway q)) ↔ _
  rw [hsaturate]
  unfold roundHalfAway
  split_ifs with hq
  · have hfloor : 0 ≤ ⌊q + 1/2⌋ := Int.floor_nonneg.mpr (by linarith)
    exact iff_of_true (by omega) (by linarith)
  · rw [neg_lt_neg_iff,Int.floor_lt]
    push_cast
    constructor <;> intro h <;> linarith

/-- What an admitted gain leaves of a frame is at most one half. -/
theorem carried_le {gain r : ℚ} {d : ℤ} (hgain : |gain| ≤ 0.36) (hd : FitsI32 d)
    (hr : |r| ≤ 1/2) : |gain * d + r - (F32.roundToI32 (gain * d + r) : ℤ)| ≤ 1/2 := by
  rw [roundToI32_of_inRange (inRange_total hgain hd hr)]
  exact abs_sub_roundHalfAway_le _

/-- So is what is left of a motion, and of a turn of the wheel. -/
theorem motion_carried_le {accel r : ℚ} {d : ℤ} (haccel : |accel| ≤ 2) (hd : FitsI32 d)
    (hr : |r| ≤ 1/2) : |F32.ofI32 d * TrackedDevice.hwScale * accel + r - F32.ofI32
      (F32.roundToI32 (F32.ofI32 d * TrackedDevice.hwScale * accel + r))| ≤ 1/2 := by
  rw [pointer_total]
  exact carried_le (abs_pointer_gain haccel) hd hr

theorem wheel_carried_le {r : ℚ} {d : ℤ} (hd : FitsI32 d) (hr : |r| ≤ 1/2) :
    |F32.ofI32 d * TrackedDevice.scrollScale + r - F32.ofI32
      (F32.roundToI32 (F32.ofI32 d * TrackedDevice.scrollScale + r))| ≤ 1/2 := by
  rw [scroll_total 0]
  exact carried_le (by norm_num [FrameMode.gain]) hd hr

/-- A wheel total with such a remainder is far from the end of the range. -/
theorem wheel_total_above {r : ℚ} {d : ℤ} (hd : FitsI32 d) (hr : |r| ≤ 1/2) :
    -2^31 + 1/2 < 0.02 * (d : ℚ) + r := by
  have hd' : (-2^31 : ℚ) ≤ d := by exact_mod_cast hd.1
  linarith [(abs_le.mp hr).1]

end Rounding

/-- The strokes of some marks fit `i32`. -/
def StrokesFit (marks : List (Mark ℤ)) : Prop :=
  AtEach (fun before m => (Strokes.ofMarks before).Fits FitsI32 m) marks

instance (marks : List (Mark ℤ)) : Decidable (StrokesFit marks) :=
  inferInstanceAs (Decidable (AtEach _ marks))

section Library
variable {td : TrackedDevice ℚ ℚ} {i : TouchInput ℚ}

namespace TrackedDevice

/-- The totals of a frame whose rounded values natural scrolling negates. -/
def wheelTotals (td : TrackedDevice ℚ ℚ) (i : TouchInput ℚ) : List ℚ :=
  if i.te.ev.IsReport ∧ i.dwtActive = false ∧ td.pinchActive = false ∧
      (td.currentDx ≠ 0 ∨ td.currentDy ≠ 0) ∧ max td.activeSlotCount td.touchFingers = 2 ∧
      i.cfgNat = true then
    [F32.ofI32 td.currentDy * scrollScale + td.remainderY,
      F32.ofI32 td.currentDx * scrollScale + td.remainderX]
  else []

/-- No `i32` sum of the event overflows, and no negation. -/
def ArithmeticFits (td : TrackedDevice ℚ ℚ) (i : TouchInput ℚ) : Prop :=
  (∀ a, ∀ z ∈ td.pointing.summed a i.te, FitsI32 z) ∧
    ∀ q ∈ td.wheelTotals i, FitsI32 (-F32.roundToI32 q)

/-- An axis measures the strokes of the events. -/
theorem touchStep_measures (a : TouchAxis) : Measures (touchStep (F := ℚ) (D := ℚ))
    (fun td i => td.pointing.marks a i.te) i32Wrap (fun td => td.pointing.ruler a)
      fun _ => True where
  keeps _ _ _ := trivial
  reads td i _ := by rw [touchStep_pointing,Pointing.ruler_next]

/-- The device carries at most one half on each axis. -/
structure Centred (td : TrackedDevice ℚ ℚ) : Prop where
  bounded : td.pointing.Bounded
  x : |td.remainderX| ≤ 1/2
  y : |td.remainderY| ≤ 1/2

/-- Under an admitted speed it always does. -/
theorem Centred.step (h : td.Centred) (haccel : |i.cfgAccel| ≤ 2) : (td.touchStep i).1.Centred := by
  have hbounded : (td.touchStep i).1.pointing.Bounded := by
    rw [touchStep_pointing]
    exact h.bounded.next i.te
  have hzero : |(0.0 : ℚ)| ≤ 1/2 := by norm_num
  have hremainders : |(td.touchStep i).1.remainders.1| ≤ 1/2 ∧
      |(td.touchStep i).1.remainders.2| ≤ 1/2 := by
    by_cases hreport : i.te.ev.IsReport
    · have hbase : Centred (if i.dwtActive then { td with tapEmitted := true } else td) := by
        split_ifs <;> exact ⟨h.bounded,h.x,h.y⟩
      rw [touchStep_synchronization td i hreport.1]
      generalize (if i.dwtActive then { td with tapEmitted := true } else td) = base at hbase
      unfold processSyn
      rw [if_neg (not_not.mpr hreport.2)]
      split_ifs
      · exact ⟨hbase.x,hbase.y⟩
      · exact ⟨hzero,hzero⟩
      · unfold movementFrame
        dsimp only
        split_ifs
        · exact ⟨motion_carried_le haccel hbase.bounded.1 hbase.x,
            motion_carried_le haccel hbase.bounded.2 hbase.y⟩
        · exact ⟨wheel_carried_le hbase.bounded.1 hbase.x,
            wheel_carried_le hbase.bounded.2 hbase.y⟩
        · exact ⟨hbase.x,hbase.y⟩
      · exact ⟨hbase.x,hbase.y⟩
    · rw [touchStep_remainders i hreport]
      exact ⟨h.x,h.y⟩
  exact ⟨hbounded,hremainders.1,hremainders.2⟩

/-- At every step of a run the arithmetic fits. -/
def RunFits (td : TrackedDevice ℚ ℚ) (inputs : List (TouchInput ℚ)) : Prop :=
  AtEach (fun before i => (run touchStep td before).1.ArithmeticFits i) inputs

/-- What the events of a run mark on an axis. -/
def runMarks (a : TouchAxis) (td : TrackedDevice ℚ ℚ) (inputs : List (TouchInput ℚ)) :
    List (Mark ℤ) := log touchStep (fun td i => td.pointing.marks a i.te) td inputs

/-- Every total that is rounded and negated is above the end of the range. -/
def WheelsFit (td : TrackedDevice ℚ ℚ) (inputs : List (TouchInput ℚ)) : Prop :=
  AtEach (fun before i => ∀ q ∈ (run touchStep td before).1.wheelTotals i, -2^31 + 1/2 < q) inputs

/-- From a device at rest the arithmetic fits exactly if the strokes and the wheel totals do. -/
theorem runFits_iff {td : TrackedDevice ℚ ℚ} (hrest : ∀ a, td.pointing.ruler a = ⟨none,0⟩)
    (inputs : List (TouchInput ℚ)) : td.RunFits inputs ↔
      (∀ a, StrokesFit (td.runMarks a inputs)) ∧ td.WheelsFit inputs := by
  have hsums : ∀ a, StrokesFit (td.runMarks a inputs) ↔ AtEach (fun before i =>
      ∀ z ∈ (run touchStep td before).1.pointing.summed a i.te, FitsI32 z) inputs := by
    intro a
    rw [StrokesFit,runMarks,← (touchStep_measures a).sums_fit_iff trivial (hrest a)
      fun z hz => i32Wrap_of_fits hz]
    exact atEach_congr fun before i after _ _ => Pointing.summed_iff a _ i.te FitsI32
  simp only [hsums,WheelsFit,← fitsI32_neg_round_iff]
  exact atEach_and.trans (and_congr_left fun _ => atEach_forall)

/-- Under admitted speeds all wheel totals do. -/
theorem wheelsFit_of_admitted {td : TrackedDevice ℚ ℚ} (htd : td.Centred)
    {inputs : List (TouchInput ℚ)} (haccel : ∀ i ∈ inputs, |i.cfgAccel| ≤ 2) :
    td.WheelsFit inputs := by
  rintro before i after rfl q hq
  have hcentred : (run touchStep td before).1.Centred :=
    run_invariant touchStep Centred (fun td i hi h => h.step (haccel i (by simp [hi]))) htd
  unfold wheelTotals at hq
  split_ifs at hq
  · rw [List.mem_pair] at hq
    rcases hq with rfl | rfl
    · rw [scroll_total 0]
      exact wheel_total_above hcentred.bounded.2 hcentred.y
    · rw [scroll_total 0]
      exact wheel_total_above hcentred.bounded.1 hcentred.x
  · cases hq

/-- A device that was just opened is at rest, and carries nothing. -/
theorem ruler_new (device : EvdevDevice) (path : PathBuf) (d : DevicePtr) (a : TouchAxis) :
    (.new device path d : TrackedDevice ℚ ℚ).pointing.ruler a = ⟨none,0⟩ := by
  cases a <;> rfl

theorem Centred.new (device : EvdevDevice) (path : PathBuf) (d : DevicePtr) :
    Centred (.new device path d) := by
  have hd : FitsI32 0 := by decide
  have hzero : |(0.0 : ℚ)| ≤ 1/2 := by norm_num
  exact ⟨⟨hd,hd⟩,hzero,hzero⟩

end TrackedDevice
end Library

section Daemon
variable {cfg : InputConfig ℚ} {s : DeviceWrapper ℚ × VirtualDevice} {i : WrapperInput}

namespace DeviceWrapper

/-- The totals of a frame whose rounded values natural scrolling negates. -/
def wheelTotals (cfg : InputConfig ℚ) (w : DeviceWrapper ℚ) (i : WrapperInput) : List ℚ :=
  if i.te.ev.IsReport ∧ dwtActive cfg i.typing i.te.now = false ∧
      (w.currentDx ≠ 0 ∨ w.currentDy ≠ 0) ∧ w.touchFingers = 2 ∧ cfg.naturalScrolling = true then
    [F32.ofI32 w.currentDy * wheelScale + w.remainderY]
  else []

/-- No `i32` sum of the event overflows, and no negation. -/
def ArithmeticFits (cfg : InputConfig ℚ) (w : DeviceWrapper ℚ) (i : WrapperInput) : Prop :=
  (∀ a, ∀ z ∈ w.pointing.summed a i.te, FitsI32 z) ∧
    ∀ q ∈ w.wheelTotals cfg i, FitsI32 (-F32.roundToI32 q)

/-- What an event marks on an axis: a lift or a frame that is left standing marks nothing. -/
def marks (cfg : InputConfig ℚ) (a : TouchAxis) (s : DeviceWrapper ℚ × VirtualDevice)
    (i : WrapperInput) : List (Mark ℤ) :=
  if (i.te.ev.Releases KeyCode.btnTouch ∨ i.te.ev.IsReport) ∧ ¬ Clears cfg s i then []
  else s.1.pointing.marksShared a i.te

theorem writeStep_measures (cfg : InputConfig ℚ) (a : TouchAxis) : Measures (writeStep cfg)
    (marks cfg a) i32Wrap (fun s => s.1.pointing.ruler a) fun s => s.1.isAbsolute = true where
  keeps s i hs := (writeStep_isAbsolute s i).trans hs
  reads s i hs := by
    rw [writeStep_pointing hs,marks]
    split_ifs
    · rfl
    · exact Pointing.ruler_nextShared a _ _

/-- The wrapper carries at most one half on each axis. -/
structure Centred (w : DeviceWrapper ℚ) : Prop where
  absolute : w.isAbsolute = true
  bounded : w.pointing.Bounded
  x : |w.remainderX| ≤ 1/2
  y : |w.remainderY| ≤ 1/2

/-- A key event leaves the remainders alone, whatever becomes of its writes. -/
theorem processKey_remainders (te : TimedEvent) (dwt : Bool) :
    Keeps remainders (processKey te cfg dwt) := by
  have hup : Keeps remainders (touchUp te cfg dwt) := by
    have hreset : Keeps (F := ℚ) remainders (modify resetTouch) := .modify fun _ => rfl
    exact fun s => (Keeps.andThen (.ite .emitTap .skip) hreset)
      ({ s.1 with touchActive := false },s.2)
  have htouch : Keeps remainders (processTouchKey te cfg dwt) := by
    refine .ite (.ite ?_ hup) (.ite ?_ (.ite ?_ .skip)) <;> exact .modify fun _ => rfl
  exact htouch.andThen (.forwardButton te fun _ _ => rfl)

/-- So does every event but those of synchronization. -/
theorem writeStep_remainders (habs : s.1.isAbsolute = true)
    (hsyn : i.te.ev.eventType ≠ .synchronization) :
    (writeStep cfg s i).1.1.remainders = s.1.remainders := by
  have hfound := found_frame remainders (fun _ _ _ _ _ => rfl) i.te
    (dwtActive cfg i.typing i.te.now) s.1
  change (processEvent cfg i.typing i.te s).1.1.remainders = _
  rw [processEvent_absolute cfg _ _ habs]
  by_cases hkey : i.te.ev.eventType = .key
  · rw [processAbsolute_key hkey,processKey_remainders,hfound]
  by_cases haxis : i.te.ev.eventType = .absolute
  · rw [processAbsolute_absolute haxis]
    exact (processAxis_remainders _ _).trans hfound
  · rw [processAbsolute_other hkey haxis hsyn]
    exact hfound

/-- A frame with displacement keeps at most one half on each axis; a refused write leaves the
horizontal remainder of a scroll as it was. -/
theorem movementFrame_centred (h : s.1.Centred) (haccel : |cfg.pointerAcceleration| ≤ 2) :
    |(movementFrame cfg s).1.1.remainders.1| ≤ 1/2 ∧
      |(movementFrame cfg s).1.1.remainders.2| ≤ 1/2 := by
  have hzero : |(0.0 : ℚ)| ≤ 1/2 := by norm_num
  have hmotion : ∀ w : DeviceWrapper ℚ, w.Centred →
      |(motionFrame cfg (w,s.2)).1.1.remainders.1| ≤ 1/2 ∧
        |(motionFrame cfg (w,s.2)).1.1.remainders.2| ≤ 1/2 := by
    intro w hw
    have hkept : (motionFrame cfg (w,s.2)).1.1.remainders = (_,_) :=
      (Keeps.andThen (.emitRel _ _) (.emitRel _ _)) (_,s.2)
    rw [hkept]
    exact ⟨motion_carried_le haccel hw.bounded.1 hw.x,motion_carried_le haccel hw.bounded.2 hw.y⟩
  have hscroll : ∀ w : DeviceWrapper ℚ, w.Centred →
      |(scrollFrame cfg (w,s.2)).1.1.remainders.1| ≤ 1/2 ∧
        |(scrollFrame cfg (w,s.2)).1.1.remainders.2| ≤ 1/2 := by
    intro w hw
    have hend : ∀ (p : Step ℚ) (t : DeviceWrapper ℚ × VirtualDevice), Keeps remainders p →
        |t.1.remainderX| ≤ 1/2 → |t.1.remainderY| ≤ 1/2 →
        |(p.andThen (modify fun w => { w with remainderX := 0.0 }) t).1.1.remainders.1| ≤ 1/2 ∧
          |(p.andThen (modify fun w => { w with remainderX := 0.0 }) t).1.1.remainders.2| ≤
            1/2 := by
      intro p t hp hx hy
      rw [andThen_changing (g := fun r => ((0.0 : ℚ),r.2)) hp fun _ => rfl]
      split_ifs
      · exact ⟨hzero,hy⟩
      · exact ⟨hx,hy⟩
    exact hend _ (_,s.2) (.ite (.emitRaw _) .skip) hw.x (wheel_carried_le hw.bounded.2 hw.y)
  have hclear : Keeps (F := ℚ) remainders (modify clearDisplacement) := .modify fun _ => rfl
  have hmoved : Centred ({ s.1 with tapEmitted := true } : DeviceWrapper ℚ) :=
    ⟨h.absolute,h.bounded,h.x,h.y⟩
  unfold movementFrame
  dsimp only
  rw [hclear.read_andThen]
  split_ifs
  · exact hmotion _ hmoved
  · exact hscroll _ hmoved
  · exact ⟨h.x,h.y⟩

/-- Under an admitted acceleration it always does, whatever becomes of the writes. -/
theorem Centred.step (h : s.1.Centred) (haccel : |cfg.pointerAcceleration| ≤ 2) :
    (writeStep cfg s i).1.1.Centred := by
  have hzero : |(0.0 : ℚ)| ≤ 1/2 := by norm_num
  have habs : (writeStep cfg s i).1.1.isAbsolute = true :=
    (writeStep_isAbsolute s i).trans h.absolute
  have hbounded : (writeStep cfg s i).1.1.pointing.Bounded := by
    rw [writeStep_pointing h.absolute]
    split_ifs
    · exact h.bounded
    · exact h.bounded.nextShared i.te
  have hremainders : |(writeStep cfg s i).1.1.remainders.1| ≤ 1/2 ∧
      |(writeStep cfg s i).1.1.remainders.2| ≤ 1/2 := by
    by_cases hsyn : i.te.ev.eventType = .synchronization
    · have hcentred : ∀ dwt, (s.1.guarded dwt).Centred := by
        intro dwt
        cases dwt <;> exact ⟨h.absolute,h.bounded,h.x,h.y⟩
      have hpass : ∀ b : Bool, Keeps remainders (if b then emitRaw i.te.ev else .skip) :=
        fun _ => .ite (.emitRaw _) .skip
      change |(processEvent cfg i.typing i.te s).1.1.remainders.1| ≤ 1/2 ∧
        |(processEvent cfg i.typing i.te s).1.1.remainders.2| ≤ 1/2
      rw [processEvent_report cfg _ h.absolute hsyn]
      unfold processSyn
      by_cases hcode : i.te.ev.code = 0
      · rw [if_neg (not_not.mpr hcode)]
        dsimp only
        rw [(hpass _).read_andThen]
        split_ifs
        · exact ⟨hzero,hzero⟩
        · exact movementFrame_centred (hcentred _) haccel
        · exact ⟨(hcentred _).x,(hcentred _).y⟩
      · rw [if_pos hcode]
        exact ⟨(hcentred _).x,(hcentred _).y⟩
    · rw [writeStep_remainders h.absolute hsyn]
      exact ⟨h.x,h.y⟩
  exact ⟨habs,hbounded,hremainders.1,hremainders.2⟩

variable (cfg)

/-- At every step of a run the arithmetic fits. -/
def RunFits (s : DeviceWrapper ℚ × VirtualDevice) (events : List WrapperInput) : Prop :=
  AtEach (fun before i => (run (writeStep cfg) s before).1.1.ArithmeticFits cfg i) events

/-- What the events of a run mark on an axis. -/
def runMarks (a : TouchAxis) (s : DeviceWrapper ℚ × VirtualDevice) (events : List WrapperInput) :
    List (Mark ℤ) := log (writeStep cfg) (marks cfg a) s events

/-- Every total that is rounded and negated is above the end of the range. -/
def WheelsFit (s : DeviceWrapper ℚ × VirtualDevice) (events : List WrapperInput) : Prop :=
  AtEach (fun before i =>
    ∀ q ∈ (run (writeStep cfg) s before).1.1.wheelTotals cfg i, -2^31 + 1/2 < q) events

variable {cfg}

/-- From a wrapper at rest the arithmetic fits exactly if the strokes and the wheel totals do. -/
theorem runFits_iff (habs : s.1.isAbsolute = true) (hrest : ∀ a, s.1.pointing.ruler a = ⟨none,0⟩)
    (events : List WrapperInput) : RunFits cfg s events ↔
      (∀ a, StrokesFit (runMarks cfg a s events)) ∧ WheelsFit cfg s events := by
  have hsums : ∀ a, StrokesFit (runMarks cfg a s events) ↔ AtEach (fun before i =>
      ∀ z ∈ (run (writeStep cfg) s before).1.1.pointing.summed a i.te, FitsI32 z) events := by
    intro a
    rw [StrokesFit,runMarks,← (writeStep_measures cfg a).sums_fit_iff habs (hrest a)
      fun z hz => i32Wrap_of_fits hz]
    refine atEach_congr fun before i after _ _ => ?_
    unfold marks
    split_ifs with hends
    · -- a lift and the end of a frame make no sums
      have hnone : (run (writeStep cfg) s before).1.1.pointing.summed a i.te = [] := by
        exact if_neg fun haxis =>
          hends.1.elim (fun hup => haxis.not_touch hup.1) fun hreport => hreport.not_axis haxis
      rw [hnone]
      exact iff_of_true atEach_nil (List.forall_mem_nil _)
    · exact Pointing.summedShared_iff a _ i.te FitsI32
  simp only [hsums,WheelsFit,← fitsI32_neg_round_iff]
  exact atEach_and.trans (and_congr_left fun _ => atEach_forall)

/-- Under admitted accelerations all wheel totals do. -/
theorem wheelsFit_of_admitted (hs : s.1.Centred) (haccel : |cfg.pointerAcceleration| ≤ 2)
    (events : List WrapperInput) : WheelsFit cfg s events := by
  rintro before i after rfl q hq
  have hcentred : (run (writeStep cfg) s before).1.1.Centred :=
    run_invariant (writeStep cfg) (fun s => s.1.Centred) (fun s i _ h => h.step haccel) hs
  unfold wheelTotals at hq
  split_ifs at hq
  · obtain rfl := List.mem_singleton.mp hq
    have htotal : ∀ (d : ℤ) (r : ℚ), F32.ofI32 d * wheelScale + r =
        FrameMode.gain 0 .scroll * d + r := fun d r => scroll_total 0 r d
    rw [htotal]
    exact wheel_total_above hcentred.bounded.2 hcentred.y
  · cases hq

theorem ruler_new (device : Device) (path : PathBuf) (a : TouchAxis) :
    (.new device path : DeviceWrapper ℚ).pointing.ruler a = ⟨none,0⟩ := by
  cases a <;> rfl

theorem Centred.new (device : AbsoluteDevice) (rawFd : RawFd) (path : PathBuf) :
    Centred (.new ⟨device.1,rawFd,true⟩ path) := by
  have hd : FitsI32 0 := by decide
  have hzero : |(0.0 : ℚ)| ≤ 1/2 := by norm_num
  exact ⟨device.2,⟨hd,hd⟩,hzero,hzero⟩

end DeviceWrapper
end Daemon

/-- Over every run of a touchpad the arithmetic of its displacements fits `i32` exactly if its
strokes and its wheel totals do; the wheel totals do at every admitted speed. In the daemon some
writes may be refused. -/
theorem displacement_arithmetic_fits_iff (device : AbsoluteDevice) (path : PathBuf) (d : DevicePtr)
    (inputs : List (TouchInput ℚ)) (rawFd : RawFd) (cfg : InputConfig ℚ) (v : VirtualDevice)
    (events : List WrapperInput) :
    let td : TrackedDevice ℚ ℚ := .new device.1 path d
    let s : DeviceWrapper ℚ × VirtualDevice := (.new ⟨device.1,rawFd,true⟩ path,v)
    ((td.RunFits inputs ↔ (∀ a, StrokesFit (td.runMarks a inputs)) ∧ td.WheelsFit inputs) ∧
        ((∀ i ∈ inputs, |i.cfgAccel| ≤ 2) → td.WheelsFit inputs)) ∧
      (DeviceWrapper.RunFits cfg s events ↔
          (∀ a, StrokesFit (DeviceWrapper.runMarks cfg a s events)) ∧
            DeviceWrapper.WheelsFit cfg s events) ∧
        (|cfg.pointerAcceleration| ≤ 2 → DeviceWrapper.WheelsFit cfg s events) := by
  intro td s
  have htd : td.Centred := .new device.1 path d
  have hs : s.1.Centred := .new device rawFd path
  refine ⟨⟨TrackedDevice.runFits_iff (TrackedDevice.ruler_new device.1 path d) inputs,
    TrackedDevice.wheelsFit_of_admitted htd⟩,?_,fun haccel => ?_⟩
  · exact DeviceWrapper.runFits_iff hs.absolute (DeviceWrapper.ruler_new _ path) events
  · exact DeviceWrapper.wheelsFit_of_admitted hs haccel events

/-- A coordinate on the horizontal axis. -/
def jumpTo (value : ℤ) : TimedEvent := ⟨⟨0,.absolute,AbsoluteAxisCode.absX,value⟩,0⟩

/-- A finger that moves by a few units, with natural scrolling or without. -/
theorem short_stroke_fits :
    TrackedDevice.RunFits (.new plainTouchpad "/dev/input/event5" 0)
        [⟨jumpTo 100,true,true,0,false⟩,⟨jumpTo 150,true,true,0,false⟩] ∧
      DeviceWrapper.RunFits ⟨true,true,1/4,true⟩
        (.new ⟨plainTouchpad,5,true⟩ "/dev/input/event5",.reliable)
        [⟨jumpTo 100,none⟩,⟨jumpTo 150,none⟩] := by
  have hboth := displacement_arithmetic_fits_iff ⟨plainTouchpad,by decide⟩ "/dev/input/event5" 0
    [⟨jumpTo 100,true,true,0,false⟩,⟨jumpTo 150,true,true,0,false⟩] 5 ⟨true,true,1/4,true⟩
    .reliable [⟨jumpTo 100,none⟩,⟨jumpTo 150,none⟩]
  refine ⟨hboth.1.1.mpr ⟨?_,hboth.1.2 ?_⟩,hboth.2.1.mpr ⟨?_,hboth.2.2 ?_⟩⟩
  · intro a
    cases a <;> decide +kernel
  · simp
  · intro a
    cases a <;> decide +kernel
  · norm_num

/-- A finger that jumps from one end of the range to the other overflows both programs. -/
theorem jump_across_range_overflows :
    ¬ TrackedDevice.RunFits (.new plainTouchpad "/dev/input/event5" 0)
        [⟨jumpTo (-2^31),true,true,0,false⟩,⟨jumpTo (2^31-1),true,true,0,false⟩] ∧
      ¬ DeviceWrapper.RunFits ⟨true,true,1/4,true⟩
        (.new ⟨plainTouchpad,5,true⟩ "/dev/input/event5",.reliable)
        [⟨jumpTo (-2^31),none⟩,⟨jumpTo (2^31-1),none⟩] := by
  refine ⟨fun h => ?_,fun h => ?_⟩
  · exact absurd ((h [_] _ [] rfl).1 .x _ (List.mem_cons_self ..)) (by decide +kernel)
  · exact absurd ((h [_] _ [] rfl).1 .x _ (List.mem_cons_self ..)) (by decide +kernel)

end LibinputRs
