import LibinputRs.Daemon.PartialFrames
import LibinputRs.Pipeline.FrameOrder
import LibinputRs.Pipeline.Reflection
import Mathlib.Algebra.Order.Archimedean.Basic

/-! The gain of the pointer under one finger. What a run emits is an integer within one half of the
gain times the displacement, so the direction and the reach of the pointer are those of the gain:
the speed plus one in the library, and in the daemon the acceleration itself. -/
namespace LibinputRs
open Automata

section Laws
variable {σ ι ω : Type}

namespace Meter
variable (m : Meter σ ι ω)

/-- What a run emits. -/
def output (s : σ) (inputs : List ι) : ℚ :=
  tally m.step (fun s i => m.emitted i (m.step s i).2) s inputs

/-- The displacement that the frames of a run report. -/
def travel (s : σ) (inputs : List ι) : ℚ := tally m.step m.reported s inputs

/-- Every input is admitted in the state that reads it. -/
def Along (A : σ → ι → Prop) (s : σ) (inputs : List ι) : Prop :=
  AtEach (fun before i => A (m.after s before) i) inputs

/-- Nothing is emitted against the displacement, and any amount is emitted in the direction of a
displacement that is large enough, and that runs have in either direction. -/
structure PositiveGain (rest : σ → Prop) (A : σ → ι → Prop) : Prop where
  sign : ∀ s inputs, rest s → m.Along A s inputs → 0 ≤ m.output s inputs * m.travel s inputs
  reach : ∀ n : ℕ, ∃ d : ℚ, 0 < d ∧
    (∃ s inputs, rest s ∧ m.Along A s inputs ∧ d ≤ m.travel s inputs) ∧
    (∃ s inputs, rest s ∧ m.Along A s inputs ∧ m.travel s inputs ≤ -d) ∧
    ∀ s inputs, rest s → m.Along A s inputs →
      (d ≤ m.travel s inputs → (n : ℚ) ≤ m.output s inputs) ∧
        (m.travel s inputs ≤ -d → m.output s inputs ≤ -n)

variable {m} {gain : ℚ} {s : σ} {inputs : List ι} {A : σ → ι → Prop}

/-- What every step owes, along a run that keeps an invariant. -/
theorem pays_along {I : σ → Prop} (hstep : ∀ s i, I s → A s i → m.Pays gain s i ∧ I (m.step s i).1)
    (hs : I s) (h : m.Along A s inputs) : m.Along (m.Pays gain) s inputs := by
  induction inputs generalizing s with
  | nil => exact atEach_nil
  | cons i is ih =>
    obtain ⟨hi,his⟩ := atEach_cons.mp h
    obtain ⟨hpays,hnext⟩ := hstep s i hs hi
    exact atEach_cons.mpr ⟨hpays,ih hnext his⟩

/-- A step that pays keeps at most one half. -/
theorem Pays.remainder_le {i : ι} (h : m.Pays gain s i) (hs : |m.remainder s| ≤ 1/2) :
    |m.remainder (m.step s i).1| ≤ 1/2 := by
  by_cases hframe : (m.ev i).IsReport ∧ m.moved s
  · rw [(h.frame hframe.1 hframe.2).2]
    exact abs_sub_roundHalfAway_le _
  · rw [(h.other hframe).2]
    exact hs

/-- A step that pays emits an integer. -/
theorem Pays.emitted_int {i : ι} (h : m.Pays gain s i) :
    ∃ n : ℤ, m.emitted i (m.step s i).2 = n := by
  by_cases hframe : (m.ev i).IsReport ∧ m.moved s
  · exact ⟨_,(h.frame hframe.1 hframe.2).1⟩
  · exact ⟨0,(h.other hframe).1.trans Int.cast_zero.symm⟩

/-- A run that pays from rest emits an integer within one half of its gain. -/
theorem output_of_pays (h : m.Along (m.Pays gain) s inputs) (hs : m.remainder s = 0) :
    ∃ n : ℤ, m.output s inputs = n ∧ |gain * m.travel s inputs - n| ≤ 1/2 := by
  have hint : ∀ {s : σ} {inputs : List ι}, m.Along (m.Pays gain) s inputs →
      ∃ n : ℤ, m.output s inputs = n := by
    intro s inputs h
    induction inputs generalizing s with
    | nil => exact ⟨0,Int.cast_zero.symm⟩
    | cons i is ih =>
      obtain ⟨hi,his⟩ := atEach_cons.mp h
      obtain ⟨n,hn⟩ := Pays.emitted_int hi
      obtain ⟨n',hn'⟩ := ih his
      refine ⟨n + n',?_⟩
      rw [Int.cast_add,← hn,← hn']
      rfl
  have hkept : ∀ {s : σ} {inputs : List ι}, m.Along (m.Pays gain) s inputs →
      |m.remainder s| ≤ 1/2 → |m.remainder (m.after s inputs)| ≤ 1/2 := by
    intro s inputs h hs
    induction inputs generalizing s with
    | nil => exact hs
    | cons i is ih =>
      obtain ⟨hi,his⟩ := atEach_cons.mp h
      exact ih his (Pays.remainder_le hi hs)
  obtain ⟨n,hn⟩ := hint h
  have hbalance := (conserves_of_pays h).1
  have hrest : gain * m.travel s inputs - n = m.remainder (m.after s inputs) := by
    rw [← hn]
    change _ + _ = m.remainder s + gain * m.travel s inputs at hbalance
    rw [hs] at hbalance
    unfold output
    linarith
  refine ⟨n,hn,?_⟩
  rw [hrest]
  exact hkept h (by rw [hs]; norm_num)

/-- Where every run emits an integer within one half of its gain, and the displacements are not
bounded, the gain is positive exactly if its factor is. -/
theorem positiveGain_iff {rest : σ → Prop}
    (houtput : ∀ s inputs, rest s → m.Along A s inputs →
      ∃ n : ℤ, m.output s inputs = n ∧ |gain * m.travel s inputs - n| ≤ 1/2)
    (hright : ∀ d, ∃ s inputs, rest s ∧ m.Along A s inputs ∧ d ≤ m.travel s inputs)
    (hleft : ∀ d, ∃ s inputs, rest s ∧ m.Along A s inputs ∧ m.travel s inputs ≤ -d) :
    m.PositiveGain rest A ↔ 0 < gain := by
  constructor
  · intro h
    by_contra hgain
    obtain ⟨d,hd,⟨s,inputs,hs,hinputs,htravel⟩,_,hreach⟩ := h.reach 1
    obtain ⟨n,hn,hclose⟩ := houtput s inputs hs hinputs
    have hemitted := (hreach s inputs hs hinputs).1 htravel
    have hagainst : gain * m.travel s inputs ≤ 0 :=
      mul_nonpos_of_nonpos_of_nonneg (not_lt.mp hgain) (hd.le.trans htravel)
    rw [hn,Nat.cast_one] at hemitted
    linarith [(abs_le.mp hclose).1]
  · intro hgain
    refine ⟨fun s inputs hs hinputs => ?_,fun n => ?_⟩
    · obtain ⟨n,hn,hclose⟩ := houtput s inputs hs hinputs
      obtain ⟨hlow,hhigh⟩ := abs_le.mp hclose
      rw [hn]
      -- an integer above minus one half is not negative
      rcases le_total 0 (m.travel s inputs) with htravel | htravel
      · have hwith : -1 < (n : ℚ) := by linarith [mul_nonneg hgain.le htravel]
        have hn : -1 < n := by exact_mod_cast hwith
        exact mul_nonneg (by exact_mod_cast Int.add_one_le_of_lt hn) htravel
      · have hwith : (n : ℚ) < 1 := by
          linarith [mul_nonpos_of_nonneg_of_nonpos hgain.le htravel]
        have hn : n < 1 := by exact_mod_cast hwith
        exact mul_nonneg_of_nonpos_of_nonpos (by exact_mod_cast Int.le_of_lt_add_one hn) htravel
    · have hfar : gain * ((n + 1) / gain) = n + 1 := mul_div_cancel₀ _ hgain.ne'
      refine ⟨(n + 1) / gain,by positivity,hright _,hleft _,fun s inputs hs hinputs => ?_⟩
      obtain ⟨k,hk,hclose⟩ := houtput s inputs hs hinputs
      obtain ⟨hlow,hhigh⟩ := abs_le.mp hclose
      rw [hk]
      constructor
      · intro htravel
        have hmore := mul_le_mul_of_nonneg_left htravel hgain.le
        linarith
      · intro htravel
        have hmore := mul_le_mul_of_nonneg_left htravel hgain.le
        linarith

/-- Strokes of one hundred units to the right or to the left add up to any displacement. -/
theorem positiveGain_iff_of_strokes {rest : σ → Prop}
    (houtput : ∀ s inputs, rest s → m.Along A s inputs →
      ∃ n : ℤ, m.output s inputs = n ∧ |gain * m.travel s inputs - n| ≤ 1/2)
    (hstrokes : ∀ d : ℤ, d = 100 ∨ d = -100 → ∀ k : ℕ, ∃ s inputs, rest s ∧ m.Along A s inputs ∧
      m.travel s inputs = k * d) : m.PositiveGain rest A ↔ 0 < gain := by
  refine positiveGain_iff houtput (fun d => ?_) fun d => ?_
  all_goals
    obtain ⟨k,hk⟩ := exists_nat_ge d
    have hnonneg : (0 : ℚ) ≤ k := Nat.cast_nonneg k
  · obtain ⟨s,inputs,hs,hinputs,htravel⟩ := hstrokes 100 (.inl rfl) k
    refine ⟨s,inputs,hs,hinputs,?_⟩
    rw [htravel]
    push_cast
    linarith
  · obtain ⟨s,inputs,hs,hinputs,htravel⟩ := hstrokes (-100) (.inr rfl) k
    refine ⟨s,inputs,hs,hinputs,?_⟩
    rw [htravel]
    push_cast
    linarith

end Meter
end Laws

section Range

/-- With a gain in the admitted range the total of a frame is in the range of `i32`. -/
theorem inRange_total {gain r : ℚ} {d : ℤ} (hgain : |gain| ≤ 0.36) (hd : FitsI32 d)
    (hr : |r| ≤ 1/2) : InRange (gain * d + r) := by
  have hd' : |(d : ℚ)| ≤ 2^31 := by
    obtain ⟨hlow,hhigh⟩ := hd
    rw [abs_le]
    constructor
    · exact_mod_cast hlow
    · exact_mod_cast (by omega : d ≤ 2^31)
  have htotal : |gain * d + r| ≤ 0.36 * 2^31 + 1/2 := by
    refine (abs_add_le _ _).trans (add_le_add ?_ hr)
    rw [abs_mul]
    exact mul_le_mul hgain hd' (abs_nonneg _) (by norm_num)
  have hround := abs_sub_roundHalfAway_le (gain * d + r)
  rw [abs_le] at htotal hround
  generalize gain * d + r = q at htotal hround
  have hlow : (-2^31 : ℚ) ≤ roundHalfAway q := by linarith
  have hhigh : (roundHalfAway q : ℚ) ≤ 2^31 - 1 := by linarith
  exact ⟨by exact_mod_cast hlow,by exact_mod_cast hhigh⟩

theorem abs_pointer_gain {accel : ℚ} (h : |accel| ≤ 2) : |FrameMode.pointer.gain accel| ≤ 0.36 := by
  change |0.18 * accel| ≤ 0.36
  rw [abs_mul,abs_of_pos (by norm_num)]
  linarith

theorem fits_accumulate {current : ℤ} (h : FitsI32 current) (previous : Option ℤ) (val : ℤ) :
    FitsI32 (TrackedDevice.accumulate current previous val) := by
  cases previous with
  | none => exact h
  | some p => exact fitsI32_i32Wrap _

namespace Pointing
variable {p : Pointing}

/-- The displacement is one of `i32`. -/
def Bounded (p : Pointing) : Prop := FitsI32 p.currentDx ∧ FitsI32 p.currentDy

theorem Bounded.next (h : p.Bounded) (te : TimedEvent) : (p.next te).Bounded := by
  have hzero : FitsI32 0 := by decide
  unfold Pointing.next Pointing.touch
  split_ifs
  · exact h
  · exact ⟨hzero,hzero⟩
  · exact ⟨fits_accumulate h.1 _ _,h.2⟩
  · exact ⟨h.1,fits_accumulate h.2 _ _⟩
  · exact ⟨hzero,hzero⟩
  · exact h

theorem Bounded.nextShared (h : p.Bounded) (te : TimedEvent) : (p.nextShared te).Bounded := by
  have hshared : (p.shared te).Bounded := by
    unfold shared
    split_ifs <;> exact h
  exact hshared.next te

end Pointing
end Range

section Strokes

/-- A finger that lands, moves along an axis in one frame, and lifts. -/
def padStroke (a : TouchAxis) (d : ℤ) : List TimedEvent :=
  [(.key,KeyCode.btnTouch,1),(.absolute,a.select AbsoluteAxisCode.absX AbsoluteAxisCode.absY,0),
    (.absolute,a.select AbsoluteAxisCode.absX AbsoluteAxisCode.absY,d),(.synchronization,0,0),
    (.key,KeyCode.btnTouch,0)].map fun e => ⟨⟨0,e.1,e.2.1,e.2.2⟩,0⟩

def padStrokes (a : TouchAxis) (d : ℤ) (k : ℕ) : List TimedEvent :=
  (List.replicate k (padStroke a d)).flatten

/-- The events of a stroke are touches, positions and frame ends. -/
theorem padStrokes_events (a : TouchAxis) (d : ℤ) (k : ℕ) : ∀ te ∈ padStrokes a d k,
    te.ev.IsTouch ∨ te.ev.IsPosition ∨ te.ev.IsReport := by
  have hstroke : ∀ te ∈ padStroke a d, te.ev.IsTouch ∨ te.ev.IsPosition ∨ te.ev.IsReport := by
    intro te hte
    simp only [padStroke,List.map_cons,List.map_nil,List.mem_cons,List.not_mem_nil,or_false] at hte
    rcases hte with rfl | rfl | rfl | rfl | rfl
    · exact .inl ⟨rfl,rfl⟩
    · exact .inr (.inl ⟨rfl,by cases a <;> simp [TouchAxis.select]⟩)
    · exact .inr (.inl ⟨rfl,by cases a <;> simp [TouchAxis.select]⟩)
    · exact .inr (.inr ⟨rfl,rfl⟩)
    · exact .inl ⟨rfl,rfl⟩
  intro te hte
  obtain ⟨l,hl,hte⟩ := List.mem_flatten.mp hte
  exact hstroke te (List.eq_of_mem_replicate hl ▸ hte)

namespace Pointing

/-- The displacement that an event reports. -/
def reported (a : TouchAxis) (p : Pointing) (te : TimedEvent) : ℚ :=
  if te.ev.IsReport then a.select p.currentDx p.currentDy else 0

/-- No finger is down, and nothing has moved. -/
def IsIdle (p : Pointing) : Prop := p = ⟨none,none,0,0,none⟩ ∨ p = ⟨none,none,0,0,some 0⟩

/-- The displacement of some padStrokes, in a program with either rule for stalls. -/
theorem padStrokes_travel {next : Pointing → TimedEvent → Pointing}
    (hnext : next = Pointing.next ∨ next = Pointing.nextShared) (a : TouchAxis) {d : ℤ}
    (hd : d = 100 ∨ d = -100) {p : Pointing} (hp : p.IsIdle) (k : ℕ) :
    tally (fun p te => (next p te,([] : List Empty))) (reported a) p (padStrokes a d k) = k * d := by
  have hstroke : ∀ {p : Pointing}, p.IsIdle →
      (run (fun p te => (next p te,([] : List Empty))) p (padStroke a d)).1.IsIdle ∧
        tally (fun p te => (next p te,([] : List Empty))) (reported a) p (padStroke a d) = d := by
    intro p hp
    rcases hnext with rfl | rfl <;> rcases hd with rfl | rfl <;> rcases hp with rfl | rfl <;>
      cases a <;> exact ⟨.inr (by decide +kernel),by decide +kernel⟩
  induction k generalizing p with
  | zero => simp [padStrokes]
  | succ k ih =>
    obtain ⟨hidle,htravel⟩ := hstroke hp
    have hcons : padStrokes a d (k + 1) = padStroke a d ++ padStrokes a d k := by
      rw [padStrokes,List.replicate_succ,List.flatten_cons]
      rfl
    rw [hcons,tally_append,htravel,ih hidle,Nat.cast_succ]
    ring

end Pointing
end Strokes

section Library
variable {speed : ℚ} {a : TouchAxis} {td : TrackedDevice ℚ ℚ} {i : TouchInput ℚ}

/-- The event comes outside the typing window and outside a pinch, under the acceleration of the
speed, and a frame with displacement is one of at most one finger. -/
structure OneFinger (speed : ℚ) (td : TrackedDevice ℚ ℚ) (i : TouchInput ℚ) : Prop where
  awake : i.dwtActive = false
  closed : td.pinchActive = false
  factor : i.cfgAccel = FloatCast.toF32 speed + 1.0
  fits : i.te.ev.IsReport → td.currentDx ≠ 0 ∨ td.currentDy ≠ 0 →
    max td.activeSlotCount td.touchFingers ≤ 1

/-- A state that carries no remainder on the axis. -/
def LibraryRest (a : TouchAxis) (td : TrackedDevice ℚ ℚ) : Prop :=
  (libraryMeter .pointer a).remainder td = 0 ∧ td.pointing.Bounded

/-- The factor that a speed is turned into. -/
theorem abs_factor_le (hspeed : -1 ≤ speed ∧ speed ≤ 1) :
    |(FloatCast.toF32 speed + 1.0 : ℚ)| ≤ 2 := by
  have hfactor : (FloatCast.toF32 speed + 1.0 : ℚ) = speed + 1 := by
    change speed + (1.0 : ℚ) = _
    norm_num
  rw [hfactor,abs_le]
  constructor <;> linarith [hspeed.1,hspeed.2]

/-- Under an admitted speed a frame of one finger pays what it owes. -/
theorem OneFinger.pays (h : OneFinger speed td i) (hspeed : -1 ≤ speed ∧ speed ≤ 1)
    (hrem : |(libraryMeter .pointer a).remainder td| ≤ 1/2) (hd : td.pointing.Bounded) :
    (libraryMeter .pointer a).Pays (FrameMode.pointer.gain (FloatCast.toF32 speed + 1.0)) td i := by
  have hdisplacement : FitsI32 ((libraryMeter .pointer a).displacement td) := by
    cases a
    · exact hd.1
    · exact hd.2
  have hsegment : LibrarySegment .pointer (FloatCast.toF32 speed + 1.0) a td i :=
    ⟨h.awake,h.closed,h.factor,h.fits,fun _ _ =>
      inRange_total (abs_pointer_gain (abs_factor_le hspeed)) hdisplacement hrem⟩
  exact hsegment.pays

/-- What a run of one finger emits. -/
theorem library_output (hspeed : -1 ≤ speed ∧ speed ≤ 1) (td : TrackedDevice ℚ ℚ)
    (inputs : List (TouchInput ℚ)) (hrest : LibraryRest a td)
    (h : (libraryMeter .pointer a).Along (OneFinger speed) td inputs) :
    ∃ n : ℤ, (libraryMeter .pointer a).output td inputs = n ∧
      |FrameMode.pointer.gain (FloatCast.toF32 speed + 1.0) *
        (libraryMeter .pointer a).travel td inputs - n| ≤ 1/2 := by
  refine Meter.output_of_pays (Meter.pays_along (I := fun td =>
    |(libraryMeter .pointer a).remainder td| ≤ 1/2 ∧ td.pointing.Bounded) ?_ ?_ h) hrest.1
  · rintro td i ⟨hrem,hd⟩ hi
    have hpays := hi.pays hspeed hrem hd
    refine ⟨hpays,hpays.remainder_le hrem,?_⟩
    rw [show ((libraryMeter .pointer a).step td i).1 = (td.touchStep i).1 from rfl,
      TrackedDevice.touchStep_pointing]
    exact hd.next i.te
  · rw [hrest.1]
    exact ⟨by norm_num,hrest.2⟩

/-- No pinch, no contact in a slot, and at most one finger. -/
structure SingleFinger (td : TrackedDevice ℚ ℚ) : Prop where
  closed : td.pinchActive = false
  slots : td.activeSlotCount = 0
  fingers : td.touchFingers ≤ 1

/-- Touches, positions and frame ends put down no second finger. -/
theorem SingleFinger.step (h : SingleFinger td) (hawake : i.dwtActive = false)
    (hev : i.te.ev.IsTouch ∨ i.te.ev.IsPosition ∨ i.te.ev.IsReport) :
    SingleFinger (td.touchStep i).1 := by
  rcases hev with htouch | hpos | hreport
  · rw [td.touchStep_key i htouch.1,hawake,if_neg Bool.false_ne_true,
      TrackedDevice.processAbsoluteKey,if_pos htouch.2]
    split_ifs
    · have hbase : td.pinchBase = none := by
        rw [TrackedDevice.pinchBase,h.slots]
        rfl
      have hfingers : max td.activeSlotCount 1 ≤ 1 := by
        rw [h.slots]
        decide
      have hdown := TrackedDevice.touchDown_eq i.te td
      rw [hbase] at hdown
      rw [hdown]
      exact ⟨h.closed,h.slots,hfingers⟩
    · exact ⟨rfl,h.slots,Nat.zero_le _⟩
  · rw [td.touchStep_position hpos,hawake]
    exact ⟨h.closed,h.slots,h.fingers⟩
  · rw [TrackedDevice.touchStep_syn i hawake h.closed hreport.1]
    have hmove : SingleFinger (td.movementFrame i.te i.cfgNat i.cfgAccel).1 := by
      unfold TrackedDevice.movementFrame
      dsimp only
      split_ifs <;> exact ⟨h.closed,h.slots,h.fingers⟩
    split_ifs
    · exact hmove
    · exact h

/-- The input of an event under a speed, with the touchpad awake. -/
def speedInput (speed : ℚ) (te : TimedEvent) : TouchInput ℚ :=
  ⟨te,true,true,FloatCast.toF32 speed + 1.0,false⟩

/-- Strokes on a fresh touchpad are runs of one finger, whose displacements add up. -/
theorem library_strokes (speed : ℚ) (a : TouchAxis) {d : ℤ} (hd : d = 100 ∨ d = -100) (k : ℕ) :
    ∃ td inputs, LibraryRest a td ∧ (libraryMeter .pointer a).Along (OneFinger speed) td inputs ∧
      (libraryMeter .pointer a).travel td inputs = k * d := by
  refine ⟨.new plainTouchpad "/dev/input/event5" 0,(padStrokes a d k).map (speedInput speed),
    ⟨by cases a <;> decide +kernel,by decide,by decide⟩,?_,?_⟩
  · rintro before i back heq
    have hinputs : ∀ i ∈ (padStrokes a d k).map (speedInput speed), i.dwtActive = false ∧
        i.cfgAccel = FloatCast.toF32 speed + 1.0 ∧
        (i.te.ev.IsTouch ∨ i.te.ev.IsPosition ∨ i.te.ev.IsReport) :=
      List.forall_mem_map.mpr fun te hte => ⟨rfl,rfl,padStrokes_events a d k te hte⟩
    rw [heq] at hinputs
    have hsingle : SingleFinger ((libraryMeter .pointer a).after
        (.new plainTouchpad "/dev/input/event5" 0) before) := by
      refine run_invariant TrackedDevice.touchStep SingleFinger (fun td i hi h => ?_)
        ⟨rfl,by decide,by decide⟩
      obtain ⟨hawake,_,hev⟩ := hinputs i (by simp [hi])
      exact h.step hawake hev
    obtain ⟨hawake,hfactor,_⟩ := hinputs i (by simp)
    refine ⟨hawake,hsingle.closed,hfactor,fun _ _ => ?_⟩
    rw [hsingle.slots]
    exact max_le (Nat.zero_le 1) hsingle.fingers
  · refine Eq.trans (tally_map TrackedDevice.pointing _ _ (Pointing.reported a) (I := fun _ => True)
      (fun td te _ => ⟨trivial,?_⟩) (fun td te => ?_) trivial _)
      (Pointing.padStrokes_travel (.inl rfl) a hd (.inl rfl) k)
    · exact td.touchStep_pointing (speedInput speed te)
    · cases a <;> rfl

/-- The gain of the library is positive exactly at every speed but the least. -/
theorem library_positiveGain_iff (a : TouchAxis) (hspeed : -1 ≤ speed ∧ speed ≤ 1) :
    (libraryMeter .pointer a).PositiveGain (LibraryRest a) (OneFinger speed) ↔ -1 < speed := by
  have hgain : 0 < FrameMode.pointer.gain (FloatCast.toF32 speed + 1.0) ↔ -1 < speed := by
    change 0 < (0.18 : ℚ) * (speed + 1.0) ↔ _
    constructor <;> intro h <;> linarith
  rw [← hgain]
  exact Meter.positiveGain_iff_of_strokes (library_output hspeed) fun d hd k =>
    library_strokes speed a hd k

end Library

section Daemon
variable {cfg : InputConfig ℚ} {a : TouchAxis} {w : DeviceWrapper ℚ} {i : WrapperInput}

/-- The event comes outside the typing window, and a frame with displacement is one of at most one
finger. -/
structure WrapperOneFinger (cfg : InputConfig ℚ) (w : DeviceWrapper ℚ) (i : WrapperInput) :
    Prop where
  awake : DeviceWrapper.dwtActive cfg i.typing i.te.now = false
  fits : i.te.ev.IsReport → w.currentDx ≠ 0 ∨ w.currentDy ≠ 0 → w.touchFingers ≤ 1

/-- A touchpad that carries no remainder on the axis. -/
def DaemonRest (cfg : InputConfig ℚ) (a : TouchAxis) (w : DeviceWrapper ℚ) : Prop :=
  w.isAbsolute = true ∧ (daemonMeter cfg .pointer a).remainder w = 0 ∧ w.pointing.Bounded

/-- Under an admitted acceleration a frame of one finger pays what it owes. -/
theorem WrapperOneFinger.pays (h : WrapperOneFinger cfg w i) (haccel : |cfg.pointerAcceleration| ≤ 2)
    (habs : w.isAbsolute = true) (hrem : |(daemonMeter cfg .pointer a).remainder w| ≤ 1/2)
    (hd : w.pointing.Bounded) :
    (daemonMeter cfg .pointer a).Pays (FrameMode.pointer.gain cfg.pointerAcceleration) w i := by
  have hdisplacement : FitsI32 ((daemonMeter cfg .pointer a).displacement w) := by
    cases a
    · exact hd.1
    · exact hd.2
  have hsegment : DaemonSegment cfg .pointer a w i :=
    ⟨h.awake,h.fits,fun _ _ => inRange_total (abs_pointer_gain haccel) hdisplacement hrem⟩
  exact hsegment.pays habs nofun

/-- What a run of one finger emits. -/
theorem daemon_output (haccel : |cfg.pointerAcceleration| ≤ 2) (w : DeviceWrapper ℚ)
    (inputs : List WrapperInput) (hrest : DaemonRest cfg a w)
    (h : (daemonMeter cfg .pointer a).Along (WrapperOneFinger cfg) w inputs) :
    ∃ n : ℤ, (daemonMeter cfg .pointer a).output w inputs = n ∧
      |FrameMode.pointer.gain cfg.pointerAcceleration *
        (daemonMeter cfg .pointer a).travel w inputs - n| ≤ 1/2 := by
  refine Meter.output_of_pays (Meter.pays_along (I := fun w => w.isAbsolute = true ∧
    |(daemonMeter cfg .pointer a).remainder w| ≤ 1/2 ∧ w.pointing.Bounded) ?_ ?_ h) hrest.2.1
  · rintro w i ⟨habs,hrem,hd⟩ hi
    have hpays := hi.pays haccel habs hrem hd
    refine ⟨hpays,(w.eventStep_isAbsolute cfg i).trans habs,hpays.remainder_le hrem,?_⟩
    rw [show ((daemonMeter cfg .pointer a).step w i).1 = (w.eventStep cfg i).1 from rfl,
      w.eventStep_pointing cfg i habs]
    exact hd.nextShared i.te
  · rw [hrest.2.1]
    exact ⟨hrest.1,by norm_num,hrest.2.2⟩

/-- Touches, positions and frame ends put down no second finger. -/
theorem eventStep_touchFingers (habs : w.isAbsolute = true) (hfew : w.touchFingers ≤ 1)
    (hawake : DeviceWrapper.dwtActive cfg i.typing i.te.now = false)
    (hev : i.te.ev.IsTouch ∨ i.te.ev.IsPosition ∨ i.te.ev.IsReport) :
    (w.eventStep cfg i).1.touchFingers ≤ 1 := by
  have hmove : (DeviceWrapper.reliably (DeviceWrapper.movementFrame cfg) w).1.touchFingers =
      w.touchFingers := by
    rw [DeviceWrapper.reliably_movementFrame]
    dsimp only
    rw [if_pos hfew,DeviceWrapper.reliably_motionFrame]
    rfl
  rcases hev with htouch | hpos | hreport
  · change (DeviceWrapper.processEvent cfg i.typing i.te (w,.reliable)).1.1.touchFingers ≤ 1
    by_cases hvalue : i.te.ev.value = 0
    · rw [DeviceWrapper.processEvent_touchUp cfg _ habs htouch hvalue]
      have hup := fun w => DeviceWrapper.reliably_touchUp i.te cfg
        (DeviceWrapper.dwtActive cfg i.typing i.te.now) w
      exact (congrArg (·.1.touchFingers) (hup _)).trans_le (Nat.zero_le 1)
    · rw [DeviceWrapper.processEvent_touchDown cfg _ habs htouch hvalue]
      exact Nat.le_refl 1
  · rw [DeviceWrapper.eventStep,DeviceWrapper.reliably_processEvent_absolute cfg _ _ habs,
      DeviceWrapper.reliably_processAbsolute_axis _ _ _ _ hpos.1]
    have haxis := DeviceWrapper.processAxis_frame (·.touchFingers) (fun _ _ _ _ _ _ => rfl) i.te
      ((w.trackKey i.te).guarded (DeviceWrapper.dwtActive cfg i.typing i.te.now))
    have hfound := DeviceWrapper.found_frame (·.touchFingers) (fun _ _ _ _ _ => rfl) i.te
      (DeviceWrapper.dwtActive cfg i.typing i.te.now) w
    exact (haxis.trans hfound).trans_le hfew
  · rw [DeviceWrapper.eventStep_syn habs hawake hreport.1]
    split_ifs
    · exact hmove.trans_le hfew
    · exact hfew

/-- Strokes on a fresh touchpad are runs of one finger, whose displacements add up. -/
theorem daemon_strokes (cfg : InputConfig ℚ) (a : TouchAxis) {d : ℤ} (hd : d = 100 ∨ d = -100)
    (k : ℕ) : ∃ w inputs, DaemonRest cfg a w ∧
      (daemonMeter cfg .pointer a).Along (WrapperOneFinger cfg) w inputs ∧
      (daemonMeter cfg .pointer a).travel w inputs = k * d := by
  have hawake : ∀ now, DeviceWrapper.dwtActive cfg none now = false :=
    fun _ => Bool.and_false _
  have hremainder : (daemonMeter cfg .pointer a).remainder
      (.new ⟨plainTouchpad,5,true⟩ "/dev/input/event5") = 0 := by
    have hzero : (0.0 : ℚ) = 0 := by norm_num
    cases a <;> exact hzero
  refine ⟨.new ⟨plainTouchpad,5,true⟩ "/dev/input/event5",(padStrokes a d k).map (⟨·,none⟩),
    ⟨by decide,hremainder,by decide,by decide⟩,?_,?_⟩
  · rintro before i back heq
    have hinputs : ∀ i ∈ (padStrokes a d k).map (fun te => (⟨te,none⟩ : WrapperInput)),
        i.typing = none ∧ (i.te.ev.IsTouch ∨ i.te.ev.IsPosition ∨ i.te.ev.IsReport) :=
      List.forall_mem_map.mpr fun te hte => ⟨rfl,padStrokes_events a d k te hte⟩
    rw [heq] at hinputs
    have hsingle : ((daemonMeter cfg .pointer a).after
        (.new ⟨plainTouchpad,5,true⟩ "/dev/input/event5") before).isAbsolute = true ∧
        ((daemonMeter cfg .pointer a).after
          (.new ⟨plainTouchpad,5,true⟩ "/dev/input/event5") before).touchFingers ≤ 1 := by
      refine run_invariant (DeviceWrapper.eventStep cfg)
        (fun w => w.isAbsolute = true ∧ w.touchFingers ≤ 1) (fun w i hi h => ?_)
        ⟨by decide,by decide⟩
      obtain ⟨htyping,hev⟩ := hinputs i (by simp [hi])
      exact ⟨(w.eventStep_isAbsolute cfg i).trans h.1,
        eventStep_touchFingers h.1 h.2 (htyping ▸ hawake _) hev⟩
    obtain ⟨htyping,_⟩ := hinputs i (by simp)
    exact ⟨htyping ▸ hawake _,fun _ _ => hsingle.2⟩
  · refine Eq.trans (tally_map DeviceWrapper.pointing _ _ (Pointing.reported a)
      (I := fun w => w.isAbsolute = true) (fun w te habs => ?_) (fun w te => ?_) (by decide) _)
      (Pointing.padStrokes_travel (.inr rfl) a hd (.inl rfl) k)
    · exact ⟨(w.eventStep_isAbsolute cfg _).trans habs,w.eventStep_pointing cfg ⟨te,none⟩ habs⟩
    · cases a <;> rfl

/-- The gain of the daemon is positive exactly at every acceleration above zero. -/
theorem daemon_positiveGain_iff (a : TouchAxis) (haccel : |cfg.pointerAcceleration| ≤ 2) :
    (daemonMeter cfg .pointer a).PositiveGain (DaemonRest cfg a) (WrapperOneFinger cfg) ↔
      0 < cfg.pointerAcceleration := by
  have hgain : 0 < FrameMode.pointer.gain cfg.pointerAcceleration ↔
      0 < cfg.pointerAcceleration := by
    change 0 < (0.18 : ℚ) * cfg.pointerAcceleration ↔ _
    exact mul_pos_iff_of_pos_left (by norm_num)
  rw [← hgain]
  exact Meter.positiveGain_iff_of_strokes (daemon_output haccel) fun d hd k =>
    daemon_strokes cfg a hd k

end Daemon

/-- Over every run of one finger the pointer follows the finger, and comes as far as one likes:
in the library at every admitted speed but the least, in the daemon at the accelerations above zero
only, which leaves out one half of the admitted ones. -/
theorem pointer_follows_finger_iff (a b : TouchAxis) (speed : ℚ) (hspeed : -1 ≤ speed ∧ speed ≤ 1)
    (cfg : InputConfig ℚ) (haccel : -1 ≤ cfg.pointerAcceleration ∧ cfg.pointerAcceleration ≤ 1) :
    ((libraryMeter .pointer a).PositiveGain (LibraryRest a) (OneFinger speed) ↔ -1 < speed) ∧
      ((daemonMeter cfg .pointer b).PositiveGain (DaemonRest cfg b) (WrapperOneFinger cfg) ↔
        0 < cfg.pointerAcceleration) := by
  refine ⟨library_positiveGain_iff a hspeed,daemon_positiveGain_iff b (abs_le.mpr ⟨?_,?_⟩)⟩
  · linarith [haccel.1]
  · linarith [haccel.2]

/-- The default speed of the library and a quarter of the acceleration of the daemon. -/
theorem pointer_follows_at_default :
    ((libraryMeter .pointer .x).PositiveGain (LibraryRest .x) (OneFinger 0) ↔ -1 < (0 : ℚ)) ∧
      ((daemonMeter ⟨true,true,1/4,true⟩ .pointer .x).PositiveGain
        (DaemonRest ⟨true,true,1/4,true⟩ .x) (WrapperOneFinger ⟨true,true,1/4,true⟩) ↔
          0 < (1/4 : ℚ)) :=
  pointer_follows_finger_iff .x .x 0 (by norm_num) ⟨true,true,1/4,true⟩ (by norm_num)

/-- Under the configuration of the README, whose acceleration is zero, and under one of minus one
half, the pointer of the daemon does not follow the finger; nor does that of the library at the
least speed. -/
theorem pointer_stands_or_turns_back :
    ¬ (daemonMeter ⟨true,true,0,true⟩ .pointer .x).PositiveGain (DaemonRest ⟨true,true,0,true⟩ .x)
        (WrapperOneFinger ⟨true,true,0,true⟩) ∧
      ¬ (daemonMeter ⟨true,true,-1/2,true⟩ .pointer .x).PositiveGain
        (DaemonRest ⟨true,true,-1/2,true⟩ .x) (WrapperOneFinger ⟨true,true,-1/2,true⟩) ∧
      ¬ (libraryMeter .pointer .x).PositiveGain (LibraryRest .x) (OneFinger (-1)) := by
  refine ⟨fun h => ?_,fun h => ?_,fun h => ?_⟩
  · exact absurd ((daemon_positiveGain_iff .x (by norm_num)).mp h) (by norm_num)
  · exact absurd ((daemon_positiveGain_iff .x (by norm_num)).mp h) (by norm_num)
  · exact absurd ((library_positiveGain_iff .x (by norm_num)).mp h) (by norm_num)

end LibinputRs
