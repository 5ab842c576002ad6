import LibinputRs.Daemon.DeviceWrapper
import LibinputRs.Library.Slots
import LibinputRs.Pipeline.Reflection
import LibinputRs.Pipeline.TouchPointing

/-! The order of the two positions in a frame. The library's axes share the instant of the last
position but each drops only its own coordinate after a stall, so that the second position of the
frame is compared with a coordinate from before the stall. The daemon drops both. -/
namespace LibinputRs
open Automata

variable {F D : Type}

/-- Two numbers of 32 signed bits are the same when they agree modulo `2^32`. -/
theorem accumulate_eq_self_iff {current val : ℤ} {previous : Option ℤ} (hc : FitsI32 current)
    (hv : FitsI32 val) (hp : ∀ p ∈ previous, FitsI32 p) :
    TrackedDevice.accumulate current previous val = current ↔ ∀ p ∈ previous, val = p := by
  cases previous with
  | none => simp [TrackedDevice.accumulate]
  | some p =>
    have hfit := hp p rfl
    simp only [FitsI32] at hc hv hfit
    simp only [TrackedDevice.accumulate,i32Wrap,Option.mem_def,Option.some.injEq,forall_eq',
      Int.bmod_def]
    split_ifs <;> omega

namespace Pointing
variable {p : Pointing}

/-- Its numbers are of 32 signed bits. -/
structure Typed (p : Pointing) : Prop where
  lastX : ∀ x ∈ p.lastX, FitsI32 x
  lastY : ∀ y ∈ p.lastY, FitsI32 y
  currentDx : FitsI32 p.currentDx
  currentDy : FitsI32 p.currentDy

/-- The position repeats the stored coordinates. -/
def Repeats (p : Pointing) (x y : ℤ) : Prop := (∀ x' ∈ p.lastX, x = x') ∧ ∀ y' ∈ p.lastY, y = y'

instance (p : Pointing) (x y : ℤ) : Decidable (p.Repeats x y) :=
  inferInstanceAs (Decidable (_ ∧ _))

theorem stalled_moveX (now : Instant) (x : ℤ) : (p.moveX now x).stalled now = false := by
  simp [stalled,stalledSince,moveX,Instant.elapsed]

theorem stalled_moveY (now : Instant) (y : ℤ) : (p.moveY now y).stalled now = false := by
  simp [stalled,stalledSince,moveY,Instant.elapsed]

/-- The two positions commute unless there was a stall, and after one only when neither differs from
the coordinate stored before it. -/
theorem move_comm_iff (h : p.Typed) {now : Instant} {x y : ℤ} (hx : FitsI32 x) (hy : FitsI32 y) :
    (p.moveX now x).moveY now y = (p.moveY now y).moveX now x ↔
      (p.stalled now = true → p.Repeats x y) := by
  have hX : (p.moveX now x).moveY now y = ⟨some x,some y,
      TrackedDevice.accumulate p.currentDx (if p.stalled now then none else p.lastX) x,
      TrackedDevice.accumulate p.currentDy p.lastY y,some now⟩ := by
    rw [moveY,stalled_moveX]
    rfl
  have hY : (p.moveY now y).moveX now x = ⟨some x,some y,
      TrackedDevice.accumulate p.currentDx p.lastX x,
      TrackedDevice.accumulate p.currentDy (if p.stalled now then none else p.lastY) y,
      some now⟩ := by
    rw [moveX,stalled_moveY]
    rfl
  rw [hX,hY]
  cases hstalled : p.stalled now with
  | false => simp
  | true =>
    have hdx := accumulate_eq_self_iff h.currentDx hx h.lastX
    have hdy := accumulate_eq_self_iff h.currentDy hy h.lastY
    have hnone : ∀ c v, TrackedDevice.accumulate c none v = c := fun _ _ => rfl
    simp only [if_true,hnone,Pointing.mk.injEq,true_and,and_true,Repeats,← hdx,← hdy,
      eq_comm (a := p.currentDx),forall_const]

/-- What events without a position and without an end of a frame make of it. -/
structure Rests (touched : Prop) (p q : Pointing) : Prop where
  lastMovementTime : q.lastMovementTime = p.lastMovementTime
  dropped : touched → q.lastX = none ∧ q.lastY = none
  kept : ¬ touched → q = p
  typed : p.Typed → q.Typed

theorem Typed.touch (h : p.Typed) (value : ℤ) : (p.touch value).Typed := by
  unfold Pointing.touch
  split_ifs
  · exact ⟨by simp,by simp,h.currentDx,h.currentDy⟩
  · have hzero : FitsI32 0 := by decide
    exact ⟨by simp,by simp,hzero,hzero⟩

theorem foldl_rests (p : Pointing) {is : List (TouchInput F)}
    (h : ∀ i ∈ is, ¬ i.te.ev.IsPosition ∧ ¬ i.te.ev.IsReport) :
    Rests (∃ i ∈ is, i.te.ev.IsTouch) p (is.foldl (fun p i => p.next i.te) p) := by
  induction is using List.reverseRecOn with
  | nil => exact ⟨rfl,by simp,fun _ => rfl,id⟩
  | append_singleton is i ih =>
    obtain ⟨hfront,hi⟩ := List.forall_mem_append.mp h
    obtain ⟨hpos,hreport⟩ := hi i List.mem_cons_self
    have hrest := ih hfront
    rw [List.foldl_concat]
    by_cases htouch : i.te.ev.IsTouch
    · rw [next_touch htouch]
      have hdropped : ∀ q : Pointing, (q.touch i.te.ev.value).lastMovementTime = q.lastMovementTime ∧
          (q.touch i.te.ev.value).lastX = none ∧ (q.touch i.te.ev.value).lastY = none := by
        intro q
        unfold Pointing.touch
        split_ifs <;> exact ⟨rfl,rfl,rfl⟩
      refine ⟨(hdropped _).1.trans hrest.lastMovementTime,fun _ => (hdropped _).2,fun hno => ?_,
        fun hp => (hrest.typed hp).touch _⟩
      exact absurd ⟨i,by simp,htouch⟩ hno
    · rw [next_of_neutral htouch hpos hreport]
      have hsame : (∃ j ∈ is ++ [i], j.te.ev.IsTouch) ↔ ∃ j ∈ is, j.te.ev.IsTouch := by
        simp [or_and_right,exists_or,htouch]
      rw [hsame]
      exact hrest

end Pointing

namespace TrackedDevice
variable [F64 D] [F32 F] [FloatCast F D]

/-- In a frame that begins with `front`, with `mid` between the two positions, it makes no difference
which of them comes first: neither to the state at any later moment nor to any answer. -/
def OrderInsignificant (td : TrackedDevice F D) (front mid : List (TouchInput F))
    (x y : TouchInput F) : Prop :=
  ∀ rest, run touchStep td (front ++ x :: (mid ++ y :: rest)) =
    run touchStep td (front ++ y :: (mid ++ x :: rest))

/-- A position changes the position of the finger and nothing that depends on which axis it is. -/
theorem touchStep_position (td : TrackedDevice F D) {i : TouchInput F}
    (h : i.te.ev.IsPosition) : td.touchStep i =
      ((if i.dwtActive then { td with tapEmitted := true } else td).pointed
        (td.pointing.next i.te),[]) := by
  have haxis : ∀ base : TrackedDevice F D,
      base.processAbsoluteAxis i.te = base.pointed (base.pointing.next i.te) := by
    intro base
    rcases h.2 with hcode | hcode
    · rw [processAbsoluteAxis_x _ ⟨h.1,hcode⟩,Pointing.next_x ⟨h.1,hcode⟩]
      rfl
    · rw [processAbsoluteAxis_y _ ⟨h.1,hcode⟩,Pointing.next_y ⟨h.1,hcode⟩]
      rfl
  rw [touchStep_absolute td i h.1,haxis]
  split_ifs <;> rfl

/-- The state after the two positions and what is between them. -/
theorem run_positions (td : TrackedDevice F D) {mid : List (TouchInput F)} {i j : TouchInput F}
    (hi : i.te.ev.IsPosition) (hj : j.te.ev.IsPosition) (hdwt : i.dwtActive = j.dwtActive)
    (hmid : ∀ k ∈ mid, ¬ k.te.ev.IsReport) :
    run touchStep td (i :: (mid ++ [j])) =
      (let s := run touchStep (if j.dwtActive then { td with tapEmitted := true } else td) mid
      ((if j.dwtActive then { s.1 with tapEmitted := true } else s.1).pointed
        ((mid.foldl (fun p k => p.next k.te) (td.pointing.next i.te)).next j.te),s.2)) := by
  have hguard : ∀ (b : TrackedDevice F D) (p : Pointing),
      (if j.dwtActive then { b.pointed p with tapEmitted := true } else b.pointed p) =
        (if j.dwtActive then { b with tapEmitted := true } else b).pointed p := by
    intro b p
    split_ifs <;> rfl
  rw [run_cons,touchStep_position td hi,hdwt,run_append,run_pointed _ _ hmid,run_singleton,
    touchStep_position _ hj,pointing_pointed,hguard]
  simp

/-- The order makes no difference exactly if it makes none to the position of the finger. -/
theorem orderInsignificant_iff_pointing (td : TrackedDevice F D) {front mid : List (TouchInput F)}
    {x y : TouchInput F} (hx : x.te.ev.IsPosition) (hy : y.te.ev.IsPosition)
    (hdwt : x.dwtActive = y.dwtActive) (hmid : ∀ i ∈ mid, ¬ i.te.ev.IsReport) :
    td.OrderInsignificant front mid x y ↔
      (mid.foldl (fun p i => p.next i.te) ((run touchStep td front).1.pointing.next x.te)).next y.te =
        (mid.foldl (fun p i => p.next i.te)
          ((run touchStep td front).1.pointing.next y.te)).next x.te := by
  have hsplit : ∀ (i j : TouchInput F) rest,
      front ++ i :: (mid ++ j :: rest) = front ++ (i :: (mid ++ [j]) ++ rest) := by simp
  constructor
  · intro h
    have hstate := h []
    rw [run_append,run_append,run_positions _ hx hy hdwt hmid,run_positions _ hy hx hdwt.symm hmid]
      at hstate
    exact congrArg (fun r => r.1.pointing) hstate
  · intro h rest
    rw [hsplit,hsplit,run_append,run_append _ _ front,run_append _ _ (x :: _),
      run_append _ _ (y :: _),run_positions _ hx hy hdwt hmid,
      run_positions _ hy hx hdwt.symm hmid,hdwt,h]

/-- For every state of a touchpad and every frame with one position on each axis: their order makes
no difference exactly if no touch is between them and, where the last position is more than 50 ms
old, each of them repeats the coordinate stored, unless a touch in the frame has dropped it. -/
theorem orderInsignificant_iff (td : TrackedDevice F D) (htd : td.pointing.Typed)
    {front mid : List (TouchInput F)} {x y : TouchInput F}
    (hx : x.te.ev.AxisWith AbsoluteAxisCode.absX) (hy : y.te.ev.AxisWith AbsoluteAxisCode.absY)
    (hvx : FitsI32 x.te.ev.value) (hvy : FitsI32 y.te.ev.value)
    (hnow : x.te.now = y.te.now) (hdwt : x.dwtActive = y.dwtActive)
    (hfront : ∀ i ∈ front, ¬ i.te.ev.IsPosition ∧ ¬ i.te.ev.IsReport)
    (hmid : ∀ i ∈ mid, ¬ i.te.ev.IsPosition ∧ ¬ i.te.ev.IsReport) :
    td.OrderInsignificant front mid x y ↔
      (∀ i ∈ mid, ¬ i.te.ev.IsTouch) ∧
        (td.stalled x.te.now = true → (∃ i ∈ front, i.te.ev.IsTouch) ∨
          td.pointing.Repeats x.te.ev.value y.te.ev.value) := by
  rw [td.orderInsignificant_iff_pointing ⟨hx.1,.inl hx.2⟩ ⟨hy.1,.inr hy.2⟩ hdwt
    fun i hi => (hmid i hi).2,run_pointing]
  have hnextX : ∀ p : Pointing, p.next x.te = p.moveX x.te.now x.te.ev.value :=
    fun _ => Pointing.next_x hx
  have hnextY : ∀ p : Pointing, p.next y.te = p.moveY x.te.now y.te.ev.value :=
    fun _ => hnow ▸ Pointing.next_y hy
  simp only [hnextX,hnextY]
  have hrest := Pointing.foldl_rests td.pointing hfront
  generalize front.foldl (fun p i => p.next i.te) td.pointing = p at hrest
  have hfirst := Pointing.foldl_rests (p.moveX x.te.now x.te.ev.value) hmid
  have hsecond := Pointing.foldl_rests (p.moveY x.te.now y.te.ev.value) hmid
  by_cases htouch : ∃ i ∈ mid, i.te.ev.IsTouch
  · -- the coordinate of the axis that comes first is dropped
    refine iff_of_false (fun heq => ?_) fun h => ?_
    · have hnone := (hfirst.dropped htouch).1
      have hlast := congrArg Pointing.lastX heq
      exact Option.some_ne_none _ (hlast.symm.trans hnone)
    · obtain ⟨i,hi,hit⟩ := htouch
      exact h.1 i hi hit
  · rw [hfirst.kept htouch,hsecond.kept htouch,Pointing.move_comm_iff (hrest.typed htd) hvx hvy]
    have hstalled : p.stalled x.te.now = td.stalled x.te.now := by
      rw [Pointing.stalled,hrest.lastMovementTime]
      rfl
    rw [hstalled]
    have hquiet : ∀ i ∈ mid, ¬ i.te.ev.IsTouch := fun i hi h => htouch ⟨i,hi,h⟩
    rw [and_iff_right hquiet]
    refine imp_congr_right fun _ => ?_
    by_cases hdropped : ∃ i ∈ front, i.te.ev.IsTouch
    · obtain ⟨hnoX,hnoY⟩ := hrest.dropped hdropped
      exact iff_of_true ⟨by simp [hnoX],by simp [hnoY]⟩ (.inl hdropped)
    · rw [hrest.kept hdropped]
      exact (or_iff_right hdropped).symm

end TrackedDevice

section Witness

/-- A fresh touchpad on which a finger rests at `(100,100)` from the start of the clock on. -/
def restingFinger : TrackedDevice ℚ ℚ :=
  (run TrackedDevice.touchStep (.new plainTouchpad "/dev/input/event5" 1) (atOnce
    [(.key,KeyCode.btnTouch,1),(.absolute,AbsoluteAxisCode.absX,100),
      (.absolute,AbsoluteAxisCode.absY,100),(.synchronization,0,0)])).1

/-- An event 60 ms later. -/
def afterPause (eventType : EventType) (code : ℕ) (value : ℤ) : TouchInput ℚ :=
  ⟨⟨⟨60000,eventType,code,value⟩,fromMillis 60⟩,true,true,1,false⟩

/-- A finger that rests for 60 ms and then moves on both axes: the axis that is reported last keeps
its displacement, the other one loses it. -/
theorem pause_order_significant : ¬ restingFinger.OrderInsignificant [] []
    (afterPause .absolute AbsoluteAxisCode.absX 150)
    (afterPause .absolute AbsoluteAxisCode.absY 150) := by
  intro h
  exact absurd (congrArg (fun r => r.1.pointing) (h [])) (by decide +kernel)

/-- A finger that is reported where it rested may be reported in either order. -/
theorem rest_order_insignificant : restingFinger.OrderInsignificant [] []
    (afterPause .absolute AbsoluteAxisCode.absX 100)
    (afterPause .absolute AbsoluteAxisCode.absY 100) := by
  have hpositions : restingFinger.pointing = ⟨some 100,some 100,0,0,some 0⟩ := by decide +kernel
  have htyped : restingFinger.pointing.Typed := by
    rw [hpositions]
    exact ⟨by decide,by decide,by decide,by decide⟩
  have hquiet : ∀ i ∈ ([] : List (TouchInput ℚ)),
      ¬ i.te.ev.IsPosition ∧ ¬ i.te.ev.IsReport := List.forall_mem_nil _
  refine (TrackedDevice.orderInsignificant_iff restingFinger htyped ?_ ?_ ?_ ?_ ?_ ?_ hquiet
    hquiet).mpr ⟨List.forall_mem_nil _,fun _ => .inr ?_⟩
  · decide
  · decide
  · decide
  · decide
  · rfl
  · rfl
  · rw [hpositions]
    decide

end Witness

section Daemon

/-- The daemon drops both coordinates after a stall, and its positions commute in every state. -/
theorem DeviceWrapper.processAxis_comm (w : DeviceWrapper F) {x y : TimedEvent}
    (hx : x.ev.AxisWith AbsoluteAxisCode.absX) (hy : y.ev.AxisWith AbsoluteAxisCode.absY)
    (hnow : x.now = y.now) :
    (w.processAxis x).processAxis y = (w.processAxis y).processAxis x := by
  have hdropX : ∀ w : DeviceWrapper F, (w.dropStalled x) =
      { w with
        lastX := if stalledSince w.lastMovementTime x.now then none else w.lastX
        lastY := if stalledSince w.lastMovementTime x.now then none else w.lastY
        lastMovementTime := some x.now } := fun _ => if_pos (.inl hx.2)
  have hdropY : ∀ w : DeviceWrapper F, (w.dropStalled y) =
      { w with
        lastX := if stalledSince w.lastMovementTime x.now then none else w.lastX
        lastY := if stalledSince w.lastMovementTime x.now then none else w.lastY
        lastMovementTime := some x.now } := fun _ => hnow ▸ if_pos (.inr hy.2)
  have hfresh : stalledSince (some x.now) x.now = false := by
    simp [stalledSince,Instant.elapsed]
  have hcode : y.ev.code ≠ AbsoluteAxisCode.absX := by
    rw [hy.2]
    decide
  have hX : ∀ w : DeviceWrapper F, w.processAxis x =
      { w.dropStalled x with
        currentDx := TrackedDevice.accumulate (w.dropStalled x).currentDx (w.dropStalled x).lastX
          x.ev.value
        lastX := some x.ev.value } := fun _ => if_pos hx.2
  have hY : ∀ w : DeviceWrapper F, w.processAxis y =
      { w.dropStalled y with
        currentDy := TrackedDevice.accumulate (w.dropStalled y).currentDy (w.dropStalled y).lastY
          y.ev.value
        lastY := some y.ev.value } := fun _ => (if_neg hcode).trans (if_pos hy.2)
  rw [hX,hY,hdropX,hdropY,hY,hX,hdropX,hdropY]
  simp [hfresh]

end Daemon
end LibinputRs
