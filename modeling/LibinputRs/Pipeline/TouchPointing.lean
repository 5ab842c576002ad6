import LibinputRs.Automata.Symmetry
import LibinputRs.Library.Pinch
import LibinputRs.Pipeline.Pointing

/-! The position of the finger in the library. Every event changes it as it would on its own, and
up to the end of a frame nothing else depends on it. -/
namespace LibinputRs
open Automata

variable {F D : Type}

namespace TrackedDevice

def pointing (td : TrackedDevice F D) : Pointing :=
  ⟨td.lastX,td.lastY,td.currentDx,td.currentDy,td.lastMovementTime⟩

/-- The same device with another position of the finger. -/
def pointed (td : TrackedDevice F D) (p : Pointing) : TrackedDevice F D :=
  { td with
    lastX := p.lastX
    lastY := p.lastY
    currentDx := p.currentDx
    currentDy := p.currentDy
    lastMovementTime := p.lastMovementTime }

@[simp] theorem pointing_pointed (td : TrackedDevice F D) (p : Pointing) :
    (td.pointed p).pointing = p := rfl

@[simp] theorem pointed_pointed (td : TrackedDevice F D) (p q : Pointing) :
    (td.pointed p).pointed q = td.pointed q := rfl

theorem pointed_pointing (td : TrackedDevice F D) : td.pointed td.pointing = td := rfl

/-- The outcome for a device of which only the position of the finger is another. -/
def Points (q : Pointing) (r r' : TrackedDevice F D × List (LibinputEvent D)) : Prop :=
  r = (r'.1.pointed q,r'.2)

theorem Points.ite {q : Pointing} {r r' s s' : TrackedDevice F D × List (LibinputEvent D)}
    {c : Prop} {_ : Decidable c} (hr : c → Points q r r') (hs : ¬ c → Points q s s') :
    Points q (if c then r else s) (if c then r' else s') := by
  split_ifs with hc
  · exact hr hc
  · exact hs hc

theorem ite_pointed {q : Pointing} {x x' y y' : TrackedDevice F D} {c : Prop} {_ : Decidable c}
    (hx : c → x = x'.pointed q) (hy : ¬ c → y = y'.pointed q) :
    (if c then x else y) = (if c then x' else y').pointed q := by
  split_ifs with hc
  · exact hx hc
  · exact hy hc

variable [F64 D]

theorem touchDown_points (te : TimedEvent) (td : TrackedDevice F D) (p : Pointing) :
    Points { p with lastX := none, lastY := none } ((td.pointed p).touchDown te)
      (td.touchDown te) := by
  have hbase : (td.pointed p).pinchBase = td.pinchBase := rfl
  rw [touchDown_eq,touchDown_eq,hbase]
  cases td.pinchBase <;> rfl

omit [F64 D] in
theorem physicalClick_points (te : TimedEvent) (td : TrackedDevice F D) (p : Pointing) :
    Points p ((td.pointed p).physicalClick te) (td.physicalClick te) :=
  physicalClick_commutes (·.pointed p) (fun _ => ⟨rfl,rfl,rfl⟩) (fun _ _ => rfl) te td

theorem processAbsoluteKey_points (te : TimedEvent) (cfgTap dwt : Bool) (td : TrackedDevice F D)
    (p : Pointing) (hkey : te.ev.eventType = .key) :
    Points (p.next te) ((td.pointed p).processAbsoluteKey te cfgTap dwt)
      (td.processAbsoluteKey te cfgTap dwt) := by
  refine .ite (fun htouch => ?_) fun htouch => ?_
  · rw [Pointing.next_touch ⟨hkey,htouch⟩]
    unfold Pointing.touch
    by_cases hvalue : te.ev.value = 0
    · have hno : ¬ te.ev.value ≠ 0 := not_not.mpr hvalue
      rw [if_neg hno,if_neg hno,if_neg hno]
      rfl
    · rw [if_pos hvalue,if_pos hvalue,if_pos hvalue]
      exact td.touchDown_points te p
  · rw [Pointing.next_of_key hkey fun h => htouch h.2]
    exact .ite (fun _ => rfl) fun _ => .ite (fun _ => rfl) fun _ => .ite (fun _ => rfl)
      fun _ => td.physicalClick_points te p

/-- The two positions change it alone, and no other absolute event does. -/
theorem processAbsoluteAxis_pointed (te : TimedEvent) (td : TrackedDevice F D) (p : Pointing)
    (habs : te.ev.eventType = .absolute) :
    (td.pointed p).processAbsoluteAxis te = (td.processAbsoluteAxis te).pointed (p.next te) := by
  by_cases hx : te.ev.AxisWith AbsoluteAxisCode.absX
  · rw [processAbsoluteAxis_x _ hx,processAbsoluteAxis_x _ hx,Pointing.next_x hx]
    rfl
  · by_cases hy : te.ev.AxisWith AbsoluteAxisCode.absY
    · rw [processAbsoluteAxis_y _ hy,processAbsoluteAxis_y _ hy,Pointing.next_y hy]
      rfl
    · have hkept : p.next te = p := by
        rw [Pointing.next_of_absolute habs,if_neg fun h => hx ⟨habs,h⟩,if_neg fun h => hy ⟨habs,h⟩]
      rw [hkept]
      refine ite_pointed (fun _ => ite_pointed (fun _ => rfl) fun _ => rfl) fun _ =>
        ite_pointed (fun _ => rfl) fun _ => ite_pointed (fun _ => rfl) fun _ =>
        ite_pointed (fun _ => rfl) fun _ => ite_pointed (fun _ => rfl) fun _ =>
        ite_pointed (fun h => absurd ⟨habs,h⟩ hx) fun _ =>
        ite_pointed (fun h => absurd ⟨habs,h⟩ hy) fun _ => rfl

variable [F32 F] [FloatCast F D]

/-- The end of a frame drops the displacement, whatever becomes of it. -/
theorem processSyn_pointing (te : TimedEvent) (cfgNat : Bool) (cfgAccel : F) (dwt : Bool)
    (td : TrackedDevice F D) (hcode : te.ev.code = 0) :
    (td.processSyn te cfgNat cfgAccel dwt).1.pointing = td.pointing.report := by
  have hmove : (td.movementFrame te cfgNat cfgAccel).1.pointing = td.pointing.report := by
    unfold movementFrame
    dsimp only
    split_ifs <;> rfl
  unfold processSyn
  rw [if_neg (not_not.mpr hcode)]
  split_ifs with hpinch hdwt hmoved
  · rfl
  · rfl
  · exact hmove
  · obtain ⟨hdx,hdy⟩ := not_or.mp hmoved
    unfold Pointing.report pointing
    rw [not_not.mp hdx,not_not.mp hdy]

variable {i : TouchInput F}

/-- Up to the end of a frame the position of the finger evolves on its own, and nothing else
depends on it. -/
theorem touchStep_pointed (td : TrackedDevice F D) (p : Pointing) (h : ¬ i.te.ev.IsReport) :
    (td.pointed p).touchStep i = ((td.touchStep i).1.pointed (p.next i.te),(td.touchStep i).2) := by
  obtain ⟨base,hbase,hbase'⟩ : ∃ base : TrackedDevice F D,
      (if i.dwtActive then { td.pointed p with tapEmitted := true } else td.pointed p) =
        base.pointed p ∧ (if i.dwtActive then { td with tapEmitted := true } else td) = base := by
    refine ⟨_,?_,rfl⟩
    split_ifs <;> rfl
  unfold touchStep processAbsoluteEvent
  dsimp only
  rw [hbase,hbase']
  cases htype : i.te.ev.eventType with
  | key => exact base.processAbsoluteKey_points i.te i.cfgTap i.dwtActive p htype
  | absolute => exact congrArg (·,[]) (base.processAbsoluteAxis_pointed i.te p htype)
  | synchronization =>
    have hcode : i.te.ev.code ≠ 0 := fun hcode => h ⟨htype,hcode⟩
    have hsilent : ∀ td : TrackedDevice F D,
        td.processSyn i.te i.cfgNat i.cfgAccel i.dwtActive = (td,[]) := fun _ => if_pos hcode
    rw [Pointing.next_of_other (by simp [htype]) (by simp [htype]) h]
    dsimp only
    rw [hsilent,hsilent]
  | relative =>
    rw [Pointing.next_of_other (by simp [htype]) (by simp [htype]) h]
  | other n =>
    rw [Pointing.next_of_other (by simp [htype]) (by simp [htype]) h]

/-- Every event changes the position of the finger as it would on its own. -/
theorem touchStep_pointing (td : TrackedDevice F D) (i : TouchInput F) :
    (td.touchStep i).1.pointing = td.pointing.next i.te := by
  by_cases h : i.te.ev.IsReport
  · have hguard : (if i.dwtActive then { td with tapEmitted := true } else td).pointing =
        td.pointing := by
      split_ifs <;> rfl
    rw [touchStep_synchronization td i h.1,processSyn_pointing _ _ _ _ _ h.2,hguard,
      Pointing.next_report h]
  · have hstep := td.touchStep_pointed td.pointing h
    rw [pointed_pointing] at hstep
    rw [hstep]
    rfl

/-- The position of the finger as a key that the events advance. -/
def pointingKey : Relabeling (TrackedDevice F D) (TouchInput F) (LibinputEvent D) Pointing where
  state p td := td.pointed p
  input _ i := i
  output := id
  next p i := p.next i.te

omit [F64 D] [F32 F] [FloatCast F D] in
theorem pointingKey_inputs (p : Pointing) (is : List (TouchInput F)) :
    (pointingKey (F := F) (D := D)).inputs p is = is := by
  induction is generalizing p with
  | nil => rfl
  | cons i is ih => exact congrArg (i :: ·) (ih _)

/-- So do the events of a frame before its end. -/
theorem run_pointed (td : TrackedDevice F D) (p : Pointing) {is : List (TouchInput F)}
    (h : ∀ i ∈ is, ¬ i.te.ev.IsReport) : run touchStep (td.pointed p) is =
      ((run touchStep td is).1.pointed (is.foldl (fun p i => p.next i.te) p),
        (run touchStep td is).2) := by
  have hstep : ∀ (p : Pointing) (td : TrackedDevice F D) (i : TouchInput F), ¬ i.te.ev.IsReport →
      True → pointingKey.Commutes touchStep p td i :=
    fun p td i hi _ => (td.touchStep_pointed p hi).trans (congrArg _ (List.map_id _).symm)
  have hruns := pointingKey.run_inputs (fun _ i => ¬ i.te.ev.IsReport) (fun _ _ => True) hstep
    (k := p) (s := td) (atEach_of_forall fun i hi _ => h i hi)
    (atEach_of_forall fun _ _ _ => trivial)
  rw [pointingKey_inputs] at hruns
  exact hruns.trans (congrArg _ (List.map_id _))

theorem run_pointing (td : TrackedDevice F D) (is : List (TouchInput F)) :
    (run touchStep td is).1.pointing = is.foldl (fun p i => p.next i.te) td.pointing := by
  induction is generalizing td with
  | nil => rfl
  | cons i is ih => rw [run_cons,ih,touchStep_pointing,List.foldl_cons]

end TrackedDevice
end LibinputRs
