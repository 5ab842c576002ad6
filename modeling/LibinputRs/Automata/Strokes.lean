import LibinputRs.Automata.Registers
import Mathlib.Algebra.BigOperators.Group.List.Basic
import Mathlib.Tactic.Abel

/-! Measuring strokes. A ruler reads coordinates and shows the distance covered; it can lose the
coordinate it holds, which ends a stroke, and be set back to zero. One whose numbers are limited
shows the sum of the distances between the ends of the strokes, as long as that and every single
distance fit. -/
namespace LibinputRs.Automata

variable {α : Type*} [AddCommGroup α]

/-- A coordinate is reached, the one held is lost, or what is shown is set to zero. -/
inductive Mark (α : Type*)
  | reach (v : α)
  | lose
  | zero
  deriving DecidableEq, Repr

structure Ruler (α : Type*) where
  held : Option α
  shown : α

namespace Ruler

/-- The numbers that reading a mark goes through. -/
def sums (r : Ruler α) : Mark α → List α
  | .reach v =>
    match r.held with
    | some p => [v - p,r.shown + (v - p)]
    | none => []
  | .lose => []
  | .zero => []

/-- Reading a mark, where every number is brought back into a range. -/
def read (wrap : α → α) (r : Ruler α) : Mark α → Ruler α
  | .reach v =>
    ⟨some v,match r.held with
      | some p => wrap (r.shown + wrap (v - p))
      | none => r.shown⟩
  | .lose => { r with held := none }
  | .zero => { r with shown := 0 }

end Ruler

/-- The two ends of the strokes since the last zero, and of the one that is going on. -/
structure Strokes (α : Type*) where
  done : List (α × α)
  going : Option (α × α)

namespace Strokes

def empty : Strokes α := ⟨[],none⟩

def next (s : Strokes α) : Mark α → Strokes α
  | .reach v => { s with going := some ((s.going.map Prod.fst).getD v,v) }
  | .lose => ⟨s.done ++ s.going.toList,none⟩
  | .zero => ⟨[],s.going.map fun g => (g.2,g.2)⟩

/-- The strokes after some marks. -/
def ofMarks (marks : List (Mark α)) : Strokes α := marks.foldl next empty

/-- The sum of the distances between the ends of the strokes. -/
def extent (s : Strokes α) : α := ((s.done ++ s.going.toList).map fun g => g.2 - g.1).sum

/-- At a coordinate that continues a stroke its distance from the last one fits, and so does the
extent with it. -/
def Fits (fits : α → Prop) (s : Strokes α) (m : Mark α) : Prop :=
  match m,s.going with
  | .reach v,some g => fits (v - g.2) ∧ fits (s.next m).extent
  | _,_ => True

instance (fits : α → Prop) [DecidablePred fits] (s : Strokes α) (m : Mark α) :
    Decidable (s.Fits fits m) := by
  unfold Fits
  split <;> infer_instance

/-- The ruler that has measured the strokes exactly. -/
def ruler (s : Strokes α) : Ruler α := ⟨s.going.map Prod.snd,s.extent⟩

@[simp] theorem extent_mk (done : List (α × α)) (going : Option (α × α)) :
    extent ⟨done,going⟩ = (done.map fun g => g.2 - g.1).sum +
      (going.toList.map fun g => g.2 - g.1).sum := by
  simp [extent]

/-- A stroke that goes on is longer by the distance from its last coordinate. -/
theorem extent_reach {s : Strokes α} {g : α × α} (h : s.going = some g) (v : α) :
    (s.next (.reach v)).extent = s.extent + (v - g.2) := by
  obtain ⟨done,going⟩ := s
  obtain rfl := h
  simp [next]
  abel

variable {fits : α → Prop} {wrap : α → α} {s : Strokes α} {m : Mark α}

/-- What the exact ruler goes through fits exactly if the stroke does. -/
theorem sums_fit_iff : (∀ z ∈ s.ruler.sums m, fits z) ↔ s.Fits fits m := by
  cases m with
  | lose => simp [Ruler.sums,Fits]
  | zero => simp [Ruler.sums,Fits]
  | reach v =>
    cases hgoing : s.going with
    | none => simp [Ruler.sums,Fits,ruler,hgoing]
    | some g =>
      have hextent := extent_reach hgoing v
      simp [Ruler.sums,Fits,ruler,hgoing,hextent]

/-- And as long as it does, the limited ruler stays exact. -/
theorem read_ruler (hwrap : ∀ z, fits z → wrap z = z) (h : s.Fits fits m) :
    s.ruler.read wrap m = (s.next m).ruler := by
  cases m with
  | lose => simp [Ruler.read,ruler,next,extent]
  | zero =>
    cases hgoing : s.going <;> simp [Ruler.read,ruler,next,hgoing]
  | reach v =>
    cases hgoing : s.going with
    | none => simp [Ruler.read,ruler,next,hgoing,extent]
    | some g =>
      have hread : s.ruler.read wrap (.reach v) =
          ⟨some v,wrap (s.extent + wrap (v - g.2))⟩ := by
        simp [Ruler.read,ruler,hgoing]
      unfold Fits at h
      rw [hgoing] at h
      obtain ⟨hstep,hsum⟩ := h
      rw [hread,hwrap _ hstep,← extent_reach hgoing v,hwrap _ hsum]
      rfl

/-- After marks whose strokes all fit the limited ruler shows their extent. -/
theorem foldl_read (hwrap : ∀ z, fits z → wrap z = z) {marks : List (Mark α)}
    (h : AtEach (fun before m => (ofMarks before).Fits fits m) marks) :
    marks.foldl (Ruler.read wrap) ⟨none,0⟩ = (ofMarks marks).ruler := by
  induction marks using List.reverseRecOn with
  | nil => simp [ofMarks,ruler,empty]
  | append_singleton marks m ih =>
    obtain ⟨hmarks,hm⟩ := atEach_append.mp h
    rw [List.foldl_append,ih hmarks,List.foldl_cons,List.foldl_nil,
      read_ruler hwrap (by simpa using hm),ofMarks,ofMarks,List.foldl_append]
    rfl

/-- Nothing that the limited ruler goes through is out of range exactly if all the strokes fit. -/
theorem sums_fit_iff_strokes (hwrap : ∀ z, fits z → wrap z = z) (marks : List (Mark α)) :
    AtEach (fun before m => ∀ z ∈ (before.foldl (Ruler.read wrap) ⟨none,0⟩).sums m, fits z) marks ↔
      AtEach (fun before m => (ofMarks before).Fits fits m) marks := by
  refine (atEach_congr fun before m after _ h => ?_).symm
  rw [foldl_read hwrap h,sums_fit_iff]

end Strokes

section Measured
variable {σ ι ω : Type*} (step : σ → ι → σ × List ω) (marks : σ → ι → List (Mark α))

/-- A machine whose inputs make marks, as a machine that outputs them. -/
def marking (s : σ) (i : ι) : σ × List (Mark α) := ((step s i).1,marks s i)

/-- What a run marks. -/
def log (s : σ) (inputs : List ι) : List (Mark α) := (run (marking step marks) s inputs).2

/-- From states with a property, every step moves a ruler as its marks do. -/
structure Measures (wrap : α → α) (ruler : σ → Ruler α) (I : σ → Prop) : Prop where
  keeps : ∀ s i, I s → I (step s i).1
  reads : ∀ s i, I s → ruler (step s i).1 = (marks s i).foldl (Ruler.read wrap) (ruler s)

variable {step marks} {wrap : α → α} {ruler : σ → Ruler α} {I : σ → Prop} {s : σ}

omit [AddCommGroup α] in
theorem run_marking (s : σ) (inputs : List ι) :
    (run (marking step marks) s inputs).1 = (run step s inputs).1 := by
  induction inputs generalizing s with
  | nil => rfl
  | cons i is ih => exact ih _

theorem Measures.ruler_run (h : Measures step marks wrap ruler I) (hs : I s) (inputs : List ι) :
    ruler (run step s inputs).1 = (log step marks s inputs).foldl (Ruler.read wrap) (ruler s) := by
  induction inputs generalizing s with
  | nil => rfl
  | cons i is ih =>
    rw [run_cons,ih (h.keeps s i hs),h.reads s i hs,log,log,run_cons,List.foldl_append]
    rfl

/-- Over a run from a ruler at zero nothing is out of range exactly if all the strokes fit. -/
theorem Measures.sums_fit_iff (h : Measures step marks wrap ruler I) (hs : I s)
    (hstart : ruler s = ⟨none,0⟩) {fits : α → Prop} (hwrap : ∀ z, fits z → wrap z = z)
    (inputs : List ι) :
    AtEach (fun before i => AtEach (fun front m => ∀ z ∈ (front.foldl (Ruler.read wrap)
        (ruler (run step s before).1)).sums m, fits z)
          (marks (run step s before).1 i)) inputs ↔
      AtEach (fun before m => (Strokes.ofMarks before).Fits fits m) (log step marks s inputs) := by
  rw [← Strokes.sums_fit_iff_strokes hwrap,log,atEach_run]
  refine atEach_congr fun before i after _ _ => ?_
  have hruler := h.ruler_run hs before
  rw [hstart] at hruler
  rw [run_marking,hruler]
  simp only [List.foldl_append]
  rfl

end Measured
end LibinputRs.Automata
