import Mathlib.Data.List.Basic

/-! Deterministic machines that answer each input with a list of outputs, and the
relational closure of small steps that carry outputs. Every loop of the development is a
run of such a machine, so each induction over a loop is made once, here. -/
namespace LibinputRs.Automata

variable {σ ι ω : Type*}

/-- Feed the inputs one by one, collecting the outputs in order. -/
def run (step : σ → ι → σ × List ω) : σ → List ι → σ × List ω
  | s, [] => (s, [])
  | s, i :: is =>
    match step s i with
    | (t, out) =>
      match run step t is with
      | (u, rest) => (u, out ++ rest)

/-- The outputs of each input kept apart, one entry for an input. -/
def answers (step : σ → ι → σ × List ω) : σ → List ι → List (List ω)
  | _, [] => []
  | s, i :: is =>
    match step s i with
    | (t, out) => out :: answers step t is

@[simp] theorem run_nil (step : σ → ι → σ × List ω) (s : σ) : run step s [] = (s, []) := rfl

theorem run_cons (step : σ → ι → σ × List ω) (s : σ) (i : ι) (is : List ι) :
    run step s (i :: is) = ((run step (step s i).1 is).1,
      (step s i).2 ++ (run step (step s i).1 is).2) := rfl

@[simp] theorem run_singleton (step : σ → ι → σ × List ω) (s : σ) (i : ι) :
    run step s [i] = step s i := by simp [run_cons]

@[simp] theorem answers_nil (step : σ → ι → σ × List ω) (s : σ) : answers step s [] = [] := rfl

@[simp] theorem answers_cons (step : σ → ι → σ × List ω) (s : σ) (i : ι) (is : List ι) :
    answers step s (i :: is) = (step s i).2 :: answers step (step s i).1 is := rfl

theorem run_append (step : σ → ι → σ × List ω) (s : σ) (is js : List ι) :
    run step s (is ++ js) = ((run step (run step s is).1 js).1,
      (run step s is).2 ++ (run step (run step s is).1 js).2) := by
  induction is generalizing s with
  | nil => simp
  | cons i is ih => simp [run_cons, ih, List.append_assoc]

/-- A property of the inputs consumed, the outputs produced and the state reached that every
step extends holds after every run. -/
theorem run_history (step : σ → ι → σ × List ω) (I : List ι → List ω → σ → Prop)
    (hstep : ∀ is out s i, I is out s → I (is ++ [i]) (out ++ (step s i).2) (step s i).1)
    {s : σ} (h : I [] [] s) (is : List ι) : I is (run step s is).2 (run step s is).1 := by
  suffices hall : ∀ before out s, I before out s →
      I (before ++ is) (out ++ (run step s is).2) (run step s is).1 by
    simpa using hall [] [] s h
  induction is with
  | nil => intro before out s hs; simpa using hs
  | cons i is ih =>
    intro before out s hs
    have := ih _ _ _ (hstep before out s i hs)
    simpa [run_cons, List.append_assoc] using this

/-- The states of a run are those of its steps, whatever these are said to output. -/
theorem run_state {ω' : Type*} (step : σ → ι → σ × List ω) (out : σ → ι → List ω') (s : σ)
    (is : List ι) : (run (fun s i => ((step s i).1,out s i)) s is).1 = (run step s is).1 := by
  induction is generalizing s with
  | nil => rfl
  | cons i is ih => exact ih _

/-- A state property kept by every admissible input is kept by every run of them. -/
theorem run_invariant (step : σ → ι → σ × List ω) (I : σ → Prop) {is : List ι}
    (hstep : ∀ s, ∀ i ∈ is, I s → I (step s i).1) {s : σ} (h : I s) : I (run step s is).1 := by
  induction is generalizing s with
  | nil => exact h
  | cons i is ih =>
    exact ih (fun s j hj => hstep s j (List.mem_cons_of_mem _ hj))
      (hstep s i List.mem_cons_self h)

/-- What every step outputs, from states that keep an invariant, every run outputs. -/
theorem run_outputs (step : σ → ι → σ × List ω) (I : σ → Prop) (P : ω → Prop)
    (hstep : ∀ s i, I s → I (step s i).1) (hout : ∀ s i, I s → ∀ o ∈ (step s i).2, P o)
    {s : σ} (h : I s) (is : List ι) : ∀ o ∈ (run step s is).2, P o := by
  induction is generalizing s with
  | nil => simp
  | cons i is ih =>
    intro o ho
    rcases List.mem_append.mp ho with ho | ho
    · exact hout s i h o ho
    · exact ih (hstep s i h) o ho

/-- States that every step answers alike, and leaves alike, answer every run alike. -/
theorem run_bisimilar (step : σ → ι → σ × List ω) (R : σ → σ → Prop) {is : List ι}
    (hstep : ∀ s t, ∀ i ∈ is, R s t → (step s i).2 = (step t i).2 ∧ R (step s i).1 (step t i).1)
    {s t : σ} (h : R s t) :
    (run step s is).2 = (run step t is).2 ∧ R (run step s is).1 (run step t is).1 := by
  induction is generalizing s t with
  | nil => exact ⟨rfl, h⟩
  | cons i is ih =>
    obtain ⟨hout, hnext⟩ := hstep s t i List.mem_cons_self h
    obtain ⟨hrest, hlast⟩ := ih (fun s t j hj => hstep s t j (List.mem_cons_of_mem _ hj)) hnext
    rw [run_cons, run_cons, hout, hrest]
    exact ⟨rfl, hlast⟩

/-- What a run outputs is what one of its steps outputs. -/
theorem mem_run_iff (step : σ → ι → σ × List ω) (s : σ) (is : List ι) (o : ω) :
    o ∈ (run step s is).2 ↔ ∃ before i after, is = before ++ i :: after ∧
      o ∈ (step (run step s before).1 i).2 := by
  constructor
  · intro ho
    induction is generalizing s with
    | nil => simp at ho
    | cons i is ih =>
      rcases List.mem_append.mp ho with ho | ho
      · exact ⟨[], i, is, rfl, ho⟩
      · obtain ⟨before, j, after, rfl, hj⟩ := ih _ ho
        exact ⟨i :: before, j, after, rfl, hj⟩
  · rintro ⟨before, i, after, rfl, ho⟩
    rw [run_append, run_cons]
    exact List.mem_append_right _ (List.mem_append_left _ ho)

/-- Finitely many small steps, with the concatenation of what they output. -/
inductive Steps (R : σ → List ω → σ → Prop) : σ → List ω → σ → Prop
  | refl (s) : Steps R s [] s
  | tail {s t u out o} (front : Steps R s out t) (last : R t o u) : Steps R s (out ++ o) u

namespace Steps
variable {R : σ → List ω → σ → Prop}

theorem single {s t : σ} {out : List ω} (h : R s out t) : Steps R s out t := by
  simpa using Steps.tail (Steps.refl s) h

theorem trans {s t u : σ} {out o : List ω} (h : Steps R s out t) (h' : Steps R t o u) :
    Steps R s (out ++ o) u := by
  induction h' with
  | refl => simpa using h
  | tail _ last ih => rw [← List.append_assoc]; exact .tail ih last

/-- What each small step extends holds of every output sequence and every state reached. -/
theorem history (I : List ω → σ → Prop)
    (hstep : ∀ out s o t, I out s → R s o t → I (out ++ o) t)
    {s t : σ} {out : List ω} (h : Steps R s out t) (hs : I [] s) : I out t := by
  induction h with
  | refl => exact hs
  | tail _ last ih => exact hstep _ _ _ _ ih last

end Steps
end LibinputRs.Automata
