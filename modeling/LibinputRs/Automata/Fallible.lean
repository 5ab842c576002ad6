import Mathlib.Data.List.Basic

/-! Steps that change a state, output on the way, and may stop short. A sequence of them stops
at the first that does, with what was changed and output so far left as it is. -/
namespace LibinputRs.Automata

variable {σ ω : Type*}

/-- The state left behind, the outputs, and whether the step came to its end. -/
def Fallible (σ ω : Type*) := σ → σ × List ω × Bool

namespace Fallible

def skip : Fallible σ ω := fun s => (s,[],true)

/-- A change of state that cannot fail. -/
def update (f : σ → σ) : Fallible σ ω := fun s => (f s,[],true)

/-- The second step where the first one came to its end. -/
def andThen (p q : Fallible σ ω) : Fallible σ ω := fun s =>
  match p s with
  | (t,out,true) =>
    match q t with
    | (u,rest,ok) => (u,out ++ rest,ok)
  | (t,out,false) => (t,out,false)

@[simp] theorem skip_apply (s : σ) : (skip : Fallible σ ω) s = (s,[],true) := rfl

@[simp] theorem update_apply (f : σ → σ) (s : σ) :
    (update f : Fallible σ ω) s = (f s,[],true) := rfl

/-- A first step that comes to its end. -/
theorem andThen_of_ok {p : Fallible σ ω} {s t : σ} {out : List ω} (h : p s = (t,out,true))
    (q : Fallible σ ω) : p.andThen q s = ((q t).1,out ++ (q t).2.1,(q t).2.2) := by
  unfold andThen
  rw [h]

/-- A first step that stops short. -/
theorem andThen_of_stop {p : Fallible σ ω} {s t : σ} {out : List ω} (h : p s = (t,out,false))
    (q : Fallible σ ω) : p.andThen q s = (t,out,false) := by
  unfold andThen
  rw [h]

@[simp] theorem update_andThen (f : σ → σ) (q : Fallible σ ω) (s : σ) :
    (update f).andThen q s = q (f s) := andThen_of_ok (update_apply f s) q

@[simp] theorem skip_andThen (q : Fallible σ ω) (s : σ) : skip.andThen q s = q s :=
  andThen_of_ok (skip_apply s) q

@[simp] theorem andThen_skip (p : Fallible σ ω) : p.andThen skip = p := by
  funext s
  cases h : p s with
  | mk t r =>
    obtain ⟨out,ok⟩ := r
    cases ok with
    | false => rw [andThen_of_stop h]
    | true => rw [andThen_of_ok h,skip_apply,List.append_nil]

/-- A first step that stops short is all that happens. -/
theorem andThen_of_not_ok {p : Fallible σ ω} {s : σ} (h : (p s).2.2 ≠ true) (q : Fallible σ ω) :
    p.andThen q s = p s := by
  cases hp : p s with
  | mk t r =>
    obtain ⟨out,ok⟩ := r
    rw [hp] at h
    obtain rfl : ok = false := Bool.eq_false_iff.mpr h
    exact andThen_of_stop hp q

/-- A sequence comes to its end exactly if both its steps do. -/
theorem andThen_ok_iff {p q : Fallible σ ω} {s : σ} :
    (p.andThen q s).2.2 = true ↔ (p s).2.2 = true ∧ (q (p s).1).2.2 = true := by
  cases hp : p s with
  | mk t r =>
    obtain ⟨out,ok⟩ := r
    cases ok with
    | false => simp [andThen_of_stop hp]
    | true => simp [andThen_of_ok hp]

/-- What the first step outputs is output, however the second ends. -/
theorem mem_andThen_left {p : Fallible σ ω} {s : σ} {o : ω} (h : o ∈ (p s).2.1) (q : Fallible σ ω) :
    o ∈ (p.andThen q s).2.1 := by
  cases hp : p s with
  | mk t r =>
    obtain ⟨out,ok⟩ := r
    rw [hp] at h
    cases ok with
    | false =>
      rw [andThen_of_stop hp]
      exact h
    | true =>
      rw [andThen_of_ok hp]
      exact List.mem_append_left _ h

/-- From the state something with the property is output. -/
def Outputs (P : ω → Prop) (p : Fallible σ ω) (s : σ) : Prop := ∃ o ∈ (p s).2.1, P o

section Outputs
variable {P : ω → Prop} {p q : Fallible σ ω} {s : σ}

@[simp] theorem not_outputs_skip : ¬ Outputs P (skip : Fallible σ ω) s := by
  simp [Outputs]

@[simp] theorem not_outputs_update (f : σ → σ) : ¬ Outputs P (update f : Fallible σ ω) s := by
  simp [Outputs]

theorem not_outputs_of_nil {t : σ} {ok : Bool} (h : p s = (t,[],ok)) : ¬ Outputs P p s := by
  simp [Outputs,h]

theorem outputs_congr {t : σ} (h : p s = q t) : Outputs P p s ↔ Outputs P q t := by
  unfold Outputs
  rw [h]

/-- A sequence outputs what its first step does, and if that comes to its end what the second
does. -/
theorem outputs_andThen_iff : Outputs P (p.andThen q) s ↔
    Outputs P p s ∨ (p s).2.2 = true ∧ Outputs P q (p s).1 := by
  unfold Outputs
  cases h : p s with
  | mk t r =>
    obtain ⟨out,ok⟩ := r
    cases ok with
    | false => simp [andThen_of_stop h]
    | true => simp [andThen_of_ok h,or_and_right,exists_or]

theorem outputs_ite_iff {c : Prop} {_ : Decidable c} :
    Outputs P (if c then p else q) s ↔ c ∧ Outputs P p s ∨ ¬ c ∧ Outputs P q s := by
  by_cases hc : c <;> simp [hc]

end Outputs

/-- From states with a property, everything output has another, and however the step ends its
state still has the first. -/
def Ensures (p : Fallible σ ω) (I : σ → Prop) (P : ω → Prop) : Prop :=
  ∀ s, I s → I (p s).1 ∧ ∀ o ∈ (p s).2.1, P o

namespace Ensures
variable {p q : Fallible σ ω} {I : σ → Prop} {P : ω → Prop}

theorem skip : (skip : Fallible σ ω).Ensures I P := fun _ hs => ⟨hs,List.forall_mem_nil _⟩

theorem update {f : σ → σ} (hf : ∀ s, I s → I (f s)) :
    (update f : Fallible σ ω).Ensures I P := fun s hs => ⟨hf s hs,List.forall_mem_nil _⟩

theorem andThen (hp : p.Ensures I P) (hq : q.Ensures I P) : (p.andThen q).Ensures I P := by
  intro s hs
  obtain ⟨hI,hP⟩ := hp s hs
  cases h : p s with
  | mk t r =>
    obtain ⟨out,ok⟩ := r
    rw [h] at hI hP
    cases ok with
    | false =>
      rw [andThen_of_stop h]
      exact ⟨hI,hP⟩
    | true =>
      obtain ⟨hI',hP'⟩ := hq t hI
      rw [andThen_of_ok h]
      exact ⟨hI',fun o ho => (List.mem_append.mp ho).elim (hP o) (hP' o)⟩

theorem ite {c : Prop} {_ : Decidable c} (hp : c → p.Ensures I P) (hq : ¬ c → q.Ensures I P) :
    (if c then p else q).Ensures I P := by
  by_cases hc : c
  · rw [if_pos hc]
    exact hp hc
  · rw [if_neg hc]
    exact hq hc

end Ensures
end Fallible
end LibinputRs.Automata
