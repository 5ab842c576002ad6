import Mathlib.Algebra.NeZero
import Mathlib.Data.List.Basic

/-! Two-level signals. A sequence of ones and zeros alternates when each one is given at the low
level and each zero at the high one, the level being low at the start. -/
namespace LibinputRs.Automata

variable {α : Type*} [Zero α] [One α] [DecidableEq α]

/-- The level after one more change, if the change is one that the level can make. -/
def toggle (high : Bool) (a : α) : Option Bool :=
  if high then if a = 0 then some false else none
  else if a = 1 then some true else none

/-- The level after a sequence of changes. -/
def level : Bool → List α → Option Bool
  | high, [] => some high
  | high, a :: l => (toggle high a).bind (level · l)

/-- One, zero, one, zero and so on. -/
def Alternates (l : List α) : Prop := (level false l).isSome = true

instance (l : List α) : Decidable (Alternates l) := inferInstanceAs (Decidable (_ = true))

@[simp] theorem level_nil (high : Bool) : level high ([] : List α) = some high := rfl

@[simp] theorem level_singleton (high : Bool) (a : α) : level high [a] = toggle high a := by
  cases h : toggle high a <;> simp [level,h]

theorem level_append (high : Bool) (l m : List α) :
    level high (l ++ m) = (level high l).bind (level · m) := by
  induction l generalizing high with
  | nil => rfl
  | cons a l ih =>
    simp only [List.cons_append,level]
    cases toggle high a with
    | none => rfl
    | some high' => exact ih high'

theorem level_append_of {high high' : Bool} {l : List α} (h : level high l = some high')
    (m : List α) : level high (l ++ m) = level high' m := by
  rw [level_append,h]
  rfl

/-- A change of an alternating signal raises the low level or lowers the high one. -/
theorem toggle_cases {high high' : Bool} {a : α} (h : toggle high a = some high') :
    (high = false ∧ a = 1 ∧ high' = true) ∨ (high = true ∧ a = 0 ∧ high' = false) := by
  unfold toggle at h
  split_ifs at h with hhigh ha ha
  · exact .inr ⟨hhigh,ha,(Option.some.inj h).symm⟩
  · exact .inl ⟨Bool.eq_false_iff.mpr hhigh,ha,(Option.some.inj h).symm⟩

@[simp] theorem toggle_low : toggle false (1 : α) = some true := by simp [toggle]

@[simp] theorem toggle_high : toggle true (0 : α) = some false := by simp [toggle]

/-- A second rise without a fall. -/
@[simp] theorem toggle_high_one [NeZero (1 : α)] : toggle true (1 : α) = none := by
  simp [toggle]

/-- No signal rises twice in a row. -/
theorem level_one_one [NeZero (1 : α)] (high : Bool) (l m : List α) :
    level high (l ++ 1 :: 1 :: m) = none := by
  rw [level_append]
  cases level high l with
  | none => rfl
  | some high' => cases high' <;> simp [level]

namespace Alternates

theorem of_level {high : Bool} {l : List α} (h : level false l = some high) : Alternates l := by
  simp [Alternates,h]

theorem of_append {l m : List α} (h : Alternates (l ++ m)) : Alternates l := by
  unfold Alternates at *
  rw [level_append] at h
  cases hl : level false l with
  | none => simp [hl] at h
  | some high => rfl

/-- The level that an alternating sequence reaches. -/
theorem exists_level {l : List α} (h : Alternates l) : ∃ high, level false l = some high :=
  Option.isSome_iff_exists.mp h

end Alternates

theorem not_alternates_append {high : Bool} {l m : List α} (h : level false l = some high)
    (hm : level high m = none) : ¬ Alternates (l ++ m) := by
  rw [Alternates,level_append_of h,hm]
  simp

end LibinputRs.Automata
