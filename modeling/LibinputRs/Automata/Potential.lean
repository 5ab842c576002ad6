import LibinputRs.Automata.Machine
import Mathlib.Algebra.Ring.Nat

/-! Amortised bounds. Every input pays something and every output has a price; what is paid and not
yet spent is the potential of the state. A machine none of whose steps spends more than it has
spends in a run no more than the inputs pay. -/
namespace LibinputRs.Automata

variable {σ ι ω : Type*}

/-- The price of a list of outputs. -/
def cost (price : ω → ℕ) (out : List ω) : ℕ := (out.map price).sum

@[simp] theorem cost_nil (price : ω → ℕ) : cost price [] = 0 := rfl

@[simp] theorem cost_singleton (price : ω → ℕ) (o : ω) : cost price [o] = price o := by
  simp [cost]

@[simp] theorem cost_append (price : ω → ℕ) (out rest : List ω) :
    cost price (out ++ rest) = cost price out + cost price rest := by
  simp [cost]

theorem cost_cons (price : ω → ℕ) (o : ω) (out : List ω) :
    cost price (o :: out) = price o + cost price out := cost_append price [o] out

/-- At the price of one or nothing, the cost is the number of outputs with a price. -/
theorem cost_ite (p : ω → Bool) (out : List ω) :
    cost (fun o => if p o then 1 else 0) out = (out.filter p).length := by
  induction out with
  | nil => rfl
  | cons o out ih =>
    rw [cost_cons,ih,List.filter_cons]
    cases p o <;> simp [Nat.add_comm]

theorem cost_one (out : List ω) : cost (fun _ => 1) out = out.length := by
  simp [cost]

theorem cost_le_length {price : ω → ℕ} (hprice : ∀ o, price o ≤ 1) (out : List ω) :
    cost price out ≤ out.length := by
  induction out with
  | nil => exact Nat.le_refl 0
  | cons o out ih =>
    have hone := hprice o
    rw [cost_cons,List.length_cons]
    omega

theorem cost_eq_zero {price : ω → ℕ} {out : List ω} (h : ∀ o ∈ out, price o = 0) :
    cost price out = 0 := by
  induction out with
  | nil => rfl
  | cons o out ih =>
    rw [cost_cons,h o List.mem_cons_self,ih fun o ho => h o (List.mem_cons_of_mem _ ho)]

/-- Outputs and a next state that the potential and the payment cover. -/
def Affords (potential : σ → ℕ) (price : ω → ℕ) (s : σ) (paid : ℕ) (r : σ × List ω) : Prop :=
  cost price r.2 + potential r.1 ≤ potential s + paid

namespace Affords
variable {potential : σ → ℕ} {price : ω → ℕ} {s t : σ} {paid : ℕ} {r : σ × List ω}

/-- What is covered from a state is covered from one with a greater potential. -/
theorem of_le (h : Affords potential price t paid r) (hle : potential t ≤ potential s) :
    Affords potential price s paid r := Nat.le_trans h (Nat.add_le_add_right hle paid)

/-- Outputs within the payment are covered where the potential does not grow. -/
theorem of_cost_le (hcost : cost price r.2 ≤ paid) (hle : potential r.1 ≤ potential s) :
    Affords potential price s paid r := by
  unfold Affords
  omega

end Affords

/-- A run spends what its inputs pay and what was there. -/
theorem run_affords {step : σ → ι → σ × List ω} {potential : σ → ℕ} {price : ω → ℕ} {pay : ι → ℕ}
    (hstep : ∀ s i, Affords potential price s (pay i) (step s i)) (s : σ) (is : List ι) :
    Affords potential price s (cost pay is) (run step s is) := by
  induction is generalizing s with
  | nil => simp [Affords]
  | cons i is ih =>
    have hone := hstep s i
    have hrest := ih (step s i).1
    unfold Affords at hone hrest ⊢
    rw [run_cons,cost_append,cost_cons]
    dsimp only
    omega

end LibinputRs.Automata
