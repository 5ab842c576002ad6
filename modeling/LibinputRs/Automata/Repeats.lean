import LibinputRs.Automata.Sessions
import Mathlib.Algebra.Order.Ring.Nat

/-! Timed repetition. What begins at some time is repeated after a delay, and from then on at
intervals; if no repetition comes early, their number is bounded by the time that has passed. -/
namespace LibinputRs.Automata

/-- When the next repetition falls due, after those at the given times. -/
def dueAt (delay interval start : ℕ) (times : List ℕ) : ℕ :=
  match times.getLast? with
  | none => start + delay
  | some last => last + interval

@[simp] theorem dueAt_nil (delay interval start : ℕ) :
    dueAt delay interval start [] = start + delay := rfl

@[simp] theorem dueAt_append_singleton (delay interval start : ℕ) (times : List ℕ) (t : ℕ) :
    dueAt delay interval start (times ++ [t]) = t + interval := by
  simp [dueAt]

/-- No repetition comes before it is due. -/
def Spaced (delay interval start : ℕ) (times : List ℕ) : Prop :=
  AtEach (fun front t => dueAt delay interval start front ≤ t) times

namespace Spaced
variable {delay interval start : ℕ} {times : List ℕ}

@[simp] theorem nil : Spaced delay interval start [] := atEach_nil

theorem append_singleton {t : ℕ} : Spaced delay interval start (times ++ [t]) ↔
    Spaced delay interval start times ∧ dueAt delay interval start times ≤ t := by
  rw [Spaced,atEach_append,atEach_singleton,List.append_nil]
  rfl

/-- The repetitions so far are over before the next one is due, which is the later the more there
have been. -/
theorem due_bounds (h : Spaced delay interval start times) :
    start + delay + interval*times.length ≤ dueAt delay interval start times ∧
      ∀ t ∈ times, start + delay ≤ t ∧ t + interval ≤ dueAt delay interval start times := by
  induction times using List.reverseRecOn with
  | nil => simp
  | append_singleton times t ih =>
    obtain ⟨hfront,hdue⟩ := append_singleton.mp h
    obtain ⟨hcount,hall⟩ := ih hfront
    rw [dueAt_append_singleton,List.length_append,List.length_singleton,Nat.mul_add,Nat.mul_one]
    refine ⟨by omega,fun t' ht' => ?_⟩
    rcases List.mem_append.mp ht' with ht' | ht'
    · obtain ⟨hfirst,hlast⟩ := hall t' ht'
      omega
    · obtain rfl := List.mem_singleton.mp ht'
      omega

/-- None comes before the delay is over. -/
theorem delay_le (h : Spaced delay interval start times) : ∀ t ∈ times, start + delay ≤ t :=
  fun t ht => (h.due_bounds.2 t ht).1

/-- By any time there has been one repetition, and one more for every interval since. -/
theorem count_le (h : Spaced delay interval start times) (hinterval : 0 < interval) (now : ℕ) :
    (times.filter (· ≤ now)).length ≤ 1 + (now - start - delay)/interval := by
  induction times using List.reverseRecOn with
  | nil => simp
  | append_singleton times t ih =>
    obtain ⟨hfront,hdue⟩ := append_singleton.mp h
    by_cases ht : t ≤ now
    · obtain ⟨hcount,_⟩ := hfront.due_bounds
      have hlength : times.length ≤ (now - start - delay)/interval := by
        rw [Nat.le_div_iff_mul_le hinterval,Nat.mul_comm]
        omega
      have hfilter := List.length_filter_le (· ≤ now) (times ++ [t])
      rw [List.length_append,List.length_singleton] at hfilter
      omega
    · rw [List.filter_append,List.filter_cons_of_neg (by simpa using ht),List.filter_nil,
        List.append_nil]
      exact ih hfront

end Spaced
end LibinputRs.Automata
