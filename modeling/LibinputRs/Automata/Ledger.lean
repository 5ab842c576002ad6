import LibinputRs.Automata.Machine
import LibinputRs.Automata.Sessions
import Mathlib.Algebra.Ring.Defs

/-! Accounts of a machine. What each step pays out and what falls due in it are added up along a
run; where every step pays what is due or carries it in the state, so does the run. -/
namespace LibinputRs.Automata

variable {σ ι ω M : Type*}

/-- The sum over a run of what each input is worth in the state that reads it. -/
def tally [AddMonoid M] (step : σ → ι → σ × List ω) (worth : σ → ι → M) : σ → List ι → M
  | _, [] => 0
  | s, i :: is => worth s i + tally step worth (step s i).1 is

@[simp] theorem tally_nil [AddMonoid M] (step : σ → ι → σ × List ω) (worth : σ → ι → M) (s : σ) :
    tally step worth s [] = 0 := rfl

@[simp] theorem tally_cons [AddMonoid M] (step : σ → ι → σ × List ω) (worth : σ → ι → M) (s : σ)
    (i : ι) (is : List ι) : tally step worth s (i :: is) =
      worth s i + tally step worth (step s i).1 is := rfl

theorem tally_mul_left [Semiring M] (step : σ → ι → σ × List ω) (worth : σ → ι → M) (c : M) (s : σ)
    (is : List ι) : tally step (fun s i => c * worth s i) s is = c * tally step worth s is := by
  induction is generalizing s with
  | nil => simp
  | cons i is ih => simp [ih,mul_add]

theorem tally_add [AddCommMonoid M] (step : σ → ι → σ × List ω) (worth worth' : σ → ι → M) (s : σ)
    (is : List ι) : tally step (fun s i => worth s i + worth' s i) s is =
      tally step worth s is + tally step worth' s is := by
  induction is generalizing s with
  | nil => exact (add_zero 0).symm
  | cons i is ih => rw [tally_cons,tally_cons,tally_cons,ih,add_add_add_comm]

theorem tally_append [AddMonoid M] (step : σ → ι → σ × List ω) (worth : σ → ι → M) (s : σ)
    (is js : List ι) : tally step worth s (is ++ js) =
      tally step worth s is + tally step worth (run step s is).1 js := by
  induction is generalizing s with
  | nil => exact (zero_add _).symm
  | cons i is ih => rw [List.cons_append,tally_cons,tally_cons,ih,run_cons,add_assoc]

/-- What the inputs are worth can be read off a part of the state that evolves on its own. -/
theorem tally_map [AddMonoid M] {τ κ ω' : Type*} {step : σ → ι → σ × List ω} {worth : σ → ι → M}
    (f : σ → τ) (g : κ → ι) (step' : τ → κ → τ × List ω') (worth' : τ → κ → M) {I : σ → Prop}
    (hstep : ∀ s i, I s → I (step s (g i)).1 ∧ f (step s (g i)).1 = (step' (f s) i).1)
    (hworth : ∀ s i, worth s (g i) = worth' (f s) i) {s : σ} (hs : I s) (is : List κ) :
    tally step worth s (is.map g) = tally step' worth' (f s) is := by
  induction is generalizing s with
  | nil => rfl
  | cons i is ih =>
    obtain ⟨hI,hf⟩ := hstep s i hs
    rw [List.map_cons,tally_cons,tally_cons,ih hI,hworth,hf]

/-- What every step adds up in the state, every run adds up. -/
theorem run_counted [AddMonoid M] (step : σ → ι → σ × List ω) (count : σ → M) (worth : σ → ι → M)
    (hstep : ∀ s i, count (step s i).1 = count s + worth s i) (s : σ) (is : List ι) :
    count (run step s is).1 = count s + tally step worth s is := by
  induction is generalizing s with
  | nil => exact (add_zero _).symm
  | cons i is ih => rw [run_cons,tally_cons,ih,hstep,add_assoc]

/-- Nothing is lost between steps: what was carried and what fell due is paid or carried on. -/
theorem tally_conserved [AddMonoid M] (step : σ → ι → σ × List ω) (carried : σ → M)
    (paid due : σ → ι → M) {s : σ} {is : List ι}
    (h : AtEach (fun before i => paid (run step s before).1 i +
      carried (step (run step s before).1 i).1 =
        carried (run step s before).1 + due (run step s before).1 i) is) :
    tally step paid s is + carried (run step s is).1 = carried s + tally step due s is := by
  induction is generalizing s with
  | nil => simp
  | cons i is ih =>
    obtain ⟨hstep,hrest⟩ := atEach_cons.mp h
    have hrun := ih (s := (step s i).1) hrest
    rw [tally_cons,tally_cons,run_cons,add_assoc,hrun,← add_assoc,← add_assoc]
    exact congrArg (· + _) hstep

end LibinputRs.Automata
