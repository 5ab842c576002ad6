import LibinputRs.Automata.Fallible
import LibinputRs.Automata.Machine
import LibinputRs.Automata.Sessions

/-! Symmetries of machines. A map of states, inputs and outputs may depend on a key that the inputs
themselves advance; where it commutes with every step of a run it carries the run to a run. -/
namespace LibinputRs.Automata

variable {σ ι ω κ : Type*}

/-- Maps of states, inputs and outputs, and the key after an input. -/
structure Relabeling (σ ι ω κ : Type*) where
  state : κ → σ → σ
  input : κ → ι → ι
  output : ω → ω
  next : κ → ι → κ

namespace Relabeling
variable (r : Relabeling σ ι ω κ)

/-- The inputs mapped one by one, each with the key that the ones before it lead to. -/
def inputs : κ → List ι → List ι
  | _, [] => []
  | k, i :: is => r.input k i :: inputs (r.next k i) is

@[simp] theorem inputs_nil (k : κ) : r.inputs k [] = [] := rfl

@[simp] theorem inputs_cons (k : κ) (i : ι) (is : List ι) :
    r.inputs k (i :: is) = r.input k i :: r.inputs (r.next k i) is := rfl

/-- The map commutes with a step: what the image of an input does to the image of a state is the
image of what the input does to the state. -/
def Commutes (step : σ → ι → σ × List ω) (k : κ) (s : σ) (i : ι) : Prop :=
  step (r.state k s) (r.input k i) =
    (r.state (r.next k i) (step s i).1,(step s i).2.map r.output)

variable {r}

/-- The image of a run is the run of the image, as far as the conditions under which the single
steps commute hold in both. -/
theorem run_inputs {step : σ → ι → σ × List ω} (P Q : σ → ι → Prop)
    (hstep : ∀ k s i, P s i → Q (r.state k s) (r.input k i) → r.Commutes step k s i)
    {k : κ} {s : σ} {is : List ι} (hP : AtEach (fun before i => P (run step s before).1 i) is)
    (hQ : AtEach (fun before i => Q (run step (r.state k s) before).1 i) (r.inputs k is)) :
    run step (r.state k s) (r.inputs k is) =
      (r.state (is.foldl r.next k) (run step s is).1,(run step s is).2.map r.output) := by
  induction is generalizing k s with
  | nil => rfl
  | cons i is ih =>
    obtain ⟨hhead,htail⟩ := atEach_cons.mp hP
    obtain ⟨hhead',htail'⟩ := atEach_cons.mp hQ
    have hcomm : step (r.state k s) (r.input k i) =
        (r.state (r.next k i) (step s i).1,(step s i).2.map r.output) := hstep k s i hhead hhead'
    have hrest : AtEach (fun before j => Q (run step (r.state (r.next k i) (step s i).1) before).1 j)
        (r.inputs (r.next k i) is) := by
      intro front j back heq
      have h : Q (run step (r.state k s) (r.input k i :: front)).1 j := htail' front j back heq
      rwa [run_cons,hcomm] at h
    rw [inputs_cons,run_cons,hcomm,ih htail hrest,run_cons,List.map_append]
    rfl

end Relabeling

section Image
variable {step step' : σ → ι → σ × List ω}

/-- Machines whose steps lead to the same states pass through the same states. -/
theorem run_state_congr (hstate : ∀ s i, (step' s i).1 = (step s i).1) (s : σ) (is : List ι) :
    (run step' s is).1 = (run step s is).1 := by
  induction is generalizing s with
  | nil => rfl
  | cons i is ih =>
    rw [run_cons,run_cons,hstate]
    exact ih _

/-- Where every step has as many outputs in the one as in the other, the second answers a run with
the image of what the first does exactly if it answers every step so. -/
theorem run_image_iff (h : ω → ω) (hstate : ∀ s i, (step' s i).1 = (step s i).1)
    (hlength : ∀ s i, (step' s i).2.length = (step s i).2.length) (s : σ) (is : List ι) :
    (run step' s is).2 = (run step s is).2.map h ↔
      AtEach (fun before i => (step' (run step s before).1 i).2 =
        (step (run step s before).1 i).2.map h) is := by
  induction is generalizing s with
  | nil => simp
  | cons i is ih =>
    have hsame : (step' s i).2.length = ((step s i).2.map h).length := by
      rw [List.length_map,hlength]
    rw [atEach_cons,run_cons,run_cons,hstate]
    dsimp only
    rw [List.map_append]
    constructor
    · intro heq
      obtain ⟨hhead,htail⟩ := List.append_inj heq hsame
      exact ⟨hhead,(ih _).mp htail⟩
    · rintro ⟨hhead,htail⟩
      rw [(ih _).mpr htail]
      exact congrArg (· ++ _) hhead

end Image

namespace Fallible
variable {f : σ → σ} {h : ω → ω} {p p' q q' : Fallible σ ω} {s : σ}

/-- On the image of the state the second step does the image of what the first one does, and stops
short where it does. -/
def Images (f : σ → σ) (h : ω → ω) (p p' : Fallible σ ω) (s : σ) : Prop :=
  p' (f s) = (f (p s).1,(p s).2.1.map h,(p s).2.2)

theorem Images.skip : Images f h skip skip s := rfl

theorem Images.update {g g' : σ → σ} (hg : g' (f s) = f (g s)) :
    Images f h (update g) (update g') s := by
  rw [Images,update_apply,update_apply,hg]
  rfl

theorem Images.andThen (hp : Images f h p p' s) (hq : Images f h q q' (p s).1) :
    Images f h (p.andThen q) (p'.andThen q') s := by
  cases hrun : p s with
  | mk t r =>
    obtain ⟨out,ok⟩ := r
    rw [Images,hrun] at hp
    rw [hrun] at hq
    cases ok with
    | false => rw [Images,andThen_of_stop hrun,andThen_of_stop hp]
    | true =>
      rw [Images] at hq
      rw [Images,andThen_of_ok hrun,andThen_of_ok hp,hq,List.map_append]

theorem Images.ite {c : Prop} {_ : Decidable c} (hp : Images f h p p' s)
    (hq : Images f h q q' s) : Images f h (if c then p else q) (if c then p' else q') s := by
  split_ifs
  · exact hp
  · exact hq

end Fallible
section Muted
variable {τ : Type*} {step : σ → ι → σ × List ω} {step' : τ → ι → τ × List ω}

/-- A machine that follows another and says at most what that one says: their outputs are the same
exactly when each answer is. -/
theorem run_eq_iff_of_sublist (R : σ → τ → Prop) (Same : τ → ι → Prop)
    (hstep : ∀ s t i, R s t → R (step s i).1 (step' t i).1 ∧
      (step s i).2.Sublist (step' t i).2 ∧ ((step s i).2 = (step' t i).2 ↔ Same t i))
    {s : σ} {t : τ} (h : R s t) (is : List ι) :
    (run step s is).2.Sublist (run step' t is).2 ∧
      ((run step s is).2 = (run step' t is).2 ↔
        AtEach (fun before i => Same (run step' t before).1 i) is) := by
  induction is generalizing s t with
  | nil => simp
  | cons i is ih =>
    obtain ⟨hnext,hsub,hsame⟩ := hstep s t i h
    obtain ⟨hrest,heq⟩ := ih hnext
    rw [run_cons,run_cons,atEach_cons]
    refine ⟨hsub.append hrest,Iff.trans ?_ (and_congr hsame heq)⟩
    constructor
    · intro hall
      have hlen := congrArg List.length hall
      simp only [List.length_append] at hlen
      have hle := hsub.length_le
      have hle' := hrest.length_le
      exact List.append_inj hall (by omega)
    · rintro ⟨hfirst,hlast⟩
      exact congrArg₂ _ hfirst hlast

end Muted

end LibinputRs.Automata
