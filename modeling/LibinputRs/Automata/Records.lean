import LibinputRs.Automata.Machine
import LibinputRs.Automata.Sessions

/-! Records of steps that read and write one cell. In a sequence of them each step reads what
the step before it wrote, and an invariant of the cell that every write keeps holds at every
read. A machine can also be run on the records of another, and then agrees with it on whole runs
when it does on every step. -/
namespace LibinputRs.Automata

variable {σ τ κ ι ω ρ α β : Type*} {reads writes : ρ → α}

/-- Each record reads what the record before it wrote. -/
def Threads (reads writes : ρ → α) : α → List ρ → α → Prop
  | a, [], b => b = a
  | a, o :: l, b => reads o = a ∧ Threads reads writes (writes o) l b

namespace Threads

theorem append {a b c : α} {l m : List ρ} (hl : Threads reads writes a l b)
    (hm : Threads reads writes b m c) : Threads reads writes a (l ++ m) c := by
  induction l generalizing a with
  | nil =>
    obtain rfl : b = a := hl
    exact hm
  | cons o l ih => exact ⟨hl.1,ih hl.2⟩

/-- What every write carries over from the read before it holds at each read and at the end. -/
theorem invariant (I : List ρ → α → Prop) {a b : α} {l : List ρ}
    (h : Threads reads writes a l b) (hstart : I [] a)
    (hstep : AtEach (fun front o => I front (reads o) → I (front ++ [o]) (writes o)) l) :
    AtEach (fun front o => I front (reads o)) l ∧ I l b := by
  suffices hall : ∀ before a, Threads reads writes a l b → I before a →
      AtEach (fun front o => I (before ++ front) (reads o) →
        I (before ++ front ++ [o]) (writes o)) l →
      AtEach (fun front o => I (before ++ front) (reads o)) l ∧ I (before ++ l) b by
    exact hall [] a h hstart hstep
  clear h hstart hstep
  induction l with
  | nil =>
    intro before a h hI _
    obtain rfl : b = a := h
    exact ⟨atEach_nil,by simpa using hI⟩
  | cons o l ih =>
    intro before a h hI hstep
    obtain ⟨rfl,hrest⟩ := h
    obtain ⟨hhere,hlater⟩ := atEach_cons.mp hstep
    have hnext : I (before ++ [o]) (writes o) := by
      simpa using hhere (by simpa using hI)
    have hrec := ih (before ++ [o]) (writes o) hrest hnext (by simpa using hlater)
    refine ⟨atEach_cons.mpr ⟨by simpa using hI,?_⟩,?_⟩
    · simpa using hrec.1
    · simpa using hrec.2

end Threads

/-- A machine whose every answer threads its cell threads it through every run. -/
theorem run_threads {step : σ → ι → σ × List ω} (record : ω → Option ρ) (cell : σ → α)
    (hstep : ∀ s i, Threads reads writes (cell s) ((step s i).2.filterMap record)
      (cell (step s i).1)) (s : σ) (is : List ι) :
    Threads reads writes (cell s) ((run step s is).2.filterMap record) (cell (run step s is).1) := by
  induction is generalizing s with
  | nil => rfl
  | cons i is ih =>
    rw [run_cons,List.filterMap_append]
    exact (hstep s i).append (ih _)

/-- A machine whose every answer a second machine makes of what a first one passes on gives over
a whole run what the second makes of the run of the first. -/
theorem run_factors {step : σ → ι → σ × List ω} {pre : κ → ι → κ × List ρ}
    {post : τ → ρ → τ × List ω} (R : σ → κ → τ → Prop)
    (hstep : ∀ s c t i, R s c t → (run post t (pre c i).2).2 = (step s i).2 ∧
      R (step s i).1 (pre c i).1 (run post t (pre c i).2).1)
    {s : σ} {c : κ} {t : τ} (h : R s c t) (is : List ι) :
    (run post t (run pre c is).2).2 = (run step s is).2 := by
  induction is generalizing s c t with
  | nil => rfl
  | cons i is ih =>
    obtain ⟨hout,hR⟩ := hstep s c t i h
    rw [run_cons,run_cons,run_append,hout,ih hR]

/-- A machine run on the records of the outputs outputs what is seen of them, and ends in the
given state. -/
def Observes (step : τ → ρ → τ × List β) (record : ω → Option ρ) (view : List ω → List β)
    (t : τ) (out : List ω) (t' : τ) : Prop :=
  run step t (out.filterMap record) = (t',view out)

namespace Observes
variable {step : τ → ρ → τ × List β} {record : ω → Option ρ} {view : List ω → List β}

theorem append (hview : ∀ l m, view (l ++ m) = view l ++ view m) {t t' t'' : τ} {l m : List ω}
    (hl : Observes step record view t l t') (hm : Observes step record view t' m t'') :
    Observes step record view t (l ++ m) t'' := by
  unfold Observes at *
  rw [List.filterMap_append,run_append,hl,hm,hview]

/-- Outputs with no record and nothing to see. -/
theorem silent {t : τ} {out : List ω} (hrecord : out.filterMap record = [])
    (hview : view out = []) : Observes step record view t out t := by
  rw [Observes,hrecord,hview]
  rfl

/-- What the observer can follow in every step, it can follow in every run. -/
theorem of_run (hnil : view [] = []) (hview : ∀ l m, view (l ++ m) = view l ++ view m)
    {step' : σ → ι → σ × List ω} (R : σ → τ → Prop)
    (hstep : ∀ s t i, R s t → ∃ t', Observes step record view t (step' s i).2 t' ∧
      R (step' s i).1 t') {s : σ} {t : τ} (h : R s t) (is : List ι) :
    ∃ t', Observes step record view t (run step' s is).2 t' ∧ R (run step' s is).1 t' := by
  induction is generalizing s t with
  | nil => exact ⟨t,silent rfl hnil,h⟩
  | cons i is ih =>
    obtain ⟨u,hfirst,hu⟩ := hstep s t i h
    obtain ⟨v,hrest,hv⟩ := ih hu
    exact ⟨v,hfirst.append hview hrest,hv⟩

end Observes
end LibinputRs.Automata
