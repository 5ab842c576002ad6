import LibinputRs.Automata.Machine
import LibinputRs.Automata.Sessions

/-! What a machine remembers since an opening input. Openings leave a stamp, closings clear it, and
a flag tells whether anything since the latest opening spoiled what it began. Both are then facts
about the inputs read so far and the states in which they were read. -/
namespace LibinputRs.Automata

variable {σ ι ω μ : Type*}

/-- How the stamp and the flag of a machine change from input to input, in the states of an
invariant, as far as nothing closes. -/
structure SpanKept (step : σ → ι → σ × List ω) (I : σ → Prop) (opens closes : ι → Prop)
    (spoils : σ → ι → Prop) (stamp : σ → ι → μ) (mark : σ → Option μ) (clean : σ → Prop) :
    Prop where
  keep : ∀ s i, I s → I (step s i).1
  opened : ∀ s i, I s → opens i → mark (step s i).1 = some (stamp s i) ∧ clean (step s i).1
  kept : ∀ s i, I s → ¬ opens i → ¬ closes i →
    mark (step s i).1 = mark s ∧ (clean (step s i).1 ↔ clean s ∧ ¬ spoils s i)

/-- The stamp and the flag of a machine whose closings clear the stamp. -/
structure SpanMarks (step : σ → ι → σ × List ω) (I : σ → Prop) (opens closes : ι → Prop)
    (spoils : σ → ι → Prop) (stamp : σ → ι → μ) (mark : σ → Option μ) (clean : σ → Prop) :
    Prop extends SpanKept step I opens closes spoils stamp mark clean where
  closed : ∀ s i, I s → closes i → mark (step s i).1 = none

namespace SpanKept
variable {step : σ → ι → σ × List ω} {I : σ → Prop} {opens closes : ι → Prop} {spoils : σ → ι → Prop}
  {stamp : σ → ι → μ} {mark : σ → Option μ} {clean : σ → Prop}

/-- Inputs that neither open nor close keep the stamp, and the flag while none of them spoils. -/
theorem run_kept (h : SpanKept step I opens closes spoils stamp mark clean) {s : σ} (hI : I s)
    {is : List ι} (his : ∀ i ∈ is, ¬ opens i ∧ ¬ closes i) :
    mark (run step s is).1 = mark s ∧ (clean (run step s is).1 ↔
      clean s ∧ AtEach (fun before i => ¬ spoils (run step s before).1 i) is) := by
  induction is generalizing s with
  | nil => simp
  | cons i is ih =>
    obtain ⟨hopens,hcloses⟩ := his i List.mem_cons_self
    obtain ⟨hmark,hclean⟩ := h.kept s i hI hopens hcloses
    obtain ⟨hmark',hclean'⟩ := ih (h.keep s i hI) fun j hj => his j (List.mem_cons_of_mem _ hj)
    rw [atEach_cons,← and_assoc]
    exact ⟨hmark'.trans hmark,hclean'.trans (and_congr_left fun _ => hclean)⟩

/-- After an opening the stamp stays until the next one or a closing, and the flag until something
spoils it. -/
theorem run_opened (h : SpanKept step I opens closes spoils stamp mark clean) {s : σ} (hI : I s)
    (before : List ι) {after : List ι} {i : ι} (hi : opens i)
    (hafter : ∀ j ∈ after, ¬ opens j ∧ ¬ closes j) :
    mark (run step s (before ++ i :: after)).1 = some (stamp (run step s before).1 i) ∧
      (clean (run step s (before ++ i :: after)).1 ↔
        AtEach (fun mid j => ¬ spoils (run step s (before ++ i :: mid)).1 j) after) := by
  have hbefore : I (run step s before).1 := run_invariant step I (fun t j _ => h.keep t j) hI
  obtain ⟨hmark,hclean⟩ := h.opened _ i hbefore hi
  obtain ⟨hmark',hclean'⟩ := h.run_kept (h.keep _ i hbefore) hafter
  simp only [run_append,run_cons]
  exact ⟨hmark'.trans hmark,hclean'.trans (and_iff_right hclean)⟩

end SpanKept

namespace SpanMarks
variable {step : σ → ι → σ × List ω} {I : σ → Prop} {opens closes : ι → Prop} {spoils : σ → ι → Prop}
  {stamp : σ → ι → μ} {mark : σ → Option μ} {clean : σ → Prop}

/-- A stamp is that of an opening which nothing has followed up. -/
theorem exists_opening (h : SpanMarks step I opens closes spoils stamp mark clean) {s : σ}
    (hI : I s) (hs : mark s = none) {is : List ι} (hmark : mark (run step s is).1 ≠ none) :
    ∃ before i after, is = before ++ i :: after ∧ opens i ∧
      ∀ j ∈ after, ¬ opens j ∧ ¬ closes j := by
  induction is using List.reverseRecOn with
  | nil => exact absurd hs hmark
  | append_singleton is i ih =>
    have hIs : I (run step s is).1 := run_invariant step I (fun t j _ => h.keep t j) hI
    rw [run_append,run_singleton] at hmark
    by_cases hopens : opens i
    · exact ⟨is,i,[],rfl,hopens,List.forall_mem_nil _⟩
    · by_cases hcloses : closes i
      · exact absurd (h.closed _ i hIs hcloses) hmark
      · rw [(h.kept _ i hIs hopens hcloses).1] at hmark
        obtain ⟨before,j,after,rfl,hj,hafter⟩ := ih hmark
        refine ⟨before,j,after ++ [i],by simp,hj,?_⟩
        rw [List.forall_mem_append]
        exact ⟨hafter,List.forall_mem_singleton.mpr ⟨hopens,hcloses⟩⟩

/-- A clean stamp is a property of the inputs: that of the latest opening, which no closing and no
spoiling input has followed. -/
theorem run_iff (h : SpanMarks step I opens closes spoils stamp mark clean) {s : σ}
    (hI : I s) (hs : mark s = none) (is : List ι) (x : μ) :
    (mark (run step s is).1 = some x ∧ clean (run step s is).1) ↔
      ∃ before i after, is = before ++ i :: after ∧ opens i ∧
        (∀ j ∈ after, ¬ opens j ∧ ¬ closes j) ∧
        stamp (run step s before).1 i = x ∧
        AtEach (fun mid j => ¬ spoils (run step s (before ++ i :: mid)).1 j) after := by
  constructor
  · rintro ⟨hmark,hclean⟩
    have hsome : mark (run step s is).1 ≠ none := hmark ▸ Option.some_ne_none x
    obtain ⟨before,i,after,rfl,hi,hafter⟩ := h.exists_opening hI hs hsome
    obtain ⟨hstamp,hiff⟩ := h.run_opened hI _ hi hafter
    exact ⟨before,i,after,rfl,hi,hafter,Option.some.inj (hstamp.symm.trans hmark),hiff.mp hclean⟩
  · rintro ⟨before,i,after,rfl,hi,hafter,rfl,hat⟩
    obtain ⟨hstamp,hiff⟩ := h.run_opened hI _ hi hafter
    exact ⟨hstamp,hiff.mpr hat⟩

end SpanMarks
end LibinputRs.Automata
