import LibinputRs.Automata.Machine
import LibinputRs.Automata.Sessions

/-! Where a machine goes wrong. When every step that meets a condition keeps an invariant, and
the first step that does not meet it breaks what the outputs should satisfy for good, the outputs
of a run are as they should be exactly when every step of it met the condition. -/
namespace LibinputRs.Automata

variable {σ ι ω : Type*}

/-- A condition on the steps of a machine that decides whether its outputs stay good, over the
runs whose inputs are valid. -/
structure FaultLine (step : σ → ι → σ × List ω) (Valid : List ι → Prop)
    (Good : List ω → Prop) (Safe : List ι → σ → ι → Prop) (I : List ι → List ω → σ → Prop) :
    Prop where
  valid : ∀ is js, Valid (is ++ js) → Valid is
  prefixes : ∀ out o, Good (out ++ o) → Good out
  good : ∀ is out s, I is out s → Good out
  keep : ∀ is out s i, Valid (is ++ [i]) → I is out s → Safe is s i →
    I (is ++ [i]) (out ++ (step s i).2) (step s i).1
  fault : ∀ is out s i, Valid (is ++ [i]) → I is out s → ¬ Safe is s i →
    ¬ Good (out ++ (step s i).2)

namespace FaultLine
variable {step : σ → ι → σ × List ω} {Valid : List ι → Prop} {Good : List ω → Prop}
  {Safe : List ι → σ → ι → Prop} {I : List ι → List ω → σ → Prop}

/-- After safe steps the invariant holds, and the outputs are good after no others. -/
theorem run_iff (h : FaultLine step Valid Good Safe I) {s : σ} (hs : I [] [] s) (is : List ι)
    (hvalid : Valid is) :
    Good (run step s is).2 ↔ AtEach (fun before i => Safe before (run step s before).1 i) is := by
  suffices hall : (Good (run step s is).2 ↔
      AtEach (fun before i => Safe before (run step s before).1 i) is) ∧
      (Good (run step s is).2 → I is (run step s is).2 (run step s is).1) from hall.1
  induction is using List.reverseRecOn with
  | nil => exact ⟨iff_of_true (h.good _ _ _ hs) atEach_nil,fun _ => hs⟩
  | append_singleton is i ih =>
    obtain ⟨hiff,hI⟩ := ih (h.valid _ _ hvalid)
    rw [run_append,run_singleton,atEach_append,atEach_singleton,List.append_nil,← hiff]
    by_cases hgood : Good (run step s is).2
    · have hkept := hI hgood
      by_cases hsafe : Safe is (run step s is).1 i
      · have hnext := h.keep _ _ _ i hvalid hkept hsafe
        exact ⟨iff_of_true (h.good _ _ _ hnext) ⟨hgood,hsafe⟩,fun _ => hnext⟩
      · have hbad := h.fault _ _ _ i hvalid hkept hsafe
        exact ⟨iff_of_false hbad fun hboth => hsafe hboth.2,fun hgood => absurd hgood hbad⟩
    · have hbad := fun hlater => hgood (h.prefixes _ (step (run step s is).1 i).2 hlater)
      exact ⟨iff_of_false hbad fun hboth => hgood hboth.1,fun hlater => absurd hlater hbad⟩

end FaultLine
end LibinputRs.Automata
