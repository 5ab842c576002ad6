import LibinputRs.Automata.Machine
import Mathlib.Data.List.Nodup

/-! Loops over the entries of a table. Each turn changes the entry it is at and no other, and
what is seen of one entry is output only by its own turn. The result at an entry is then the
result of its own turn, and does not depend on the order of the loop as long as the turn itself
does not. -/
namespace LibinputRs.Automata

variable {σ κ ω α β : Type*}

/-- A loop without repetition comes to an entry at most once. -/
theorem nodup_split {k : κ} {before after : List κ} (h : (before ++ k :: after).Nodup) :
    k ∉ before ∧ k ∉ after := by
  have hrest := (List.nodup_cons.mp (List.nodup_middle.mp h)).1
  exact ⟨fun hk => hrest (List.mem_append_left _ hk),fun hk => hrest (List.mem_append_right _ hk)⟩

/-- A loop whose turns work on their own entries, seen from one entry. -/
structure CellLoop (cell : σ → κ → α) (step : σ → κ → σ × List ω) (view : List ω → List β)
    (I : σ → Prop) (k : κ) : Prop where
  view_nil : view [] = []
  view_append : ∀ l m, view (l ++ m) = view l ++ view m
  inv : ∀ s k', I s → I (step s k').1
  frame : ∀ s k', k' ≠ k → cell (step s k').1 k = cell s k
  other : ∀ s k', I s → k' ≠ k → view (step s k').2 = []

namespace CellLoop
variable {cell : σ → κ → α} {step : σ → κ → σ × List ω} {view : List ω → List β}
  {I : σ → Prop} {k : κ}

/-- More than the invariant may be known to hold of the states of the loop. -/
theorem strengthen {J : σ → Prop} (h : CellLoop cell step view I k) (hI : ∀ s, J s → I s)
    (hJ : ∀ s k', J s → J (step s k').1) : CellLoop cell step view J k where
  view_nil := h.view_nil
  view_append := h.view_append
  inv := hJ
  frame := h.frame
  other s k' hs := h.other s k' (hI s hs)

/-- The invariant holds throughout the loop. -/
theorem run_inv (h : CellLoop cell step view I k) {s : σ} (hs : I s) (ks : List κ) :
    I (run step s ks).1 :=
  run_invariant step I (fun s k' _ hI => h.inv s k' hI) hs

/-- A loop that does not come to the entry leaves it and shows nothing of it. -/
theorem run_absent (h : CellLoop cell step view I k) {ks : List κ} (hk : k ∉ ks) {s : σ}
    (hs : I s) : cell (run step s ks).1 k = cell s k ∧ view (run step s ks).2 = [] := by
  induction ks generalizing s with
  | nil => exact ⟨rfl,h.view_nil⟩
  | cons k' ks ih =>
    rw [List.mem_cons,not_or] at hk
    obtain ⟨hcell,hview⟩ := ih hk.2 (h.inv s k' hs)
    rw [run_cons]
    refine ⟨hcell.trans (h.frame s k' (Ne.symm hk.1)),?_⟩
    rw [h.view_append,h.other s k' hs (Ne.symm hk.1),hview,List.append_nil]

/-- A loop that comes to the entry once shows what that turn shows. -/
theorem run_at (h : CellLoop cell step view I k) {before after : List κ}
    (hbefore : k ∉ before) (hafter : k ∉ after) {s : σ} (hs : I s) :
    cell (run step s before).1 k = cell s k ∧
      cell (run step s (before ++ k :: after)).1 k = cell (step (run step s before).1 k).1 k ∧
      view (run step s (before ++ k :: after)).2 = view (step (run step s before).1 k).2 := by
  obtain ⟨hcell,hview⟩ := h.run_absent hbefore hs
  have hmid := h.run_inv hs before
  obtain ⟨hcell',hview'⟩ := h.run_absent hafter (h.inv _ k hmid)
  refine ⟨hcell,?_,?_⟩
  · rw [run_append,run_cons]
    exact hcell'
  · rw [run_append,run_cons]
    simp only [h.view_append,hview,hview',List.nil_append,List.append_nil]

/-- Two loops over the same entries in any two orders, from states that agree on the entry,
agree on it afterwards when its turn depends on nothing else. -/
theorem run_order (h : CellLoop cell step view I k) {ks ks' : List κ} (hks : ks.Nodup)
    (hks' : ks'.Nodup) (hmem : k ∈ ks ↔ k ∈ ks') {s s' : σ} (hs : I s) (hs' : I s')
    (hcell : cell s k = cell s' k)
    (hlocal : ∀ t t', I t → I t' → cell t k = cell s k → cell t' k = cell s k →
      cell (step t k).1 k = cell (step t' k).1 k ∧ view (step t k).2 = view (step t' k).2) :
    cell (run step s ks).1 k = cell (run step s' ks').1 k ∧
      view (run step s ks).2 = view (run step s' ks').2 := by
  by_cases hk : k ∈ ks
  · have hk' := hmem.mp hk
    obtain ⟨before,after,rfl⟩ := List.append_of_mem hk
    obtain ⟨before',after',rfl⟩ := List.append_of_mem hk'
    obtain ⟨hbefore,hafter⟩ := nodup_split hks
    obtain ⟨hbefore',hafter'⟩ := nodup_split hks'
    obtain ⟨ht,hfinal,hview⟩ := h.run_at hbefore hafter hs
    obtain ⟨ht',hfinal',hview'⟩ := h.run_at hbefore' hafter' hs'
    obtain ⟨hstep,hout⟩ := hlocal _ _ (h.run_inv hs before) (h.run_inv hs' before') ht
      (ht'.trans hcell.symm)
    exact ⟨by rw [hfinal,hfinal',hstep],by rw [hview,hview',hout]⟩
  · obtain ⟨hfinal,hview⟩ := h.run_absent hk hs
    obtain ⟨hfinal',hview'⟩ := h.run_absent (fun hk' => hk (hmem.mpr hk')) hs'
    exact ⟨by rw [hfinal,hfinal',hcell],by rw [hview,hview']⟩

end CellLoop
end LibinputRs.Automata
