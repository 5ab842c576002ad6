import LibinputRs.Automata.Machine
import Mathlib.Data.List.Nodup
import Mathlib.Logic.Function.Basic

/-! Tables that hand out numbered handles. Each handle is drawn from a counter that only grows,
so it is bound once, and the table holds exactly what was bound and not removed. -/
namespace LibinputRs.Automata

/-- What is bound to each handle, and the handle drawn next. -/
structure Handles (α : Type*) where
  table : ℕ → Option α
  next : ℕ

inductive HandleEvent (α : Type*)
  | bound (k : ℕ) (a : α)
  | removed (k : ℕ)
  deriving DecidableEq

def HandleEvent.bindings {α : Type*} : HandleEvent α → Option (ℕ × α)
  | .bound k a => some (k,a)
  | .removed _ => none

namespace Handles
variable {α β : Type*}

def empty : Handles α := ⟨fun _ => none,0⟩

/-- A value is bound whose name no bound value has; a drawn handle is thrown away; a handle is
removed. -/
inductive Tick (name : α → β) : Handles α → List (HandleEvent α) → Handles α → Prop
  | bind (h) (a) (hfree : ∀ k b, h.table k = some b → name b ≠ name a) :
      Tick name h [.bound h.next a] ⟨Function.update h.table h.next (some a),h.next + 1⟩
  | waste (h) : Tick name h [] ⟨h.table,h.next + 1⟩
  | remove (h) (k) (a) (hk : h.table k = some a) :
      Tick name h [.removed k] ⟨Function.update h.table k none,h.next⟩

abbrev Ticks (name : α → β) : Handles α → List (HandleEvent α) → Handles α → Prop :=
  Steps (Tick name)

/-- All that was bound so far. -/
def bindings (evs : List (HandleEvent α)) : List (ℕ × α) := evs.filterMap HandleEvent.bindings

/-- What holds of every table reached from the empty one: handles are bound in growing order and
below the counter, the table holds what was bound and not removed, and names tell its values
apart. -/
structure Sound (name : α → β) (evs : List (HandleEvent α)) (h : Handles α) : Prop where
  ordered : (bindings evs).Pairwise fun b c => b.1 < c.1
  below : ∀ b ∈ bindings evs, b.1 < h.next
  removed : ∀ k, .removed k ∈ evs → ∃ a, (k,a) ∈ bindings evs
  holds : ∀ k a, h.table k = some a ↔ (k,a) ∈ bindings evs ∧ .removed k ∉ evs
  named : ∀ k l a b, h.table k = some a → h.table l = some b → name a = name b → k = l

namespace Sound
variable {name : α → β} {evs : List (HandleEvent α)} {h : Handles α}

theorem empty : Sound name ([] : List (HandleEvent α)) empty where
  ordered := .nil
  below := List.forall_mem_nil _
  removed := fun _ hk => by cases hk
  holds := by simp [Handles.empty,bindings]
  named := fun _ _ _ _ hk => by cases hk

/-- The handle drawn next is in no event and in no entry. -/
theorem next_unbound (hs : Sound name evs h) (a : α) : (h.next,a) ∉ bindings evs :=
  fun ha => Nat.lt_irrefl _ (hs.below _ ha)

theorem next_not_removed (hs : Sound name evs h) : .removed h.next ∉ evs := fun hr => by
  obtain ⟨a,ha⟩ := hs.removed _ hr
  exact hs.next_unbound a ha

theorem bind (hs : Sound name evs h) {a : α} (hfree : ∀ k b, h.table k = some b → name b ≠ name a) :
    Sound name (evs ++ [.bound h.next a]) ⟨Function.update h.table h.next (some a),h.next + 1⟩ := by
  have hbindings : bindings (evs ++ [.bound h.next a]) = bindings evs ++ [(h.next,a)] :=
    List.filterMap_append
  have hentry : ∀ {k b}, k ≠ h.next → Function.update h.table h.next (some a) k = some b →
      h.table k = some b := fun hk hb => (Function.update_of_ne hk _ _).symm.trans hb
  refine ⟨?_,?_,fun k hk => ?_,fun k b => ?_,fun k l b c hb hc hname => ?_⟩
  · rw [hbindings,List.pairwise_append]
    refine ⟨hs.ordered,List.pairwise_singleton _ _,fun b hb c hc => ?_⟩
    obtain rfl := List.mem_singleton.mp hc
    exact hs.below b hb
  · rw [hbindings]
    refine List.forall_mem_append.mpr ⟨fun b hb => Nat.lt_succ_of_lt (hs.below b hb),?_⟩
    exact List.forall_mem_singleton.mpr (Nat.lt_succ_self _)
  · have hold : .removed k ∈ evs := by simpa using hk
    obtain ⟨b,hb⟩ := hs.removed k hold
    exact ⟨b,hbindings ▸ List.mem_append_left _ hb⟩
  · by_cases hk : k = h.next
    · subst hk
      simp [hbindings,hs.next_unbound,hs.next_not_removed,eq_comm]
    · dsimp only
      rw [Function.update_of_ne hk,hs.holds,hbindings]
      simp [hk]
  · dsimp only at hb hc
    by_cases hk : k = h.next <;> by_cases hl : l = h.next
    · exact hk.trans hl.symm
    · rw [hk,Function.update_self] at hb
      obtain rfl := Option.some.inj hb
      exact absurd hname.symm (hfree l c (hentry hl hc))
    · rw [hl,Function.update_self] at hc
      obtain rfl := Option.some.inj hc
      exact absurd hname (hfree k b (hentry hk hb))
    · exact hs.named k l b c (hentry hk hb) (hentry hl hc) hname

theorem waste (hs : Sound name evs h) : Sound name evs ⟨h.table,h.next + 1⟩ :=
  { hs with below := fun b hb => Nat.lt_succ_of_lt (hs.below b hb) }

theorem remove (hs : Sound name evs h) {k : ℕ} {a : α} (hk : h.table k = some a) :
    Sound name (evs ++ [.removed k]) ⟨Function.update h.table k none,h.next⟩ := by
  have hbindings : bindings (evs ++ [.removed k]) = bindings evs :=
    List.filterMap_append.trans (List.append_nil _)
  have hentry : ∀ {l b}, Function.update h.table k none l = some b → h.table l = some b := by
    intro l b hb
    by_cases hl : l = k
    · rw [hl,Function.update_self] at hb
      cases hb
    · exact (Function.update_of_ne hl _ _).symm.trans hb
  refine ⟨hbindings ▸ hs.ordered,hbindings ▸ hs.below,fun l hl => ?_,fun l b => ?_,?_⟩
  · rw [hbindings]
    rcases List.mem_append.mp hl with hl | hl
    · exact hs.removed l hl
    · obtain rfl := HandleEvent.removed.inj (List.mem_singleton.mp hl)
      exact ⟨a,((hs.holds _ a).mp hk).1⟩
  · by_cases hl : l = k
    · subst hl
      simp
    · dsimp only
      rw [Function.update_of_ne hl,hs.holds,hbindings]
      simp [hl]
  · exact fun l m b c hb hc => hs.named l m b c (hentry hb) (hentry hc)

theorem tick (hs : Sound name evs h) {o : List (HandleEvent α)} {h' : Handles α}
    (ht : Tick name h o h') : Sound name (evs ++ o) h' := by
  cases ht with
  | bind a hfree => exact hs.bind hfree
  | waste => exact (List.append_nil evs).symm ▸ hs.waste
  | remove k a hk => exact hs.remove hk

end Sound

/-- Every table reached from the empty one is sound. -/
theorem Ticks.sound {name : α → β} {evs : List (HandleEvent α)} {h : Handles α}
    (ht : Ticks name empty evs h) : Sound name evs h :=
  Steps.history (Sound name) (fun _ _ _ _ hs ht => hs.tick ht) ht .empty

end Handles
end LibinputRs.Automata
