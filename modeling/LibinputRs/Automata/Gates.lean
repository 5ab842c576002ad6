import Mathlib.Data.List.Basic

/-! A flag that guards a section. A worker enters where the flag is clear, which sets it, and
clears it as the last thing it does, no sooner than a rest after what it did inside. Whatever the
order of the steps, at most one worker is inside, and what two workers did lies the rest apart. -/
namespace LibinputRs.Automata

/-- What a worker did, and when. -/
structure Gate.Mark where
  worker : ℕ
  time : ℕ
  deriving DecidableEq, Repr

/-- The flag, the workers inside, and what all workers did so far. -/
structure Gate where
  now : ℕ
  taken : Bool
  inside : List ℕ
  marks : List Gate.Mark

namespace Gate

/-- One step of the clock or of a worker. -/
inductive Tick (rest : ℕ) : Gate → Gate → Prop
  | idle (g) : Tick rest g g
  | wait (g) (dt : ℕ) : Tick rest g { g with now := g.now + dt }
  | enter (g) (worker : ℕ) (hclear : g.taken = false) :
      Tick rest g { g with taken := true, inside := g.inside ++ [worker] }
  | work (g) (worker : ℕ) (hinside : worker ∈ g.inside) :
      Tick rest g { g with marks := g.marks ++ [⟨worker,g.now⟩] }
  | leave (g) (front back : List ℕ) (worker : ℕ) (hinside : g.inside = front ++ worker :: back)
      (hrested : ∀ m ∈ g.marks, m.worker = worker → m.time + rest ≤ g.now) :
      Tick rest g { g with taken := false, inside := front ++ back }

/-- What two workers did lies the rest apart. -/
def Apart (rest : ℕ) (marks : List Mark) : Prop :=
  marks.Pairwise fun a b => a.worker ≠ b.worker → a.time + rest ≤ b.time

/-- The flag tells whether somebody is inside, at most one worker is, and all others have rested
from what they did. -/
structure Exclusive (rest : ℕ) (g : Gate) : Prop where
  single : g.inside.length = if g.taken then 1 else 0
  rested : ∀ m ∈ g.marks, m.worker ∉ g.inside → m.time + rest ≤ g.now
  apart : Apart rest g.marks

/-- Nobody is inside and nothing has been done. -/
theorem Exclusive.start (rest now : ℕ) : Exclusive rest ⟨now,false,[],[]⟩ :=
  ⟨rfl,List.forall_mem_nil _,List.Pairwise.nil⟩

/-- Who is inside is there alone. -/
theorem Exclusive.eq_singleton {rest : ℕ} {g : Gate} (h : Exclusive rest g) {worker : ℕ}
    (hinside : worker ∈ g.inside) : g.inside = [worker] := by
  have hlength : g.inside.length = 1 := by
    have := h.single
    split_ifs at this
    · exact this
    · rw [List.length_eq_zero_iff.mp this] at hinside
      cases hinside
  obtain ⟨w,hw⟩ := List.length_eq_one_iff.mp hlength
  rw [hw] at hinside ⊢
  rw [List.mem_singleton.mp hinside]

/-- Every step keeps the section exclusive. -/
theorem Exclusive.tick {rest : ℕ} {g g' : Gate} (h : Exclusive rest g) (ht : Tick rest g g') :
    Exclusive rest g' := by
  cases ht with
  | idle => exact h
  | wait dt =>
    exact ⟨h.single,fun m hm hout => Nat.le_trans (h.rested m hm hout) (Nat.le_add_right _ _),
      h.apart⟩
  | enter worker hclear =>
    refine ⟨?_,fun m hm hout => h.rested m hm fun hin => hout (List.mem_append_left _ hin),h.apart⟩
    have hnone : g.inside.length = 0 := by simpa [hclear] using h.single
    simp [hnone]
  | work worker hinside =>
    have hone := h.eq_singleton hinside
    refine ⟨h.single,?_,List.pairwise_append.mpr ⟨h.apart,List.pairwise_singleton _ _,?_⟩⟩
    · intro m hm hout
      rcases List.mem_append.mp hm with hm | hm
      · exact h.rested m hm hout
      · obtain rfl := List.mem_singleton.mp hm
        exact absurd hinside hout
    · -- the worker inside is the only one that has not rested
      intro m hm m' hm' hne
      obtain rfl := List.mem_singleton.mp hm'
      refine h.rested m hm ?_
      rw [hone]
      exact fun hin => hne (List.mem_singleton.mp hin)
  | leave front back worker hinside hrested =>
    have hone := h.eq_singleton (hinside ▸ List.mem_append_right front List.mem_cons_self)
    have hempty : front ++ back = [] := by
      have hlength := congrArg List.length (hinside.symm.trans hone)
      rw [List.length_append,List.length_cons,List.length_singleton] at hlength
      refine List.eq_nil_of_length_eq_zero ?_
      rw [List.length_append]
      omega
    refine ⟨by simp [hempty],fun m hm _ => ?_,h.apart⟩
    by_cases hw : m.worker = worker
    · exact hrested m hm hw
    · refine h.rested m hm ?_
      rw [hone]
      exact fun hin => hw (List.mem_singleton.mp hin)

end Gate
end LibinputRs.Automata
