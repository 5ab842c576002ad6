import Mathlib.Algebra.Ring.Nat
import Mathlib.Data.List.Basic
import Mathlib.Logic.Function.Basic

/-! Queues behind edge-triggered readiness. Data that arrives at a source raises a notification,
a poll takes notifications over into the list its caller works through, and neither comes back
before more data does. Nothing is lost as long as every turn of the caller empties the queue of
the source it is at. -/
namespace LibinputRs.Automata

section Reads
variable {β : Type*} (size : β → ℕ)

/-- What one read gives: the longest front whose sizes together fit into the room. -/
def takeWithin : ℕ → List β → List β
  | _, [] => []
  | room, b :: l => if size b ≤ room then b :: takeWithin (room - size b) l else []

/-- A queue that fits is read whole. -/
theorem takeWithin_eq_self {room : ℕ} {l : List β} (h : (l.map size).sum ≤ room) :
    takeWithin size room l = l := by
  induction l generalizing room with
  | nil => rfl
  | cons b l ih =>
    rw [List.map_cons,List.sum_cons] at h
    rw [takeWithin,if_pos (by omega),ih (by omega)]

end Reads

variable {ι : Type*} {α : ι → Type*}

/-- The queues of all sources, the notifications pending, and the sources that the last poll
reported and that are not handled yet. -/
structure Readiness (α : ι → Type*) where
  unread : ∀ i, List (α i)
  ready : ι → Bool
  reported : List ι

namespace Readiness

def empty : Readiness α := ⟨fun _ => [],fun _ => false,[]⟩

variable [DecidableEq ι]

/-- Items that arrive raise the notification of their source. -/
def arrive (s : Readiness α) (i : ι) (items : List (α i)) : Readiness α :=
  { s with
    unread := Function.update s.unread i (s.unread i ++ items)
    ready := Function.update s.ready i true }

/-- A source enters with what its queue already holds, and is ready when that is anything. -/
def register (s : Readiness α) (i : ι) (items : List (α i)) : Readiness α :=
  { s with
    unread := Function.update s.unread i items
    ready := Function.update s.ready i (!items.isEmpty) }

/-- The queue of a source is given up for lost. -/
def discard (s : Readiness α) (i : ι) : Readiness α :=
  { s with unread := Function.update s.unread i [] }

/-- Some of the notifications pending are taken back, and those of sources with something unread
are reported. -/
def poll (s : Readiness α) (l : List ι) : Readiness α :=
  { s with
    ready := fun i => s.ready i && decide (i ∉ l)
    reported := l.filter fun i => s.ready i && !(s.unread i).isEmpty }

/-- One read of a source. -/
def read (s : Readiness α) (i : ι) (size : α i → ℕ) (room : ℕ) : Readiness α :=
  { s with
    unread := Function.update s.unread i
      ((s.unread i).drop (takeWithin size room (s.unread i)).length) }

/-- The caller is done with the first source reported. -/
def finish (s : Readiness α) : Readiness α := { s with reported := s.reported.tail }

/-- What is unread at a source will come to be handled: a notification is pending, or was
reported. -/
def Armed (s : Readiness α) (i : ι) : Prop :=
  s.unread i ≠ [] → s.ready i = true ∨ i ∈ s.reported

variable {s : Readiness α} {i j : ι}

omit [DecidableEq ι] in
theorem armed_of_nil (h : s.unread i = []) : s.Armed i := fun hne => absurd h hne

omit [DecidableEq ι] in
/-- When everything reported is handled, what is unread has its notification pending. -/
theorem Armed.ready (h : s.Armed i) (hreported : s.reported = []) (hne : s.unread i ≠ []) :
    s.ready i = true := by
  rcases h hne with hready | hmem
  · exact hready
  · rw [hreported] at hmem
    cases hmem

theorem Armed.arrive (h : s.Armed j) (i : ι) (items : List (α i)) :
    (s.arrive i items).Armed j := by
  intro hne
  by_cases hj : j = i
  · subst hj
    exact .inl (Function.update_self ..)
  · simp only [Readiness.arrive,Function.update_of_ne hj] at hne ⊢
    exact h hne

theorem armed_register (s : Readiness α) (i : ι) (items : List (α i)) :
    (s.register i items).Armed i := by
  intro hne
  simp only [register,Function.update_self] at hne ⊢
  exact .inl (by simpa using hne)

theorem Armed.register (h : s.Armed j) (i : ι) (items : List (α i)) :
    (s.register i items).Armed j := by
  by_cases hj : j = i
  · subst hj
    exact armed_register s j items
  · intro hne
    simp only [Readiness.register,Function.update_of_ne hj] at hne ⊢
    exact h hne

theorem Armed.discard (h : s.Armed j) (i : ι) : (s.discard i).Armed j := by
  by_cases hj : j = i
  · subst hj
    exact armed_of_nil (Function.update_self ..)
  · intro hne
    simp only [Readiness.discard,Function.update_of_ne hj] at hne ⊢
    exact h hne

/-- A poll made when everything reported before it is handled. -/
theorem Armed.poll (h : s.Armed j) (hreported : s.reported = []) (l : List ι) :
    (s.poll l).Armed j := by
  intro hne
  have hready := h.ready hreported hne
  by_cases hj : j ∈ l
  · refine .inr (List.mem_filter.mpr ⟨hj,?_⟩)
    rw [hready,Bool.true_and,Bool.not_eq_true',List.isEmpty_eq_false_iff]
    exact hne
  · exact .inl (by simp [Readiness.poll,hready,hj])

theorem Armed.read (h : s.Armed j) (i : ι) (size : α i → ℕ) (room : ℕ) :
    (s.read i size room).Armed j := by
  by_cases hj : j = i
  · subst hj
    intro hne
    apply h
    intro hnil
    apply hne
    simp [Readiness.read,hnil]
  · intro hne
    simp only [Readiness.read,Function.update_of_ne hj] at hne ⊢
    exact h hne

/-- A read with room for the whole queue leaves nothing. -/
theorem read_unread_eq_nil (size : α i → ℕ) {room : ℕ} (h : ((s.unread i).map size).sum ≤ room) :
    (s.read i size room).unread i = [] := by
  simp only [read,Function.update_self,takeWithin_eq_self size h,List.drop_length]

omit [DecidableEq ι] in
/-- A turn may end when it leaves nothing in the queue of its source. -/
theorem Armed.finish (h : s.Armed j) {rest : List ι} (hreported : s.reported = i :: rest)
    (hempty : j = i → s.unread j = []) : s.finish.Armed j := by
  intro hne
  rcases h hne with hready | hmem
  · exact .inl hready
  · rw [hreported,List.mem_cons] at hmem
    rcases hmem with hj | hmem
    · exact absurd (hempty hj) hne
    · exact .inr (by simpa [Readiness.finish,hreported] using hmem)

end Readiness
end LibinputRs.Automata
