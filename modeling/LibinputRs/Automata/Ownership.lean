import Mathlib.Algebra.Ring.Nat
import Mathlib.Data.List.Nodup
import Mathlib.Logic.Function.Basic

/-! Objects of a heap. An object is allocated, then accessed, then freed, and never comes back, so
a sequence of actions is safe when each of them finds its object in the state it needs. -/
namespace LibinputRs.Automata

variable {κ : Type*}

/-- What is done to an object. -/
inductive MemAction (κ : Type*)
  | alloc (o : κ)
  | access (o : κ)
  | free (o : κ)
  deriving DecidableEq, Repr

inductive Life
  | unborn
  | live
  | freed
  deriving DecidableEq, Repr

/-- How often an object in a state was allocated. -/
def Life.allocs : Life → ℕ
  | .unborn => 0
  | .live => 1
  | .freed => 1

/-- How often it was freed. -/
def Life.frees : Life → ℕ
  | .unborn => 0
  | .live => 0
  | .freed => 1

theorem Life.allocs_le (x : Life) : x.allocs ≤ 1 := by
  cases x <;> decide

/-- What was made is freed, unless it is still there. -/
theorem Life.frees_eq_allocs_iff (x : Life) : x.frees = x.allocs ↔ x ≠ .live := by
  cases x <;> decide

namespace MemAction

def object : MemAction κ → κ
  | alloc o => o
  | access o => o
  | free o => o

/-- The state an action needs its object in. -/
def needs : MemAction κ → Life
  | alloc _ => .unborn
  | access _ => .live
  | free _ => .live

/-- The state it leaves its object in. -/
def leaves : MemAction κ → Life
  | alloc _ => .live
  | access _ => .live
  | free _ => .freed

theorem needs_ne_freed (a : MemAction κ) : a.needs ≠ .freed := by
  cases a <;> simp [needs]

end MemAction

/-- The state of every object. -/
abbrev Heap (κ : Type*) := κ → Life

namespace Heap

/-- Nothing is allocated yet. -/
def empty : Heap κ := fun _ => .unborn

variable [DecidableEq κ]

def act (h : Heap κ) (a : MemAction κ) : Heap κ := Function.update h a.object a.leaves

def after : Heap κ → List (MemAction κ) → Heap κ
  | h, [] => h
  | h, a :: l => (h.act a).after l

/-- Every action finds its object in the state it needs. -/
def Safe : Heap κ → List (MemAction κ) → Prop
  | _, [] => True
  | h, a :: l => h a.object = a.needs ∧ (h.act a).Safe l

instance decidableSafe : (h : Heap κ) → (l : List (MemAction κ)) → Decidable (h.Safe l)
  | _, [] => isTrue trivial
  | h, a :: l =>
    have : Decidable ((h.act a).Safe l) := decidableSafe _ l
    inferInstanceAs (Decidable (_ ∧ _))

variable {h : Heap κ} {l m : List (MemAction κ)} {o : κ}

@[simp] theorem after_nil : h.after [] = h := rfl
@[simp] theorem after_cons (a : MemAction κ) : h.after (a :: l) = (h.act a).after l := rfl
@[simp] theorem safe_nil : h.Safe [] := trivial
@[simp] theorem safe_cons (a : MemAction κ) :
    h.Safe (a :: l) ↔ h a.object = a.needs ∧ (h.act a).Safe l := .rfl

theorem after_append : h.after (l ++ m) = (h.after l).after m := by
  induction l generalizing h with
  | nil => rfl
  | cons a l ih => exact ih

theorem safe_append : h.Safe (l ++ m) ↔ h.Safe l ∧ (h.after l).Safe m := by
  induction l generalizing h with
  | nil => simp
  | cons a l ih => simp only [List.cons_append,safe_cons,after_cons,ih,and_assoc]

theorem act_of_ne {a : MemAction κ} (ho : a.object ≠ o) : h.act a o = h o :=
  Function.update_of_ne (Ne.symm ho) _ _

/-- An access changes nothing. -/
theorem act_access (ho : h o = .live) : h.act (.access o) = h := by
  rw [act,MemAction.object,MemAction.leaves,← ho]
  exact Function.update_eq_self o h

/-- Actions on other objects leave an object as it is. -/
theorem after_of_ne (ho : ∀ a ∈ l, a.object ≠ o) : h.after l o = h o := by
  induction l generalizing h with
  | nil => rfl
  | cons a l ih =>
    rw [List.forall_mem_cons] at ho
    rw [after_cons,ih ho.2,act_of_ne ho.1]

/-- A freed object is not touched again, and stays freed. -/
theorem Safe.freed (hl : h.Safe l) (ho : h o = .freed) :
    (∀ a ∈ l, a.object ≠ o) ∧ h.after l o = .freed := by
  have hne : ∀ a ∈ l, a.object ≠ o := by
    induction l generalizing h with
    | nil => exact List.forall_mem_nil _
    | cons a l ih =>
      obtain ⟨hneeds,hrest⟩ := hl
      have ha : a.object ≠ o := fun heq => a.needs_ne_freed (hneeds.symm.trans (heq ▸ ho))
      exact List.forall_mem_cons.mpr ⟨ha,ih hrest ((act_of_ne ha).trans ho)⟩
  exact ⟨hne,(after_of_ne hne).trans ho⟩

/-- Accesses of live objects change nothing. -/
theorem safe_accesses {os : List κ} :
    h.Safe (os.map .access) ↔ ∀ o ∈ os, h o = .live := by
  induction os generalizing h with
  | nil => simp
  | cons o os ih =>
    rw [List.map_cons,safe_cons,List.forall_mem_cons]
    refine and_congr_right fun ho => ?_
    rw [act_access (show h o = .live from ho),ih]

theorem after_accesses {os : List κ} (hos : ∀ o ∈ os, h o = .live) :
    h.after (os.map .access) = h := by
  induction os with
  | nil => rfl
  | cons o os ih =>
    rw [List.forall_mem_cons] at hos
    rw [List.map_cons,after_cons,act_access hos.1,ih hos.2]

/-- The same thing done once to each of several objects. -/
theorem after_map {os : List κ} {act : κ → MemAction κ} {x : Life}
    (hobject : ∀ o, (act o).object = o) (hleaves : ∀ o, (act o).leaves = x) :
    h.after (os.map act) = fun o => if o ∈ os then x else h o := by
  induction os generalizing h with
  | nil => simp
  | cons o os ih =>
    rw [List.map_cons,after_cons,ih]
    funext o'
    by_cases hmem : o' ∈ os
    · simp [hmem]
    · by_cases heq : o' = o
      · subst heq
        simp [Heap.act,hobject,hleaves]
      · simp [hmem,heq,Heap.act,hobject]

theorem safe_map {os : List κ} (hos : os.Nodup) {act : κ → MemAction κ} {x : Life}
    (hobject : ∀ o, (act o).object = o) (hneeds : ∀ o, (act o).needs = x) :
    h.Safe (os.map act) ↔ ∀ o ∈ os, h o = x := by
  induction os generalizing h with
  | nil => simp
  | cons o os ih =>
    rw [List.nodup_cons] at hos
    rw [List.map_cons,safe_cons,ih hos.2,List.forall_mem_cons,hobject,hneeds]
    refine and_congr_right fun _ => forall₂_congr fun o' ho' => ?_
    have hne : (act o).object ≠ o' := fun heq => hos.1 ((hobject o).symm.trans heq ▸ ho')
    rw [act_of_ne hne]

theorem after_allocs {os : List κ} :
    h.after (os.map .alloc) = fun o => if o ∈ os then .live else h o :=
  after_map (fun _ => rfl) fun _ => rfl

theorem after_frees {os : List κ} :
    h.after (os.map .free) = fun o => if o ∈ os then .freed else h o :=
  after_map (fun _ => rfl) fun _ => rfl

theorem safe_allocs {os : List κ} (hos : os.Nodup) :
    h.Safe (os.map .alloc) ↔ ∀ o ∈ os, h o = .unborn :=
  safe_map hos (fun _ => rfl) fun _ => rfl

theorem safe_frees {os : List κ} (hos : os.Nodup) :
    h.Safe (os.map .free) ↔ ∀ o ∈ os, h o = .live :=
  safe_map hos (fun _ => rfl) fun _ => rfl

/-- In a safe sequence the state of an object tells how often it was allocated and freed. -/
theorem Safe.counts (hl : h.Safe l) (o : κ) :
    l.count (.alloc o) + (h o).allocs = (h.after l o).allocs ∧
      l.count (.free o) + (h o).frees = (h.after l o).frees := by
  induction l generalizing h with
  | nil => exact ⟨Nat.zero_add _,Nat.zero_add _⟩
  | cons a l ih =>
    obtain ⟨hneeds,hrest⟩ := hl
    obtain ⟨hallocs,hfrees⟩ := ih hrest
    rw [after_cons,← hallocs,← hfrees,List.count_cons,List.count_cons]
    by_cases ho : a.object = o
    · subst ho
      rw [hneeds]
      cases a <;> simp [Heap.act,MemAction.object,MemAction.leaves,MemAction.needs,Life.allocs,
        Life.frees]
    · have hne : a ≠ .alloc o ∧ a ≠ .free o := by
        constructor <;> rintro rfl <;> exact ho rfl
      simp [act_of_ne ho,hne.1,hne.2]

end Heap
end LibinputRs.Automata
