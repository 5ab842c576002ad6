import Mathlib.Data.List.AList
import Mathlib.Algebra.Order.Group.Multiset

/-! Things taken and given back. An account of what is held follows a sequence of flows, and fails
when something is given back that is not held. -/
namespace LibinputRs.Automata

inductive Flow (κ : Type*)
  | take (k : κ)
  | give (k : κ)
  deriving DecidableEq

namespace Flow
variable {κ : Type*} [DecidableEq κ]

/-- What is held after the flows, if each thing given back is held at that time. -/
def settle : Multiset κ → List (Flow κ) → Option (Multiset κ)
  | h, [] => some h
  | h, take k :: l => settle (k ::ₘ h) l
  | h, give k :: l => if k ∈ h then settle (h.erase k) l else none

variable {h h' : Multiset κ} {l m : List (Flow κ)} {k : κ}

@[simp] theorem settle_nil : settle h [] = some h := rfl
@[simp] theorem settle_take : settle h (take k :: l) = settle (k ::ₘ h) l := rfl

@[simp] theorem settle_give : settle (k ::ₘ h) (give k :: l) = settle h l := by
  rw [settle,if_pos (Multiset.mem_cons_self k h),Multiset.erase_cons_head]

theorem settle_append : settle h (l ++ m) = (settle h l).bind fun h => settle h m := by
  induction l generalizing h with
  | nil => rfl
  | cons f l ih =>
    cases f with
    | take k => exact ih
    | give k =>
      rw [List.cons_append,settle,settle]
      split_ifs
      · exact ih
      · rfl

/-- One sequence of flows after another. -/
theorem settle_trans {h'' : Multiset κ} (hl : settle h l = some h') (hm : settle h' m = some h'') :
    settle h (l ++ m) = some h'' := by
  rw [settle_append,hl]
  exact hm

theorem settle_takes (ks : List κ) : settle h (ks.map take) = some ((ks : Multiset κ) + h) := by
  induction ks generalizing h with
  | nil => exact congrArg some (zero_add h).symm
  | cons k ks ih =>
    rw [List.map_cons,settle_take,ih,← Multiset.cons_coe,Multiset.add_cons,Multiset.cons_add]

theorem settle_gives (ks : List κ) : settle ((ks : Multiset κ) + h) (ks.map give) = some h := by
  induction ks with
  | nil => exact congrArg some (zero_add h)
  | cons k ks ih => rw [List.map_cons,← Multiset.cons_coe,Multiset.cons_add,settle_give,ih]

/-- What else is held stays held. -/
theorem settle_frame (g : Multiset κ) (hl : settle h l = some h') :
    settle (g + h) l = some (g + h') := by
  induction l generalizing h with
  | nil => exact congrArg (fun h => some (g + h)) (Option.some.inj hl)
  | cons f l ih =>
    cases f with
    | take k =>
      rw [settle_take,← Multiset.add_cons]
      exact ih hl
    | give k =>
      rw [settle] at hl
      split_ifs at hl with hk
      rw [settle,if_pos (Multiset.mem_add.mpr (.inr hk)),Multiset.erase_add_right_pos g hk]
      exact ih hl

end Flow

section Tables
variable {α β κ : Type*} [DecidableEq α] (f : β → κ)

/-- The names of the values of a table. -/
def tableNames (s : AList fun _ : α => β) : Multiset κ := ↑(s.entries.map fun e => f e.2)

theorem tableNames_insert (s : AList fun _ : α => β) (a : α) (b : β) :
    tableNames f (s.insert a b) = f b ::ₘ tableNames f (s.erase a) := by
  rw [tableNames,AList.entries_insert]
  rfl

theorem tableNames_of_lookup {s : AList fun _ : α => β} {a : α} {b : β}
    (hb : s.lookup a = some b) : tableNames f s = f b ::ₘ tableNames f (s.erase a) := by
  have hmem : (⟨a,b⟩ : Sigma fun _ : α => β) ∈ s.entries := AList.mem_lookup_iff.mp hb
  obtain ⟨b',front,back,hfront,hs,herase⟩ :=
    List.exists_of_kerase (List.mem_keys_of_mem hmem)
  have hb' : b' = b := by
    have hlast : (⟨a,b'⟩ : Sigma fun _ : α => β) ∈ s.entries := hs ▸ by simp
    rw [← AList.mem_lookup_iff] at hlast
    exact Option.some.inj ((Option.mem_def.mp hlast).symm.trans hb)
  subst hb'
  change (↑(s.entries.map fun e => f e.2) : Multiset κ) =
    f b' ::ₘ ↑((s.entries.kerase a).map fun e => f e.2)
  rw [herase,hs,Multiset.cons_coe,Multiset.coe_eq_coe]
  simp

theorem tableNames_erase_of_none {s : AList fun _ : α => β} {a : α} (ha : s.lookup a = none) :
    tableNames f (s.erase a) = tableNames f s := by
  have hkeys : a ∉ s.entries.keys := AList.lookup_eq_none.mp ha
  change (↑((s.entries.kerase a).map fun e => f e.2) : Multiset κ) = _
  rw [List.kerase_of_notMem_keys hkeys]
  rfl

end Tables
end LibinputRs.Automata
