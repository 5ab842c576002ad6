import LibinputRs.Automata.Machine
import LibinputRs.Automata.Sessions

/-! Stores of named options. Each option has a setter, which answers with a status, and a getter;
status zero is success. Where no setter touches another option and a refused one touches none, the
values set are those read back through any sequence of calls as soon as each is right after it. -/
namespace LibinputRs.Automata

/-- The setters and getters of a store, and the value that each value set stands for. -/
structure OptionStore (σ ι : Type*) (V : ι → Type*) where
  set : (i : ι) → V i → σ → σ × ℕ
  get : (i : ι) → σ → V i
  normal : (i : ι) → V i → V i

namespace OptionStore
variable {σ ι : Type*} {V : ι → Type*} (S : OptionStore σ ι V)

/-- One call of a setter, with its status as the output. -/
def call (s : σ) (c : (i : ι) × V i) : σ × List ℕ :=
  ((S.set c.1 c.2 s).1,[(S.set c.1 c.2 s).2])

/-- The state after a sequence of calls. -/
def after (s : σ) (calls : List ((i : ι) × V i)) : σ := (run S.call s calls).1

/-- No call of the sequence sets the option with success. -/
def Untouched (i : ι) (s : σ) (calls : List ((i : ι) × V i)) : Prop :=
  AtEach (fun before c => c.1 = i → (S.set c.1 c.2 (S.after s before)).2 ≠ 0) calls

/-- What is set with success is read back until the option is next set with success. -/
def GetAfterSet (s : σ) (calls : List ((i : ι) × V i)) : Prop :=
  ∀ front (i : ι) (v : V i) mid back, calls = front ++ ⟨i,v⟩ :: (mid ++ back) →
    (S.set i v (S.after s front)).2 = 0 →
    S.Untouched i (S.set i v (S.after s front)).1 mid →
    S.get i (S.after (S.set i v (S.after s front)).1 mid) = S.normal i v

/-- A call that is refused changes nothing that can be read. -/
def FailureKeeps (s : σ) (calls : List ((i : ι) × V i)) : Prop :=
  AtEach (fun before c => (S.set c.1 c.2 (S.after s before)).2 ≠ 0 →
    ∀ j, S.get j (S.set c.1 c.2 (S.after s before)).1 = S.get j (S.after s before)) calls

/-- Setters leave the other options alone, and refused ones their own as well. -/
structure Framed : Prop where
  other : ∀ i v s j, j ≠ i → S.get j (S.set i v s).1 = S.get j s
  refused : ∀ i v s, (S.set i v s).2 ≠ 0 → S.get i (S.set i v s).1 = S.get i s

@[simp] theorem after_nil (s : σ) : S.after s [] = s := rfl

theorem after_cons (s : σ) (c : (i : ι) × V i) (calls : List ((i : ι) × V i)) :
    S.after s (c :: calls) = S.after (S.set c.1 c.2 s).1 calls := rfl

variable {S}

/-- A refused call keeps every option. -/
theorem Framed.get_of_refused (h : S.Framed) {i : ι} {v : V i} {s : σ}
    (hs : (S.set i v s).2 ≠ 0) (j : ι) : S.get j (S.set i v s).1 = S.get j s := by
  by_cases hj : j = i
  · subst hj
    exact h.refused j v s hs
  · exact h.other i v s j hj

theorem Framed.get_of_untouched (h : S.Framed) {i : ι} {s : σ} {calls : List ((i : ι) × V i)}
    (hcalls : S.Untouched i s calls) : S.get i (S.after s calls) = S.get i s := by
  induction calls generalizing s with
  | nil => rfl
  | cons c calls ih =>
    obtain ⟨hc,hrest⟩ := atEach_cons.mp hcalls
    have hstep : S.get i (S.set c.1 c.2 s).1 = S.get i s := by
      by_cases hi : c.1 = i
      · exact h.get_of_refused (hc hi) i
      · exact h.other c.1 c.2 s i (Ne.symm hi)
    rw [after_cons,ih hrest,hstep]

theorem Framed.failureKeeps (h : S.Framed) (s : σ) (calls : List ((i : ι) × V i)) :
    S.FailureKeeps s calls :=
  fun _ _ _ _ hs j => h.get_of_refused hs j

/-- The law for a sequence is the law for each of its calls. -/
theorem Framed.getAfterSet_iff (h : S.Framed) (s : σ) (calls : List ((i : ι) × V i)) :
    S.GetAfterSet s calls ↔ AtEach (fun before c => (S.set c.1 c.2 (S.after s before)).2 = 0 →
      S.get c.1 (S.set c.1 c.2 (S.after s before)).1 = S.normal c.1 c.2) calls := by
  constructor
  · rintro hlaw front ⟨i,v⟩ back rfl hs
    exact hlaw front i v [] back rfl hs atEach_nil
  · rintro hcalls front i v mid back rfl hs hmid
    rw [h.get_of_untouched hmid]
    exact hcalls front ⟨i,v⟩ (mid ++ back) rfl hs

end OptionStore
end LibinputRs.Automata
