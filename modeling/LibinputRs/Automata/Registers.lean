import LibinputRs.Automata.Machine
import LibinputRs.Automata.Sessions

/-! What a machine remembers of its inputs. A latch is set by some steps and released by others; a
register is written by some steps, and after a run it holds what the last of them wrote. -/
namespace LibinputRs.Automata

variable {σ ι ω α : Type*}

section Latches

/-- A flag of the state that some steps set and others release. -/
structure Latch (step : σ → ι → σ × List ω) (flag : σ → Prop) (sets : σ → ι → Prop)
    (releases : ι → Prop) : Prop where
  set : ∀ s i, sets s i → flag (step s i).1
  released : ∀ s i, ¬ sets s i → releases i → ¬ flag (step s i).1
  kept : ∀ s i, ¬ sets s i → ¬ releases i → (flag (step s i).1 ↔ flag s)

/-- Some step has set the flag, and no step after it has released it. -/
def SetSince (step : σ → ι → σ × List ω) (sets : σ → ι → Prop) (releases : ι → Prop) (s : σ)
    (is : List ι) : Prop :=
  ∃ before i after, is = before ++ i :: after ∧ sets (run step s before).1 i ∧
    ∀ j ∈ after, ¬ releases j

variable {step : σ → ι → σ × List ω} {flag : σ → Prop} {sets : σ → ι → Prop} {releases : ι → Prop}

theorem not_setSince_nil (s : σ) : ¬ SetSince step sets releases s [] := by
  rintro ⟨before,i,after,h,_⟩
  simp at h

/-- One more step sets the flag, or leaves it set. -/
theorem setSince_concat (s : σ) (is : List ι) (i : ι) : SetSince step sets releases s (is ++ [i]) ↔
    sets (run step s is).1 i ∨ (¬ releases i ∧ SetSince step sets releases s is) := by
  constructor
  · rintro ⟨before,j,after,heq,hsets,hafter⟩
    cases after using List.reverseRecOn with
    | nil =>
      obtain ⟨rfl,hij⟩ := List.append_inj' heq rfl
      obtain rfl := (List.cons.inj hij).1
      exact .inl hsets
    | append_singleton after k =>
      rw [← List.cons_append,← List.append_assoc] at heq
      obtain ⟨rfl,hik⟩ := List.append_inj' heq rfl
      obtain rfl := (List.cons.inj hik).1
      rw [List.forall_mem_append] at hafter
      exact .inr ⟨hafter.2 i List.mem_cons_self,before,j,after,rfl,hsets,hafter.1⟩
  · rintro (hsets | ⟨hi,before,j,after,rfl,hsets,hafter⟩)
    · exact ⟨is,i,[],rfl,hsets,List.forall_mem_nil _⟩
    · refine ⟨before,j,after ++ [i],by simp,hsets,?_⟩
      rw [List.forall_mem_append]
      exact ⟨hafter,List.forall_mem_singleton.mpr hi⟩

/-- The flag is up exactly when some step has set it and none has released it since. -/
theorem Latch.run_iff (h : Latch step flag sets releases) {s : σ} (hs : ¬ flag s) (is : List ι) :
    flag (run step s is).1 ↔ SetSince step sets releases s is := by
  induction is using List.reverseRecOn with
  | nil => exact iff_of_false hs (not_setSince_nil s)
  | append_singleton is i ih =>
    rw [setSince_concat,← ih,run_append,run_singleton]
    by_cases hset : sets (run step s is).1 i
    · exact iff_of_true (h.set _ i hset) (.inl hset)
    · by_cases hrel : releases i
      · have hdown := h.released _ i hset hrel
        exact iff_of_false hdown fun hup => hup.elim hset fun hkept => hkept.1 hrel
      · rw [h.kept _ i hset hrel]
        simp [hrel,hset]

end Latches

section Registers

/-- A value of the outputs so far and the state that only the writing steps change. -/
def Register (step : σ → ι → σ × List ω) (value : List ω → σ → α) (write : σ → ι → Option α) :
    Prop :=
  ∀ out s i, value (out ++ (step s i).2) (step s i).1 = (write s i).getD (value out s)

/-- The last step of the run that wrote wrote this. -/
def LastWrote (step : σ → ι → σ × List ω) (write : σ → ι → Option α) (s : σ) (is : List ι) (a : α) :
    Prop :=
  ∃ before i after, is = before ++ i :: after ∧ write (run step s before).1 i = some a ∧
    AtEach (fun mid j => write (run step s (before ++ i :: mid)).1 j = none) after

variable {step : σ → ι → σ × List ω} {value : List ω → σ → α} {write : σ → ι → Option α}

theorem not_lastWrote_nil (s : σ) (a : α) : ¬ LastWrote step write s [] a := by
  rintro ⟨before,i,after,h,_⟩
  simp at h

/-- One more step writes the value, or leaves the last one. -/
theorem lastWrote_concat (s : σ) (is : List ι) (i : ι) (a : α) :
    LastWrote step write s (is ++ [i]) a ↔ write (run step s is).1 i = some a ∨
      (write (run step s is).1 i = none ∧ LastWrote step write s is a) := by
  constructor
  · rintro ⟨before,j,after,heq,hwrite,hafter⟩
    cases after using List.reverseRecOn with
    | nil =>
      obtain ⟨rfl,hij⟩ := List.append_inj' heq rfl
      obtain rfl := (List.cons.inj hij).1
      exact .inl hwrite
    | append_singleton after k =>
      rw [← List.cons_append,← List.append_assoc] at heq
      obtain ⟨rfl,hik⟩ := List.append_inj' heq rfl
      obtain rfl := (List.cons.inj hik).1
      rw [atEach_append,atEach_singleton,List.append_nil] at hafter
      exact .inr ⟨hafter.2,before,j,after,rfl,hwrite,hafter.1⟩
  · rintro (hwrite | ⟨hnone,before,j,after,rfl,hwrite,hafter⟩)
    · exact ⟨is,i,[],rfl,hwrite,atEach_nil⟩
    · refine ⟨before,j,after ++ [i],by simp,hwrite,?_⟩
      rw [atEach_append,atEach_singleton,List.append_nil]
      exact ⟨hafter,hnone⟩

/-- What the steps of a run wrote last, if any did. -/
def lastWritten (step : σ → ι → σ × List ω) (write : σ → ι → Option α) : σ → List ι → Option α
  | _,[] => none
  | s,i :: is => (lastWritten step write (step s i).1 is).or (write s i)

theorem lastWritten_concat (s : σ) (is : List ι) (i : ι) : lastWritten step write s (is ++ [i]) =
    (write (run step s is).1 i).or (lastWritten step write s is) := by
  induction is generalizing s with
  | nil => simp [lastWritten]
  | cons j is ih => simp [lastWritten,ih,run_cons,Option.or_assoc]

theorem lastWrote_iff (s : σ) (is : List ι) (a : α) :
    LastWrote step write s is a ↔ lastWritten step write s is = some a := by
  induction is using List.reverseRecOn with
  | nil => exact iff_of_false (not_lastWrote_nil s a) (by simp [lastWritten])
  | append_singleton is i ih =>
    rw [lastWrote_concat,lastWritten_concat,ih]
    cases write (run step s is).1 i <;> simp

/-- A register that starts with a value still has it, or has it again, exactly when nothing else was
written last. -/
theorem Register.run_iff (h : Register step value write) {s : σ} {a : α} (hs : value [] s = a)
    (is : List ι) : value (run step s is).2 (run step s is).1 = a ↔
      ∀ b, LastWrote step write s is b → b = a := by
  induction is using List.reverseRecOn with
  | nil => exact iff_of_true hs fun b hb => absurd hb (not_lastWrote_nil s b)
  | append_singleton is i ih =>
    simp only [lastWrote_concat,run_append,run_singleton]
    rw [h]
    cases hwrite : write (run step s is).1 i with
    | none => simpa using ih
    | some b => simp [eq_comm]

end Registers

/-- A condition on every output and what was output before it is decided step by step. -/
theorem atEach_run {step : σ → ι → σ × List ω} {P : List ω → ω → Prop} (s : σ) (is : List ι) :
    AtEach P (run step s is).2 ↔ AtEach (fun before i =>
      AtEach (fun front => P ((run step s before).2 ++ front)) (step (run step s before).1 i).2)
        is := by
  induction is using List.reverseRecOn with
  | nil => simp
  | append_singleton is i ih =>
    rw [run_append,run_singleton,atEach_append,atEach_append,atEach_singleton,List.append_nil,ih]

end LibinputRs.Automata
