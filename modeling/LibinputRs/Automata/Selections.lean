import LibinputRs.Automata.Sessions

/-! Tables with a selected address. Some inputs select an address, and all others are about the
address selected last. A table that ignores the selections outside of it gives what follows them to
the entry selected before. -/
namespace LibinputRs.Automata

variable {ι κ ε : Type*} (select : ι → Option κ)

section Selections

/-- The address that is selected after the inputs. -/
def selected (a : κ) (is : List ι) : κ := is.foldl (fun a i => (select i).getD a) a

@[simp] theorem selected_nil (a : κ) : selected select a [] = a := rfl

@[simp] theorem selected_concat (a : κ) (is : List ι) (i : ι) :
    selected select a (is ++ [i]) = (select i).getD (selected select a is) :=
  List.foldl_concat _ _ _ _

variable [DecidableEq κ]

/-- The inputs that come while `b` is selected. -/
def addressed (b : κ) : κ → List ι → List ι
  | _,[] => []
  | a,i :: is =>
    match select i with
    | some c => addressed b c is
    | none => if a = b then i :: addressed b a is else addressed b a is

@[simp] theorem addressed_nil (a b : κ) : addressed select b a [] = [] := rfl

/-- One more input is about the address selected by the ones before it, or selects another. -/
theorem addressed_concat (a b : κ) (is : List ι) (i : ι) : addressed select b a (is ++ [i]) =
    addressed select b a is ++
      if select i = none ∧ selected select a is = b then [i] else [] := by
  induction is generalizing a with
  | nil => cases hi : select i <;> by_cases hab : a = b <;> simp [addressed,hi,hab]
  | cons j is ih =>
    have hselected : selected select a (j :: is) = selected select ((select j).getD a) is := rfl
    rw [hselected]
    cases hj : select j with
    | some c => simp [addressed,hj,ih]
    | none => by_cases hab : a = b <;> simp [addressed,hj,hab,ih]

end Selections

section Addresses
variable {select} {inside : κ → Option ℕ} {address : ℕ → κ} {size start : ℕ}

/-- The addresses of the entries, and which of them an address is. -/
structure Addresses (inside : κ → Option ℕ) (address : ℕ → κ) (size : ℕ) : Prop where
  inside_iff : ∀ a n, inside a = some n ↔ a = address n ∧ n < size

theorem Addresses.inside_address (h : Addresses inside address size) {n : ℕ} (hn : n < size) :
    inside (address n) = some n := (h.inside_iff _ _).mpr ⟨rfl,hn⟩

/-- The entry selected last. -/
def held (select : ι → Option κ) (inside : κ → Option ℕ) (start : ℕ) (is : List ι) : ℕ :=
  selected (fun i => (select i).bind inside) start is

/-- As long as an address inside the table is selected, it is that of the entry selected last. -/
theorem Addresses.held_eq (h : Addresses inside address size) (hstart : start < size)
    (is : List ι) {n : ℕ} (hn : inside (selected select (address start) is) = some n) :
    held select inside start is = n := by
  unfold held
  induction is using List.reverseRecOn generalizing n with
  | nil => exact Option.some_injective _ ((h.inside_address hstart).symm.trans hn)
  | append_singleton is i ih =>
    rw [selected_concat] at *
    cases hi : select i with
    | none =>
      rw [hi] at hn
      exact ih hn
    | some c =>
      rw [hi,Option.getD_some] at hn
      simp [hn]

theorem Addresses.held_lt (h : Addresses inside address size) (hstart : start < size)
    (is : List ι) : held select inside start is < size := by
  unfold held
  induction is using List.reverseRecOn with
  | nil => exact hstart
  | append_singleton is i ih =>
    rw [selected_concat]
    cases hi : (select i).bind inside with
    | none => exact ih
    | some n =>
      obtain ⟨c,_,hc⟩ := Option.bind_eq_some_iff.mp hi
      exact ((h.inside_iff c n).mp hc).2

end Addresses

section Tables
variable [DecidableEq κ] {select} {inside : κ → Option ℕ} {address : ℕ → κ} {size start : ℕ}
  {write : ι → ε → ε} {initial : ε} {admits : ι → Prop} {table : List ι → List ε}

/-- What the inputs about an entry have made of it. -/
def entry (select : ι → Option κ) (write : ι → ε → ε) (initial : ε) (a b : κ) (is : List ι) : ε :=
  (addressed select b a is).foldl (fun e i => write i e) initial

theorem entry_concat_of_select {a b : κ} {is : List ι} {i : ι} (h : select i ≠ none) :
    entry select write initial a b (is ++ [i]) = entry select write initial a b is := by
  rw [entry,addressed_concat,if_neg fun hi => h hi.1,List.append_nil]
  rfl

theorem entry_concat_of_data {a b : κ} {is : List ι} {i : ι} (h : select i = none) :
    entry select write initial a b (is ++ [i]) =
      if selected select a is = b then write i (entry select write initial a b is)
      else entry select write initial a b is := by
  rw [entry,addressed_concat]
  split_ifs with hboth hb hb
  · rw [List.foldl_concat]
    rfl
  · exact absurd hboth.2 hb
  · exact absurd ⟨h,hb⟩ hboth
  · rw [List.append_nil]
    rfl

/-- A table whose inputs, as far as they are admitted, change the entry selected last. -/
structure ChangesHeld (select : ι → Option κ) (inside : κ → Option ℕ) (write : ι → ε → ε)
    (size start : ℕ) (initial : ε) (admits : ι → Prop) (table : List ι → List ε) : Prop where
  nil : table [] = List.replicate size initial
  selection : ∀ is i, select i ≠ none → table (is ++ [i]) = table is
  data : ∀ is i, (∀ j ∈ is, admits j) → select i = none →
    table (is ++ [i]) = (table is).modify (held select inside start is) (write i)

/-- Every entry is what the inputs about it have made of it. -/
def Follows (select : ι → Option κ) (write : ι → ε → ε) (address : ℕ → κ) (size start : ℕ)
    (initial : ε) (table : List ε) (is : List ι) : Prop :=
  ∀ n < size, table[n]? = some (entry select write initial (address start) (address n) is)

/-- An input that comes while no entry is selected leaves the entry selected last as the inputs
about that have made it. -/
def Harmless (select : ι → Option κ) (inside : κ → Option ℕ) (write : ι → ε → ε)
    (address : ℕ → κ) (start : ℕ) (initial : ε) (is : List ι) (i : ι) : Prop :=
  select i = none → inside (selected select (address start) is) = none →
    let e := entry select write initial (address start) (address (held select inside start is)) is
    write i e = e

theorem ChangesHeld.follows_nil
    (h : ChangesHeld select inside write size start initial admits table) :
    Follows select write address size start initial (table []) [] := by
  intro n hn
  rw [h.nil,List.getElem?_replicate_of_lt hn]
  rfl

/-- An input keeps a table that follows its inputs so exactly if it is harmless. -/
theorem ChangesHeld.follows_concat_iff
    (h : ChangesHeld select inside write size start initial admits table)
    (haddr : Addresses inside address size) (hstart : start < size) {is : List ι} (i : ι)
    (hadmits : ∀ j ∈ is, admits j)
    (hf : Follows select write address size start initial (table is) is) :
    Follows select write address size start initial (table (is ++ [i])) (is ++ [i]) ↔
      Harmless select inside write address start initial is i := by
  by_cases hi : select i = none
  · have hentry : ∀ n < size, (table (is ++ [i]))[n]? = some
        (if held select inside start is = n then
          write i (entry select write initial (address start) (address n) is)
        else entry select write initial (address start) (address n) is) := by
      intro n hn
      rw [h.data is i hadmits hi,List.getElem?_modify,hf n hn]
      rfl
    cases hin : inside (selected select (address start) is) with
    | some m =>
      -- the input is about the entry that it changes
      refine iff_of_true (fun n hn => ?_) fun _ hout => absurd (hin.symm.trans hout) (by simp)
      have hm := ((haddr.inside_iff _ _).mp hin).1
      have hiff : address m = address n ↔ m = n := by
        refine ⟨fun heq => ?_,fun heq => heq ▸ rfl⟩
        have hn' := haddr.inside_address hn
        rw [← heq,← hm,hin] at hn'
        exact Option.some_injective _ hn'
      rw [hentry n hn,haddr.held_eq hstart is hin,entry_concat_of_data hi,hm]
      simp only [hiff]
    | none =>
      have hother : ∀ n < size, selected select (address start) is ≠ address n := by
        intro n hn heq
        rw [heq,haddr.inside_address hn] at hin
        cases hin
      have hheld : held select inside start is < size := haddr.held_lt hstart is
      constructor
      · intro hnext _ _
        have hentry' := hnext _ hheld
        rw [hentry _ hheld,if_pos rfl,entry_concat_of_data hi,if_neg (hother _ hheld)] at hentry'
        exact Option.some_injective _ hentry'
      · intro hharmless n hn
        rw [hentry n hn,entry_concat_of_data hi,if_neg (hother n hn)]
        split_ifs with heq
        · exact congrArg some (heq ▸ hharmless hi hin)
        · rfl
  · refine iff_of_true (fun n hn => ?_) fun hnone => absurd hnone hi
    rw [h.selection is i hi,hf n hn,entry_concat_of_select hi]

/-- A table that changes the entry selected last follows its inputs at every moment exactly if each
of them is harmless. -/
theorem ChangesHeld.follows_iff
    (h : ChangesHeld select inside write size start initial admits table)
    (haddr : Addresses inside address size) (hstart : start < size) {is : List ι}
    (hadmits : ∀ j ∈ is, admits j) :
    (∀ front back, is = front ++ back →
        Follows select write address size start initial (table front) front) ↔
      AtEach (Harmless select inside write address start initial) is := by
  induction is using List.reverseRecOn with
  | nil =>
    refine iff_of_true (fun front back heq => ?_) atEach_nil
    obtain ⟨rfl,rfl⟩ := List.append_eq_nil_iff.mp heq.symm
    exact h.follows_nil
  | append_singleton is i ih =>
    have hbefore := (List.forall_mem_append.mp hadmits).1
    rw [atEach_append,atEach_singleton,List.append_nil,← ih hbefore]
    constructor
    · intro hall
      have hfront : ∀ front back, is = front ++ back →
          Follows select write address size start initial (table front) front :=
        fun front back heq => hall front (back ++ [i]) (by rw [heq,List.append_assoc])
      exact ⟨hfront,(h.follows_concat_iff haddr hstart i hbefore (hfront is [] (by simp))).mp
        (hall (is ++ [i]) [] (by simp))⟩
    · rintro ⟨hfront,hi⟩ front back heq
      rcases List.eq_nil_or_concat back with rfl | ⟨mid,j,rfl⟩
      · rw [List.append_nil] at heq
        rw [← heq]
        exact (h.follows_concat_iff haddr hstart i hbefore (hfront is [] (by simp))).mpr hi
      · rw [List.concat_eq_append,← List.append_assoc] at heq
        exact hfront front mid (List.append_inj' heq rfl).1

end Tables
end LibinputRs.Automata
