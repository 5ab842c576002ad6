import Mathlib.Computability.Language

/-! Brackets and sessions in event sequences. A bracket is open after a sequence when some
opening event has no closing event after it. A session is a begin, any number of updates and
an end that all carry one key; a sequence of sessions is recognised by remembering the key
of the session that is open. -/
namespace LibinputRs.Automata

section Brackets
variable {α : Type*} {opens closes : α → Prop}

/-- Some opening event of the sequence is followed by no closing event. -/
def OpenAfter (opens closes : α → Prop) (l : List α) : Prop :=
  ∃ front a back, l = front ++ a :: back ∧ opens a ∧ ∀ b ∈ back, ¬ closes b

@[simp] theorem not_openAfter_nil : ¬ OpenAfter opens closes [] := by
  rintro ⟨front, a, back, h, _⟩
  simp at h

/-- An opening is pending after a concatenation when it is pending in the second part, or
pending in the first part while the second closes nothing. -/
theorem openAfter_append {l m : List α} : OpenAfter opens closes (l ++ m) ↔
    OpenAfter opens closes m ∨ (OpenAfter opens closes l ∧ ∀ b ∈ m, ¬ closes b) := by
  constructor
  · rintro ⟨front, a, back, heq, ha, hback⟩
    rcases List.append_eq_append_iff.mp heq with ⟨mid, hfront, hm⟩ | ⟨mid, hl, hm⟩
    · exact .inl ⟨mid, a, back, hm, ha, hback⟩
    · cases mid with
      | nil => exact .inl ⟨[], a, back, hm.symm, ha, hback⟩
      | cons b mid =>
        obtain ⟨rfl, rfl⟩ := List.cons.inj hm
        exact .inr ⟨⟨front, _, mid, hl, ha, fun b hb => hback b (List.mem_append_left _ hb)⟩,
          fun b hb => hback b (List.mem_append_right _ hb)⟩
  · rintro (⟨front, a, back, rfl, ha, hback⟩ | ⟨⟨front, a, back, rfl, ha, hback⟩, hm⟩)
    · exact ⟨l ++ front, a, back, by simp, ha, hback⟩
    · refine ⟨front, a, back ++ m, by simp, ha, fun b hb => ?_⟩
      rcases List.mem_append.mp hb with hb | hb
      · exact hback b hb
      · exact hm b hb

@[simp] theorem openAfter_singleton {a : α} : OpenAfter opens closes [a] ↔ opens a := by
  constructor
  · rintro ⟨front, b, back, h, hb, _⟩
    cases front with
    | nil => obtain ⟨rfl, _⟩ := List.cons.inj h; exact hb
    | cons c front => simp at h
  · exact fun h => ⟨[], a, [], rfl, h, by simp⟩

/-- Events that neither open nor close leave the bracket as it was. -/
theorem openAfter_append_of_neutral {l m : List α} (hm : ∀ b ∈ m, ¬ opens b ∧ ¬ closes b) :
    OpenAfter opens closes (l ++ m) ↔ OpenAfter opens closes l := by
  rw [openAfter_append]
  constructor
  · rintro (⟨front, a, back, rfl, ha, _⟩ | ⟨h, _⟩)
    · exact absurd ha (hm a (by simp)).1
    · exact h
  · exact fun h => .inr ⟨h, fun b hb => (hm b hb).2⟩

theorem OpenAfter.append {l m : List α} (h : OpenAfter opens closes l)
    (hm : ∀ b ∈ m, ¬ closes b) : OpenAfter opens closes (l ++ m) :=
  openAfter_append.mpr (.inr ⟨h, hm⟩)

theorem openAfter_cons {a : α} {l : List α} : OpenAfter opens closes (a :: l) ↔
    OpenAfter opens closes l ∨ (opens a ∧ ∀ b ∈ l, ¬ closes b) :=
  (openAfter_append (l := [a])).trans (or_congr_right (and_congr_left fun _ => openAfter_singleton))

/-- Whether an opening is pending is decided from the front. -/
instance decidableOpenAfter [DecidablePred opens] [DecidablePred closes] :
    (l : List α) → Decidable (OpenAfter opens closes l)
  | [] => isFalse not_openAfter_nil
  | a :: l =>
    have : Decidable (OpenAfter opens closes l) := decidableOpenAfter l
    decidable_of_iff (OpenAfter opens closes l ∨ (opens a ∧ ∀ b ∈ l, ¬ closes b))
      openAfter_cons.symm

end Brackets

section Positions
variable {α : Type*} {P : List α → α → Prop}

/-- At every position the element stands in a relation to all that precedes it. -/
def AtEach (P : List α → α → Prop) (l : List α) : Prop :=
  ∀ front a back, l = front ++ a :: back → P front a

@[simp] theorem atEach_nil : AtEach P [] := by
  intro front a back h
  simp at h

theorem atEach_append {l m : List α} :
    AtEach P (l ++ m) ↔ AtEach P l ∧ AtEach (fun front => P (l ++ front)) m := by
  constructor
  · refine fun h => ⟨fun front a back hl => ?_,fun front a back hm => ?_⟩
    · exact h front a (back ++ m) (by simp [hl])
    · exact h (l ++ front) a back (by simp [hm])
  · rintro ⟨hl,hm⟩ front a back heq
    rcases List.append_eq_append_iff.mp heq with ⟨mid,rfl,rfl⟩ | ⟨mid,rfl,hmid⟩
    · exact hm mid a back rfl
    · cases mid with
      | nil =>
        have := hm [] a back (by simpa using hmid.symm)
        simpa using this
      | cons b mid =>
        obtain ⟨rfl,_⟩ := List.cons.inj hmid
        exact hl front a mid rfl

@[simp] theorem atEach_singleton {a : α} : AtEach P [a] ↔ P [] a := by
  constructor
  · exact fun h => h [] a [] rfl
  · intro h front b back heq
    cases front with
    | nil =>
      obtain ⟨rfl,_⟩ := List.cons.inj heq
      exact h
    | cons c front => simp at heq

theorem atEach_cons {a : α} {l : List α} :
    AtEach P (a :: l) ↔ P [] a ∧ AtEach (fun front => P (a :: front)) l :=
  (atEach_append (l := [a])).trans (and_congr_left fun _ => atEach_singleton)

/-- A decidable condition is decided position by position. -/
instance decidableAtEach : (P : List α → α → Prop) → [∀ front a, Decidable (P front a)] →
    (l : List α) → Decidable (AtEach P l)
  | _, _, [] => isTrue atEach_nil
  | P, _, a :: l =>
    have : Decidable (AtEach (fun front => P (a :: front)) l) := decidableAtEach _ l
    decidable_of_iff _ atEach_cons.symm

/-- A property of the elements alone holds at each position. -/
theorem atEach_of_forall {l : List α} (h : ∀ a ∈ l, ∀ front, P front a) : AtEach P l := by
  rintro front a back rfl
  exact h a (by simp) front

theorem atEach_const {p : α → Prop} {l : List α} : AtEach (fun _ a => p a) l ↔ ∀ a ∈ l, p a := by
  refine ⟨fun h a ha => ?_,fun h => atEach_of_forall fun a ha _ => h a ha⟩
  obtain ⟨front,back,rfl⟩ := List.append_of_mem ha
  exact h front a back rfl

theorem atEach_and {Q : List α → α → Prop} {l : List α} :
    AtEach (fun front a => P front a ∧ Q front a) l ↔ AtEach P l ∧ AtEach Q l :=
  ⟨fun h => ⟨fun front a back heq => (h front a back heq).1,
    fun front a back heq => (h front a back heq).2⟩,
    fun h front a back heq => ⟨h.1 front a back heq,h.2 front a back heq⟩⟩

theorem atEach_forall {κ : Sort*} {P : κ → List α → α → Prop} {l : List α} :
    AtEach (fun front a => ∀ k, P k front a) l ↔ ∀ k, AtEach (P k) l :=
  ⟨fun h k front a back heq => h front a back heq k,
    fun h front a back heq k => h k front a back heq⟩

/-- Two conditions on the positions agree where each agrees with the other once it has held so
far. -/
theorem atEach_congr {Q : List α → α → Prop} {l : List α}
    (h : ∀ front a back, l = front ++ a :: back → AtEach P front → (P front a ↔ Q front a)) :
    AtEach P l ↔ AtEach Q l := by
  induction l using List.reverseRecOn with
  | nil => simp
  | append_singleton l a ih =>
    have hiff := ih fun front b back heq => h front b (back ++ [a]) (by simp [heq])
    rw [atEach_append,atEach_append,atEach_singleton,atEach_singleton,List.append_nil,← hiff]
    exact and_congr_right fun hl => h l a [] rfl hl

/-- A relation to every element before is a relation between any two in their order. -/
theorem atEach_mem_iff_pairwise {R : α → α → Prop} {l : List α} :
    AtEach (fun front a => ∀ b ∈ front, R b a) l ↔ l.Pairwise R := by
  induction l using List.reverseRecOn with
  | nil => simp
  | append_singleton l a ih =>
    rw [atEach_append,ih,List.pairwise_append]
    simp

end Positions

section Sessions
variable {κ : Type*}

/-- The events of a session protocol, each with the key of its session. -/
inductive SessionTag (κ : Type*)
  | begin (key : κ)
  | update (key : κ)
  | finish (key : κ)
  deriving DecidableEq

/-- One complete session. -/
def session (κ : Type*) : Language (SessionTag κ) :=
  {l | ∃ key n, l = .begin key :: List.replicate n (.update key) ++ [.finish key]}

/-- The prefixes of the words of a language. -/
def prefixes {α : Type*} (L : Language α) : Language α := {l | ∃ rest, l ++ rest ∈ L}

variable [DecidableEq κ]

/-- The key of the open session after one more event, if the protocol admits the event. -/
def follow : Option κ → SessionTag κ → Option (Option κ)
  | none, .begin key => some (some key)
  | some open_, .update key => if key = open_ then some (some open_) else none
  | some open_, .finish key => if key = open_ then some none else none
  | _, _ => none

/-- The key of the open session after a sequence of admitted events. -/
def followAll : Option κ → List (SessionTag κ) → Option (Option κ)
  | s, [] => some s
  | s, a :: l => (follow s a).bind (followAll · l)

@[simp] theorem followAll_nil (s : Option κ) : followAll s [] = some s := rfl

theorem followAll_append (s : Option κ) (l m : List (SessionTag κ)) :
    followAll s (l ++ m) = (followAll s l).bind (followAll · m) := by
  induction l generalizing s with
  | nil => rfl
  | cons a l ih =>
    simp only [List.cons_append, followAll]
    cases follow s a with
    | none => rfl
    | some t => simpa using ih t

/-- What has been read when the open session is as given: complete sessions, and after them
the unfinished one. -/
def Reached : Option κ → List (SessionTag κ) → Prop
  | none, l => l ∈ KStar.kstar (session κ)
  | some key, l => ∃ done ∈ KStar.kstar (session κ), ∃ n,
      l = done ++ .begin key :: List.replicate n (.update key)

omit [DecidableEq κ] in
lemma append_session_mem {done word : List (SessionTag κ)}
    (hdone : done ∈ KStar.kstar (session κ)) (hword : word ∈ session κ) :
    done ++ word ∈ KStar.kstar (session κ) := by
  rw [← kstar_mul_kstar]
  exact Language.append_mem_mul hdone ((le_kstar : session κ ≤ KStar.kstar (session κ)) hword)

lemma Reached.follow {s t : Option κ} {l : List (SessionTag κ)} {a : SessionTag κ}
    (h : Reached s l) (ha : follow s a = some t) : Reached t (l ++ [a]) := by
  cases s with
  | none =>
    cases a with
    | begin key =>
      obtain rfl : some key = t := by simpa [Automata.follow] using ha
      exact ⟨l, h, 0, rfl⟩
    | update key => simp [Automata.follow] at ha
    | finish key => simp [Automata.follow] at ha
  | some key =>
    obtain ⟨done, hdone, n, rfl⟩ := h
    cases a with
    | begin key' => simp [Automata.follow] at ha
    | update key' =>
      simp only [Automata.follow, Option.ite_none_right_eq_some] at ha
      obtain ⟨rfl, rfl⟩ : key' = key ∧ some key = t := ⟨ha.1, Option.some.inj ha.2⟩
      exact ⟨done, hdone, n+1, by simp [List.replicate_succ']⟩
    | finish key' =>
      simp only [Automata.follow, Option.ite_none_right_eq_some] at ha
      obtain ⟨rfl, rfl⟩ : key' = key ∧ none = t := ⟨ha.1, Option.some.inj ha.2⟩
      rw [List.append_assoc]
      exact append_session_mem hdone ⟨_, n, rfl⟩

lemma Reached.followAll {s t : Option κ} {l m : List (SessionTag κ)} (h : Reached s l)
    (hm : followAll s m = some t) : Reached t (l ++ m) := by
  induction m generalizing s l with
  | nil =>
    obtain rfl : s = t := Option.some.inj hm
    simpa using h
  | cons a m ih =>
    obtain ⟨u, hu, hm⟩ := Option.bind_eq_some_iff.mp hm
    simpa using ih (h.follow hu) hm

/-- An admitted word is a prefix of a sequence of complete sessions. -/
theorem mem_prefixes_of_followAll {l : List (SessionTag κ)} {s : Option κ}
    (h : followAll none l = some s) : l ∈ prefixes (KStar.kstar (session κ)) := by
  have hr : Reached s ([] ++ l) := Reached.followAll (Language.nil_mem_kstar _) h
  cases s with
  | none => exact ⟨[], by simpa [Reached] using hr⟩
  | some key =>
    obtain ⟨done, hdone, n, hl⟩ := hr
    refine ⟨[.finish key], ?_⟩
    rw [← List.nil_append l, hl, List.append_assoc]
    exact append_session_mem hdone ⟨key, n, rfl⟩

omit [DecidableEq κ] in
/-- No sequence of sessions starts with an update. -/
theorem update_not_mem_prefixes (key : κ) (l : List (SessionTag κ)) :
    .update key :: l ∉ prefixes (KStar.kstar (session κ)) := by
  rintro ⟨rest, h⟩
  obtain ⟨words, heq, hwords⟩ := Language.mem_kstar.mp h
  cases words with
  | nil => cases heq
  | cons word words =>
    obtain ⟨key', n, rfl⟩ := hwords word List.mem_cons_self
    cases heq

end Sessions

end LibinputRs.Automata
