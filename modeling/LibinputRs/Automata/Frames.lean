import Mathlib.Data.List.Basic

/-! Streams in frames. Some elements end a frame, and of the others some have a content; a frame is
the sequence of contents between two ends, unless there is none. -/
namespace LibinputRs.Automata

variable {ι α : Type*}

/-- What ends a frame, and the content of what does not. -/
structure Framing (ι α : Type*) where
  ends : ι → Bool
  content : ι → Option α
  content_of_end : ∀ i, ends i = true → content i = none

namespace Framing
variable (f : Framing ι α)

/-- A frame that has come to its end, if there is something in it. -/
def close (frame : List α) : List (List α) := if frame = [] then [] else [frame]

/-- The frames of a stream, of which the first has begun; the last need not have come to its end. -/
def framesFrom : List α → List ι → List (List α)
  | frame,[] => close frame
  | frame,i :: is =>
    if f.ends i then close frame ++ framesFrom [] is
    else framesFrom (frame ++ (f.content i).toList) is

def frames (is : List ι) : List (List α) := f.framesFrom [] is

@[simp] theorem flatten_close (frame : List α) : (close frame).flatten = frame := by
  unfold close
  split_ifs with h
  · exact h.symm
  · exact List.append_nil _

theorem flatten_framesFrom (frame : List α) (is : List ι) :
    (f.framesFrom frame is).flatten = frame ++ is.filterMap f.content := by
  induction is generalizing frame with
  | nil => simp [framesFrom]
  | cons i is ih =>
    rw [framesFrom]
    split_ifs with hi
    · rw [List.flatten_append,flatten_close,ih,List.filterMap_cons_none (f.content_of_end i hi)]
      rfl
    · rw [ih]
      cases hc : f.content i <;> simp [hc]

/-- The frames hold the contents in their order. -/
theorem flatten_frames (is : List ι) : (f.frames is).flatten = is.filterMap f.content :=
  f.flatten_framesFrom [] is

theorem ne_nil_of_mem_close {frame g : List α} (h : g ∈ close frame) : g ≠ [] := by
  unfold close at h
  split_ifs at h with hne
  · cases h
  · exact List.mem_singleton.mp h ▸ hne

theorem ne_nil_of_mem_framesFrom {frame g : List α} {is : List ι}
    (h : g ∈ f.framesFrom frame is) : g ≠ [] := by
  induction is generalizing frame with
  | nil => exact ne_nil_of_mem_close h
  | cons i is ih =>
    rw [framesFrom] at h
    split_ifs at h
    · rcases List.mem_append.mp h with h | h
      · exact ne_nil_of_mem_close h
      · exact ih h
    · exact ih h

/-- A stream in which every element is followed by an end has a frame for each content. -/
theorem frames_flatMap_pair {fin : ι} (hfin : f.ends fin = true) (is : List ι) :
    f.frames (is.flatMap fun i => [i,fin]) = (is.filterMap f.content).map fun a => [a] := by
  have hnil : close ([] : List α) = [] := if_pos rfl
  unfold frames
  induction is with
  | nil => exact hnil
  | cons i is ih =>
    have hcons : ((i :: is).flatMap fun i => [i,fin]) = i :: fin :: is.flatMap fun i => [i,fin] := rfl
    rw [hcons,framesFrom,framesFrom,framesFrom]
    cases hi : f.ends i with
    | true => simp [hfin,ih,hnil,f.content_of_end i hi]
    | false => cases hc : f.content i <;> simp [hfin,ih,hc,close]

/-- Some elements keep their content, and all ends remain. -/
def restrict (p : ι → Bool) : Framing ι α where
  ends := f.ends
  content i := if p i then f.content i else none
  content_of_end i hi := by
    rw [f.content_of_end i hi,ite_self]

/-- Elements that are left out contribute to no frame. -/
theorem frames_filter {p : ι → Bool} (hp : ∀ i, f.ends i = true → p i = true) (is : List ι) :
    f.frames (is.filter p) = (f.restrict p).frames is := by
  suffices hall : ∀ frame, f.framesFrom frame (is.filter p) =
      (f.restrict p).framesFrom frame is from hall []
  induction is with
  | nil => exact fun _ => rfl
  | cons i is ih =>
    intro frame
    have hends : (f.restrict p).ends i = f.ends i := rfl
    have hcontent : (f.restrict p).content i = if p i then f.content i else none := rfl
    rw [framesFrom,hends,hcontent]
    cases hpi : p i with
    | true =>
      rw [List.filter_cons_of_pos hpi,framesFrom,ih,ih]
      rfl
    | false =>
      have hi : ¬ f.ends i = true := fun hi => Bool.false_ne_true (hpi.symm.trans (hp i hi))
      rw [List.filter_cons_of_neg (by simp [hpi]),if_neg hi,ih]
      simp

/-- Which contents remain, if that is a matter of the contents. -/
theorem filterMap_restrict {p : ι → Bool} {kept : α → Bool}
    (h : ∀ i a, f.content i = some a → kept a = p i) (is : List ι) :
    is.filterMap (f.restrict p).content = (is.filterMap f.content).filter kept := by
  induction is with
  | nil => rfl
  | cons i is ih =>
    have hcontent : (f.restrict p).content i = if p i then f.content i else none := rfl
    rw [List.filterMap_cons,List.filterMap_cons,hcontent,ih]
    cases hc : f.content i with
    | none => simp
    | some a => cases hp : p i <;> simp [(h i a hc).trans hp]

end Framing

/-- Lists of one element each are told by their concatenation. -/
theorem eq_map_singleton_flatten {l : List (List α)} (h : ∀ g ∈ l, g.length = 1) :
    l = l.flatten.map fun a => [a] := by
  induction l with
  | nil => rfl
  | cons g l ih =>
    obtain ⟨hg,hl⟩ := List.forall_mem_cons.mp h
    obtain ⟨a,rfl⟩ := List.length_eq_one_iff.mp hg
    rw [List.flatten_cons,List.map_append,← ih hl]
    rfl

/-- A stream whose elements are followed by an end each, and of which only some contents remain, has
the frames of another stream exactly if each of these has one content, which remains. -/
theorem Framing.frames_pair_eq_iff (f : Framing ι α) (kept : α → Bool) {l : List α} {is : List ι}
    (hl : l = (is.filterMap f.content).filter kept) :
    l.map (fun a => [a]) = f.frames is ↔
      ∀ g ∈ f.frames is, g.length ≤ 1 ∧ ∀ a ∈ g, kept a = true := by
  constructor
  · intro heq g hg
    rw [← heq] at hg
    obtain ⟨a,ha,rfl⟩ := List.mem_map.mp hg
    rw [hl] at ha
    exact ⟨Nat.le_refl _,List.forall_mem_singleton.mpr (List.mem_filter.mp ha).2⟩
  · intro h
    have hone : ∀ g ∈ f.frames is, g.length = 1 := fun g hg =>
      Nat.le_antisymm (h g hg).1 (List.length_pos_iff.mpr (f.ne_nil_of_mem_framesFrom hg))
    have hkept : ∀ a ∈ is.filterMap f.content, kept a = true := by
      intro a ha
      rw [← flatten_frames] at ha
      obtain ⟨g,hg,hag⟩ := List.mem_flatten.mp ha
      exact (h g hg).2 a hag
    rw [hl,List.filter_eq_self.mpr hkept,← flatten_frames,← eq_map_singleton_flatten hone]

end LibinputRs.Automata
