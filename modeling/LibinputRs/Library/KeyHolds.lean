import LibinputRs.Automata.Repeats
import LibinputRs.Automata.Toggles
import LibinputRs.Library.DeviceTurns
import LibinputRs.Library.Timestamps

/-! The holds of a key. From the events that were read from a keyboard and the repeats that were
queued, the moments of a key, it is known whether the key is down, since when, and when it was
repeated; the list of held keys knows the same: of a key that is down it has one entry, whose clock
shows the latest repeat of the hold. -/
namespace LibinputRs
open Automata

variable {F D : Type}

/-- An event is read from the keyboard, or a dispatch at the given time queues a repeat of the
key. -/
inductive KeyMoment
  | read (te : TimedEvent)
  | repeated (now : Instant)
  deriving DecidableEq, Repr

/-- The press or the release of a key that an event is. The value 2 is the kernel's own repeat. -/
def TimedEvent.stroke (code : ℕ) (te : TimedEvent) : Option ℤ :=
  if te.ev.KeyWith code ∧ (te.ev.value = 1 ∨ te.ev.value = 0) then some te.ev.value else none

/-- The presses and the releases of a key, in order. -/
def strokes (code : ℕ) (events : List TimedEvent) : List ℤ := events.filterMap (·.stroke code)

/-- The presses and the releases of a key alternate; the first may be either. -/
def StrokesAlternate (code : ℕ) (events : List TimedEvent) : Prop :=
  ∃ high, (level high (strokes code events)).isSome = true

/-- A hold of a key: when its press was processed, and the times of its repeats since. -/
structure Hold where
  start : Instant
  times : List Instant
  deriving DecidableEq, Repr

/-- When the key is repeated next. -/
def Hold.nextRepeat (hold : Hold) : Instant :=
  dueAt (fromMillis repeatDelayMs) (fromMillis repeatIntervalMs) hold.start hold.times

/-- No repeat came early. -/
def Hold.Punctual (hold : Hold) : Prop :=
  Spaced (fromMillis repeatDelayMs) (fromMillis repeatIntervalMs) hold.start hold.times

/-- What a moment makes of the hold that a key is in, if any. -/
def nextHold (code : ℕ) (hold : Option Hold) : KeyMoment → Option Hold
  | .read te =>
    if te.stroke code = some 1 then some ⟨te.now,[]⟩
    else if te.stroke code = some 0 then none
    else hold
  | .repeated now => hold.map fun h => { h with times := h.times ++ [now] }

/-- The hold that a key is in after some moments. -/
def holdAfter (code : ℕ) (moments : List KeyMoment) : Option Hold :=
  moments.foldl (nextHold code) none

/-- The events that were read. -/
def eventsRead (moments : List KeyMoment) : List TimedEvent :=
  moments.filterMap fun
    | .read te => some te
    | .repeated _ => none

section Moments
variable {code : ℕ} {moments : List KeyMoment}

theorem TimedEvent.stroke_cases (code : ℕ) (te : TimedEvent) :
    (te.stroke code = some 1 ∧ te.ev.KeyWith code ∧ te.ev.value = 1) ∨
      (te.stroke code = some 0 ∧ te.ev.KeyWith code ∧ te.ev.value = 0) ∨
      (te.stroke code = none ∧ ¬ (te.ev.KeyWith code ∧ (te.ev.value = 1 ∨ te.ev.value = 0))) := by
  unfold stroke
  by_cases h : te.ev.KeyWith code ∧ (te.ev.value = 1 ∨ te.ev.value = 0)
  · rw [if_pos h]
    rcases h with ⟨hkey,hvalue | hvalue⟩
    · exact .inl ⟨congrArg some hvalue,hkey,hvalue⟩
    · exact .inr (.inl ⟨congrArg some hvalue,hkey,hvalue⟩)
  · rw [if_neg h]
    exact .inr (.inr ⟨rfl,h⟩)

theorem strokes_append (l m : List TimedEvent) :
    strokes code (l ++ m) = strokes code l ++ strokes code m := List.filterMap_append

theorem strokes_singleton (te : TimedEvent) :
    strokes code [te] = (te.stroke code).toList := by
  cases h : te.stroke code <;> simp [strokes,h]

theorem StrokesAlternate.of_append {l m : List TimedEvent} (h : StrokesAlternate code (l ++ m)) :
    StrokesAlternate code l := by
  obtain ⟨high,hlevel⟩ := h
  rw [strokes_append,level_append] at hlevel
  exact ⟨high,by cases h : level high (strokes code l) <;> simp [h] at hlevel ⊢⟩

theorem eventsRead_append (l m : List KeyMoment) :
    eventsRead (l ++ m) = eventsRead l ++ eventsRead m := List.filterMap_append

theorem eventsRead_read (events : List TimedEvent) : eventsRead (events.map .read) = events := by
  rw [eventsRead,List.filterMap_map]
  exact List.filterMap_some

theorem eventsRead_repeated {α : Type} (l : List α) (now : Instant) :
    eventsRead (l.map fun _ => .repeated now) = [] := by
  simp [eventsRead]

theorem holdAfter_append_singleton (moments : List KeyMoment) (m : KeyMoment) :
    holdAfter code (moments ++ [m]) = nextHold code (holdAfter code moments) m := by
  rw [holdAfter,List.foldl_append]
  rfl

/-- The last stroke of a key that is down is its press. -/
theorem strokes_of_down {hold : Hold} (h : holdAfter code moments = some hold) :
    ∃ before, strokes code (eventsRead moments) = before ++ [1] := by
  induction moments using List.reverseRecOn generalizing hold with
  | nil => cases h
  | append_singleton moments m ih =>
    rw [holdAfter_append_singleton] at h
    rw [eventsRead_append,strokes_append]
    cases m with
    | read te =>
      have hlast : strokes code (eventsRead [.read te]) = (te.stroke code).toList :=
        strokes_singleton te
      rw [hlast]
      rcases te.stroke_cases code with ⟨hstroke,_⟩ | ⟨hstroke,_⟩ | ⟨hstroke,_⟩
      · exact ⟨_,by rw [hstroke]; rfl⟩
      · simp [nextHold,hstroke] at h
      · simp only [nextHold,hstroke,reduceCtorEq,if_false] at h
        obtain ⟨before,hbefore⟩ := ih h
        exact ⟨before,by rw [hstroke,hbefore]; simp⟩
    | repeated now =>
      obtain ⟨hold',hhold,_⟩ := Option.map_eq_some_iff.mp h
      obtain ⟨before,hbefore⟩ := ih hhold
      exact ⟨before,by rw [hbefore]; simp [eventsRead,strokes]⟩

/-- A key that goes down is up before. -/
theorem StrokesAlternate.up {te : TimedEvent}
    (h : StrokesAlternate code (eventsRead moments ++ [te])) (hpress : te.stroke code = some 1) :
    holdAfter code moments = none := by
  by_contra hdown
  obtain ⟨hold,hhold⟩ := Option.ne_none_iff_exists'.mp hdown
  obtain ⟨before,hbefore⟩ := strokes_of_down hhold
  obtain ⟨high,hlevel⟩ := h
  rw [strokes_append,strokes_singleton,hbefore,hpress] at hlevel
  have hnone := level_one_one high before ([] : List ℤ)
  simp [hnone] at hlevel

/-- In no hold so far a repeat came early. -/
def AllPunctual (code : ℕ) (moments : List KeyMoment) : Prop :=
  ∀ before, before <+: moments → ∀ hold, holdAfter code before = some hold → hold.Punctual

theorem allPunctual_nil : AllPunctual code [] := by
  intro before hbefore hold hhold
  rw [List.prefix_nil.mp hbefore] at hhold
  cases hhold

theorem AllPunctual.append_singleton {m : KeyMoment} (h : AllPunctual code moments)
    (hlast : ∀ hold, holdAfter code (moments ++ [m]) = some hold → hold.Punctual) :
    AllPunctual code (moments ++ [m]) := by
  intro before hbefore
  rcases List.prefix_concat_iff.mp hbefore with rfl | hbefore
  · exact hlast
  · exact h before hbefore

/-- What is read repeats nothing. -/
theorem AllPunctual.read (h : AllPunctual code moments) (te : TimedEvent) :
    AllPunctual code (moments ++ [.read te]) := by
  refine h.append_singleton fun hold hhold => ?_
  rw [holdAfter_append_singleton] at hhold
  simp only [nextHold] at hhold
  split_ifs at hhold
  · obtain rfl := Option.some.inj hhold
    exact Spaced.nil
  · exact h moments (List.prefix_refl _) hold hhold

theorem AllPunctual.reads (h : AllPunctual code moments) (events : List TimedEvent) :
    AllPunctual code (moments ++ events.map .read) := by
  induction events generalizing moments with
  | nil => simpa using h
  | cons te events ih => simpa using ih (h.read te)

/-- A repeat is punctual that is due. -/
theorem AllPunctual.repeated (h : AllPunctual code moments) {now : Instant}
    (hdue : ∀ hold, holdAfter code moments = some hold → hold.nextRepeat ≤ now) :
    AllPunctual code (moments ++ [.repeated now]) := by
  refine h.append_singleton fun hold hhold => ?_
  rw [holdAfter_append_singleton] at hhold
  obtain ⟨hold,hbefore,rfl⟩ := Option.map_eq_some_iff.mp hhold
  exact Spaced.append_singleton.mpr ⟨h moments (List.prefix_refl _) hold hbefore,hdue hold hbefore⟩

end Moments

namespace HeldKey

/-- The clock of the entry shows when the key was repeated last, or else when it went down. -/
def Shows (hold : Hold) (hk : HeldKey) : Prop :=
  hk.initialFired = !hold.times.isEmpty ∧ hk.lastFire = hold.times.getLast?.getD hold.start

theorem due_iff {hold : Hold} {now : Instant} {hk : HeldKey} (h : hk.Shows hold) :
    hk.Due now ↔ hold.nextRepeat ≤ now := by
  have helapsed : ∀ last delay : ℕ,0 < delay → (delay ≤ now - last ↔ last + delay ≤ now) := by
    intro last delay hpos
    omega
  obtain ⟨start,times⟩ := hold
  obtain ⟨hfired,hlast⟩ := h
  unfold Due delay Instant.elapsed Hold.nextRepeat
  rw [hfired,hlast]
  cases times using List.reverseRecOn with
  | nil => simpa using helapsed start (fromMillis repeatDelayMs) (by decide)
  | append_singleton times t =>
    rw [dueAt_append_singleton,List.getLast?_append_cons]
    simpa using helapsed t _ (by decide)

end HeldKey

/-- The repeats of a key in what a device queues. -/
def repeatsIn (code : ℕ) (l : List (LibinputEvent D)) : List (LibinputEvent D) :=
  l.filter fun e => e.keyState code = some 2

@[simp] theorem repeatsIn_append (code : ℕ) (l m : List (LibinputEvent D)) :
    repeatsIn code (l ++ m) = repeatsIn code l ++ repeatsIn code m := List.filter_append ..

namespace TrackedDevice

/-- The entries of a key in the list of held keys. -/
def holds (code : ℕ) (td : TrackedDevice F D) : List HeldKey :=
  td.heldKeys.filter fun hk => hk.code = code

/-- The list of held keys knows the hold that a key is in. -/
def Knows (code : ℕ) (td : TrackedDevice F D) : Option Hold → Prop
  | none => td.holds code = []
  | some hold => ∃ hk,td.holds code = [hk] ∧ hk.Shows hold

section Read

/-- What an event does to the entries of a key. -/
theorem holds_read (code : ℕ) (te : TimedEvent) (td : TrackedDevice F D) (t : Option Instant) :
    (td.processKeyboardEvent te t).1.holds code =
      if te.stroke code = some 1 then
        td.holds code ++ [⟨code,systimeToUsec te.ev.time,te.now,false⟩]
      else if te.stroke code = some 0 then [] else td.holds code := by
  rcases td.processKeyboardEvent_cases te t with ⟨hkey,hvalue,h⟩ | ⟨hkey,hvalue,h⟩ | ⟨hno,h⟩ <;>
    rw [h]
  · by_cases hcode : te.ev.code = code
    · simp [TimedEvent.stroke,InputEvent.KeyWith,hkey,hvalue,hcode,holds]
    · simp [TimedEvent.stroke,InputEvent.KeyWith,hcode,holds]
  · by_cases hcode : te.ev.code = code
    · simp [TimedEvent.stroke,InputEvent.KeyWith,hkey,hvalue,hcode,holds]
    · have hother : (td.heldKeys.filter fun k => k.code ≠ te.ev.code).filter
          (fun hk => hk.code = code) = td.heldKeys.filter fun hk => hk.code = code := by
        rw [List.filter_filter]
        refine List.filter_congr fun hk _ => ?_
        by_cases hheld : hk.code = code
        · simp [hheld,Ne.symm hcode]
        · simp [hheld]
      simp only [TimedEvent.stroke,InputEvent.KeyWith,hcode,and_false,false_and,if_false,
        reduceCtorEq]
      exact hother
  · have hstroke : te.stroke code = none :=
      if_neg fun hpressed => hno ⟨hpressed.1.1,hpressed.2⟩
    simp [hstroke]

/-- The list knows the hold after an event, when no key is pressed that is down. -/
theorem Knows.read {code : ℕ} {td : TrackedDevice F D} {hold : Option Hold}
    (h : td.Knows code hold) {te : TimedEvent} (hup : te.stroke code = some 1 → hold = none)
    (t : Option Instant) :
    (td.processKeyboardEvent te t).1.Knows code (nextHold code hold (.read te)) := by
  have hholds := holds_read code te td t
  rcases te.stroke_cases code with ⟨hstroke,_⟩ | ⟨hstroke,_⟩ | ⟨hstroke,_⟩
  · obtain rfl := hup hstroke
    rw [show td.holds code = [] from h] at hholds
    simp only [hstroke,if_true] at hholds
    simp only [nextHold,hstroke,if_true]
    exact ⟨_,hholds,rfl,rfl⟩
  · simpa [nextHold,hstroke,Knows] using hholds
  · simp only [hstroke,reduceCtorEq,if_false] at hholds
    simp only [nextHold,hstroke,reduceCtorEq,if_false]
    cases hold with
    | none => exact hholds.trans h
    | some hold =>
      obtain ⟨hk,hheld,hshows⟩ := h
      exact ⟨hk,hholds.trans hheld,hshows⟩

end Read

section Repeats

theorem fire_due {hk : HeldKey} {d : DevicePtr} {now : Instant} (h : hk.Due now) :
    hk.fire (D := D) d now =
      ({ hk with lastFire := now, initialFired := true },[.key d hk.tsUsec hk.code 2]) := if_pos h

theorem fire_not_due {hk : HeldKey} {d : DevicePtr} {now : Instant} (h : ¬ hk.Due now) :
    hk.fire (D := D) d now = (hk,[]) := if_neg h

/-- A turn of the repeat loop leaves the key what it is. -/
theorem fire_code (d : DevicePtr) (now : Instant) (hk : HeldKey) :
    (hk.fire (D := D) d now).1.code = hk.code := by
  unfold HeldKey.fire
  split_ifs <;> rfl

theorem filter_fire (code : ℕ) (d : DevicePtr) (now : Instant) (keys : List HeldKey) :
    (keys.map fun hk => (hk.fire (D := D) d now).1).filter (fun hk => hk.code = code) =
      (keys.filter fun hk => hk.code = code).map fun hk => (hk.fire (D := D) d now).1 := by
  rw [List.filter_map]
  refine congrArg (List.map _) (List.filter_congr fun hk _ => ?_)
  simp only [Function.comp_apply,fire_code]

/-- One pass queues the repeats of the keys that are due. -/
theorem repeatsIn_fire (code : ℕ) (d : DevicePtr) (now : Instant) (keys : List HeldKey) :
    repeatsIn code (keys.flatMap fun hk => (hk.fire (D := D) d now).2) =
      (keys.filter fun hk => hk.code = code).flatMap fun hk => (hk.fire (D := D) d now).2 := by
  induction keys with
  | nil => rfl
  | cons hk keys ih =>
    have hhead : repeatsIn code (hk.fire (D := D) d now).2 =
        if hk.code = code then (hk.fire (D := D) d now).2 else [] := by
      by_cases hdue : hk.Due now
      · rw [fire_due hdue]
        by_cases hcode : hk.code = code <;>
          simp [repeatsIn,LibinputEvent.keyState,LibinputEvent.key,hcode]
      · rw [fire_not_due hdue]
        simp [repeatsIn]
    rw [List.flatMap_cons,repeatsIn_append,hhead,ih,List.filter_cons]
    by_cases hcode : hk.code = code <;> simp [hcode]

variable {code : ℕ} {td : TrackedDevice F D}

/-- Of a key that is up, the repeat pass queues no repeat, and the list goes on to know that it is
up. -/
theorem Knows.not_repeated (hkbd : td.isKeyboard = true) (h : td.Knows code none) (now : Instant) :
    repeatsIn code (td.emitKeyRepeats (D := D) now).2 = [] ∧
      (td.emitKeyRepeats (D := D) now).1.Knows code none := by
  have hholds : (td.heldKeys.filter fun hk => hk.code = code) = [] := h
  simp only [Knows,holds,emitKeyRepeats,hkbd,Bool.not_true,Bool.false_eq_true,if_false]
  rw [repeatsIn_fire,filter_fire,hholds]
  exact ⟨rfl,rfl⟩

/-- Of a key that is down, the repeat pass queues one repeat if it is due, and the list knows of
it. -/
theorem Knows.repeated (hkbd : td.isKeyboard = true) {hold : Hold} (h : td.Knows code (some hold))
    (now : Instant) : ((repeatsIn code (td.emitKeyRepeats (D := D) now).2).length =
        if hold.nextRepeat ≤ now then 1 else 0) ∧
      (td.emitKeyRepeats (D := D) now).1.Knows code (some (if hold.nextRepeat ≤ now then
        { hold with times := hold.times ++ [now] } else hold)) := by
  obtain ⟨hk,hholds,hshows⟩ := h
  have hholds : (td.heldKeys.filter fun hk => hk.code = code) = [hk] := hholds
  simp only [Knows,holds,emitKeyRepeats,hkbd,Bool.not_true,Bool.false_eq_true,if_false]
  rw [repeatsIn_fire,filter_fire,hholds]
  by_cases hdue : hk.Due now
  · have hnext := (HeldKey.due_iff hshows).mp hdue
    simp only [hnext,if_true,List.map_singleton,List.flatMap_singleton,fire_due hdue]
    exact ⟨rfl,_,rfl,by simp [HeldKey.Shows]⟩
  · have hnext : ¬ hold.nextRepeat ≤ now := fun h => hdue ((HeldKey.due_iff hshows).mpr h)
    simp only [hnext,if_false,List.map_singleton,List.flatMap_singleton,fire_not_due hdue]
    exact ⟨rfl,hk,rfl,hshows⟩

/-- Through a repeat pass the list knows the hold, and no repeat comes early. -/
theorem Knows.pass (hkbd : td.isKeyboard = true) {moments : List KeyMoment}
    (h : td.Knows code (holdAfter code moments)) (hpunctual : AllPunctual code moments)
    (now : Instant) {fired : List KeyMoment}
    (hfired : fired = (repeatsIn code (td.emitKeyRepeats (D := D) now).2).map
      fun _ => .repeated now) :
    (td.emitKeyRepeats (D := D) now).1.Knows code (holdAfter code (moments ++ fired)) ∧
      AllPunctual code (moments ++ fired) := by
  rw [List.map_const'] at hfired
  cases hhold : holdAfter code moments with
  | none =>
    rw [hhold] at h
    obtain ⟨hnone,hknows⟩ := h.not_repeated hkbd now
    rw [hnone] at hfired
    subst hfired
    rw [List.length_nil,List.replicate_zero,List.append_nil,hhold]
    exact ⟨hknows,hpunctual⟩
  | some hold =>
    rw [hhold] at h
    obtain ⟨hlength,hknows⟩ := h.repeated hkbd now
    rw [hlength] at hfired
    subst hfired
    by_cases hdue : hold.nextRepeat ≤ now
    · simp only [hdue,if_true,List.replicate_one] at hknows ⊢
      rw [holdAfter_append_singleton,hhold]
      refine ⟨hknows,hpunctual.repeated fun hold' hhold' => ?_⟩
      obtain rfl := Option.some.inj (hhold.symm.trans hhold')
      exact hdue
    · simp only [hdue,if_false,List.replicate_zero,List.append_nil] at hknows ⊢
      rw [hhold]
      exact ⟨hknows,hpunctual⟩

end Repeats
end TrackedDevice
end LibinputRs
