import LibinputRs.Accessors
import LibinputRs.Api
import LibinputRs.Automata.Sessions
import Mathlib.Data.Finset.Card
import Mathlib.Data.Finset.Image

/-! Seat-wide press counts. A count is right when it is the number of devices of the seat on
which the key or button is down; the accessors look at the event alone, so they are right while
no second device holds the same code. -/
namespace LibinputRs
open Automata

variable {F D : Type}

section Holders
variable (state : LibinputEvent D → Option ℕ)

/-- Whether what is selected is down on a device after one more event: it is pressed or
released by the events of the device, and the removal of the device releases it. -/
def downAfter (d : DevicePtr) (down : Bool) (e : LibinputEvent D) : Bool :=
  if e.device = d then
    match state e with
    | some s => decide (s ≠ 0)
    | none => down && decide (e.eventType ≠ .deviceRemoved)
  else down

/-- Whether it is down on the device after the events. -/
def heldAfter (d : DevicePtr) (l : List (LibinputEvent D)) : Bool :=
  l.foldl (downAfter state d) false

/-- The devices of the seat on which it is down after the events. -/
def holders (l : List (LibinputEvent D)) : Finset DevicePtr :=
  (l.map LibinputEvent.device).toFinset.filter fun d => heldAfter state d l = true

variable {state}

theorem heldAfter_append (d : DevicePtr) (l : List (LibinputEvent D)) (e : LibinputEvent D) :
    heldAfter state d (l ++ [e]) = downAfter state d (heldAfter state d l) e := by
  simp [heldAfter]

/-- A device holds nothing before its first event. -/
theorem mem_map_device_of_heldAfter {d : DevicePtr} {l : List (LibinputEvent D)}
    (h : heldAfter state d l = true) : d ∈ l.map LibinputEvent.device := by
  induction l using List.reverseRecOn with
  | nil => cases h
  | append_singleton l e ih =>
    rw [List.map_append,List.mem_append]
    rw [heldAfter_append,downAfter] at h
    by_cases he : e.device = d
    · exact .inr (by simp [he])
    · rw [if_neg he] at h
      exact .inl (ih h)

theorem mem_holders {d : DevicePtr} {l : List (LibinputEvent D)} :
    d ∈ holders state l ↔ heldAfter state d l = true := by
  simp only [holders,Finset.mem_filter,List.mem_toFinset,and_iff_right_iff_imp]
  exact mem_map_device_of_heldAfter

/-- An event about the selected key or button decides for its own device only. -/
theorem holders_append {l : List (LibinputEvent D)} {e : LibinputEvent D} {s : ℕ}
    (he : state e = some s) : holders state (l ++ [e]) =
      if s = 0 then (holders state l).erase e.device else insert e.device (holders state l) := by
  ext d
  rw [mem_holders,heldAfter_append,downAfter,he]
  by_cases hd : e.device = d
  · by_cases hs : s = 0 <;> simp [hd,hs]
  · by_cases hs : s = 0 <;> simp [hd,hs,mem_holders,Ne.symm hd]

/-- No device but the given one holds it. -/
def HeldByNoOther (state : LibinputEvent D → Option ℕ) (d : DevicePtr)
    (l : List (LibinputEvent D)) : Prop := ∀ d' ∈ holders state l, d' = d

instance (d : DevicePtr) (l : List (LibinputEvent D)) : Decidable (HeldByNoOther state d l) :=
  inferInstanceAs (Decidable (∀ d' ∈ holders state l, d' = d))

/-- One on a press and zero on a release is the number of holders while there is no other. -/
theorem card_holders_append {l : List (LibinputEvent D)} {e : LibinputEvent D} {s : ℕ}
    (he : state e = some s) :
    (if s = 0 then 0 else 1) = (holders state (l ++ [e])).card ↔ HeldByNoOther state e.device l := by
  rw [holders_append he]
  by_cases hs : s = 0
  · rw [if_pos hs,if_pos hs,eq_comm,Finset.card_eq_zero]
    simp only [Finset.eq_empty_iff_forall_notMem,Finset.mem_erase,not_and']
    exact forall₂_congr fun d _ => not_not
  · rw [if_neg hs,if_neg hs,eq_comm,Finset.card_eq_one]
    constructor
    · rintro ⟨d,hd⟩ d' hd'
      have hself : e.device ∈ ({d} : Finset DevicePtr) := hd ▸ Finset.mem_insert_self ..
      have hmem : d' ∈ ({d} : Finset DevicePtr) := hd ▸ Finset.mem_insert_of_mem hd'
      exact (Finset.mem_singleton.mp hmem).trans (Finset.mem_singleton.mp hself).symm
    · intro h
      refine ⟨e.device,Finset.eq_singleton_iff_unique_mem.mpr ⟨Finset.mem_insert_self ..,?_⟩⟩
      intro d hd
      exact (Finset.mem_insert.mp hd).elim id (h d)

end Holders

namespace LibinputEvent

/-- The count an event is read to have is the number of devices that hold its key or button. -/
structure SeatCountRight (front : List (LibinputEvent D)) (e : LibinputEvent D) : Prop where
  key : ∀ k, e.eventType = .keyboardKey → e.payload = .keyboardKey k →
    e.libinputEventKeyboardGetSeatKeyCount = (holders (keyState k.key) (front ++ [e])).card
  button : ∀ b, e.eventType = .pointerButton → e.payload = .pointerButton b →
    e.libinputEventPointerGetSeatButtonCount = (holders (buttonState b.button) (front ++ [e])).card

/-- No other device holds the key or button of the event, and a button is pressed or released. -/
structure AloneOnSeat (front : List (LibinputEvent D)) (e : LibinputEvent D) : Prop where
  key : ∀ k, e.eventType = .keyboardKey → e.payload = .keyboardKey k →
    HeldByNoOther (keyState k.key) e.device front
  button : ∀ b, e.eventType = .pointerButton → e.payload = .pointerButton b →
    b.state ≤ 1 ∧ HeldByNoOther (buttonState b.button) e.device front

theorem seatKeyCount_iff (front : List (LibinputEvent D)) {e : LibinputEvent D}
    {k : KeyboardKeyEvent} (htype : e.eventType = .keyboardKey) (he : e.payload = .keyboardKey k) :
    e.libinputEventKeyboardGetSeatKeyCount = (holders (keyState k.key) (front ++ [e])).card ↔
      HeldByNoOther (keyState k.key) e.device front := by
  have hstate : keyState k.key e = some k.state := by simp [keyState,htype,he]
  have hcount : e.libinputEventKeyboardGetSeatKeyCount = if k.state = 0 then 0 else 1 := by
    rw [libinputEventKeyboardGetSeatKeyCount,he]
    by_cases hs : k.state = 0
    · simp [hs]
    · simp [hs,Nat.one_le_iff_ne_zero]
  rw [hcount]
  exact card_holders_append hstate

/-- A button reported with a state above one is down, and counted as up. -/
theorem seatButtonCount_iff (front : List (LibinputEvent D)) {e : LibinputEvent D}
    {b : PointerButtonEvent} (htype : e.eventType = .pointerButton) (he : e.payload = .pointerButton b) :
    e.libinputEventPointerGetSeatButtonCount = (holders (buttonState b.button) (front ++ [e])).card ↔
      b.state ≤ 1 ∧ HeldByNoOther (buttonState b.button) e.device front := by
  have hstate : buttonState b.button e = some b.state := by simp [buttonState,htype,he]
  have hcount : e.libinputEventPointerGetSeatButtonCount = if b.state = 1 then 1 else 0 := by
    rw [libinputEventPointerGetSeatButtonCount,he]
  rw [hcount,← card_holders_append hstate]
  by_cases hs : b.state ≤ 1
  · rcases Nat.le_one_iff_eq_zero_or_eq_one.mp hs with hs | hs <;> simp [hs]
  · rw [if_neg (by omega)]
    refine iff_of_false (fun hzero => ?_) fun h => hs h.1
    rw [holders_append hstate,if_neg (by omega),eq_comm,Finset.card_eq_zero] at hzero
    exact Finset.insert_ne_empty _ _ hzero

theorem seatCountRight_iff (front : List (LibinputEvent D)) (e : LibinputEvent D) :
    e.SeatCountRight front ↔ e.AloneOnSeat front :=
  ⟨fun h => ⟨fun k ht hk => (seatKeyCount_iff front ht hk).mp (h.key k ht hk),
      fun b ht hb => (seatButtonCount_iff front ht hb).mp (h.button b ht hb)⟩,
    fun h => ⟨fun k ht hk => (seatKeyCount_iff front ht hk).mpr (h.key k ht hk),
      fun b ht hb => (seatButtonCount_iff front ht hb).mpr (h.button b ht hb)⟩⟩

end LibinputEvent

variable [F32 F] [F64 D] [FloatCast F D]

/-- In every run the press counts of the queued events are right exactly when at each key or
button event no other device of the seat holds the same code. -/
theorem seat_counts_iff (interface : LibinputInterface) (inotify : Bool)
    (calls : List (Call D)) :
    let out := produced ((LibinputContext.new (F := F) interface inotify).runCalls calls).2
    AtEach (fun front e => e.SeatCountRight front) out ↔
      AtEach (fun front e => e.AloneOnSeat front) out := by
  intro out
  simp only [AtEach,LibinputEvent.seatCountRight_iff]

/-- Two keyboards hold one key; the release on the first is counted as the last. -/
theorem key_held_on_second_keyboard :
    ¬ AtEach (fun front e => e.SeatCountRight front)
      (produced ((LibinputContext.new (F := ℚ) (D := ℚ) ⟨true,true⟩ false).runCalls
        [.addDevice "/dev/input/event3" ⟨5,some plainKeyboard⟩,
          .addDevice "/dev/input/event4" ⟨6,some plainKeyboard⟩,
          .dispatch ⟨none,0,[6],fun fd => if fd = 5 then .batch [⟨⟨1,.key,KeyCode.keyA,1⟩,0⟩,
            ⟨⟨3,.key,KeyCode.keyA,0⟩,2⟩] else .batch [⟨⟨2,.key,KeyCode.keyA,1⟩,1⟩]⟩]).2) := by
  intro h
  have hrun : produced ((LibinputContext.new (F := ℚ) (D := ℚ) ⟨true,true⟩ false).runCalls
      [.addDevice "/dev/input/event3" ⟨5,some plainKeyboard⟩,
        .addDevice "/dev/input/event4" ⟨6,some plainKeyboard⟩,
        .dispatch ⟨none,0,[6],fun fd => if fd = 5 then .batch [⟨⟨1,.key,KeyCode.keyA,1⟩,0⟩,
          ⟨⟨3,.key,KeyCode.keyA,0⟩,2⟩] else .batch [⟨⟨2,.key,KeyCode.keyA,1⟩,1⟩]⟩]).2 =
      [.added 0,.added 1,.key 1 2 KeyCode.keyA 1,.key 0 1 KeyCode.keyA 1] ++
        .key 0 3 KeyCode.keyA 0 :: [] := by
    decide +kernel
  exact absurd ((h _ _ _ hrun).key _ rfl rfl) (by decide +kernel)

end LibinputRs
