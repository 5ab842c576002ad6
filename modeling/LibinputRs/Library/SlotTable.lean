import LibinputRs.Automata.Selections
import LibinputRs.Library.Slots
import LibinputRs.Pipeline.Reflection

/-! The multi-touch slot table of the library. A selection outside the table is ignored, so what the
kernel then reports of a slot that the library does not have goes to the slot selected before. -/
namespace LibinputRs
open Automata

variable {F D : Type}

/-- The slot that an event selects. -/
def slotSelection (ev : InputEvent) : Option ℤ :=
  if ev.AxisWith AbsoluteAxisCode.absMtSlot then some ev.value else none

/-- The entry of the table for a slot. -/
def tableIndex (slot : ℤ) : Option ℕ := if 0 ≤ slot ∧ slot < 10 then some slot.toNat else none

theorem tableIndex_addresses : Addresses tableIndex (fun n => (n : ℤ)) 10 := by
  refine ⟨fun a n => ?_⟩
  unfold tableIndex
  split_ifs with h
  · rw [Option.some_inj]
    omega
  · simp only [false_iff]
    omega

section Reported

/-- The last value reported under a code. -/
def lastValue (code : ℕ) (rd : List InputEvent) : Option ℤ :=
  (rd.filter fun ev => decide (ev.AxisWith code)).getLast?.map (·.value)

@[simp] theorem lastValue_nil (code : ℕ) : lastValue code [] = none := rfl

theorem lastValue_concat (code : ℕ) (rd : List InputEvent) (ev : InputEvent) :
    lastValue code (rd ++ [ev]) = if ev.AxisWith code then some ev.value else lastValue code rd := by
  unfold lastValue
  rw [List.filter_append]
  split_ifs with h <;> simp [h]

variable [F64 D]

/-- The slot as the last reports of its tracking id, its position and its distance describe it. -/
def reportedSlot (rd : List InputEvent) : MtSlot D where
  active := (lastValue AbsoluteAxisCode.absMtTrackingId rd).any fun id => decide (0 ≤ id)
  trackingId := (lastValue AbsoluteAxisCode.absMtTrackingId rd).getD 0
  x := ((lastValue AbsoluteAxisCode.absMtPositionX rd).map F64.ofI32).getD 0.0
  y := ((lastValue AbsoluteAxisCode.absMtPositionY rd).map F64.ofI32).getD 0.0
  distance := ((lastValue AbsoluteAxisCode.absMtDistance rd).map F64.ofI32).getD 0.0

/-- One more event changes the description as it changes an entry. -/
theorem reportedSlot_concat (rd : List InputEvent) (ev : InputEvent) :
    (reportedSlot (rd ++ [ev]) : MtSlot D) = (reportedSlot rd).report ev := by
  have hother : ∀ {code code' : ℕ}, ev.AxisWith code → code ≠ code' → ¬ ev.AxisWith code' :=
    fun h hne h' => hne (h.2.symm.trans h'.2)
  unfold reportedSlot MtSlot.report
  simp only [lastValue_concat]
  by_cases hid : ev.AxisWith AbsoluteAxisCode.absMtTrackingId
  · have hx : ¬ ev.AxisWith AbsoluteAxisCode.absMtPositionX := hother hid (by decide)
    have hy : ¬ ev.AxisWith AbsoluteAxisCode.absMtPositionY := hother hid (by decide)
    have hdist : ¬ ev.AxisWith AbsoluteAxisCode.absMtDistance := hother hid (by decide)
    simp [hid,hx,hy,hdist]
  by_cases hx : ev.AxisWith AbsoluteAxisCode.absMtPositionX
  · have hy : ¬ ev.AxisWith AbsoluteAxisCode.absMtPositionY := hother hx (by decide)
    have hdist : ¬ ev.AxisWith AbsoluteAxisCode.absMtDistance := hother hx (by decide)
    simp [hid,hx,hy,hdist]
  by_cases hy : ev.AxisWith AbsoluteAxisCode.absMtPositionY
  · have hdist : ¬ ev.AxisWith AbsoluteAxisCode.absMtDistance := hother hy (by decide)
    simp [hid,hx,hy,hdist]
  by_cases hdist : ev.AxisWith AbsoluteAxisCode.absMtDistance
  · simp [hid,hx,hy,hdist]
  · simp [hid,hx,hy,hdist]

theorem foldl_report (rd : List InputEvent) :
    rd.foldl (fun s ev => s.report ev) (MtSlot.default : MtSlot D) = reportedSlot rd := by
  induction rd using List.reverseRecOn with
  | nil => rfl
  | append_singleton rd ev ih => rw [List.foldl_concat,ih,reportedSlot_concat]

/-- What has been reported while a slot was selected; at first that is slot 0. -/
def reportedWhile (slot : ℤ) (rd : List InputEvent) : List InputEvent :=
  addressed slotSelection slot 0 rd

/-- Every entry of a table holds what was last reported while its slot was selected. -/
def HoldsReports (slots : List (MtSlot D)) (rd : List InputEvent) : Prop :=
  ∀ n : ℕ, n < 10 → slots[n]? = some (reportedSlot (reportedWhile n rd))

/-- The slot of the table that was selected last. -/
def lastInside (rd : List InputEvent) : ℕ := held slotSelection tableIndex 0 rd

/-- What is reported while a slot outside the table is selected repeats what was reported while the
slot selected last inside the table was. -/
def RepeatsInside (D : Type) [F64 D] (rd : List InputEvent) (ev : InputEvent) : Prop :=
  slotSelection ev = none → tableIndex (selected slotSelection 0 rd) = none →
    let s : MtSlot D := reportedSlot (reportedWhile (lastInside rd) rd)
    s.report ev = s

instance (rd : List InputEvent) (ev : InputEvent) : Decidable (RepeatsInside ℚ rd ev) :=
  inferInstanceAs (Decidable (_ → _ → _ = _))

end Reported

section Table
variable [F64 D]

/-- The slots of a fresh device, and the one selected, after the events read so far. -/
def slotsAfter (D : Type) [F64 D] (rd : List InputEvent) : List (MtSlot D) × ℕ :=
  rd.foldl (fun t ev => nextSlots ev t) (List.replicate 10 .default,0)

theorem slotsAfter_concat (rd : List InputEvent) (ev : InputEvent) :
    slotsAfter D (rd ++ [ev]) = nextSlots ev (slotsAfter D rd) := List.foldl_concat _ _ _ _

theorem slotsAfter_length (rd : List InputEvent) : (slotsAfter D rd).1.length = 10 := by
  induction rd using List.reverseRecOn with
  | nil => exact List.length_replicate
  | append_singleton rd ev ih =>
    rw [slotsAfter_concat,nextSlots]
    split_ifs
    · exact ih
    · exact ih
    · exact (List.length_modify _ _ _).trans ih

/-- A selection names a slot by a number of 32 signed bits. -/
def SelectsFitting (ev : InputEvent) : Prop :=
  ev.AxisWith AbsoluteAxisCode.absMtSlot → FitsI32 ev.value

instance (ev : InputEvent) : Decidable (SelectsFitting ev) := inferInstanceAs (Decidable (_ → _))

/-- The cast of a slot to an index is inside the table exactly for its own slots. -/
theorem tableIndex_eq {slot : ℤ} (h : FitsI32 slot) :
    tableIndex slot = if asUsize slot < 10 then some (asUsize slot) else none := by
  obtain ⟨hlow,hhigh⟩ := h
  unfold tableIndex asUsize
  split_ifs with hin hcast hcast
  · rw [Option.some_inj]
    omega
  · omega
  · omega
  · rfl

/-- The table changes the entry that was selected last inside it. -/
theorem slotsAfter_selected {rd : List InputEvent} (h : ∀ ev ∈ rd, SelectsFitting ev) :
    (slotsAfter D rd).2 = lastInside rd := by
  induction rd using List.reverseRecOn with
  | nil => rfl
  | append_singleton rd ev ih =>
    obtain ⟨hfront,hev⟩ := List.forall_mem_append.mp h
    have hconcat : lastInside (rd ++ [ev]) =
        ((slotSelection ev).bind tableIndex).getD (lastInside rd) := selected_concat _ _ _ _
    rw [slotsAfter_concat,nextSlots,slotsAfter_length,hconcat,← ih hfront]
    unfold slotSelection
    by_cases hslot : ev.AxisWith AbsoluteAxisCode.absMtSlot
    · rw [if_pos hslot,if_pos hslot,Option.bind_some,
        tableIndex_eq (hev ev List.mem_cons_self hslot)]
      split_ifs <;> rfl
    · rw [if_neg hslot,if_neg hslot]
      rfl

theorem slotsAfter_changesHeld : ChangesHeld slotSelection tableIndex MtSlot.report 10 0
    (MtSlot.default : MtSlot D) SelectsFitting (fun rd => (slotsAfter D rd).1) where
  nil := rfl
  selection rd ev h := by
    have hslot : ev.AxisWith AbsoluteAxisCode.absMtSlot := by
      by_contra hno
      exact h (if_neg hno)
    change (slotsAfter D (rd ++ [ev])).1 = _
    rw [slotsAfter_concat,nextSlots,if_pos hslot]
  data rd ev hfits h := by
    have hslot : ¬ ev.AxisWith AbsoluteAxisCode.absMtSlot := by
      intro hslot
      rw [slotSelection,if_pos hslot] at h
      cases h
    change (slotsAfter D (rd ++ [ev])).1 = _
    rw [slotsAfter_concat,nextSlots,if_neg hslot,slotsAfter_selected hfits]
    rfl

variable [F32 F] [FloatCast F D]

/-- The slot table of the library is the one that the events make. -/
theorem afterInputs_slotTable (device : EvdevDevice) (path : PathBuf) (d : DevicePtr)
    (inputs : List (TouchInput F)) :
    (TrackedDevice.afterInputs device path d inputs : TrackedDevice F D).slotTable =
      slotsAfter D (inputs.map (·.te.ev)) := by
  induction inputs using List.reverseRecOn with
  | nil => rfl
  | append_singleton inputs i ih =>
    rw [TrackedDevice.afterInputs,run_append,run_singleton,TrackedDevice.touchStep_slotTable,
      List.map_append,List.map_singleton,slotsAfter_concat,← ih]

/-- For every stream of events that a touchpad can send: at every moment every entry of the table
holds what was last reported while its slot was selected, exactly if all that comes while a slot
outside the table is selected repeats what the entry selected before it holds already. -/
theorem slots_hold_reports_iff (device : EvdevDevice) (path : PathBuf) (d : DevicePtr)
    {inputs : List (TouchInput F)} (hfits : ∀ i ∈ inputs, SelectsFitting i.te.ev) :
    (∀ front back, inputs = front ++ back →
        HoldsReports (TrackedDevice.afterInputs device path d front : TrackedDevice F D).mtSlots
          (front.map (·.te.ev))) ↔
      AtEach (RepeatsInside D) (inputs.map (·.te.ev)) := by
  have hentry : ∀ (b : ℤ) (rd : List InputEvent),
      entry slotSelection MtSlot.report (MtSlot.default : MtSlot D) 0 b rd =
        reportedSlot (reportedWhile b rd) := fun _ _ => foldl_report _
  have hholds : ∀ front : List (TouchInput F),
      HoldsReports (TrackedDevice.afterInputs device path d front : TrackedDevice F D).mtSlots
          (front.map (·.te.ev)) ↔
        Follows slotSelection MtSlot.report (fun n => (n : ℤ)) 10 0 (MtSlot.default : MtSlot D)
          (slotsAfter D (front.map (·.te.ev))).1 (front.map (·.te.ev)) := by
    intro front
    have hslots : (TrackedDevice.afterInputs device path d front : TrackedDevice F D).mtSlots =
        (slotsAfter D (front.map (·.te.ev))).1 :=
      congrArg Prod.fst (afterInputs_slotTable device path d front)
    rw [hslots]
    exact forall₂_congr fun n _ => by rw [← hentry]; rfl
  have hharmless : AtEach (RepeatsInside D) (inputs.map (·.te.ev)) ↔
      AtEach (Harmless slotSelection tableIndex MtSlot.report (fun n => (n : ℤ)) 0
        (MtSlot.default : MtSlot D)) (inputs.map (·.te.ev)) := by
    refine atEach_congr fun front ev _ _ _ => ?_
    unfold RepeatsInside Harmless
    rw [← hentry]
    rfl
  simp only [hholds]
  rw [hharmless,← slotsAfter_changesHeld.follows_iff tableIndex_addresses (by decide)
    (List.forall_mem_map.mpr hfits)]
  constructor
  · intro h front back heq
    obtain ⟨front,back,rfl,rfl,rfl⟩ := List.map_eq_append_iff.mp heq
    exact h front back rfl
  · rintro h front back rfl
    exact h _ _ List.map_append

end Table

section Runs

/-- A contact in a slot beyond the table, while no slot has been selected before. -/
def foreignContact : List (TouchInput ℚ) :=
  atOnce [(.absolute,AbsoluteAxisCode.absMtSlot,10),(.absolute,AbsoluteAxisCode.absMtTrackingId,5)]

/-- It becomes the contact of slot 0, for which nothing was reported. -/
theorem foreign_contact_redirected : ¬ ∀ front back, foreignContact = front ++ back →
    HoldsReports (TrackedDevice.afterInputs plainTouchpad "/dev/input/event5" 1 front :
      TrackedDevice ℚ ℚ).mtSlots (front.map (·.te.ev)) := by
  intro h
  exact absurd (h foreignContact [] (by simp) 0 (by decide)) (by decide +kernel)

/-- Two contacts, each in a slot of its own. -/
def twoContacts : List (TouchInput ℚ) :=
  atOnce [(.absolute,AbsoluteAxisCode.absMtTrackingId,5),(.absolute,AbsoluteAxisCode.absMtSlot,9),
    (.absolute,AbsoluteAxisCode.absMtTrackingId,6),(.absolute,AbsoluteAxisCode.absMtPositionX,100)]

theorem two_contacts_held :
    HoldsReports (TrackedDevice.afterInputs plainTouchpad "/dev/input/event5" 1 twoContacts :
      TrackedDevice ℚ ℚ).mtSlots (twoContacts.map (·.te.ev)) :=
  (slots_hold_reports_iff plainTouchpad "/dev/input/event5" 1 (by decide)).mpr (by decide +kernel)
    twoContacts [] (List.append_nil _).symm

end Runs
end LibinputRs
