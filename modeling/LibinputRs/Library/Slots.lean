import LibinputRs.Library.FingerCount

/-! The multi-touch slots of a touchpad, read off the kernel's events alone, and the streams that a
kernel sends for contacts that land and lift. The slot table of the library follows the reading. -/
namespace LibinputRs
open Automata

variable {F D : Type}

/-- `BTN_TOOL_QUINTTAP`, which the library does not ask for. -/
def KeyCode.btnToolQuinttap : ℕ := 0x148

/-- Which of the ten slots of the library hold a contact, with its tracking id, and the slot that
the next events are about. -/
structure SlotView where
  ids : List (Option ℤ)
  selected : ℕ
  deriving DecidableEq, Repr

/-- The contact that a tracking id stands for: a negative one stands for none. -/
def contactOf (id : ℤ) : Option ℤ := if 0 ≤ id then some id else none

namespace SlotView

def empty : SlotView := ⟨List.replicate 10 none,0⟩

/-- What one event changes: the slot selected, or the contact in it. -/
def next (v : SlotView) (ev : InputEvent) : SlotView :=
  if ev.AxisWith AbsoluteAxisCode.absMtSlot then
    if asUsize ev.value < v.ids.length then { v with selected := asUsize ev.value } else v
  else if ev.AxisWith AbsoluteAxisCode.absMtTrackingId then
    { v with ids := v.ids.modify v.selected fun _ => contactOf ev.value }
  else v

/-- The slots after the events read so far. -/
def after (rd : List InputEvent) : SlotView := rd.foldl next empty

@[simp] theorem after_nil : after [] = empty := rfl

@[simp] theorem after_concat (rd : List InputEvent) (ev : InputEvent) :
    after (rd ++ [ev]) = (after rd).next ev := List.foldl_concat _ _ _ _

/-- The tracking ids of the contacts, in slot order. -/
def contacts (v : SlotView) : List ℤ := v.ids.filterMap id

end SlotView

/-- The tracking ids of the contacts after the events read so far. -/
def contactsOf (rd : List InputEvent) : List ℤ := (SlotView.after rd).contacts

section Kernel

/-- Where in a frame the kernel reports an event: contacts, touch, tools, position. -/
def frameStage (ev : InputEvent) : Option ℕ :=
  match ev.eventType with
  | .absolute =>
    if ev.code ∈ [AbsoluteAxisCode.absX,AbsoluteAxisCode.absY] then some 3
    else if ev.code ∈ [AbsoluteAxisCode.absMtSlot,AbsoluteAxisCode.absMtPositionX,
      AbsoluteAxisCode.absMtPositionY,AbsoluteAxisCode.absMtTrackingId,
      AbsoluteAxisCode.absMtDistance] then some 0
    else none
  | .key =>
    if ev.code = KeyCode.btnTouch then some 1
    else if ev.code ∈ [KeyCode.btnToolFinger,KeyCode.btnToolDoubletap,KeyCode.btnToolTripletap,
      KeyCode.btnToolQuadtap,KeyCode.btnToolQuinttap] then some 2
    else none
  | _ => none

/-- The events since the last `SYN_REPORT`. -/
def sinceReport (rd : List InputEvent) : List InputEvent :=
  rd.reverse.takeWhile fun ev => decide (¬ ev.IsReport)

/-- The tool keys by the number of contacts during which they are down. -/
def toolKeys : List (ℕ × ℕ) :=
  [(1,KeyCode.btnToolFinger),(2,KeyCode.btnToolDoubletap),(3,KeyCode.btnToolTripletap),
    (4,KeyCode.btnToolQuadtap),(5,KeyCode.btnToolQuinttap)]

instance (code : ℕ) (rd : List InputEvent) : Decidable (KernelDown code rd) :=
  inferInstanceAs (Decidable (OpenAfter _ _ rd))

/-- What the kernel sends of contacts: every frame reports its events in their order; `BTN_TOUCH`
changes when the first contact has landed or the last has lifted; and at every `SYN_REPORT` it and
the tool keys agree with the slots. -/
def KernelContacts (rd : List InputEvent) : Prop :=
  AtEach (fun front ev => ∀ e ∈ sinceReport front, ∀ a ∈ frameStage e, ∀ b ∈ frameStage ev, a ≤ b)
      rd ∧
    AtEach (fun front ev => ev.KeyWith KeyCode.btnTouch →
      (ev.value ≠ 0 ↔ contactsOf front ≠ []) ∧
        (ev.value ≠ 0 ↔ ¬ KernelDown KeyCode.btnTouch front)) rd ∧
    AtEach (fun front ev => ev.IsReport →
      (KernelDown KeyCode.btnTouch front ↔ contactsOf front ≠ []) ∧
        ∀ tool ∈ toolKeys, (KernelDown tool.2 front ↔ (contactsOf front).length = tool.1)) rd

instance (rd : List InputEvent) : Decidable (KernelContacts rd) :=
  inferInstanceAs (Decidable (_ ∧ _ ∧ _))

end Kernel

section Table

/-- The contact in a slot of the library. -/
def MtSlot.contact (s : MtSlot D) : Option ℤ := if s.active then some s.trackingId else none

/-- A change of the elements carried over to a change of what is read off them. -/
theorem map_modify {α β : Type} {f : α → α} {g : α → β} {f' : β → β} (h : ∀ a, g (f a) = f' (g a))
    (l : List α) (n : ℕ) : (l.modify n f).map g = (l.map g).modify n f' := by
  induction l generalizing n with
  | nil => simp
  | cons a l ih =>
    cases n with
    | zero => simp [h]
    | succ n => simp [ih]

section Reports
variable [F64 D]

/-- What an event says about the slot that it is reported for. -/
def MtSlot.report (ev : InputEvent) (s : MtSlot D) : MtSlot D :=
  if ev.AxisWith AbsoluteAxisCode.absMtTrackingId then
    { s with active := decide (0 ≤ ev.value), trackingId := ev.value }
  else if ev.AxisWith AbsoluteAxisCode.absMtPositionX then { s with x := F64.ofI32 ev.value }
  else if ev.AxisWith AbsoluteAxisCode.absMtPositionY then { s with y := F64.ofI32 ev.value }
  else if ev.AxisWith AbsoluteAxisCode.absMtDistance then { s with distance := F64.ofI32 ev.value }
  else s

theorem MtSlot.report_of_other {ev : InputEvent} (h : ev.eventType ≠ .absolute) (s : MtSlot D) :
    s.report ev = s := by
  have hno : ∀ code, ¬ ev.AxisWith code := fun _ hax => h hax.1
  simp [MtSlot.report,hno]

/-- Only the tracking id changes the contact. -/
theorem MtSlot.contact_report (ev : InputEvent) (s : MtSlot D) : (s.report ev).contact =
    if ev.AxisWith AbsoluteAxisCode.absMtTrackingId then contactOf ev.value else s.contact := by
  unfold MtSlot.report
  split_ifs with hid
  · simp [MtSlot.contact,contactOf]
  all_goals rfl

/-- What an event makes of the slots and of the one selected. -/
def nextSlots (ev : InputEvent) (t : List (MtSlot D) × ℕ) : List (MtSlot D) × ℕ :=
  if ev.AxisWith AbsoluteAxisCode.absMtSlot then
    (t.1,if asUsize ev.value < t.1.length then asUsize ev.value else t.2)
  else (t.1.modify t.2 (MtSlot.report ev),t.2)

theorem nextSlots_of_other {ev : InputEvent} (h : ev.eventType ≠ .absolute)
    (t : List (MtSlot D) × ℕ) : nextSlots ev t = t := by
  have hreport : MtSlot.report (D := D) ev = id := funext (MtSlot.report_of_other h)
  rw [nextSlots,if_neg fun hslot => h hslot.1,hreport,List.modify_id]

end Reports

namespace TrackedDevice

/-- The slots of a device and the one selected. -/
def slotTable (td : TrackedDevice F D) : List (MtSlot D) × ℕ := (td.mtSlots,td.currentSlot)

/-- The slot table of a device as the events would describe it. -/
def slotView (td : TrackedDevice F D) : SlotView := ⟨td.mtSlots.map MtSlot.contact,td.currentSlot⟩

/-- The active slots are the contacts, in slot order. -/
theorem activeSlots_ids (td : TrackedDevice F D) :
    td.activeSlots.map MtSlot.trackingId = td.slotView.contacts := by
  unfold activeSlots SlotView.contacts slotView
  dsimp only
  induction td.mtSlots with
  | nil => rfl
  | cons s l ih => cases hactive : s.active <;> simp [MtSlot.contact,hactive,ih]

theorem activeSlotCount_eq (td : TrackedDevice F D) :
    td.activeSlotCount = td.slotView.contacts.length := by
  rw [← activeSlots_ids,List.length_map]
  rfl

variable [F64 D]

theorem touchDown_slotTable (te : TimedEvent) (td : TrackedDevice F D) :
    (td.touchDown te).1.slotTable = td.slotTable :=
  touchDown_frame slotTable (fun _ _ _ _ _ => rfl) te td

theorem processAbsoluteKey_slotTable (te : TimedEvent) (cfgTap dwt : Bool)
    (td : TrackedDevice F D) :
    (td.processAbsoluteKey te cfgTap dwt).1.slotTable = td.slotTable := by
  have hclick := physicalClick_frame slotTable (fun _ _ => rfl) te td
  unfold processAbsoluteKey
  dsimp only
  split_ifs
  all_goals first
    | rfl
    | exact td.touchDown_slotTable te
    | exact hclick

/-- The absolute events select a slot, or report something of the one selected. -/
theorem processAbsoluteAxis_slotTable (te : TimedEvent) (td : TrackedDevice F D)
    (htype : te.ev.eventType = .absolute) :
    (td.processAbsoluteAxis te).slotTable = nextSlots te.ev td.slotTable := by
  have haxis : ∀ code, te.ev.AxisWith code ↔ te.ev.code = code := fun code => and_iff_right htype
  have hlength : td.slotTable.1.length = td.mtSlots.length := rfl
  have hmodify : ∀ {f : MtSlot D → MtSlot D} {td' : TrackedDevice F D},
      td'.slotTable = (td.modifySlot f).slotTable → (∀ s, MtSlot.report te.ev s = f s) →
        td'.slotTable = (td.slotTable.1.modify td.slotTable.2 (MtSlot.report te.ev),
          td.slotTable.2) := by
    intro f td' htd' hf
    rw [htd',funext hf]
    rfl
  have hkeeps : (td.modifySlot id).slotTable = td.slotTable := by
    unfold modifySlot
    rw [List.modify_id]
  unfold nextSlots processAbsoluteAxis
  simp only [haxis,hlength]
  split_ifs with hslot hin hid hx hy hdist habsx habsy
  · rfl
  · rfl
  · exact hmodify rfl fun s => by simp only [MtSlot.report,haxis,if_pos hid]
  · exact hmodify rfl fun s => by simp only [MtSlot.report,haxis,if_neg hid,if_pos hx]
  · exact hmodify rfl fun s => by simp only [MtSlot.report,haxis,if_neg hid,if_neg hx,if_pos hy]
  · exact hmodify rfl fun s => by
      simp only [MtSlot.report,haxis,if_neg hid,if_neg hx,if_neg hy,if_pos hdist]
  all_goals
    exact hmodify hkeeps.symm fun s => by
      simp only [MtSlot.report,haxis,if_neg hid,if_neg hx,if_neg hy,if_neg hdist,id]

variable [F32 F] [FloatCast F D]

theorem processSyn_slotTable (te : TimedEvent) (cfgNat : Bool) (cfgAccel : F) (dwt : Bool)
    (td : TrackedDevice F D) :
    (td.processSyn te cfgNat cfgAccel dwt).1.slotTable = td.slotTable :=
  processSyn_frame slotTable (fun _ _ _ _ _ _ => rfl) te cfgNat cfgAccel dwt td

/-- Every event selects a slot, or reports something of the one selected. -/
theorem touchStep_slotTable (td : TrackedDevice F D) (i : TouchInput F) :
    (td.touchStep i).1.slotTable = nextSlots i.te.ev td.slotTable := by
  have hguard : (if i.dwtActive then { td with tapEmitted := true } else td).slotTable =
      td.slotTable := by
    split_ifs <;> rfl
  unfold touchStep processAbsoluteEvent
  dsimp only
  cases htype : i.te.ev.eventType with
  | key => rw [processAbsoluteKey_slotTable,hguard,nextSlots_of_other (by simp [htype])]
  | absolute => rw [processAbsoluteAxis_slotTable _ _ htype,hguard]
  | synchronization => rw [processSyn_slotTable,hguard,nextSlots_of_other (by simp [htype])]
  | relative => rw [hguard,nextSlots_of_other (by simp [htype])]
  | other n => rw [hguard,nextSlots_of_other (by simp [htype])]

/-- Every event changes the slot table as the reading does. -/
theorem touchStep_slotView (td : TrackedDevice F D) (i : TouchInput F) :
    (td.touchStep i).1.slotView = td.slotView.next i.te.ev := by
  have hview : (td.touchStep i).1.slotView =
      ⟨(td.touchStep i).1.slotTable.1.map MtSlot.contact,(td.touchStep i).1.slotTable.2⟩ := rfl
  have hlength : td.slotView.ids.length = td.slotTable.1.length := List.length_map _
  rw [hview,touchStep_slotTable,nextSlots,SlotView.next,hlength]
  split_ifs with hslot hin hid
  · rfl
  · rfl
  · have hid' : ∀ s : MtSlot D, (s.report i.te.ev).contact =
        Function.const _ (contactOf i.te.ev.value) s.contact :=
      fun s => (MtSlot.contact_report _ s).trans (if_pos hid)
    rw [map_modify hid']
    rfl
  · have hid' : ∀ s : MtSlot D, (s.report i.te.ev).contact = id s.contact :=
      fun s => (MtSlot.contact_report _ s).trans (if_neg hid)
    rw [map_modify hid',List.modify_id]
    rfl

/-- The state of a fresh touchpad after a stream of events. -/
abbrev afterInputs (device : EvdevDevice) (path : PathBuf) (d : DevicePtr)
    (inputs : List (TouchInput F)) : TrackedDevice F D :=
  (run touchStep (.new device path d) inputs).1

/-- The library's slot table is the one that the events describe. -/
theorem afterInputs_slotView (device : EvdevDevice) (path : PathBuf) (d : DevicePtr)
    (inputs : List (TouchInput F)) :
    (afterInputs device path d inputs : TrackedDevice F D).slotView =
      .after (inputs.map (·.te.ev)) := by
  induction inputs using List.reverseRecOn with
  | nil => rfl
  | append_singleton inputs i ih =>
    rw [afterInputs,run_append,run_singleton,touchStep_slotView,List.map_append,List.map_singleton,
      SlotView.after_concat,← ih]

theorem afterInputs_activeSlotCount (device : EvdevDevice) (path : PathBuf) (d : DevicePtr)
    (inputs : List (TouchInput F)) :
    (afterInputs device path d inputs : TrackedDevice F D).activeSlotCount =
      (contactsOf (inputs.map (·.te.ev))).length := by
  rw [activeSlotCount_eq,afterInputs_slotView]
  rfl

end TrackedDevice
end Table

/-- A stream of kernel events that all come at one instant, outside the typing window. -/
def atOnce (events : List (EventType × ℕ × ℤ)) : List (TouchInput ℚ) :=
  events.map fun e => ⟨⟨⟨1,e.1,e.2.1,e.2.2⟩,0⟩,true,true,1,false⟩

end LibinputRs
