import LibinputRs.Library.Buttons
import Mathlib.Tactic.FinCases

/-! The finger count of a touchpad over the frames of the kernel. Each frame reports the keys that
its number of contacts changes; the library follows them one by one and takes the release of a
tool key for one finger less. -/
namespace LibinputRs
open Automata

variable {F D : Type}

/-- `BTN_TOOL_FINGER`, which the library does not ask for. -/
def KeyCode.btnToolFinger : ℕ := 0x145

/-- The numbers of contacts that have a tool key, and none. -/
abbrev Contacts := Fin 5

/-- The tool key that is down while so many contacts are. -/
def Contacts.toolKey : Contacts → Option ℕ
  | 0 => none
  | 1 => some KeyCode.btnToolFinger
  | 2 => some KeyCode.btnToolDoubletap
  | 3 => some KeyCode.btnToolTripletap
  | 4 => some KeyCode.btnToolQuadtap

/-- The key by which an event tells about the contacts, and whether it is pressed. -/
def fingerKey (ev : InputEvent) : Option (ℕ × Bool) :=
  if ev.eventType = .key ∧ ev.code ∈ [KeyCode.btnTouch,KeyCode.btnToolFinger,
      KeyCode.btnToolDoubletap,KeyCode.btnToolTripletap,KeyCode.btnToolQuadtap] then
    some (ev.code,decide (ev.value ≠ 0))
  else none

/-- One frame of a touchpad: how many contacts it ends with, whether the tool key given up is
reported before the one taken up, the events before its `SYN_REPORT`, and that. -/
structure TouchFrame (F : Type) where
  contacts : Contacts
  releaseFirst : Bool
  inputs : List (TouchInput F)
  syn : TouchInput F

namespace TouchFrame

/-- Which tool keys change from one number of contacts to another, in their order. -/
def toolChanges (before after : Contacts) (releaseFirst : Bool) : List (ℕ × Bool) :=
  let released := before.toolKey.toList.map fun key => (key,false)
  let pressed := after.toolKey.toList.map fun key => (key,true)
  if before = after then [] else if releaseFirst then released ++ pressed else pressed ++ released

/-- Whether `BTN_TOUCH` changes, and to what. -/
def touchChanges (before after : Contacts) : List (ℕ × Bool) :=
  if before = 0 ∧ after ≠ 0 then [(KeyCode.btnTouch,true)]
  else if before ≠ 0 ∧ after = 0 then [(KeyCode.btnTouch,false)]
  else []

def events (f : TouchFrame F) : List (TouchInput F) := f.inputs ++ [f.syn]

/-- The frame is one that the kernel sends after a frame with so many contacts: it reports the
keys that change and no others, `BTN_TOUCH` first, and ends at its only `SYN_REPORT`. -/
structure Follows (before : Contacts) (f : TouchFrame F) : Prop where
  keys : f.inputs.filterMap (fun i => fingerKey i.te.ev) =
    touchChanges before f.contacts ++ toolChanges before f.contacts f.releaseFirst
  inside : ∀ i ∈ f.inputs, ¬ (i.te.ev.eventType = .synchronization ∧ i.te.ev.code = 0)
  ending : f.syn.te.ev.eventType = .synchronization ∧ f.syn.te.ev.code = 0

end TouchFrame

/-- The contacts after a sequence of frames; there are none at the start. -/
def contactsAfter (frames : List (TouchFrame F)) : Contacts :=
  (frames.getLast?.map TouchFrame.contacts).getD 0

/-- Every frame follows the one before it. -/
def KernelFrames (frames : List (TouchFrame F)) : Prop :=
  AtEach (fun before f => f.Follows (contactsAfter before)) frames

instance (before : Contacts) (f : TouchFrame F) : Decidable (f.Follows before) :=
  decidable_of_iff (f.inputs.filterMap (fun i => fingerKey i.te.ev) =
      TouchFrame.touchChanges before f.contacts ++
        TouchFrame.toolChanges before f.contacts f.releaseFirst ∧
    (∀ i ∈ f.inputs, ¬ (i.te.ev.eventType = .synchronization ∧ i.te.ev.code = 0)) ∧
    (f.syn.te.ev.eventType = .synchronization ∧ f.syn.te.ev.code = 0))
    ⟨fun h => ⟨h.1,h.2.1,h.2.2⟩,fun h => ⟨h.keys,h.inside,h.ending⟩⟩

/-- What a tool key does to the count. -/
def countTool (fingers : ℕ) (key : ℕ × Bool) : ℕ :=
  if key.1 = KeyCode.btnToolDoubletap then if key.2 then 2 else 1
  else if key.1 = KeyCode.btnToolTripletap then if key.2 then 3 else 2
  else if key.1 = KeyCode.btnToolQuadtap then if key.2 then 4 else 3
  else fingers

/-- Where the library counts a frame as it is: it lifts one finger, it changes from one finger to
several, it puts one finger down while at most one slot is active, or several, it leaves one of two
fingers, or it changes from several to several with the release reported first or for one finger
less. -/
def TouchFrame.CountedRight (before : Contacts) (slots : ℕ) (f : TouchFrame F) : Prop :=
  f.contacts = before ∨ before = 1 ∨
    (before = 0 ∧ (f.contacts = 1 → slots ≤ 1)) ∨
    (before = 2 ∧ f.contacts = 1) ∨
    (2 ≤ before ∧ 2 ≤ f.contacts ∧ (f.releaseFirst = true ∨ f.contacts.val + 1 = before.val))

instance (before : Contacts) (slots : ℕ) (f : TouchFrame F) :
    Decidable (f.CountedRight before slots) := inferInstanceAs (Decidable (_ ∨ _))

/-- The count that the keys of a frame lead to is right in these cases and in no other. -/
theorem foldl_countTool_iff (before after : Contacts) (releaseFirst : Bool) (slots : ℕ) :
    (TouchFrame.toolChanges before after releaseFirst).foldl countTool
        (if before = 0 ∧ after ≠ 0 then max slots 1 else if before ≠ 0 ∧ after = 0 then 0
          else before.val) = after.val ↔
      after = before ∨ before = 1 ∨ (before = 0 ∧ (after = 1 → slots ≤ 1)) ∨
        (before = 2 ∧ after = 1) ∨
        (2 ≤ before ∧ 2 ≤ after ∧ (releaseFirst = true ∨ after.val + 1 = before.val)) := by
  fin_cases before <;> fin_cases after <;> cases releaseFirst <;>
    simp [TouchFrame.toolChanges,Contacts.toolKey,countTool,KeyCode.btnToolFinger,KeyCode.btnToolDoubletap,
      KeyCode.btnToolTripletap,KeyCode.btnToolQuadtap]

/-- What any of the keys does to the count, with so many slots active. -/
def countKey (slots fingers : ℕ) (key : ℕ × Bool) : ℕ :=
  if key.1 = KeyCode.btnTouch then if key.2 then max slots 1 else 0 else countTool fingers key

/-- The keys reported by a sequence of events. -/
def fingerKeys (inputs : List (TouchInput F)) : List (ℕ × Bool) :=
  inputs.filterMap fun i => fingerKey i.te.ev

@[simp] theorem fingerKeys_nil : fingerKeys ([] : List (TouchInput F)) = [] := rfl

theorem fingerKeys_cons (i : TouchInput F) (inputs : List (TouchInput F)) :
    fingerKeys (i :: inputs) = (fingerKey i.te.ev).toList ++ fingerKeys inputs := by
  unfold fingerKeys
  rw [List.filterMap_cons]
  cases fingerKey i.te.ev <;> rfl

/-- The key of an event that has one. -/
theorem fingerKey_eq_some {ev : InputEvent} {key : ℕ × Bool} (h : fingerKey ev = some key) :
    ev.eventType = .key ∧ key = (ev.code,decide (ev.value ≠ 0)) := by
  unfold fingerKey at h
  split_ifs at h with hev
  exact ⟨hev.1,(Option.some.inj h).symm⟩

namespace TrackedDevice
variable [F64 D]

theorem touchDown_touchFingers (te : TimedEvent) (td : TrackedDevice F D) :
    (td.touchDown te).1.touchFingers = max td.activeSlotCount 1 :=
  touchDown_frame (·.touchFingers) (fun _ _ _ _ _ => rfl) te td

omit [F64 D] in
theorem physicalClick_touchFingers (te : TimedEvent) (td : TrackedDevice F D) :
    (td.physicalClick te).1.touchFingers = td.touchFingers :=
  physicalClick_frame (·.touchFingers) (fun _ _ => rfl) te td

/-- The key events change the count as `countKey` says. -/
theorem processAbsoluteKey_touchFingers (te : TimedEvent) (cfgTap dwt : Bool)
    (td : TrackedDevice F D) : (td.processAbsoluteKey te cfgTap dwt).1.touchFingers =
      countKey td.activeSlotCount td.touchFingers (te.ev.code,decide (te.ev.value ≠ 0)) := by
  unfold processAbsoluteKey countKey countTool
  simp only [decide_eq_true_eq]
  split_ifs
  all_goals first
    | rfl
    | exact td.touchDown_touchFingers te
    | exact td.physicalClick_touchFingers te

theorem processAbsoluteAxis_touchFingers (te : TimedEvent) (td : TrackedDevice F D) :
    (td.processAbsoluteAxis te).touchFingers = td.touchFingers :=
  processAbsoluteAxis_frame (·.touchFingers) (fun _ _ _ => rfl) (fun _ _ _ _ _ _ => rfl) te td

variable [F32 F] [FloatCast F D]

theorem processSyn_touchFingers (te : TimedEvent) (cfgNat : Bool) (cfgAccel : F) (dwt : Bool)
    (td : TrackedDevice F D) :
    (td.processSyn te cfgNat cfgAccel dwt).1.touchFingers = td.touchFingers :=
  processSyn_frame (·.touchFingers) (fun _ _ _ _ _ _ => rfl) te cfgNat cfgAccel dwt td

/-- An event changes the count by its key, or not at all. -/
theorem touchStep_touchFingers (td : TrackedDevice F D) (i : TouchInput F) :
    (td.touchStep i).1.touchFingers =
      (fingerKey i.te.ev).elim td.touchFingers (countKey td.activeSlotCount td.touchFingers) := by
  have hfingers : (if i.dwtActive then { td with tapEmitted := true } else td).touchFingers =
      td.touchFingers := by
    split_ifs <;> rfl
  have hslots : (if i.dwtActive then { td with tapEmitted := true } else td).activeSlotCount =
      td.activeSlotCount := by
    split_ifs <;> rfl
  have hnone : i.te.ev.eventType ≠ .key → fingerKey i.te.ev = none := by
    intro htype
    exact if_neg fun h => htype h.1
  unfold touchStep processAbsoluteEvent
  dsimp only
  cases htype : i.te.ev.eventType with
  | key =>
    dsimp only
    rw [processAbsoluteKey_touchFingers,hfingers,hslots]
    unfold fingerKey
    split_ifs with hkey
    · rfl
    · simp only [htype,true_and,List.mem_cons,List.not_mem_nil,or_false,not_or] at hkey
      simp [countKey,countTool,hkey]
  | absolute =>
    dsimp only
    rw [hnone (by simp [htype]),processAbsoluteAxis_touchFingers,hfingers]
    rfl
  | synchronization =>
    dsimp only
    rw [hnone (by simp [htype]),processSyn_touchFingers,hfingers]
    rfl
  | relative =>
    rw [hnone (by simp [htype])]
    exact hfingers
  | other n =>
    rw [hnone (by simp [htype])]
    exact hfingers

/-- While `BTN_TOUCH` is quiet the count follows the tool keys. -/
theorem run_touchFingers (td : TrackedDevice F D) {inputs : List (TouchInput F)}
    (hkeys : ∀ key ∈ fingerKeys inputs, key.1 ≠ KeyCode.btnTouch) :
    (run touchStep td inputs).1.touchFingers = (fingerKeys inputs).foldl countTool td.touchFingers := by
  induction inputs generalizing td with
  | nil => rfl
  | cons i inputs ih =>
    have hstep := td.touchStep_touchFingers i
    rw [fingerKeys_cons] at hkeys ⊢
    have hrest := ih (td.touchStep i).1 fun key hkey => hkeys key (List.mem_append_right _ hkey)
    rw [run_cons]
    apply hrest.trans
    rw [hstep,List.foldl_append]
    cases hkey : fingerKey i.te.ev with
    | none => rfl
    | some key =>
      have hne := hkeys key (by simp [hkey])
      simp [countKey,hne]

/-- The state in which a frame's `BTN_TOUCH` is processed, or its end if there is none. -/
def atTouch (td : TrackedDevice F D) (f : TouchFrame F) : TrackedDevice F D :=
  (run touchStep td (f.inputs.takeWhile fun i => decide (¬ i.te.ev.KeyWith KeyCode.btnTouch))).1

end TrackedDevice

section Frames
variable [F64 D] [F32 F] [FloatCast F D] {before : Contacts} {f : TouchFrame F}

omit [F64 D] [F32 F] [FloatCast F D] in
/-- The tool keys are not `BTN_TOUCH`. -/
theorem toolChanges_ne_touch (before after : Contacts) (releaseFirst : Bool) :
    ∀ key ∈ TouchFrame.toolChanges before after releaseFirst, key.1 ≠ KeyCode.btnTouch := by
  revert before after releaseFirst
  decide

/-- A key of `BTN_TOUCH` at the head of a frame is processed in the state `atTouch`. -/
theorem run_touchFingers_of_touch (td : TrackedDevice F D) {pressed : Bool}
    {tools : List (ℕ × Bool)} (hkeys : fingerKeys f.inputs = (KeyCode.btnTouch,pressed) :: tools)
    (htools : ∀ key ∈ tools, key.1 ≠ KeyCode.btnTouch) :
    (run TrackedDevice.touchStep td f.inputs).1.touchFingers =
      tools.foldl countTool (if pressed then max (td.atTouch f).activeSlotCount 1 else 0) := by
  unfold TrackedDevice.atTouch
  generalize f.inputs = inputs at hkeys
  induction inputs generalizing td with
  | nil => cases hkeys
  | cons i inputs ih =>
    have hstep := td.touchStep_touchFingers i
    rw [fingerKeys_cons] at hkeys
    rw [run_cons,List.takeWhile_cons]
    by_cases hev : i.te.ev.KeyWith KeyCode.btnTouch
    · have hkey : fingerKey i.te.ev = some (KeyCode.btnTouch,decide (i.te.ev.value ≠ 0)) := by
        unfold fingerKey
        rw [hev.2,if_pos ⟨hev.1,by decide⟩]
      rw [hkey] at hkeys hstep
      have hpressed : decide (i.te.ev.value ≠ 0) = pressed :=
        congrArg Prod.snd (List.cons.inj hkeys).1
      have hrest : fingerKeys inputs = tools := (List.cons.inj hkeys).2
      have hstop : ¬ decide (¬ i.te.ev.KeyWith KeyCode.btnTouch) = true := by simpa using hev
      rw [TrackedDevice.run_touchFingers _ (hrest ▸ htools),hrest,hstep,if_neg hstop,← hpressed]
      rfl
    · have hnone : fingerKey i.te.ev = none := by
        cases hkey : fingerKey i.te.ev with
        | none => rfl
        | some key =>
          rw [hkey] at hkeys
          obtain ⟨htype,hcode⟩ := fingerKey_eq_some hkey
          have hhead := (List.cons.inj hkeys).1
          exact absurd ⟨htype,congrArg Prod.fst (hcode.symm.trans hhead)⟩ hev
      rw [hnone] at hkeys
      rw [if_pos (decide_eq_true hev)]
      exact ih (td.touchStep i).1 hkeys

/-- The count that a frame ends with, from the count and the slots it finds. -/
theorem TouchFrame.Follows.touchFingers (h : f.Follows before) (td : TrackedDevice F D)
    (hbefore : td.touchFingers = before.val) :
    (run TrackedDevice.touchStep td f.inputs).1.touchFingers = f.contacts.val ↔
      f.CountedRight before (td.atTouch f).activeSlotCount := by
  have hkeys : fingerKeys f.inputs = touchChanges before f.contacts ++
    toolChanges before f.contacts f.releaseFirst := h.keys
  have htools := toolChanges_ne_touch before f.contacts f.releaseFirst
  unfold CountedRight
  rw [← foldl_countTool_iff]
  unfold touchChanges at hkeys
  split_ifs at hkeys ⊢ with hdown hup
  · rw [run_touchFingers_of_touch td hkeys htools]
    rfl
  · rw [run_touchFingers_of_touch td hkeys htools]
    rfl
  · rw [td.run_touchFingers (hkeys ▸ htools),hkeys,hbefore]
    rfl

/-- At the `SYN_REPORT` of every frame the count is the number of contacts. -/
def FingersCounted (td : TrackedDevice F D) (frames : List (TouchFrame F)) : Prop :=
  AtEach (fun before f => (run TrackedDevice.touchStep td
    (before.flatMap TouchFrame.events ++ f.inputs)).1.touchFingers = f.contacts.val) frames

/-- The count is right at the start of the next frame. -/
theorem FingersCounted.touchFingers {td : TrackedDevice F D} {frames : List (TouchFrame F)}
    (hframes : KernelFrames frames) (h : FingersCounted td frames) (htd : td.touchFingers = 0) :
    (run TrackedDevice.touchStep td (frames.flatMap TouchFrame.events)).1.touchFingers =
      (contactsAfter frames).val := by
  cases frames using List.reverseRecOn with
  | nil => exact htd
  | append_singleton frames f =>
    have hf := h frames f [] rfl
    have hsyn := (hframes frames f [] rfl).ending
    have hnone : fingerKey f.syn.te.ev = none := if_neg fun hkey => by
      rw [hsyn.1] at hkey
      cases hkey.1
    rw [List.flatMap_append,List.flatMap_singleton,TouchFrame.events,← List.append_assoc,
      run_append,run_singleton,TrackedDevice.touchStep_touchFingers,hnone]
    simpa [contactsAfter] using hf

/-- The library counts the contacts of every frame exactly when each frame is one of those that it
counts as they are. -/
theorem fingers_counted_iff (device : EvdevDevice) (path : PathBuf) (d : DevicePtr)
    (frames : List (TouchFrame F)) (hframes : KernelFrames frames) :
    FingersCounted (.new device path d : TrackedDevice F D) frames ↔
      AtEach (fun before f => f.CountedRight (contactsAfter before)
        ((run TrackedDevice.touchStep (.new device path d : TrackedDevice F D)
          (before.flatMap TouchFrame.events)).1.atTouch f).activeSlotCount) frames := by
  refine atEach_congr fun before f after heq hbefore => ?_
  have hkernel : KernelFrames before := by
    rw [heq,KernelFrames,atEach_append] at hframes
    exact hframes.1
  rw [run_append]
  exact (hframes before f after heq).touchFingers _
    (FingersCounted.touchFingers hkernel hbefore rfl)

end Frames

/-- A frame that reports these values of keys and nothing else. -/
def keyFrame (contacts : Contacts) (keys : List (ℕ × ℤ)) : TouchFrame ℚ :=
  ⟨contacts,false,keys.map fun key => ⟨⟨⟨1,.key,key.1,key.2⟩,0⟩,true,true,1,false⟩,
    ⟨⟨⟨1,.synchronization,0,0⟩,0⟩,true,true,1,false⟩⟩

def oneFinger : TouchFrame ℚ := keyFrame 1 [(KeyCode.btnTouch,1),(KeyCode.btnToolFinger,1)]

def oneThenThree : TouchFrame ℚ :=
  keyFrame 3 [(KeyCode.btnToolTripletap,1),(KeyCode.btnToolFinger,0)]

def threeThenOne : TouchFrame ℚ :=
  keyFrame 1 [(KeyCode.btnToolFinger,1),(KeyCode.btnToolTripletap,0)]

/-- A finger, and two more. -/
theorem three_fingers_counted : FingersCounted
    (.new plainTouchpad "/dev/input/event5" 0 : TrackedDevice ℚ ℚ) [oneFinger,oneThenThree] :=
  (fingers_counted_iff _ _ _ _ (atEach_cons.mpr ⟨by decide +kernel,
    atEach_singleton.mpr (by decide +kernel)⟩)).mpr (atEach_cons.mpr ⟨by decide +kernel,
      atEach_singleton.mpr (by decide +kernel)⟩)

/-- Two of three fingers are lifted in one frame, and two are still counted. -/
theorem last_finger_counted_twice :
    KernelFrames [oneFinger,oneThenThree,threeThenOne] ∧ ¬ FingersCounted
      (.new plainTouchpad "/dev/input/event5" 0 : TrackedDevice ℚ ℚ)
        [oneFinger,oneThenThree,threeThenOne] := by
  constructor
  · exact atEach_cons.mpr ⟨by decide +kernel,atEach_cons.mpr ⟨by decide +kernel,
      atEach_singleton.mpr (by decide +kernel)⟩⟩
  · intro h
    exact absurd (h [oneFinger,oneThenThree] threeThenOne [] rfl) (by decide +kernel)

end LibinputRs
