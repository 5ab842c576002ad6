import LibinputRs.Library.PinchContacts
import Mathlib.Data.List.Permutation

/-! The two contacts that a pinch compares. A session measures the first two contacts in slot order
when it begins and again at the end of every frame, so the pair is the same as long as the slots up
to the second of them are left alone. -/
namespace LibinputRs
open Automata

variable {F D : Type}

namespace SlotView

/-- The tables have a common front that holds two contacts. -/
def SameFront (v w : SlotView) : Prop :=
  ∃ front, front <+: v.ids ∧ front <+: w.ids ∧ 2 ≤ (front.filterMap id).length

/-- No contact of the one table is found in another slot of the other. -/
def SamePlaces (v w : SlotView) : Prop :=
  ∀ (s s' : ℕ) (a : ℤ), v.ids[s]? = some (some a) → w.ids[s']? = some (some a) → s = s'

theorem SameFront.contacts {v w : SlotView} (h : v.SameFront w) :
    v.contacts.take 2 = w.contacts.take 2 := by
  obtain ⟨front,⟨v',hv⟩,⟨w',hw⟩,htwo⟩ := h
  unfold SlotView.contacts
  rw [← hv,← hw,List.filterMap_append,List.filterMap_append,List.take_append_of_le_length htwo,
    List.take_append_of_le_length htwo]

/-- The first contact of a row of slots, behind empty ones. -/
theorem exists_first {row : List (Option ℤ)} {a : ℤ} {rest : List ℤ}
    (h : row.filterMap id = a :: rest) :
    ∃ n back, row = List.replicate n none ++ some a :: back ∧ back.filterMap id = rest := by
  induction row with
  | nil => cases h
  | cons slot row ih =>
    cases slot with
    | none =>
      obtain ⟨n,back,rfl,hback⟩ := ih h
      exact ⟨n + 1,back,rfl,hback⟩
    | some b =>
      obtain ⟨rfl,hrest⟩ := List.cons.inj h
      exact ⟨0,row,rfl,hrest⟩

/-- The first two contacts of a table, with the slots that they are in. -/
theorem exists_pair {v : SlotView} (h : 2 ≤ v.contacts.length) : ∃ m n a b back,
    v.ids = (List.replicate m none ++ some a :: (List.replicate n none ++ [some b])) ++ back ∧
      v.contacts.take 2 = [a,b] ∧ v.ids[m]? = some (some a) ∧ v.ids[m + 1 + n]? = some (some b) := by
  obtain ⟨a,b,rest,hrow⟩ : ∃ a b rest, v.ids.filterMap id = a :: b :: rest := by
    unfold contacts at h
    match v.ids.filterMap id,h with
    | a :: b :: rest,_ => exact ⟨a,b,rest,rfl⟩
  obtain ⟨m,row,hids,hrest⟩ := exists_first hrow
  obtain ⟨n,back,rfl,_⟩ := exists_first hrest
  have hpair : v.contacts.take 2 = [a,b] := by
    rw [contacts,hrow]
    rfl
  refine ⟨m,n,a,b,back,by simpa using hids,hpair,?_,?_⟩
  · simp [hids]
  · simp [hids,Nat.add_assoc,Nat.add_comm 1 n]

/-- Where contacts keep their places, the same first two contacts are the same front. -/
theorem SamePlaces.sameFront {v w : SlotView} (h : v.SamePlaces w) (htwo : 2 ≤ v.contacts.length)
    (hpair : (v.contacts.take 2).Perm (w.contacts.take 2)) : v.SameFront w := by
  have htwo' : 2 ≤ w.contacts.length := by
    have hlength := hpair.length_eq
    rw [List.length_take,List.length_take] at hlength
    omega
  obtain ⟨m,n,a,b,back,hv,hab,hva,hvb⟩ := exists_pair htwo
  obtain ⟨m',n',a',b',back',hw,hab',hwa,hwb⟩ := exists_pair htwo'
  rw [hab,hab',List.pair_perm] at hpair
  rcases hpair with heq | heq
  · obtain ⟨rfl,rfl⟩ : a' = a ∧ b' = b := by simpa using heq
    obtain rfl := h m m' a' hva hwa
    obtain rfl : n = n' := by
      have hsecond := h _ _ b' hvb hwb
      omega
    exact ⟨_,⟨back,hv.symm⟩,⟨back',hw.symm⟩,by simp⟩
  · -- Two contacts that keep their places keep their order.
    obtain ⟨rfl,rfl⟩ : a' = b ∧ b' = a := by simpa using heq
    have hfirst := h _ _ b' hva hwb
    have hsecond := h _ _ a' hvb hwa
    omega

end SlotView

/-- While `BTN_TOUCH` is not released no contact changes its slot. -/
def ContactsStay (rd : List InputEvent) : Prop :=
  ∀ front mid rest, rd = front ++ mid ++ rest → (∀ ev ∈ mid, ¬ ev.Releases KeyCode.btnTouch) →
    (SlotView.after front).SamePlaces (.after (front ++ mid))

namespace TrackedDevice

/-- The tracking ids of the two contacts that a pinch measures. -/
def primaryPair (td : TrackedDevice F D) : List ℤ := (td.activeSlots.take 2).map MtSlot.trackingId

theorem primaryPair_eq (td : TrackedDevice F D) : td.primaryPair = td.slotView.contacts.take 2 := by
  rw [primaryPair,List.map_take,activeSlots_ids]

/-- The event begins a session: a touch on two contacts, with no session open. -/
def PinchBegins (td : TrackedDevice F D) (i : TouchInput F) : Prop :=
  i.te.ev.Presses KeyCode.btnTouch ∧ td.pinchActive = false ∧ 2 ≤ td.activeSlotCount

/-- The event updates the session: the end of a frame with two contacts, outside the typing
window. -/
def PinchUpdates (td : TrackedDevice F D) (i : TouchInput F) : Prop :=
  i.te.ev.IsReport ∧ i.dwtActive = false ∧ td.pinchActive = true ∧ 2 ≤ td.activeSlotCount

instance (td : TrackedDevice F D) (i : TouchInput F) : Decidable (td.PinchBegins i) :=
  inferInstanceAs (Decidable (((_ ∧ _) ∧ _) ∧ _ ∧ _))

instance (td : TrackedDevice F D) (i : TouchInput F) : Decidable (td.PinchUpdates i) :=
  inferInstanceAs (Decidable (_ ∧ _))

/-- The state that the latest session was begun in, for the steps that begin one. -/
def baseline (td : TrackedDevice F D) (i : TouchInput F) : Option (TrackedDevice F D) :=
  if td.PinchBegins i then some td else none

theorem baseline_eq_some {td td' : TrackedDevice F D} {i : TouchInput F} :
    td.baseline i = some td' ↔ td.PinchBegins i ∧ td = td' := by
  unfold baseline
  split_ifs with hbegins
  · rw [Option.some_inj,and_iff_right hbegins]
  · exact iff_of_false (nomatch ·) fun h => hbegins h.1

variable [F64 D] [F32 F] [FloatCast F D]

/-- The event queues an event of the given type. -/
def Queues (eventType : LibinputEventType) (td : TrackedDevice F D) (i : TouchInput F) : Prop :=
  ∃ e ∈ (td.touchStep i).2, e.eventType = eventType

instance (eventType : LibinputEventType) (td : TrackedDevice F D) (i : TouchInput F) :
    Decidable (Queues eventType td i) :=
  inferInstanceAs (Decidable (∃ e ∈ (td.touchStep i).2, e.eventType = eventType))

/-- The state that a step measured, if it began a session. -/
def measuredAtBegin (td : TrackedDevice F D) (i : TouchInput F) : Option (TrackedDevice F D) :=
  if Queues .gesturePinchBegin td i then some td else none

theorem queues_begin_iff (td : TrackedDevice F D) (i : TouchInput F) :
    Queues .gesturePinchBegin td i ↔ td.PinchBegins i := by
  unfold Queues PinchBegins
  by_cases hpress : i.te.ev.Presses KeyCode.btnTouch
  · have hbase : (if i.dwtActive then { td with tapEmitted := true } else td).pinchBase =
        td.pinchBase := by
      split_ifs <;> rfl
    have hdist := td.primarySlotDistance_isSome
    rw [td.touchStep_key i hpress.1.1,processAbsoluteKey,if_pos hpress.1.2,if_pos hpress.2,
      touchDown_eq,and_iff_right hpress]
    dsimp only
    rw [hbase,pinchBase]
    by_cases htwo : 2 ≤ td.activeSlotCount
    · obtain ⟨dist,hsome⟩ := Option.isSome_iff_exists.mp (hdist.mpr htwo)
      have hmany : 2 ≤ max td.activeSlotCount 1 := by omega
      cases hactive : td.pinchActive <;> simp [htwo,hsome,hmany,LibinputEvent.pinchBegin,
        LibinputEvent.gesture]
    · have hfew : ¬ 2 ≤ max td.activeSlotCount 1 := by omega
      simp [htwo,hfew]
  · refine iff_of_false ?_ fun h => hpress h.1
    rintro ⟨e,he,hbegin⟩
    rcases td.touchStep_types i e he with ⟨_,h⟩ | ⟨h,_⟩ | ⟨h,_⟩ | ⟨h | h,_⟩
    · exact hpress h
    · cases hbegin.symm.trans h
    · cases hbegin.symm.trans h
    · cases hbegin.symm.trans h
    · rw [hbegin] at h
      cases h

theorem measuredAtBegin_eq : measuredAtBegin (F := F) (D := D) = baseline := by
  funext td i
  simp only [measuredAtBegin,baseline,queues_begin_iff]

theorem queues_update_iff (td : TrackedDevice F D) (i : TouchInput F) :
    Queues .gesturePinchUpdate td i ↔ td.PinchUpdates i := by
  unfold Queues PinchUpdates
  by_cases hsyn : i.te.ev.eventType = .synchronization
  · have hreport : i.te.ev.IsReport ↔ i.te.ev.code = 0 := and_iff_right hsyn
    rw [td.touchStep_synchronization i hsyn,hreport,processSyn]
    by_cases hcode : i.te.ev.code = 0
    · rw [if_neg (not_not.mpr hcode),and_iff_right hcode]
      cases hdwt : i.dwtActive with
      | true => simp
      | false =>
        cases hactive : td.pinchActive with
        | true =>
          rw [← td.primarySlotDistance_isSome]
          cases hdist : td.primarySlotDistance <;>
            simp [pinchFrame,hactive,hdist,LibinputEvent.pinchUpdate,LibinputEvent.gesture]
        | false =>
          have hquiet : ∀ e ∈ (td.movementFrame i.te i.cfgNat i.cfgAccel).2,
              e.eventType ≠ .gesturePinchUpdate := by
            intro e he hupdate
            have hmove := (td.movementFrame_movement i.te i.cfgNat i.cfgAccel e he).2
            rw [hupdate] at hmove
            cases hmove
          by_cases hmoved : td.currentDx ≠ 0 ∨ td.currentDy ≠ 0
          · simpa [hactive,hmoved] using hquiet
          · simp [hactive,hmoved]
    · simp [hcode]
  · refine iff_of_false ?_ fun h => hsyn h.1.1
    rintro ⟨e,he,hupdate⟩
    rcases td.touchStep_types i e he with ⟨h,_⟩ | ⟨h,_⟩ | ⟨h,_⟩ | ⟨_,h⟩
    · cases hupdate.symm.trans h
    · cases hupdate.symm.trans h
    · cases hupdate.symm.trans h
    · exact hsyn h

/-- A session that is open after an event has begun with it, or was open and is not ended by it. -/
theorem pinchActive_touchStep {td : TrackedDevice F D} {i : TouchInput F}
    (hopen : (td.touchStep i).1.pinchActive = true) (hbegins : ¬ td.PinchBegins i) :
    td.pinchActive = true ∧ ¬ i.te.ev.Releases KeyCode.btnTouch := by
  by_cases hset : i.te.ev.Presses KeyCode.btnTouch ∧ 2 ≤ td.activeSlotCount
  · refine ⟨?_,fun hrel => hset.1.2 hrel.2⟩
    by_contra hclosed
    exact hbegins ⟨hset.1,Bool.not_eq_true _ ▸ hclosed,hset.2⟩
  · have hrel : ¬ i.te.ev.Releases KeyCode.btnTouch :=
      fun hrel => touchStep_pinchLatch.released td i hset hrel hopen
    exact ⟨(touchStep_pinchLatch.kept td i hset hrel).mp hopen,hrel⟩

/-- Inside a session `BTN_TOUCH` is not released. -/
theorem no_release_inside {td : TrackedDevice F D} {mid : List (TouchInput F)}
    (hopen : (run touchStep td mid).1.pinchActive = true)
    (hmid : AtEach (fun front j => ¬ (run touchStep td front).1.PinchBegins j) mid) :
    ∀ j ∈ mid, ¬ j.te.ev.Releases KeyCode.btnTouch := by
  induction mid using List.reverseRecOn with
  | nil => exact List.forall_mem_nil _
  | append_singleton mid i ih =>
    rw [run_append,run_singleton] at hopen
    rw [atEach_append,atEach_singleton,List.append_nil] at hmid
    obtain ⟨hbefore,hrel⟩ := pinchActive_touchStep hopen hmid.2
    rw [List.forall_mem_append]
    exact ⟨ih hbefore hmid.1,List.forall_mem_singleton.mpr hrel⟩

end TrackedDevice

section Compares
open TrackedDevice
variable [F64 D] [F32 F] [FloatCast F D] (device : EvdevDevice) (path : PathBuf) (d : DevicePtr)

/-- Every update compares the contacts that were measured when its session began. -/
def ComparesLike (D : Type) [F64 D] [FloatCast F D] (device : EvdevDevice) (path : PathBuf)
    (d : DevicePtr) (inputs : List (TouchInput F)) : Prop :=
  AtEach (fun front i =>
    Queues .gesturePinchUpdate (afterInputs device path d front : TrackedDevice F D) i →
    ∀ td : TrackedDevice F D, LastWrote touchStep measuredAtBegin (.new device path d) front td →
      td.primaryPair.Perm (afterInputs device path d front : TrackedDevice F D).primaryPair) inputs

/-- At every update the slots up to the second contact of the baseline hold what they held when the
session began. -/
def FrontStays (D : Type) [F64 D] [FloatCast F D] (device : EvdevDevice) (path : PathBuf)
    (d : DevicePtr) (inputs : List (TouchInput F)) : Prop :=
  AtEach (fun front i => (afterInputs device path d front : TrackedDevice F D).PinchUpdates i →
    ∀ td : TrackedDevice F D, LastWrote touchStep baseline (.new device path d) front td →
      td.slotView.SameFront (afterInputs device path d front : TrackedDevice F D).slotView) inputs

/-- The session that is open began with two contacts, and no contact has changed its slot since. -/
theorem samePlaces_of_baseline {front : List (TouchInput F)} {td : TrackedDevice F D}
    (hstay : ContactsStay (front.map (·.te.ev)))
    (hopen : (afterInputs device path d front : TrackedDevice F D).pinchActive = true)
    (hbase : LastWrote touchStep baseline (.new device path d) front td) :
    2 ≤ td.slotView.contacts.length ∧
      td.slotView.SamePlaces (afterInputs device path d front : TrackedDevice F D).slotView := by
  obtain ⟨before,down,mid,rfl,hwrite,hmid⟩ := hbase
  obtain ⟨hbegins,hsame⟩ := baseline_eq_some.mp hwrite
  have hinside : ∀ j ∈ mid, ¬ j.te.ev.Releases KeyCode.btnTouch := by
    rw [afterInputs,run_append,run_cons] at hopen
    refine no_release_inside hopen fun m j back heq hpinch => ?_
    have hnone : (run touchStep (.new device path d : TrackedDevice F D)
        (before ++ down :: m)).1.baseline j = none := hmid m j back heq
    rw [run_append,run_cons,baseline,if_pos hpinch] at hnone
    cases hnone
  have hquiet : ∀ ev ∈ (down :: mid).map (·.te.ev), ¬ ev.Releases KeyCode.btnTouch := by
    rw [List.forall_mem_map,List.forall_mem_cons]
    exact ⟨fun hrel => hbegins.1.2 hrel.2,hinside⟩
  have hplaces := hstay (before.map (·.te.ev)) ((down :: mid).map (·.te.ev)) []
    (by rw [List.append_nil,List.map_append]) hquiet
  rw [← hsame,← activeSlotCount_eq]
  refine ⟨hbegins.2.2,?_⟩
  have hview := afterInputs_slotView (F := F) (D := D) device path d
  rwa [← List.map_append,← hview,← hview] at hplaces

/-- Every update compares the contacts of its baseline while the slots up to the second of them are
left alone; and, contacts keeping their slots, only then. -/
theorem pinch_compares_like (inputs : List (TouchInput F)) :
    (FrontStays D device path d inputs → ComparesLike D device path d inputs) ∧
      (ContactsStay (inputs.map (·.te.ev)) → ComparesLike D device path d inputs →
        FrontStays D device path d inputs) := by
  unfold FrontStays ComparesLike
  simp only [queues_update_iff,measuredAtBegin_eq,primaryPair_eq]
  constructor
  · intro h front i back heq hupdate td hbase
    rw [(h front i back heq hupdate td hbase).contacts]
  · intro hstay h front i back heq hupdate td hbase
    have hfront : ContactsStay (front.map (·.te.ev)) := by
      intro before mid rest hsplit
      refine hstay before mid (rest ++ (i :: back).map (·.te.ev)) ?_
      rw [heq,List.map_append,hsplit,List.append_assoc]
    obtain ⟨htwo,hplaces⟩ := samePlaces_of_baseline device path d hfront hupdate.2.2.1 hbase
    exact hplaces.sameFront htwo (h front i back heq hupdate td hbase)

/-- The fingers that spread keep their slots, the id one more than the slot. -/
theorem spread_fingers_stay : ContactsStay (spreadFingers.map (·.te.ev)) := by
  have hdecided : ∀ front ∈ (spreadFingers.map (·.te.ev)).inits,
      ∀ s ∈ List.range (SlotView.after front).ids.length,
        ∀ a ∈ (SlotView.after front).ids[s]?.join, a = (s : ℤ) + 1 := by
    decide +kernel
  have hplace : ∀ front rest, spreadFingers.map (·.te.ev) = front ++ rest → ∀ (s : ℕ) (a : ℤ),
      (SlotView.after front).ids[s]? = some (some a) → a = s + 1 := by
    intro front rest heq s a hs
    have hlength := (List.getElem?_eq_some_iff.mp hs).1
    exact hdecided front (List.mem_inits _ _ |>.mpr ⟨rest,heq.symm⟩) s (List.mem_range.mpr hlength)
      a (by simp [hs])
  intro front mid rest heq _ s s' a hs hs'
  have hfirst := hplace front (mid ++ rest) (by rw [heq,List.append_assoc]) s a hs
  have hsecond := hplace (front ++ mid) rest heq s' a hs'
  omega

theorem spread_fingers_compare :
    ComparesLike ℚ plainTouchpad "/dev/input/event5" 0 spreadFingers ∧
      FrontStays ℚ plainTouchpad "/dev/input/event5" 0 spreadFingers := by
  have hview : AtEach (fun front i => (afterInputs plainTouchpad "/dev/input/event5" 0 front :
        TrackedDevice ℚ ℚ).PinchUpdates i →
      ∀ td ∈ lastWritten touchStep baseline
        (.new plainTouchpad "/dev/input/event5" 0 : TrackedDevice ℚ ℚ) front,
        td.slotView.ids = (afterInputs plainTouchpad "/dev/input/event5" 0 front :
          TrackedDevice ℚ ℚ).slotView.ids ∧ 2 ≤ td.slotView.contacts.length) spreadFingers := by
    decide +kernel
  have hstays : FrontStays ℚ plainTouchpad "/dev/input/event5" 0 spreadFingers := by
    intro front i back heq hupdate td hbase
    obtain ⟨hids,htwo⟩ := hview front i back heq hupdate td ((lastWrote_iff _ _ _).mp hbase)
    exact ⟨td.slotView.ids,List.prefix_refl _,hids ▸ List.prefix_refl _,htwo⟩
  obtain ⟨hcompares,hfront⟩ :=
    pinch_compares_like plainTouchpad "/dev/input/event5" 0 spreadFingers (D := ℚ)
  exact ⟨hcompares hstays,hfront spread_fingers_stay (hcompares hstays)⟩

/-- Two fingers pinch in the second and third slot, and a third one lands in the first. -/
def thirdFinger : List (TouchInput ℚ) := atOnce
  [(.absolute,AbsoluteAxisCode.absMtSlot,1),(.absolute,AbsoluteAxisCode.absMtTrackingId,1),
    (.absolute,AbsoluteAxisCode.absMtSlot,2),(.absolute,AbsoluteAxisCode.absMtTrackingId,2),
    (.absolute,AbsoluteAxisCode.absMtPositionX,50),(.key,KeyCode.btnTouch,1),
    (.key,KeyCode.btnToolDoubletap,1),(.synchronization,0,0),
    (.absolute,AbsoluteAxisCode.absMtSlot,0),(.absolute,AbsoluteAxisCode.absMtTrackingId,3),
    (.absolute,AbsoluteAxisCode.absMtPositionX,400),(.key,KeyCode.btnToolDoubletap,0),
    (.key,KeyCode.btnToolTripletap,1),(.synchronization,0,0)]

/-- The update then measures the third finger against the baseline of the first two. -/
theorem third_finger_changes_pair :
    KernelContacts (thirdFinger.map (·.te.ev)) ∧
      ¬ ComparesLike ℚ plainTouchpad "/dev/input/event5" 0 thirdFinger := by
  refine ⟨by decide +kernel,fun h => ?_⟩
  have hpair := h (thirdFinger.take 13) ⟨⟨⟨1,.synchronization,0,0⟩,0⟩,true,true,1,false⟩ [] rfl
    (by decide +kernel) (afterInputs plainTouchpad "/dev/input/event5" 0 (thirdFinger.take 5))
    ((lastWrote_iff _ _ _).mpr (by decide +kernel))
  exact absurd hpair (by decide +kernel)

end Compares
end LibinputRs
