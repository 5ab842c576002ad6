import LibinputRs.Automata.Cells
import LibinputRs.Library.DrainLoops
import LibinputRs.Library.Lifecycle

/-! A dispatch as one device sees it. Every loop of a dispatch works on the entries of the table one
by one, so a tracked device has one repeat pass, then its batch, and is removed when it was found
gone; a device that is not in the table has nothing. -/
namespace LibinputRs
open Automata

variable {F D : Type} [F32 F] [F64 D] [FloatCast F D]

namespace TrackedDevice

/-- A device that is not absolute takes no notice of settings and typing. -/
theorem batch_plain (cfg cfg' : Settings F) (typing typing' live live' : Option Instant)
    (td : TrackedDevice F D) (habs : td.isAbsolute = false) (events : List TimedEvent) :
    td.batch cfg typing live events = td.batch cfg' typing' live' events := by
  induction events generalizing td live live' with
  | nil => rfl
  | cons te events ih =>
    have hfirst : (processEvent cfg typing (td,live) te).1.1 =
        (processEvent cfg' typing' (td,live') te).1.1 ∧
        (processEvent cfg typing (td,live) te).2 = (processEvent cfg' typing' (td,live') te).2 := by
      unfold processEvent
      simp only [habs,Bool.not_false,Bool.and_true,Bool.true_and,Bool.false_eq_true,if_false]
      split_ifs
      · unfold processKeyboardEvent
        split_ifs <;> exact ⟨rfl,rfl⟩
      · exact ⟨rfl,rfl⟩
      · exact ⟨rfl,rfl⟩
    have hsame : (processEvent cfg' typing' (td,live') te).1.1.isAbsolute = false :=
      (congrArg (·.2.2.1) (processEvent_identity cfg' typing' (td,live') te)).trans habs
    rw [batch_cons,batch_cons]
    simp only [hfirst.1,hfirst.2]
    rw [ih _ _ _ hsame]

end TrackedDevice

namespace LibinputContext

section Loops

/-- No device but the one under the descriptor is behind the pointer. -/
def OwnedBy (base : DeviceTable F D) (d : DevicePtr) (k : RawFd) : Prop :=
  ∀ fd td, base fd = some td → td.libDevice = d → fd = k

/-- What of a trace concerns one device. -/
def deviceView (d : DevicePtr) (l : List (Obs F D)) : List (LibinputEvent D) :=
  eventsOf d (produced l)

omit [F32 F] [F64 D] [FloatCast F D] in
theorem deviceView_append (d : DevicePtr) (l m : List (Obs F D)) :
    deviceView d (l ++ m) = deviceView d l ++ deviceView d m := by
  simp [deviceView]

omit [F32 F] [F64 D] [FloatCast F D] in
/-- The events of a device are none of another's. -/
theorem eventsOf_other {base : DeviceTable F D} {t : DeviceTable F D} {d : DevicePtr}
    {k fd : RawFd} (hd : OwnedBy base d k) (hne : fd ≠ k) (hs : base.Shrinks t)
    {td : TrackedDevice F D} (ht : t fd = some td) {es : List (LibinputEvent D)}
    (hes : ∀ e ∈ es, e.device = td.libDevice) : eventsOf d es = [] := by
  obtain ⟨td₀,h₀,hid⟩ := hs fd td ht
  refine eventsOf_eq_nil hes fun heq => hne (hd fd td₀ h₀ ?_)
  rw [← TrackedDevice.libDevice_of_identity hid,heq]

omit [F32 F] [F64 D] [FloatCast F D] in
/-- The repeat loop works on the entries one by one. -/
theorem repeatDevice_cellLoop (base : DeviceTable F D) (now : Instant) {d : DevicePtr}
    {k : RawFd} (hd : OwnedBy base d k) :
    CellLoop tracked (repeatDevice (F := F) (D := D) now) (deviceView d)
      (fun ctx => base.Shrinks ctx.tracked) k where
  view_nil := rfl
  view_append := deviceView_append d
  inv ctx fd h := h.trans (repeatDevice_shrinks now ctx fd)
  frame ctx fd hne := by
    unfold repeatDevice
    cases ctx.tracked fd with
    | none => rfl
    | some td =>
      dsimp only
      rw [setTracked_tracked,Function.update_of_ne (Ne.symm hne)]
  other ctx fd h hne := by
    unfold repeatDevice
    cases ht : ctx.tracked fd with
    | none => rfl
    | some td =>
      refine (congrArg (eventsOf d) (produced_map_queued _)).trans (eventsOf_other hd hne h ht ?_)
      intro e he
      obtain ⟨hk,_,rfl⟩ := td.emitKeyRepeats_out now e he
      rfl

theorem batch_device (cfg : Settings F) (typing live : Option Instant)
    (td : TrackedDevice F D) (events : List TimedEvent) :
    ∀ e ∈ (td.batch cfg typing live events).2, e.device = td.libDevice := by
  induction events generalizing td live with
  | nil => exact fun e he => by cases he
  | cons te events ih =>
    rw [TrackedDevice.batch_cons]
    intro e he
    rcases List.mem_append.mp he with he | he
    · exact (TrackedDevice.processEvent_out cfg typing (td,live) te e he).1
    · exact (ih _ _ e he).trans (TrackedDevice.libDevice_of_identity
        (TrackedDevice.processEvent_identity cfg typing (td,live) te))

/-- The device loop works on the entries one by one. -/
theorem drainDevice_cellLoop (base : DeviceTable F D) (fetch : RawFd → Fetch) {d : DevicePtr}
    {k : RawFd} (hd : OwnedBy base d k) :
    CellLoop (fun s : LibinputContext F D × List RawFd => s.1.tracked) (drainDevice fetch)
      (deviceView d) (fun s => base.Shrinks s.1.tracked) k where
  view_nil := rfl
  view_append := deviceView_append d
  inv s fd h := h.trans (drainDevice_shrinks fetch s fd)
  frame s fd hne := by
    by_cases hbatch : ∃ td events, s.1.tracked fd = some td ∧ fetch fd = .batch events
    · obtain ⟨td,events,ht,hfetch⟩ := hbatch
      simp only [(drainDevice_batch fetch s ht hfetch).1,Function.update_of_ne (Ne.symm hne)]
    · rw [(drainDevice_nobatch fetch s fun td events ht hfetch => hbatch ⟨td,events,ht,hfetch⟩).1]
  other s fd h hne := by
    by_cases hbatch : ∃ td events, s.1.tracked fd = some td ∧ fetch fd = .batch events
    · obtain ⟨td,events,ht,hfetch⟩ := hbatch
      rw [deviceView,(drainDevice_batch fetch s ht hfetch).2.1]
      exact eventsOf_other hd hne h ht (batch_device _ _ _ td events)
    · rw [(drainDevice_nobatch fetch s
        fun td events ht hfetch => hbatch ⟨td,events,ht,hfetch⟩).2.1]
      rfl

omit [F32 F] [F64 D] [FloatCast F D] in
/-- The removal loop works on the entries one by one. -/
theorem removeDead_cellLoop (base : DeviceTable F D) {d : DevicePtr} {k : RawFd}
    (hd : OwnedBy base d k) :
    CellLoop tracked (removeDead (F := F) (D := D)) (deviceView d)
      (fun ctx => base.Shrinks ctx.tracked) k where
  view_nil := rfl
  view_append := deviceView_append d
  inv ctx fd h := h.trans (removeDead_shrinks ctx fd)
  frame ctx fd hne := by
    unfold removeDead
    cases ctx.tracked fd with
    | none => rfl
    | some td =>
      dsimp only
      rw [eraseTracked_tracked,Function.update_of_ne (Ne.symm hne)]
  other ctx fd h hne := by
    unfold removeDead
    cases ht : ctx.tracked fd with
    | none => rfl
    | some td =>
      refine (congrArg (eventsOf d) (produced_removal ctx.view fd td.libDevice)).trans
        (eventsOf_other hd hne h ht (List.forall_mem_singleton.mpr rfl))

omit [F32 F] [F64 D] [FloatCast F D] in
theorem OwnedBy.shrinks {base t : DeviceTable F D} {d : DevicePtr} {k : RawFd}
    (h : OwnedBy base d k) (hs : base.Shrinks t) : OwnedBy t d k := by
  intro fd td ht heq
  obtain ⟨td₀,h₀,hid⟩ := hs fd td ht
  exact h fd td₀ h₀ ((TrackedDevice.libDevice_of_identity hid).symm.trans heq)

end Loops

section Owners

omit [F32 F] [F64 D] [FloatCast F D] in
/-- Some pointer that no other entry owns, for an entry. -/
theorem exists_ownedBy {ctx : LibinputContext F D} (hw : ctx.view.WellFormed) (k : RawFd) :
    ∃ d, OwnedBy ctx.tracked d k ∧ ∀ td, ctx.tracked k = some td → td.libDevice = d := by
  cases hk : ctx.tracked k with
  | none =>
    refine ⟨ctx.devices.length,fun fd td ht heq => ?_,fun td ht => by cases ht⟩
    exact absurd heq (hw.allocated fd td ht).ne
  | some td =>
    refine ⟨td.libDevice,fun fd td' ht heq => hw.distinct fd k td' td ht hk heq,fun td' ht => ?_⟩
    rw [← Option.some.inj ht]

omit [F32 F] [F64 D] [FloatCast F D] in
/-- Some entry that owns a pointer, if any does. -/
theorem exists_owner {ctx : LibinputContext F D} (hw : ctx.view.WellFormed) (d : DevicePtr) :
    ∃ k, OwnedBy ctx.tracked d k := by
  by_cases h : ∃ k td, ctx.tracked k = some td ∧ td.libDevice = d
  · obtain ⟨k,td,hk,rfl⟩ := h
    exact ⟨k,fun fd td' ht heq => hw.distinct fd k td' td ht hk heq⟩
  · exact ⟨0,fun fd td ht heq => absurd ⟨fd,td,ht,heq⟩ h⟩

end Owners

section Turns

omit [F32 F] [F64 D] [FloatCast F D] in
theorem deviceView_self {d : DevicePtr} {l : List (Obs F D)} {es : List (LibinputEvent D)}
    (h : produced l = es) (hes : ∀ e ∈ es, e.device = d) : deviceView d l = es := by
  rw [deviceView,h,eventsOf,List.filter_eq_self]
  exact fun e he => decide_eq_true (hes e he)

omit [F32 F] [F64 D] [FloatCast F D] in
/-- The turn of the repeat loop at a tracked device. -/
theorem repeatDevice_at (now : Instant) {ctx : LibinputContext F D} {fd : RawFd}
    {td : TrackedDevice F D} (ht : ctx.tracked fd = some td) :
    (repeatDevice now ctx fd).1.tracked fd = some (td.emitKeyRepeats (D := D) now).1 ∧
      deviceView td.libDevice (repeatDevice now ctx fd).2 = (td.emitKeyRepeats now).2 := by
  refine ⟨by rw [repeatDevice_tracked,ht]; rfl,?_⟩
  unfold repeatDevice
  rw [ht]
  refine deviceView_self (produced_map_queued _) fun e he => ?_
  obtain ⟨hk,_,rfl⟩ := td.emitKeyRepeats_out now e he
  rfl

/-- The turn of the device loop at a tracked device. -/
theorem drainDevice_at (fetch : RawFd → Fetch) {s : LibinputContext F D × List RawFd} {fd : RawFd}
    {td : TrackedDevice F D} (ht : s.1.tracked fd = some td) :
    (drainDevice fetch s fd).1.1.tracked fd = some (td.batch (s.1.settings td.libDevice)
        s.1.backend.globalTypingTime s.1.backend.globalTypingTime (fetch fd).events).1 ∧
      deviceView td.libDevice (drainDevice fetch s fd).2 = (td.batch (s.1.settings td.libDevice)
        s.1.backend.globalTypingTime s.1.backend.globalTypingTime (fetch fd).events).2 := by
  by_cases hbatch : ∃ events, fetch fd = .batch events
  · obtain ⟨events,hfetch⟩ := hbatch
    obtain ⟨hstate,hout,_⟩ := drainDevice_batch fetch s ht hfetch
    rw [hstate,Function.update_self,hfetch]
    exact ⟨rfl,deviceView_self hout (batch_device _ _ _ td events)⟩
  · obtain ⟨hstate,hout,_⟩ := drainDevice_nobatch fetch s fun _ events _ h => hbatch ⟨events,h⟩
    have hnone : (fetch fd).events = [] := by
      cases hfetch : fetch fd with
      | batch events => exact absurd ⟨events,hfetch⟩ hbatch
      | _ => rfl
    rw [hstate,hout,hnone]
    exact ⟨ht,rfl⟩

omit [F32 F] [F64 D] [FloatCast F D] in
/-- The turn of the removal loop at a tracked device. -/
theorem removeDead_at {ctx : LibinputContext F D} {fd : RawFd} {td : TrackedDevice F D}
    (ht : ctx.tracked fd = some td) : (ctx.removeDead fd).1.tracked fd = none ∧
      deviceView td.libDevice (ctx.removeDead fd).2 = [.removed td.libDevice] := by
  unfold removeDead
  rw [ht]
  refine ⟨(congrFun (eraseTracked_tracked ctx fd) fd).trans (Function.update_self ..),?_⟩
  exact deviceView_self (produced_removal ctx.view fd td.libDevice)
    (List.forall_mem_singleton.mpr rfl)

/-- What the loops make of a tracked device: its repeat pass, its batch under the settings and the
typing time at its turn, and its removal if it was found gone. -/
theorem dispatchLoops_at {ctx : LibinputContext F D} (hw : ctx.view.WellFormed) (now : Instant)
    (fetch : RawFd → Fetch) {before after : List RawFd} {a : RawFd}
    (hfds : (before ++ a :: after).Nodup) {td : TrackedDevice F D} (ht : ctx.tracked a = some td) :
    let s := (run (drainDevice fetch)
      ((run (repeatDevice now) ctx (before ++ a :: after)).1,[]) before).1.1
    let r := (td.emitKeyRepeats (D := D) now).1.batch (s.settings td.libDevice)
      s.backend.globalTypingTime s.backend.globalTypingTime (fetch a).events
    (ctx.dispatchLoops now fetch (before ++ a :: after)).1.tracked a =
        (if fetch a = .gone then none else some r.1) ∧
      deviceView td.libDevice (ctx.dispatchLoops now fetch (before ++ a :: after)).2 =
        (td.emitKeyRepeats now).2 ++ r.2 ++
          if fetch a = .gone then [.removed td.libDevice] else [] := by
  intro s r
  have hd : OwnedBy ctx.tracked td.libDevice a :=
    fun fd td' ht' heq => hw.distinct fd a td' td ht' ht heq
  obtain ⟨hbefore,hafter⟩ := nodup_split hfds
  have hdevice : (td.emitKeyRepeats (D := D) now).1.libDevice = td.libDevice :=
    TrackedDevice.libDevice_of_identity (td.emitKeyRepeats_identity now)
  -- the repeat pass
  obtain ⟨hreach,hstate,hview⟩ := (repeatDevice_cellLoop ctx.tracked now hd).run_at hbefore hafter
    (.refl ctx.tracked)
  obtain ⟨hkeys,hfired⟩ := repeatDevice_at now (hreach.trans ht)
  unfold dispatchLoops
  extract_lets repeats drained removals
  have hrepeats : repeats.1.tracked a = some (td.emitKeyRepeats (D := D) now).1 :=
    hstate.trans hkeys
  have hshrinks : DeviceTable.Shrinks ctx.tracked repeats.1.tracked := repeats_shrinks now ctx _
  -- the batch
  obtain ⟨hreach',hstate',hview'⟩ := (drainDevice_cellLoop ctx.tracked fetch hd).run_at
    (s := (repeats.1,[])) hbefore hafter hshrinks
  obtain ⟨hread,hqueued⟩ := drainDevice_at fetch (hreach'.trans hrepeats)
  rw [hdevice] at hread hqueued
  have hdrained : drained.1.1.tracked a = some r.1 := hstate'.trans hread
  have hshrinks' : DeviceTable.Shrinks ctx.tracked drained.1.1.tracked := hshrinks.trans
    (run_shrinks (fun s => tracked s.1) (drainDevice_shrinks fetch) (repeats.1,[]) _)
  -- the removal
  have hdead : drained.1.2 = (before ++ a :: after).filter
      fun fd => (repeats.1.tracked fd).isSome && decide (fetch fd = .gone) :=
    deadFds_eq fetch (repeats.1,[]) _
  have hend : removals.1.tracked a = (if fetch a = .gone then none else some r.1) ∧
      deviceView td.libDevice removals.2 =
        if fetch a = .gone then [.removed td.libDevice] else [] := by
    have hloop := removeDead_cellLoop ctx.tracked hd
    by_cases hgone : fetch a = .gone
    · have hmem : a ∈ drained.1.2 := by simp [hdead,hrepeats,hgone]
      obtain ⟨front,back,hsplit⟩ := List.append_of_mem hmem
      have hnodup : (front ++ a :: back).Nodup := hsplit ▸ hdead ▸ hfds.filter _
      obtain ⟨hreach'',hstate'',hview''⟩ := hloop.run_at (nodup_split hnodup).1
        (nodup_split hnodup).2 hshrinks'
      obtain ⟨hnone,hremoved⟩ := removeDead_at (hreach''.trans hdrained)
      obtain ⟨td₀,h₀,hid⟩ := hshrinks' a r.1 hdrained
      obtain rfl := Option.some.inj (ht.symm.trans h₀)
      rw [TrackedDevice.libDevice_of_identity hid] at hremoved
      rw [← hsplit] at hstate'' hview''
      simp only [hgone,if_true]
      exact ⟨hstate''.trans hnone,hview''.trans hremoved⟩
    · have hmem : a ∉ drained.1.2 := by simp [hdead,hgone]
      obtain ⟨hkept,hsilent⟩ := hloop.run_absent hmem hshrinks'
      simp only [hgone,if_false]
      exact ⟨hkept.trans hdrained,hsilent⟩
  refine ⟨hend.1,?_⟩
  rw [deviceView_append,deviceView_append,hend.2]
  exact congrArg₂ _ (congrArg₂ _ (hview.trans hfired) (hview'.trans hqueued)) rfl

/-- The loops show nothing of a device that is not in the table. -/
theorem dispatchLoops_absent {ctx : LibinputContext F D} {d : DevicePtr}
    (hd : ∀ fd td, ctx.tracked fd = some td → td.libDevice ≠ d) (now : Instant)
    (fetch : RawFd → Fetch) (fds : List RawFd) :
    deviceView d (ctx.dispatchLoops now fetch fds).2 = [] := by
  -- any descriptor that the loops do not come to will do
  obtain ⟨k,hk⟩ := Infinite.exists_notMem_finset fds.toFinset
  rw [List.mem_toFinset] at hk
  have hown : OwnedBy ctx.tracked d k := fun fd td ht heq => absurd heq (hd fd td ht)
  unfold dispatchLoops
  extract_lets repeats drained removals
  have hshrinks : DeviceTable.Shrinks ctx.tracked repeats.1.tracked := repeats_shrinks now ctx _
  have hshrinks' : DeviceTable.Shrinks ctx.tracked drained.1.1.tracked := hshrinks.trans
    (run_shrinks (fun s => tracked s.1) (drainDevice_shrinks fetch) (repeats.1,[]) _)
  have hdead : k ∉ drained.1.2 := by
    have heq : drained.1.2 = [] ++ fds.filter _ := deadFds_eq fetch (repeats.1,[]) fds
    rw [heq]
    simp [hk]
  have hrepeats := ((repeatDevice_cellLoop ctx.tracked now hown).run_absent hk
    (.refl ctx.tracked)).2
  have hdrained := ((drainDevice_cellLoop ctx.tracked fetch hown).run_absent
    (s := (repeats.1,[])) hk hshrinks).2
  have hremovals := ((removeDead_cellLoop ctx.tracked hown).run_absent hdead hshrinks').2
  rw [deviceView_append,deviceView_append,hrepeats,hdrained,hremovals]
  rfl

end Turns
end LibinputContext
end LibinputRs
