import LibinputRs.Backend.EventTimes
import LibinputRs.Backend.SyncStream
import LibinputRs.Library.DrainLoops
import LibinputRs.Library.Lifecycle
import LibinputRs.Library.Removal

/-! The order of the times that the events of a device carry. Events of the kernel keep the order
of the kernel, unless evdev returns what it made up for dropped events ahead of older ones; a repeat
carries the time of its press, which other keys of the keyboard may have overtaken. -/
namespace LibinputRs
open Automata

variable {F D : Type}

/-- A later time has a later stamp, while the count of microseconds fits. -/
theorem systimeToUsec_mono {a b : ℤ} (hab : a ≤ b) (hb : b < 2^64) :
    systimeToUsec a ≤ systimeToUsec b := by
  unfold systimeToUsec
  omega

section Times

/-- The times of the input events of a device, in queue order. -/
def timesOf (d : DevicePtr) (l : List (LibinputEvent D)) : List ℕ :=
  (eventsOf d l).filterMap LibinputEvent.timeUsec

@[simp] theorem timesOf_nil (d : DevicePtr) : timesOf d ([] : List (LibinputEvent D)) = [] := rfl

@[simp] theorem timesOf_append (d : DevicePtr) (l m : List (LibinputEvent D)) :
    timesOf d (l ++ m) = timesOf d l ++ timesOf d m := by
  simp [timesOf]

theorem mem_timesOf {d : DevicePtr} {l : List (LibinputEvent D)} {t : ℕ} :
    t ∈ timesOf d l ↔ ∃ e ∈ l, e.device = d ∧ e.timeUsec = some t := by
  simp [timesOf,eventsOf,and_assoc]

/-- Notifications about devices have no time. -/
theorem timesOf_eq_nil (d : DevicePtr) {l : List (LibinputEvent D)}
    (h : ∀ e ∈ l, e.timeUsec = none) : timesOf d l = [] := by
  refine List.filterMap_eq_nil_iff.mpr fun e he => ?_
  exact h e (List.mem_filter.mp he).1

theorem eq_of_mem_timesOf {d : DevicePtr} {l : List (LibinputEvent D)} {t t' : ℕ}
    (h : StampedAt t l) (ht' : t' ∈ timesOf d l) : t' = t := by
  obtain ⟨e,he,_,htime⟩ := mem_timesOf.mp ht'
  exact Option.some.inj (htime.symm.trans (h e he))

theorem timesOf_of_device_ne {d d' : DevicePtr} {l : List (LibinputEvent D)}
    (h : ∀ e ∈ l, e.device = d') (hne : d' ≠ d) : timesOf d l = [] := by
  rw [timesOf,eventsOf_eq_nil h hne]
  rfl

end Times

section Order

/-- The kernel timestamps of the events of each device do not decrease. -/
def KernelOrdered (fetches : DevicePtr → List FetchCall) : Prop := ∀ d, FreshOrdered (fetches d)

/-- The events read from each device are those that its `evdev::Device` returns. -/
def ReadThrough (fetches : DevicePtr → List FetchCall) (out : List (Obs F D)) : Prop :=
  ∀ d, reads d out = (SyncStream.returned (fetches d)).map SyncedEvent.ev

/-- The times of the events read from each device do not decrease. -/
def ReadsOrdered (out : List (Obs F D)) : Prop :=
  ∀ d, ((reads d out).map InputEvent.time).Pairwise (· ≤ ·)

/-- They fit into 64 bits. -/
def KernelFits (out : List (Obs F D)) : Prop := ∀ d, ∀ ev ∈ reads d out, ev.time < 2^64

/-- The times of the events queued for each device do not decrease. -/
def TimesOrdered (out : List (Obs F D)) : Prop :=
  ∀ d, (timesOf d (produced out)).Pairwise (· ≤ ·)

theorem timesOf_eq_nil_of_not_mem {d : DevicePtr} {l : List (LibinputEvent D)}
    (h : d ∉ l.map LibinputEvent.device) : timesOf d l = [] := by
  have hnone : eventsOf d l = [] := by
    refine List.filter_eq_nil_iff.mpr fun e he hd => h ?_
    exact List.mem_map.mpr ⟨e,he,by simpa using hd⟩
  rw [timesOf,hnone]
  rfl

/-- The devices that kernel events were read from. -/
def readers (out : List (Obs F D)) : List DevicePtr :=
  out.filterMap fun
    | .processed p => some p.device
    | _ => none

theorem reads_eq_nil_of_not_mem {d : DevicePtr} {out : List (Obs F D)} (h : d ∉ readers out) :
    reads d out = [] := by
  refine List.filterMap_eq_nil_iff.mpr fun o ho => ?_
  cases o with
  | processed p =>
    refine if_neg fun hd => h ?_
    exact List.mem_filterMap.mpr ⟨_,ho,congrArg some hd⟩
  | _ => rfl

instance (out : List (Obs F D)) : Decidable (KernelFits out) :=
  decidable_of_iff (∀ d ∈ readers out, ∀ ev ∈ reads d out, ev.time < 2^64) <| by
    refine ⟨fun h d ev hev => ?_,fun h d _ => h d⟩
    by_cases hd : d ∈ readers out
    · exact h d hd ev hev
    · rw [reads_eq_nil_of_not_mem hd] at hev
      cases hev

/-- One device is read. -/
theorem ReadThrough.update {out : List (Obs F D)} {d : DevicePtr} {calls : List FetchCall}
    (hreaders : ∀ d' ∈ readers out, d' = d)
    (h : reads d out = (SyncStream.returned calls).map SyncedEvent.ev) :
    ReadThrough (Function.update (fun _ => []) d calls) out := by
  intro d'
  by_cases hd : d' = d
  · subst hd
    rw [Function.update_self,h]
  · rw [Function.update_of_ne hd,reads_eq_nil_of_not_mem (mt (hreaders d') hd)]
    rfl

/-- The other devices have no events. -/
theorem forall_update_fetches (P : List FetchCall → Prop) (hnil : P []) {d : DevicePtr}
    {calls : List FetchCall} (h : P calls) (d' : DevicePtr) :
    P (Function.update (fun _ => []) d calls d') := by
  by_cases hd : d' = d
  · rwa [hd,Function.update_self]
  · rwa [Function.update_of_ne hd]

/-- Events that evdev returns are read in the order of the kernel while the compensation is in
place. -/
theorem ReadThrough.readsOrdered {out : List (Obs F D)} {fetches : DevicePtr → List FetchCall}
    (h : ReadThrough fetches out) (hkernel : KernelOrdered fetches)
    (hplace : ∀ d, CompensationInPlace (SyncStream.returned (fetches d))) : ReadsOrdered out := by
  intro d
  rw [h d]
  exact SyncStream.returned_ordered (hkernel d) (hplace d)

instance (out : List (Obs F D)) : Decidable (TimesOrdered out) :=
  decidable_of_iff (∀ d ∈ (produced out).map LibinputEvent.device,
      (timesOf d (produced out)).Pairwise (· ≤ ·)) <| by
    refine ⟨fun h d => ?_,fun h d _ => h d⟩
    by_cases hd : d ∈ (produced out).map LibinputEvent.device
    · exact h d hd
    · rw [timesOf_eq_nil_of_not_mem hd]
      exact .nil

/-- What the backend queues on its own account is not older than what it queued before. -/
def RepeatInOrder (front : List (Obs F D)) : Obs F D → Prop
  | .queued e => ∀ t, e.timeUsec = some t → ∀ t' ∈ timesOf e.device (produced front), t' ≤ t
  | _ => True

theorem ReadsOrdered.of_append {l m : List (Obs F D)} (h : ReadsOrdered (l ++ m)) :
    ReadsOrdered l := by
  intro d
  have := h d
  rw [reads_append,List.map_append] at this
  exact (List.pairwise_append.mp this).1

theorem KernelFits.of_append {l m : List (Obs F D)} (h : KernelFits (l ++ m)) : KernelFits l :=
  fun d ev hev => h d ev (by rw [reads_append]; exact List.mem_append_left _ hev)

/-- Repeats that are in order keep the times in order. -/
theorem pairwise_timesOf_queued {out : List (Obs F D)} {d : DevicePtr}
    (h : (timesOf d (produced out)).Pairwise (· ≤ ·)) (es : List (LibinputEvent D))
    (hes : AtEach (fun front => RepeatInOrder (out ++ front)) (es.map .queued)) :
    (timesOf d (produced out ++ es)).Pairwise (· ≤ ·) := by
  induction es using List.reverseRecOn with
  | nil => simpa using h
  | append_singleton es e ih =>
    rw [List.map_append] at hes
    have hbefore := ih (atEach_append.mp hes).1
    have hlast : RepeatInOrder (out ++ es.map .queued) (.queued e) :=
      hes (es.map .queued) (.queued e) [] rfl
    rw [← List.append_assoc,timesOf_append]
    refine List.pairwise_append.mpr ⟨hbefore,?_,fun t' ht' t ht => ?_⟩
    · by_cases hd : e.device = d
      · cases ht : e.timeUsec <;> simp [timesOf,eventsOf,hd,ht]
      · simp [timesOf,eventsOf,hd]
    · obtain ⟨e',he',hd,htime⟩ := mem_timesOf.mp ht
      obtain rfl := List.mem_singleton.mp he'
      apply hlast t htime t'
      rwa [hd,produced_append,produced_map_queued]

end Order

namespace TrackedDevice

/-- The repeat pass leaves the press times of the held keys alone. -/
theorem emitKeyRepeats_tsUsec (now : Instant) (td : TrackedDevice F D) :
    ∀ hk ∈ (td.emitKeyRepeats (D := D) now).1.heldKeys, ∃ hk₀ ∈ td.heldKeys,
      hk₀.tsUsec = hk.tsUsec := by
  intro hk hmem
  unfold emitKeyRepeats at hmem
  split_ifs at hmem
  · exact ⟨hk,hmem,rfl⟩
  · obtain ⟨hk₀,hmem₀,rfl⟩ := List.mem_map.mp hmem
    refine ⟨hk₀,hmem₀,?_⟩
    unfold HeldKey.fire
    split_ifs <;> rfl

variable [F32 F] [F64 D] [FloatCast F D]

/-- A key held after an event was held before, or its press was just queued. -/
theorem processEvent_heldKeys (cfg : Settings F) (typing : Option Instant)
    (s : TrackedDevice F D × Option Instant) (te : TimedEvent) :
    ∀ hk ∈ (processEvent cfg typing s te).1.1.heldKeys, hk ∈ s.1.heldKeys ∨
      hk.tsUsec ∈ timesOf s.1.libDevice (processEvent cfg typing s te).2 := by
  intro hk hmem
  rcases processEvent_cases cfg typing s te with ⟨_,_,h⟩ | ⟨_,_,_,h⟩ | ⟨_,dwt,_,h⟩ | ⟨_,_,_,h⟩ <;>
    rw [h] at hmem ⊢
  · rcases s.1.processKeyboardEvent_cases te s.2 with ⟨_,_,heq⟩ | ⟨_,_,heq⟩ | ⟨_,heq⟩ <;>
      rw [heq] at hmem ⊢
    · rcases List.mem_append.mp hmem with hmem | hmem
      · exact .inl hmem
      · obtain rfl := List.mem_singleton.mp hmem
        exact .inr (mem_timesOf.mpr ⟨_,List.mem_singleton_self _,rfl,rfl⟩)
    · exact .inl (List.mem_filter.mp hmem).1
    · exact .inl hmem
  · exact .inl hmem
  · have hkeys := heldKeys_of_keyState (s.1.processAbsoluteEvent_step te cfg.cfgTap cfg.cfgNat
      cfg.cfgAccel dwt).keyState
    exact .inl (hkeys ▸ hmem)
  · exact .inl hmem

end TrackedDevice

/-- Every queued time was read from the device, every held key has its press in the queue, and
the times are in order as long as the kernel's are and the repeats are. -/
structure Stamped (out : List (Obs F D)) (w : World F D) : Prop where
  covered : ∀ d, ∀ t ∈ timesOf d (produced out), ∃ ev ∈ reads d out, t = systimeToUsec ev.time
  held : ∀ fd td, w.tracked fd = some td → ∀ hk ∈ td.heldKeys,
    hk.tsUsec ∈ timesOf td.libDevice (produced out)
  ordered : ReadsOrdered out → KernelFits out → AtEach RepeatInOrder out → TimesOrdered out

namespace Stamped
variable {out o : List (Obs F D)} {w w' : World F D}

/-- A tick that queues no time and holds no new key. -/
theorem quiet (h : Stamped out w) (ho : ∀ d, timesOf d (produced o) = [])
    (hheld : ∀ fd td', w'.tracked fd = some td' → td'.heldKeys = [] ∨ w.tracked fd = some td') :
    Stamped (out ++ o) w' := by
  have hsame : ∀ d, timesOf d (produced (out ++ o)) = timesOf d (produced out) := by
    intro d
    rw [produced_append,timesOf_append,ho,List.append_nil]
  refine ⟨fun d t ht => ?_,fun fd td' ht hk hmem => ?_,fun hkernel hfits hrepeats d => ?_⟩
  · rw [hsame] at ht
    obtain ⟨ev,hev,heq⟩ := h.covered d t ht
    exact ⟨ev,by rw [reads_append]; exact List.mem_append_left _ hev,heq⟩
  · rcases hheld fd td' ht with hnone | ht
    · rw [hnone] at hmem
      cases hmem
    · rw [hsame]
      exact h.held fd td' ht hk hmem
  · rw [hsame]
    exact h.ordered hkernel.of_append hfits.of_append (atEach_append.mp hrepeats).1 d

variable [F32 F] [F64 D] [FloatCast F D]

omit [F32 F] [F64 D] [FloatCast F D] in
theorem repeats (h : Stamped out w) {fd : RawFd} {td : TrackedDevice F D} (now : Instant)
    (ht : w.tracked fd = some td) :
    Stamped (out ++ (td.emitKeyRepeats now).2.map .queued)
      (w.set fd (some (td.emitKeyRepeats now).1)) := by
  have hpressed : ∀ e ∈ (td.emitKeyRepeats (D := D) now).2, e.device = td.libDevice ∧
      ∃ hk ∈ td.heldKeys, e.timeUsec = some hk.tsUsec := by
    intro e he
    obtain ⟨hk,hmem,rfl⟩ := td.emitKeyRepeats_out now e he
    exact ⟨rfl,hk,hmem,rfl⟩
  refine ⟨fun d t hmem => ?_,fun fd' td' ht' hk hmem => ?_,fun hkernel hfits hrepeats d => ?_⟩
  · rw [produced_append,produced_map_queued,timesOf_append] at hmem
    have hold : t ∈ timesOf d (produced out) := by
      rcases List.mem_append.mp hmem with hmem | hmem
      · exact hmem
      · obtain ⟨e,he,hd,htime⟩ := mem_timesOf.mp hmem
        obtain ⟨hdevice,hk,hheld,heq⟩ := hpressed e he
        obtain rfl := Option.some.inj (htime.symm.trans heq)
        exact hd ▸ hdevice ▸ h.held fd td ht hk hheld
    obtain ⟨ev,hev,heq⟩ := h.covered d t hold
    exact ⟨ev,by rw [reads_append]; exact List.mem_append_left _ hev,heq⟩
  · rw [produced_append,timesOf_append]
    apply List.mem_append_left _
    rcases World.tracked_set ht' with ⟨_,heq⟩ | ⟨_,ht'⟩
    · obtain rfl := Option.some.inj heq
      obtain ⟨hk₀,hmem₀,hsame⟩ := td.emitKeyRepeats_tsUsec (D := D) now hk hmem
      rw [TrackedDevice.libDevice_of_identity (td.emitKeyRepeats_identity now),← hsame]
      exact h.held fd td ht hk₀ hmem₀
    · exact h.held fd' td' ht' hk hmem
  · rw [produced_append,produced_map_queued]
    exact pairwise_timesOf_queued (h.ordered hkernel.of_append hfits.of_append
      (atEach_append.mp hrepeats).1 d) _ (atEach_append.mp hrepeats).2

theorem event (h : Stamped out w) {fd : RawFd} {td : TrackedDevice F D} (cfg : Settings F)
    (typing live : Option Instant) (te : TimedEvent) (ht : w.tracked fd = some td) :
    Stamped (out ++ (TrackedDevice.observeEvent cfg typing (td,live) te).2)
      (w.set fd (some (TrackedDevice.observeEvent cfg typing (td,live) te).1.1)) := by
  set es := (TrackedDevice.processEvent cfg typing (td,live) te).2 with hes
  have hstamp : StampedAt (systimeToUsec te.ev.time) es :=
    TrackedDevice.processEvent_stamped cfg typing (td,live) te
  have hown : ∀ e ∈ es, e.device = td.libDevice := fun e he =>
    (TrackedDevice.processEvent_out cfg typing (td,live) te e he).1
  have hsplit : ∀ d, timesOf d (produced (out ++
      (TrackedDevice.observeEvent cfg typing (td,live) te).2)) =
        timesOf d (produced out) ++ timesOf d es := by
    intro d
    rw [produced_append,TrackedDevice.produced_observeEvent,timesOf_append]
  have hreads : ∀ d, reads d (out ++ (TrackedDevice.observeEvent cfg typing (td,live) te).2) =
      reads d out ++ if td.libDevice = d then [te.ev] else [] := by
    intro d
    rw [reads_append,reads_observeEvent]
  refine ⟨fun d t hmem => ?_,fun fd' td' ht' hk hmem => ?_,fun hkernel hfits hrepeats d => ?_⟩
  · rw [hsplit] at hmem
    rw [hreads]
    rcases List.mem_append.mp hmem with hmem | hmem
    · obtain ⟨ev,hev,heq⟩ := h.covered d t hmem
      exact ⟨ev,List.mem_append_left _ hev,heq⟩
    · obtain ⟨e,he,hd,_⟩ := mem_timesOf.mp hmem
      rw [if_pos ((hown e he).symm.trans hd)]
      exact ⟨te.ev,List.mem_append_right _ (List.mem_singleton_self _),eq_of_mem_timesOf hstamp hmem⟩
  · rw [hsplit]
    rcases World.tracked_set ht' with ⟨_,heq⟩ | ⟨_,ht'⟩
    · obtain rfl := Option.some.inj heq
      rw [show (TrackedDevice.observeEvent cfg typing (td,live) te).1.1.libDevice = td.libDevice from
        TrackedDevice.libDevice_of_identity
          (TrackedDevice.processEvent_identity cfg typing (td,live) te)]
      rcases TrackedDevice.processEvent_heldKeys cfg typing (td,live) te hk hmem with hold | hnew
      · exact List.mem_append_left _ (h.held fd td ht hk hold)
      · exact List.mem_append_right _ hnew
    · exact List.mem_append_left _ (h.held fd' td' ht' hk hmem)
  · rw [hsplit]
    refine List.pairwise_append.mpr ⟨h.ordered hkernel.of_append hfits.of_append
      (atEach_append.mp hrepeats).1 d,?_,fun t hold t' hnew => ?_⟩
    · refine List.pairwise_of_forall_mem_list fun t ht t' ht' => ?_
      rw [eq_of_mem_timesOf hstamp ht,eq_of_mem_timesOf hstamp ht']
    · obtain ⟨e,he,hd,_⟩ := mem_timesOf.mp hnew
      obtain ⟨ev,hev,rfl⟩ := h.covered d t hold
      have hsorted := hkernel d
      have hfit := hfits d te.ev
      rw [hreads,if_pos ((hown e he).symm.trans hd)] at hsorted hfit
      rw [eq_of_mem_timesOf hstamp hnew]
      apply systimeToUsec_mono
      · rw [List.map_append] at hsorted
        exact (List.pairwise_append.mp hsorted).2.2 _ (List.mem_map_of_mem hev) _
          (List.mem_singleton_self _)
      · exact hfit (List.mem_append_right _ (List.mem_singleton_self _))

/-- Every tick keeps the times accounted for. -/
theorem tick (h : Stamped out w) (ht : Tick w o w') : Stamped (out ++ o) w' := by
  cases ht.kind with
  | silent o w' hsilent htracked hdevices =>
    refine h.quiet (fun d => ?_) fun fd td' ht' => .inr (htracked ▸ ht')
    rw [produced_of_silent hsilent]
    rfl
  | admitted fd device path hnone =>
    refine h.quiet (fun d => ?_) fun fd' td' ht' => ?_
    · rw [produced_admission]
      exact timesOf_eq_nil d (by simp)
    · rcases World.tracked_set ht' with ⟨_,heq⟩ | ⟨_,ht'⟩
      · obtain rfl := Option.some.inj heq
        exact .inl rfl
      · exact .inr ht'
  | repeats fd td now htd => exact h.repeats now htd
  | event fd td cfg typing live te htd => exact h.event cfg typing live te htd
  | removed fd td htd =>
    refine h.quiet (fun d => ?_) fun fd' td' ht' => ?_
    · rw [produced_removal]
      exact timesOf_eq_nil d (by simp)
    · rcases World.tracked_set ht' with ⟨_,heq⟩ | ⟨_,ht'⟩
      · cases heq
      · exact .inr ht'

theorem ticks (h : Stamped out w) (ht : Ticks w o w') : Stamped (out ++ o) w' :=
  ht.history (fun o w => Stamped (out ++ o) w)
    (fun o₁ _ o₂ _ hI htick => List.append_assoc out o₁ o₂ ▸ hI.tick htick)
    ((List.append_nil out).symm ▸ h)

end Stamped

/-- The key is due to repeat. -/
def HeldKey.Due (now : Instant) (hk : HeldKey) : Prop := hk.delay ≤ hk.lastFire.elapsed now

instance (now : Instant) (hk : HeldKey) : Decidable (hk.Due now) :=
  inferInstanceAs (Decidable (_ ≤ _))

namespace TrackedDevice

/-- What the repeat pass queues for a device are the repeats of its keys that are due. -/
theorem mem_emitKeyRepeats {now : Instant} {td : TrackedDevice F D} {e : LibinputEvent D} :
    e ∈ (td.emitKeyRepeats now).2 ↔ td.isKeyboard = true ∧
      ∃ hk ∈ td.heldKeys, hk.Due now ∧ e = .key td.libDevice hk.tsUsec hk.code 2 := by
  unfold emitKeyRepeats
  by_cases hkey : td.isKeyboard = true
  · simp only [hkey,Bool.not_true,Bool.false_eq_true,if_false,List.mem_flatMap,true_and]
    refine exists_congr fun hk => and_congr_right fun _ => ?_
    unfold HeldKey.fire HeldKey.Due
    split_ifs with hdue <;> simp [hdue]
  · simp [hkey]

/-- After the repeat pass no key is due. -/
theorem emitKeyRepeats_not_due (now : Instant) (td : TrackedDevice F D)
    (hkey : td.isKeyboard = true) :
    ∀ hk ∈ (td.emitKeyRepeats (D := D) now).1.heldKeys, ¬ hk.Due now := by
  intro hk hmem
  unfold emitKeyRepeats at hmem
  simp only [hkey,Bool.not_true,Bool.false_eq_true,if_false] at hmem
  obtain ⟨hk₀,_,rfl⟩ := List.mem_map.mp hmem
  unfold HeldKey.fire HeldKey.Due
  split_ifs with hdue
  · simp [HeldKey.delay,Instant.elapsed,fromMillis,repeatIntervalMs]
  · exact hdue

end TrackedDevice

namespace LibinputContext

/-- The keys that are due have presses that are not older than what their devices queued. -/
def RepeatsCurrent (now : Instant) (out : List (Obs F D)) (ctx : LibinputContext F D) : Prop :=
  ∀ fd td, ctx.tracked fd = some td → td.isKeyboard = true → ∀ hk ∈ td.heldKeys, hk.Due now →
    ∀ t ∈ timesOf td.libDevice (produced out), t ≤ hk.tsUsec

instance (now : Instant) (out : List (Obs F D)) (ctx : LibinputContext F D) :
    Decidable (ctx.RepeatsCurrent now out) :=
  decidable_of_iff (∀ fd ∈ ctx.backend.devices.keys, ∀ td ∈ ctx.tracked fd, td.isKeyboard = true →
      ∀ hk ∈ td.heldKeys, hk.Due now → ∀ t ∈ timesOf td.libDevice (produced out), t ≤ hk.tsUsec) <| by
    refine ⟨fun h fd td ht => h fd ?_ td ht,fun h fd _ td ht => h fd td ht⟩
    rw [mem_keys_iff,ht]
    rfl

/-- The state in which the repeat pass keeps the times in order. -/
structure RepeatReady (now : Instant) (out : List (Obs F D)) (ctx : LibinputContext F D) : Prop where
  wellFormed : ctx.view.WellFormed
  stamped : Stamped out ctx.view
  current : ctx.RepeatsCurrent now out

namespace RepeatReady
variable {now : Instant} {out : List (Obs F D)} {ctx : LibinputContext F D}

/-- The repeats of one device come in order. -/
theorem atEach (h : ctx.RepeatReady now out) {fd : RawFd} {td : TrackedDevice F D}
    (ht : ctx.tracked fd = some td) : AtEach (fun front => RepeatInOrder (out ++ front))
      ((td.emitKeyRepeats now).2.map .queued) := by
  intro front o back heq
  obtain ⟨es,rest,hes,hfront,hrest⟩ := List.map_eq_append_iff.mp heq
  obtain ⟨e,es',rfl,rfl,_⟩ := List.map_eq_cons_iff.mp hrest
  have hmem : e ∈ (td.emitKeyRepeats now).2 := hes ▸ List.mem_append_right _ List.mem_cons_self
  obtain ⟨hkey,hk,hheld,hdue,rfl⟩ := TrackedDevice.mem_emitKeyRepeats.mp hmem
  intro t ht' t' hbefore
  obtain rfl := Option.some.inj ht'
  rw [← hfront,produced_append,produced_map_queued,timesOf_append] at hbefore
  rcases List.mem_append.mp hbefore with hbefore | hbefore
  · exact h.current fd td ht hkey hk hheld hdue t' hbefore
  · -- an earlier repeat of the pass: its time is that of a press, queued long before
    obtain ⟨e',he',_,htime⟩ := mem_timesOf.mp hbefore
    obtain ⟨_,hk',hheld',_,rfl⟩ :=
      TrackedDevice.mem_emitKeyRepeats.mp (hes ▸ List.mem_append_left _ he' : e' ∈ _)
    obtain rfl := Option.some.inj htime
    exact h.current fd td ht hkey hk hheld hdue _ (h.stamped.held fd td ht hk' hheld')

variable [F32 F] [F64 D] [FloatCast F D]

/-- The pass over one device leaves the others ready, and none of its own keys due. -/
theorem turn (h : ctx.RepeatReady now out) (fd : RawFd) :
    AtEach (fun front => RepeatInOrder (out ++ front)) (repeatDevice now ctx fd).2 ∧
      (repeatDevice now ctx fd).1.RepeatReady now (out ++ (repeatDevice now ctx fd).2) := by
  have hticks := (repeatDevice_turns now ctx fd).ticks
  suffices hboth : AtEach (fun front => RepeatInOrder (out ++ front)) (repeatDevice now ctx fd).2 ∧
      (repeatDevice now ctx fd).1.RepeatsCurrent now (out ++ (repeatDevice now ctx fd).2) from
    ⟨hboth.1,hticks.wellFormed h.wellFormed,h.stamped.ticks hticks,hboth.2⟩
  unfold LibinputContext.repeatDevice
  cases ht : ctx.tracked fd with
  | none => exact ⟨atEach_nil,by simpa using h.current⟩
  | some td =>
    refine ⟨h.atEach ht,fun fd' td' ht' hkey hk hmem hdue t htime => ?_⟩
    rw [setTracked_tracked] at ht'
    rcases DeviceTable.update_cases ht' with ⟨_,heq⟩ | ⟨hne,ht'⟩
    · obtain rfl := Option.some.inj heq
      have hkeyboard : td.isKeyboard = true :=
        (congrArg (·.2.2.2.1) (td.emitKeyRepeats_identity (D := D) now)).symm.trans hkey
      exact absurd hdue (td.emitKeyRepeats_not_due now hkeyboard hk hmem)
    · have hother : td'.libDevice ≠ td.libDevice := h.wellFormed.libDevice_ne ht ht' hne
      rw [produced_append,produced_map_queued,timesOf_append] at htime
      have hnil : timesOf td'.libDevice (td.emitKeyRepeats now).2 = ([] : List ℕ) := by
        refine timesOf_of_device_ne (fun e he => ?_) hother.symm
        obtain ⟨_,_,_,_,rfl⟩ := TrackedDevice.mem_emitKeyRepeats.mp he
        rfl
      rw [hnil,List.append_nil] at htime
      exact h.current fd' td' ht' hkey hk hmem hdue t htime

/-- So does the whole repeat pass. -/
theorem pass (fds : List RawFd) (h : ctx.RepeatReady now out) :
    AtEach (fun front => RepeatInOrder (out ++ front)) (run (repeatDevice now) ctx fds).2 := by
  induction fds generalizing ctx out with
  | nil => exact atEach_nil
  | cons fd fds ih =>
    obtain ⟨hfirst,hready⟩ := h.turn fd
    rw [run_cons,atEach_append]
    refine ⟨hfirst,?_⟩
    simpa only [List.append_assoc] using ih hready

/-- The hotplug pass adds no key and no time. -/
theorem hotplug (h : ctx.RepeatReady now out) (inotify : Option (List InotifyEvent)) :
    (ctx.handleHotplug inotify).1.RepeatReady now (out ++ (ctx.handleHotplug inotify).2) := by
  have hticks := (handleHotplug_turns ctx inotify).ticks
  refine ⟨hticks.wellFormed h.wellFormed,h.stamped.ticks hticks,?_⟩
  intro fd td ht hkey hk hmem hdue t htime
  have hnil : timesOf td.libDevice (produced (ctx.handleHotplug inotify).2) = [] := by
    apply timesOf_eq_nil
    intro e he
    obtain ⟨d,rfl⟩ := handleHotplug_added ctx inotify e he
    rfl
  rw [produced_append,timesOf_append,hnil,List.append_nil] at htime
  rcases handleHotplug_entry ctx inotify fd with hsame | ⟨_,td',hnew,hkeys,_⟩
  · exact h.current fd td (hsame ▸ ht) hkey hk hmem hdue t htime
  · obtain rfl := Option.some.inj (ht.symm.trans hnew)
    rw [hkeys] at hmem
    cases hmem

end RepeatReady

section Calls

/-- Nothing of the list is queued with a time but by a kernel event. -/
theorem atEach_of_unstamped {out o : List (Obs F D)}
    (h : ∀ e, .queued e ∈ o → e.timeUsec = none) :
    AtEach (fun front => RepeatInOrder (out ++ front)) o := by
  intro front x back heq
  cases x with
  | queued e =>
    intro t ht
    rw [h e (heq ▸ List.mem_append_right _ List.mem_cons_self)] at ht
    cases ht
  | fd a => trivial
  | delivered e => trivial
  | processed p => trivial

theorem mem_produced_of_queued {o : List (Obs F D)} {e : LibinputEvent D}
    (h : .queued e ∈ o) : e ∈ produced o :=
  List.mem_flatMap.mpr ⟨_,h,List.mem_singleton_self _⟩

/-- Additions have no time. -/
theorem unstamped_of_added {o : List (Obs F D)} (h : ∀ e ∈ produced o, ∃ d, e = .added d) :
    ∀ e, .queued e ∈ o → e.timeUsec = none := by
  intro e he
  obtain ⟨d,rfl⟩ := h e (mem_produced_of_queued he)
  rfl

variable [F32 F] [F64 D] [FloatCast F D]

theorem drainDevice_unstamped (fetch : RawFd → Fetch) (s : LibinputContext F D × List RawFd)
    (fd : RawFd) : ∀ e, .queued e ∉ (drainDevice fetch s fd).2 := by
  intro e he
  unfold drainDevice at he
  cases ht : s.1.tracked fd with
  | none => simp [ht] at he
  | some td =>
    rw [ht] at he
    cases hfetch : fetch fd <;> simp only [hfetch,List.not_mem_nil] at he
    obtain ⟨_,te,_,_,hmem⟩ := (mem_run_iff _ _ _ _).mp he
    exact nomatch List.mem_singleton.mp hmem

omit [F32 F] [F64 D] [FloatCast F D] in
theorem removeDead_unstamped (ctx : LibinputContext F D) (fd : RawFd) :
    ∀ e, .queued e ∈ (removeDead ctx fd).2 → e.timeUsec = none := by
  intro e he
  have hmem := mem_produced_of_queued he
  unfold removeDead at hmem
  cases ht : ctx.tracked fd with
  | none => simp [ht] at hmem
  | some td =>
    rw [ht] at hmem
    change e ∈ produced (.fd (.epollDel fd) :: ctx.view.closed fd ++
      [.queued (.removed td.libDevice),.fd (.dropped fd)]) at hmem
    rw [produced_removal,List.mem_singleton] at hmem
    rw [hmem]
    rfl

/-- A dispatch whose due keys are current repeats them in order. -/
theorem dispatch_inOrder {ctx : LibinputContext F D} {out : List (Obs F D)} (inp : Dispatch)
    (h : ctx.RepeatReady inp.now out) :
    AtEach (fun front => RepeatInOrder (out ++ front)) (ctx.drainIntoQueue inp).2 := by
  unfold drainIntoQueue
  extract_lets hotplug fds repeats events removals
  have hrepeats := (h.hotplug inp.inotify).pass fds
  simp only [atEach_append,← List.append_assoc]
  refine ⟨⟨⟨?_,hrepeats⟩,?_⟩,?_⟩
  · exact atEach_of_unstamped (unstamped_of_added (handleHotplug_added ctx inp.inotify))
  · apply atEach_of_unstamped
    intro e he
    obtain ⟨_,fd,_,_,hmem⟩ := (mem_run_iff _ _ _ _).mp he
    exact absurd hmem (drainDevice_unstamped _ _ fd e)
  · apply atEach_of_unstamped
    intro e he
    obtain ⟨_,fd,_,_,hmem⟩ := (mem_run_iff _ _ _ _).mp he
    exact removeDead_unstamped _ fd e hmem

/-- Every due key is repeated by the dispatch. -/
theorem due_repeated {ctx : LibinputContext F D} (inp : Dispatch) {fd : RawFd}
    {td : TrackedDevice F D} (ht : ctx.tracked fd = some td) (hkey : td.isKeyboard = true)
    {hk : HeldKey} (hmem : hk ∈ td.heldKeys) (hdue : hk.Due inp.now) :
    .key td.libDevice hk.tsUsec hk.code 2 ∈ produced (ctx.drainIntoQueue inp).2 := by
  have hentry : (ctx.handleHotplug inp.inotify).1.tracked fd = some td :=
    handleHotplug_kept ctx inp.inotify ht
  unfold drainIntoQueue
  extract_lets hotplug fds repeats events removals
  have hfd : fd ∈ fds := by
    rw [mem_iterationOrder,mem_keys_iff,hentry]
    rfl
  obtain ⟨front,back,hfds,hnot⟩ := List.eq_append_cons_of_mem hfd
  have hout : .queued (.key td.libDevice hk.tsUsec hk.code 2) ∈ repeats.2 := by
    refine (mem_run_iff _ _ _ _).mpr ⟨front,fd,back,hfds,?_⟩
    have hstill := (repeats_frame_entry inp.now hotplug.1 hnot).trans hentry
    have hturn : (repeatDevice inp.now (run (repeatDevice inp.now) hotplug.1 front).1 fd).2 =
        (td.emitKeyRepeats inp.now).2.map .queued := by
      rw [repeatDevice,hstill]
    rw [hturn]
    exact List.mem_map_of_mem (TrackedDevice.mem_emitKeyRepeats.mpr ⟨hkey,hk,hmem,hdue,rfl⟩)
  apply mem_produced_of_queued
  exact List.mem_append_left _ (List.mem_append_left _ (List.mem_append_right _ hout))

/-- At a dispatch, the keys that are due have presses that are not older than what their devices
queued. -/
def DueCurrent (ctx : LibinputContext F D) (before : List (Call D)) : Call D → Prop
  | .dispatch inp => (ctx.runCalls before).1.RepeatsCurrent inp.now (ctx.runCalls before).2
  | _ => True

theorem runCalls_stamped (interface : LibinputInterface) (inotify : Bool) (calls : List (Call D)) :
    Stamped ((new (F := F) interface inotify).runCalls calls).2
      ((new (F := F) interface inotify).runCalls calls).1.view := by
  have hnew : Stamped [] (new (F := F) (D := D) interface inotify).view := by
    refine ⟨fun d t ht => ?_,fun fd td ht => ?_,fun _ _ _ d => List.Pairwise.nil⟩
    · cases ht
    · cases ht
  exact hnew.ticks (runCalls_ticks (new interface inotify) calls)

/-- What a call queues after a run is in order when the keys due at it are current. -/
theorem call_inOrder (interface : LibinputInterface) (inotify : Bool) (before : List (Call D))
    (c : Call D) (h : (new (F := F) interface inotify).DueCurrent before c) :
    AtEach (fun front => RepeatInOrder
        (((new (F := F) interface inotify).runCalls before).2 ++ front))
      (((new (F := F) interface inotify).runCalls before).1.call c).2 := by
  cases c with
  | assignSeat seatName nodes =>
    exact atEach_of_unstamped (unstamped_of_added (produced_openAll_added _ nodes))
  | addDevice path r =>
    apply atEach_of_unstamped (unstamped_of_added fun e he => ?_)
    rcases produced_tryOpen ((new (F := F) interface inotify).runCalls before).1 path r with
      ⟨_,hnil⟩ | ⟨_,hone⟩
    · cases hnil ▸ he
    · exact ⟨_,List.mem_singleton.mp (hone ▸ he)⟩
  | dispatch inp =>
    exact dispatch_inOrder inp ⟨runCalls_wellFormed interface inotify before,
      runCalls_stamped interface inotify before,h⟩
  | removeDevice d => exact atEach_nil
  | nextEventType => exact atEach_nil
  | configure d setting => exact atEach_nil
  | getEvent =>
    apply atEach_of_unstamped
    intro e he
    unfold call at he
    dsimp only at he
    split at he <;> simp at he

/-- Along a run whose due keys are current at every dispatch, the backend repeats in order. -/
theorem runCalls_inOrder (interface : LibinputInterface) (inotify : Bool) (calls : List (Call D))
    (h : AtEach (new (F := F) interface inotify).DueCurrent calls) :
    AtEach RepeatInOrder ((new (F := F) interface inotify).runCalls calls).2 := by
  induction calls using List.reverseRecOn with
  | nil => exact atEach_nil
  | append_singleton calls c ih =>
    rw [runCalls,run_append,run_singleton]
    exact atEach_append.mpr ⟨ih (atEach_append.mp h).1,
      call_inOrder interface inotify calls c (h calls c [] rfl)⟩

/-- In every run with ordered times that fit into 64 bits, the times queued for each device are
ordered exactly when, at every dispatch, the keys due to repeat have presses that are not older than
what was queued for their devices. -/
theorem timesOrdered_iff_dueCurrent (interface : LibinputInterface) (inotify : Bool)
    (calls : List (Call D))
    (hreads : ReadsOrdered ((new (F := F) interface inotify).runCalls calls).2)
    (hfits : KernelFits ((new (F := F) interface inotify).runCalls calls).2) :
    TimesOrdered ((new (F := F) interface inotify).runCalls calls).2 ↔
      AtEach (new (F := F) interface inotify).DueCurrent calls := by
  constructor
  · intro h before c back heq
    cases c with
    | dispatch inp =>
      intro fd td ht hkey hk hmem hdue t htime
      have hrepeat := due_repeated inp ht hkey hmem hdue
      have hordered := h td.libDevice
      rw [heq,runCalls,run_append,run_cons,produced_append,produced_append,timesOf_append,
        timesOf_append] at hordered
      apply (List.pairwise_append.mp hordered).2.2 t htime
      exact List.mem_append_left _ (mem_timesOf.mpr ⟨_,hrepeat,rfl,rfl⟩)
    | _ => trivial
  · exact fun h => (runCalls_stamped interface inotify calls).ordered hreads hfits
      (runCalls_inOrder interface inotify calls h)

/-- In every run over ordered kernel timestamps that fit into 64 bits, where what evdev makes up for
dropped events is in place, the times queued for each device are ordered exactly when, at every
dispatch, the keys due to repeat have presses that are not older than what was queued for their
devices. -/
theorem times_ordered_iff (interface : LibinputInterface) (inotify : Bool) (calls : List (Call D))
    (fetches : DevicePtr → List FetchCall)
    (hread : ReadThrough fetches ((new (F := F) interface inotify).runCalls calls).2)
    (hkernel : KernelOrdered fetches)
    (hfits : KernelFits ((new (F := F) interface inotify).runCalls calls).2)
    (hplace : ∀ d, CompensationInPlace (SyncStream.returned (fetches d))) :
    TimesOrdered ((new (F := F) interface inotify).runCalls calls).2 ↔
      AtEach (new (F := F) interface inotify).DueCurrent calls :=
  timesOrdered_iff_dueCurrent interface inotify calls (hread.readsOrdered hkernel hplace) hfits

/-- A key is held alone and repeats, on a device whose evdev makes up for dropped events in time. -/
theorem held_key_repeats_in_order :
    TimesOrdered ((new (F := ℚ) (D := ℚ) ⟨true,true⟩ false).runCalls
      [.addDevice "/dev/input/event3" ⟨5,some plainKeyboard⟩,
        .dispatch ⟨none,0,[],fun _ => .batch []⟩,
        .dispatch ⟨none,0,[],fun _ => .batch [⟨⟨3,.synchronization,0,0⟩,0⟩,
          ⟨⟨4,.key,KeyCode.keyA,1⟩,0⟩,⟨⟨4,.synchronization,0,0⟩,0⟩]⟩,
        .dispatch ⟨none,fromMillis 200,[],fun _ => .wouldBlock⟩]).2 := by
  let dropped : List InputEvent := [⟨1,.synchronization,3,0⟩,⟨2,.synchronization,0,0⟩]
  let press : List InputEvent := [⟨4,.key,KeyCode.keyA,1⟩,⟨4,.synchronization,0,0⟩]
  let fetched : List FetchCall := [⟨0,none,some dropped⟩,⟨3,some [],some press⟩]
  apply (times_ordered_iff ⟨true,true⟩ false _ (Function.update (fun _ => []) 0 fetched)
    (ReadThrough.update (by decide +kernel) (by decide +kernel))
    (forall_update_fetches FreshOrdered (by decide) (by decide +kernel)) (by decide +kernel)
    (forall_update_fetches (fun calls => CompensationInPlace (SyncStream.returned calls))
      (by decide) (by decide +kernel))).mpr
  refine atEach_cons.mpr ⟨trivial,atEach_cons.mpr ⟨?_,atEach_cons.mpr ⟨?_,
    atEach_cons.mpr ⟨?_,atEach_nil⟩⟩⟩⟩
  all_goals
    change RepeatsCurrent _ _ _
    decide +kernel

/-- A second key is pressed while the first is held; the first repeats with the time of its
press, which is before that of the second. -/
theorem overtaken_key_repeats_out_of_order :
    let run := (new (F := ℚ) (D := ℚ) ⟨true,true⟩ false).runCalls
      [.addDevice "/dev/input/event3" ⟨5,some plainKeyboard⟩,
        .dispatch ⟨none,0,[],fun _ => .batch [⟨⟨1,.key,KeyCode.keyA,1⟩,0⟩,
          ⟨⟨1,.synchronization,0,0⟩,0⟩,⟨⟨2,.key,KeyCode.keyR,1⟩,fromMillis 1⟩,
          ⟨⟨2,.synchronization,0,0⟩,fromMillis 1⟩]⟩,
        .dispatch ⟨none,fromMillis 200,[],fun _ => .wouldBlock⟩]
    let fetches : DevicePtr → List FetchCall := Function.update (fun _ => []) 0
      [⟨0,none,some [⟨1,.key,KeyCode.keyA,1⟩,⟨1,.synchronization,0,0⟩,⟨2,.key,KeyCode.keyR,1⟩,
        ⟨2,.synchronization,0,0⟩]⟩]
    ReadThrough fetches run.2 ∧ KernelOrdered fetches ∧ KernelFits run.2 ∧ ¬ TimesOrdered run.2 :=
  ⟨ReadThrough.update (by decide +kernel) (by decide +kernel),
    forall_update_fetches FreshOrdered (by decide) (by decide +kernel),by decide +kernel,
    by decide +kernel⟩

-- A press of R is dropped; evdev makes it up with the time 9, ahead of a stroke of A at 2 and 3.
example :
    let dropped : List InputEvent := [⟨1,.synchronization,3,0⟩,⟨1,.synchronization,0,0⟩,
      ⟨2,.key,KeyCode.keyA,1⟩,⟨2,.synchronization,0,0⟩]
    let fetches : List FetchCall := [⟨0,none,some dropped⟩,⟨9,some [(.key,KeyCode.keyR,1)],
      some [⟨3,.key,KeyCode.keyA,0⟩,⟨3,.synchronization,0,0⟩]⟩]
    let read := (SyncStream.returned fetches).map SyncedEvent.ev
    let run := (new (F := ℚ) (D := ℚ) ⟨true,true⟩ false).runCalls
      [.addDevice "/dev/input/event3" ⟨5,some plainKeyboard⟩,
        .dispatch ⟨none,0,[],fun _ => .batch (read.map (⟨·,0⟩))⟩]
    FreshOrdered fetches ∧ LibinputRs.reads 0 run.2 = read ∧
      timesOf 0 (produced run.2) = [9,2,3] := by
  decide +kernel

end Calls
end LibinputContext
end LibinputRs
