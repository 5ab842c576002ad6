import LibinputRs.Library.DeviceTurns
import LibinputRs.Library.TypingVerdict

/-! The order in which the device map is iterated. Every loop of a dispatch works on the entries
of the map one by one; the one thing the entries share is the typing time, which a keyboard
writes and a touchpad reads. -/
namespace LibinputRs
open Automata

variable {F D : Type}

/-- A key press, as the typing time sees it. -/
def TimedEvent.IsPress (te : TimedEvent) : Prop := te.ev.eventType = .key ∧ te.ev.value = 1

instance : DecidablePred TimedEvent.IsPress := fun _ => inferInstanceAs (Decidable (_ ∧ _))

/-- The batch of a plain keyboard contains a key press. -/
def TrackedDevice.Types (td : TrackedDevice F D) (events : List TimedEvent) : Prop :=
  (td.isKeyboard = true ∧ td.isAbsolute = false) ∧ ∃ te ∈ events, te.IsPress

variable [F32 F] [F64 D] [FloatCast F D]

namespace TrackedDevice

/-- An absolute device reads typing only through the verdict, and leaves it alone. -/
theorem batch_absolute (cfg : Settings F) (typing live : Option Instant)
    (td : TrackedDevice F D) (habs : td.isAbsolute = true) {t : Instant}
    {events : List TimedEvent} (hclock : ∀ te ∈ events, te.now = t) :
    td.batch cfg typing live events =
      td.touchBatch cfg (dwtActive cfg.cfgDwt typing t) events := by
  induction events generalizing td with
  | nil => rfl
  | cons te events ih =>
    have hnow : te.now = t := hclock te List.mem_cons_self
    have hfirst : processEvent cfg typing (td,live) te =
        (((td.processAbsoluteEvent te cfg.cfgTap cfg.cfgNat cfg.cfgAccel
          (dwtActive cfg.cfgDwt typing t)).1,live),
        (td.processAbsoluteEvent te cfg.cfgTap cfg.cfgNat cfg.cfgAccel
          (dwtActive cfg.cfgDwt typing t)).2) := by
      simp [processEvent,habs,hnow]
    have hsame : (td.processAbsoluteEvent te cfg.cfgTap cfg.cfgNat cfg.cfgAccel
        (dwtActive cfg.cfgDwt typing t)).1.isAbsolute = true :=
      (congrArg (·.2.2.1) (processAbsoluteEvent_step te _ _ _ _ td).identity).trans habs
    rw [batch_cons,hfirst]
    simp only
    rw [ih _ hsame fun te' hte' => hclock te' (List.mem_cons_of_mem _ hte')]
    rfl

/-- The typing time after an event: a press on a plain keyboard sets it, nothing else does. -/
theorem processEvent_typing (cfg : Settings F) (typing live : Option Instant)
    (td : TrackedDevice F D) (te : TimedEvent) :
    (((td.isKeyboard = true ∧ td.isAbsolute = false) ∧ te.IsPress) ∧
        (processEvent cfg typing (td,live) te).1.2 = some te.now) ∨
      (¬ ((td.isKeyboard = true ∧ td.isAbsolute = false) ∧ te.IsPress) ∧
        (processEvent cfg typing (td,live) te).1.2 = live) := by
  rcases processEvent_cases cfg typing (td,live) te with
    ⟨hkbd,habs,heq⟩ | ⟨hkbd,_,_,heq⟩ | ⟨habs,dwt,_,heq⟩ | ⟨hkbd,_,_,heq⟩ <;> rw [heq]
  · rcases td.processKeyboardEvent_cases te live with
      ⟨hkey,hvalue,h⟩ | ⟨hkey,hvalue,h⟩ | ⟨hno,h⟩ <;> rw [h]
    · exact .inl ⟨⟨⟨hkbd,habs⟩,hkey,hvalue⟩,rfl⟩
    · exact .inr ⟨fun hpress => by simp [TimedEvent.IsPress,hvalue] at hpress,rfl⟩
    · exact .inr ⟨fun hpress => hno ⟨hpress.2.1,.inl hpress.2.2⟩,rfl⟩
  · exact .inr ⟨fun hpress => Bool.noConfusion (hkbd.symm.trans hpress.1.1),rfl⟩
  · exact .inr ⟨fun hpress => Bool.noConfusion (hpress.1.2.symm.trans habs),rfl⟩
  · exact .inr ⟨fun hpress => Bool.noConfusion (hkbd.symm.trans hpress.1.1),rfl⟩

/-- The typing time after a batch: a press on a plain keyboard sets it, nothing else does. -/
theorem batch_typing (cfg : Settings F) (typing live : Option Instant) (td : TrackedDevice F D)
    {t : Instant} {events : List TimedEvent} (hclock : ∀ te ∈ events, te.now = t) :
    (td.Types events ∧ (run (observeEvent cfg typing) (td,live) events).1.2 = some t) ∨
      (¬ td.Types events ∧ (run (observeEvent cfg typing) (td,live) events).1.2 = live) := by
  induction events generalizing td live with
  | nil => exact .inr ⟨by simp [Types],rfl⟩
  | cons te events ih =>
    have hid := processEvent_identity cfg typing (td,live) te
    have hkind : (processEvent cfg typing (td,live) te).1.1.Types events ↔ td.Types events := by
      simp only [identity,Prod.mk.injEq] at hid
      simp only [Types,hid.2.2.1,hid.2.2.2.1]
    have hcons : td.Types (te :: events) ↔
        ((td.isKeyboard = true ∧ td.isAbsolute = false) ∧ te.IsPress) ∨ td.Types events := by
      simp only [Types,List.mem_cons,exists_eq_or_imp,and_or_left]
    have hfirst := td.processEvent_typing cfg typing live te
    rw [hclock te List.mem_cons_self] at hfirst
    have hrest := ih (processEvent cfg typing (td,live) te).1.2
      (processEvent cfg typing (td,live) te).1.1 fun te' hte' => hclock te' (List.mem_cons_of_mem _ hte')
    rw [run_cons,hcons]
    change _ ∧ (run (observeEvent cfg typing) (processEvent cfg typing (td,live) te).1 events).1.2 =
      some t ∨ _ ∧ (run (observeEvent cfg typing) (processEvent cfg typing (td,live) te).1 events).1.2 =
      live
    rw [hkind] at hrest
    rcases hrest with ⟨htypes,hlast⟩ | ⟨hnone,hlast⟩
    · exact .inl ⟨.inr htypes,hlast⟩
    · rcases hfirst with ⟨hpress,htime⟩ | ⟨hpress,htime⟩
      · exact .inl ⟨.inl hpress,hlast.trans htime⟩
      · exact .inr ⟨fun h => h.elim hpress hnone,hlast.trans htime⟩

end TrackedDevice

namespace LibinputContext

section Loops
variable {ctx : LibinputContext F D}

/-- The clock stands still: every event of every batch is processed at the given instant. -/
def ClockAt (fetch : RawFd → Fetch) (t : Instant) : Prop :=
  ∀ fd events, fetch fd = .batch events → ∀ te ∈ events, te.now = t

/-- Some plain keyboard has a key press pending. -/
def PressPending (base : DeviceTable F D) (fetch : RawFd → Fetch) : Prop :=
  ∃ fd td events, base fd = some td ∧ fetch fd = .batch events ∧ td.Types events

/-- What the device loop keeps: the devices, their settings, and a typing time that is the one
before the loop or, when a press was pending, the instant of the call. -/
structure DrainInv (base : DeviceTable F D) (devices : List (LibinputDevice F D))
    (before : Option Instant) (fetch : RawFd → Fetch) (t : Instant)
    (s : LibinputContext F D × List RawFd) : Prop where
  shrinks : base.Shrinks s.1.tracked
  devices : s.1.devices = devices
  typing : s.1.backend.globalTypingTime = before ∨
    (PressPending base fetch ∧ s.1.backend.globalTypingTime = some t)

omit [F32 F] [F64 D] [FloatCast F D] in
theorem types_of_shrinks {base t : DeviceTable F D} (h : base.Shrinks t) {fd : RawFd}
    {td : TrackedDevice F D} (ht : t fd = some td) {events : List TimedEvent}
    (htypes : td.Types events) : ∃ td₀, base fd = some td₀ ∧ td₀.Types events := by
  obtain ⟨td₀,h₀,hid⟩ := h fd td ht
  simp only [TrackedDevice.identity,Prod.mk.injEq] at hid
  refine ⟨td₀,h₀,?_⟩
  simpa only [TrackedDevice.Types,hid.2.2.1,hid.2.2.2.1] using htypes

theorem DrainInv.step {base : DeviceTable F D} {devices : List (LibinputDevice F D)}
    {before : Option Instant} {fetch : RawFd → Fetch} {t : Instant} (hclock : ClockAt fetch t)
    {s : LibinputContext F D × List RawFd} (h : DrainInv base devices before fetch t s)
    (fd : RawFd) : DrainInv base devices before fetch t (drainDevice fetch s fd).1 := by
  refine ⟨h.shrinks.trans (drainDevice_shrinks fetch s fd),
    (drainDevice_devices fetch s fd).trans h.devices,?_⟩
  by_cases hbatch : ∃ td events, s.1.tracked fd = some td ∧ fetch fd = .batch events
  · obtain ⟨td,events,ht,hfetch⟩ := hbatch
    rw [(drainDevice_batch fetch s ht hfetch).2.2.1]
    rcases td.batch_typing (s.1.settings td.libDevice) s.1.backend.globalTypingTime
      s.1.backend.globalTypingTime (hclock fd events hfetch) with ⟨htypes,heq⟩ | ⟨_,heq⟩
    · obtain ⟨td₀,h₀,htypes⟩ := types_of_shrinks h.shrinks ht htypes
      exact .inr ⟨⟨fd,td₀,events,h₀,hfetch,htypes⟩,heq⟩
    · rw [heq]
      exact h.typing
  · rw [(drainDevice_nobatch fetch s fun td events ht hfetch => hbatch ⟨td,events,ht,hfetch⟩).1]
    exact h.typing

/-- The device loop works on the entries one by one, and keeps what it keeps. -/
theorem DrainInv.cellLoop {base : DeviceTable F D} {devices : List (LibinputDevice F D)}
    {before : Option Instant} {fetch : RawFd → Fetch} {t : Instant} (hclock : ClockAt fetch t)
    {d : DevicePtr} {k : RawFd} (hd : OwnedBy base d k) :
    CellLoop (fun s : LibinputContext F D × List RawFd => s.1.tracked) (drainDevice fetch)
      (deviceView d) (DrainInv base devices before fetch t) k :=
  (drainDevice_cellLoop base fetch hd).strengthen (fun _ h => h.shrinks)
    fun _ fd h => h.step hclock fd

/-- The typing window is open as far as an enabled device is concerned. -/
def windowOpen (typing : Option Instant) (t : Instant) : Bool := dwtActive true typing t

/-- The order of the device loop cannot be seen: no press is pending, or the typing window is
open anyway, or it has nothing to hide of the batches of the absolute devices. -/
def OrderSafe (ctx : LibinputContext F D) (fetch : RawFd → Fetch) (t : Instant) : Prop :=
  PressPending ctx.tracked fetch → windowOpen ctx.backend.globalTypingTime t = false →
    ∀ fd td events, ctx.tracked fd = some td → td.isAbsolute = true → fetch fd = .batch events →
      (ctx.settings td.libDevice).cfgDwt = true →
        td.pad.Indifferent (ctx.settings td.libDevice) events

theorem OrderSafe.touchBatch {ctx : LibinputContext F D} {fetch : RawFd → Fetch} {t : Instant}
    (h : ctx.OrderSafe fetch t) {fd : RawFd} {td : TrackedDevice F D} {events : List TimedEvent}
    (ht : ctx.tracked fd = some td) (habs : td.isAbsolute = true)
    (hfetch : fetch fd = .batch events) {typing : Option Instant}
    (htyping : typing = ctx.backend.globalTypingTime ∨
      (PressPending ctx.tracked fetch ∧ typing = some t)) :
    td.touchBatch (ctx.settings td.libDevice)
        (dwtActive (ctx.settings td.libDevice).cfgDwt typing t) events =
      td.touchBatch (ctx.settings td.libDevice)
        (dwtActive (ctx.settings td.libDevice).cfgDwt ctx.backend.globalTypingTime t) events := by
  rcases htyping with rfl | ⟨hpending,rfl⟩
  · rfl
  cases hdwt : (ctx.settings td.libDevice).cfgDwt with
  | false => rfl
  | true =>
    have hnow : dwtActive true (some t) t = true := by
      simp [dwtActive,Instant.elapsed,fromMillis]
    rw [hnow]
    cases hwindow : dwtActive true ctx.backend.globalTypingTime t with
    | true => rfl
    | false =>
      exact (td.touchBatch_eq_iff _ events).mpr (h hpending hwindow fd td events ht habs hfetch hdwt)

/-- In safe states the turn at an entry depends on the entry only. -/
theorem drainDevice_local {ctx : LibinputContext F D} {fetch : RawFd → Fetch} {t : Instant}
    (hclock : ClockAt fetch t) (hsafe : ctx.OrderSafe fetch t) {d : DevicePtr} {k : RawFd}
    {s s' : LibinputContext F D × List RawFd}
    (h : DrainInv ctx.tracked ctx.devices ctx.backend.globalTypingTime fetch t s)
    (h' : DrainInv ctx.tracked ctx.devices ctx.backend.globalTypingTime fetch t s')
    (hcell : s.1.tracked k = ctx.tracked k) (hcell' : s'.1.tracked k = ctx.tracked k) :
    (drainDevice fetch s k).1.1.tracked k = (drainDevice fetch s' k).1.1.tracked k ∧
      deviceView d (drainDevice fetch s k).2 = deviceView d (drainDevice fetch s' k).2 := by
  by_cases hbatch : ∃ td events, ctx.tracked k = some td ∧ fetch k = .batch events
  · obtain ⟨td,events,ht,hfetch⟩ := hbatch
    obtain ⟨hstate,hout,_⟩ := drainDevice_batch fetch s (hcell.trans ht) hfetch
    obtain ⟨hstate',hout',_⟩ := drainDevice_batch fetch s' (hcell'.trans ht) hfetch
    have hsettings : s.1.settings td.libDevice = ctx.settings td.libDevice := by
      simp only [settings,libDevice,h.devices]
    have hsettings' : s'.1.settings td.libDevice = ctx.settings td.libDevice := by
      simp only [settings,libDevice,h'.devices]
    have hsame : td.batch (s.1.settings td.libDevice) s.1.backend.globalTypingTime
        s.1.backend.globalTypingTime events = td.batch (s'.1.settings td.libDevice)
        s'.1.backend.globalTypingTime s'.1.backend.globalTypingTime events := by
      cases habs : td.isAbsolute with
      | false => exact td.batch_plain _ _ _ _ _ _ habs events
      | true =>
        have hnow := hclock k events hfetch
        rw [td.batch_absolute _ _ _ habs hnow,td.batch_absolute _ _ _ habs hnow,hsettings,
          hsettings',hsafe.touchBatch ht habs hfetch h.typing,
          hsafe.touchBatch ht habs hfetch h'.typing]
    refine ⟨?_,?_⟩
    · rw [hstate,hstate',Function.update_self,Function.update_self,hsame]
    · rw [deviceView,deviceView,hout,hout',hsame]
  · have hno : ∀ td events, s.1.tracked k = some td → fetch k ≠ .batch events :=
      fun td events ht hfetch => hbatch ⟨td,events,hcell ▸ ht,hfetch⟩
    have hno' : ∀ td events, s'.1.tracked k = some td → fetch k ≠ .batch events :=
      fun td events ht hfetch => hbatch ⟨td,events,hcell' ▸ ht,hfetch⟩
    obtain ⟨hstate,hout,_⟩ := drainDevice_nobatch fetch s hno
    obtain ⟨hstate',hout',_⟩ := drainDevice_nobatch fetch s' hno'
    rw [hstate,hstate',hout,hout',hcell,hcell']
    exact ⟨rfl,rfl⟩

end Loops

section Dispatch

omit [F32 F] [F64 D] [FloatCast F D] in
/-- The repeat pass agrees with itself in any order. -/
theorem repeats_order {ctx : LibinputContext F D} (now : Instant) {fds fds' : List RawFd}
    (hfds : fds.Nodup) (hfds' : fds'.Nodup) (hmem : ∀ fd, fd ∈ fds ↔ fd ∈ fds') {d : DevicePtr}
    {k : RawFd} (hd : OwnedBy ctx.tracked d k) :
    (run (repeatDevice now) ctx fds).1.tracked k = (run (repeatDevice now) ctx fds').1.tracked k ∧
      deviceView d (run (repeatDevice now) ctx fds).2 =
        deviceView d (run (repeatDevice now) ctx fds').2 := by
  refine (repeatDevice_cellLoop ctx.tracked now hd).run_order hfds hfds' (hmem k) (.refl _) (.refl _)
    rfl fun t t' _ _ ht ht' => ?_
  refine ⟨by rw [repeatDevice_tracked,repeatDevice_tracked,ht,ht'],?_⟩
  unfold repeatDevice
  rw [ht,ht']
  cases ctx.tracked k <;> rfl

omit [F32 F] [F64 D] [FloatCast F D] in
/-- The repeat pass turns to an entry once or not at all. -/
theorem repeats_entry {ctx : LibinputContext F D} (hw : ctx.view.WellFormed) (now : Instant)
    {fds : List RawFd} (hfds : fds.Nodup) (fd : RawFd) :
    (run (repeatDevice now) ctx fds).1.tracked fd = ctx.tracked fd ∨
      (run (repeatDevice now) ctx fds).1.tracked fd =
        (ctx.tracked fd).map fun td => (td.emitKeyRepeats (D := D) now).1 := by
  obtain ⟨d,hd,_⟩ := exists_ownedBy hw fd
  have hloop := repeatDevice_cellLoop ctx.tracked now hd
  by_cases hmem : fd ∈ fds
  · obtain ⟨before,after,rfl⟩ := List.append_of_mem hmem
    obtain ⟨hcell,hfinal,_⟩ := hloop.run_at (nodup_split hfds).1 (nodup_split hfds).2
      (.refl ctx.tracked)
    exact .inr (by rw [hfinal,repeatDevice_tracked,hcell])
  · exact .inl (hloop.run_absent hmem (.refl ctx.tracked)).1

omit [F32 F] [F64 D] [FloatCast F D] in
/-- The repeat pass leaves absolute devices alone. -/
theorem repeats_absolute {ctx : LibinputContext F D} (hw : ctx.view.WellFormed) (now : Instant)
    {fds : List RawFd} (hfds : fds.Nodup) {fd : RawFd} {td : TrackedDevice F D}
    (habs : td.isAbsolute = true) :
    (run (repeatDevice now) ctx fds).1.tracked fd = some td ↔ ctx.tracked fd = some td := by
  rcases repeats_entry hw now hfds fd with h | h <;> rw [h]
  cases hk : ctx.tracked fd with
  | none => rfl
  | some td₀ =>
    simp only [Option.map_some,Option.some.injEq]
    have hid := td₀.emitKeyRepeats_identity (D := D) now
    by_cases habs₀ : td₀.isAbsolute = true
    · rw [emitKeyRepeats_of_noKeys now td₀ (hw.noKeys fd td₀ hk habs₀)]
    · constructor
      · rintro rfl
        exact absurd ((congrArg (·.2.2.1) hid).symm.trans habs) habs₀
      · rintro rfl
        exact absurd habs habs₀

omit [F32 F] [F64 D] [FloatCast F D] in
/-- The repeat pass loses no device. -/
theorem shrinks_repeats {ctx : LibinputContext F D} (hw : ctx.view.WellFormed) (now : Instant)
    {fds : List RawFd} (hfds : fds.Nodup) :
    DeviceTable.Shrinks (run (repeatDevice now) ctx fds).1.tracked ctx.tracked := by
  intro fd td ht
  rcases repeats_entry hw now hfds fd with h | h
  · exact ⟨td,h.trans ht,rfl⟩
  · refine ⟨(td.emitKeyRepeats (D := D) now).1,by rw [h,ht]; rfl,?_⟩
    exact (td.emitKeyRepeats_identity now).symm

omit [F32 F] [F64 D] [FloatCast F D] in
theorem PressPending.of_shrinks {base t : DeviceTable F D} (h : base.Shrinks t)
    {fetch : RawFd → Fetch} (hp : PressPending t fetch) : PressPending base fetch := by
  obtain ⟨fd,td,events,ht,hfetch,htypes⟩ := hp
  obtain ⟨td₀,h₀,htypes₀⟩ := types_of_shrinks h ht htypes
  exact ⟨fd,td₀,events,h₀,hfetch,htypes₀⟩

/-- The repeat pass does not matter for the safety of the device loop. -/
theorem orderSafe_repeats {ctx : LibinputContext F D} (hw : ctx.view.WellFormed) (now : Instant)
    {fds : List RawFd} (hfds : fds.Nodup) (fetch : RawFd → Fetch) (t : Instant) :
    (run (repeatDevice now) ctx fds).1.OrderSafe fetch t ↔ ctx.OrderSafe fetch t := by
  obtain ⟨hdevices,htyping⟩ := repeats_frame now ctx fds
  have hpending : PressPending (run (repeatDevice now) ctx fds).1.tracked fetch ↔
      PressPending ctx.tracked fetch :=
    ⟨.of_shrinks (repeats_shrinks now ctx fds),.of_shrinks (shrinks_repeats hw now hfds)⟩
  have hsettings : ∀ d, (run (repeatDevice now) ctx fds).1.settings d = ctx.settings d := by
    intro d
    simp only [settings,libDevice,hdevices]
  unfold OrderSafe
  rw [hpending,htyping]
  simp only [hsettings]
  refine imp_congr_right fun _ => imp_congr_right fun _ => forall_congr' fun fd =>
    forall_congr' fun td => forall_congr' fun events => ?_
  constructor
  · exact fun h ht habs => h ((repeats_absolute hw now hfds habs).mpr ht) habs
  · exact fun h ht habs => h ((repeats_absolute hw now hfds habs).mp ht) habs

omit [F32 F] [F64 D] [FloatCast F D] in
/-- A removal depends on the entry only. -/
theorem removeDead_local {ctx ctx' : LibinputContext F D} {k : RawFd} (d : DevicePtr)
    (h : ctx.tracked k = ctx'.tracked k) :
    (ctx.removeDead k).1.tracked k = (ctx'.removeDead k).1.tracked k ∧
      deviceView d (ctx.removeDead k).2 = deviceView d (ctx'.removeDead k).2 := by
  have herase : ∀ ctx : LibinputContext F D, (ctx.eraseTracked k).tracked k = none := by
    intro ctx
    rw [eraseTracked_tracked,Function.update_self]
  unfold removeDead
  rw [← h]
  cases hk : ctx.tracked k with
  | none => exact ⟨by rw [hk,← h,hk],rfl⟩
  | some td =>
    refine ⟨(herase ctx).trans (herase ctx').symm,?_⟩
    exact congrArg (eventsOf d) ((produced_removal ctx.view k td.libDevice).trans
      (produced_removal ctx'.view k td.libDevice).symm)

/-- In a safe state the loops of a dispatch agree with themselves in any order. -/
theorem dispatchLoops_order {ctx : LibinputContext F D} (hw : ctx.view.WellFormed) (now : Instant)
    {fetch : RawFd → Fetch} {t : Instant} (hclock : ClockAt fetch t)
    (hsafe : ctx.OrderSafe fetch t) {fds fds' : List RawFd} (hfds : fds.Nodup)
    (hfds' : fds'.Nodup) (hmem : ∀ fd, fd ∈ fds ↔ fd ∈ fds') {d : DevicePtr} {k : RawFd}
    (hd : OwnedBy ctx.tracked d k) :
    (ctx.dispatchLoops now fetch fds).1.tracked k =
        (ctx.dispatchLoops now fetch fds').1.tracked k ∧
      deviceView d (ctx.dispatchLoops now fetch fds).2 =
        deviceView d (ctx.dispatchLoops now fetch fds').2 := by
  have htable : (run (repeatDevice now) ctx fds).1.tracked =
      (run (repeatDevice now) ctx fds').1.tracked := by
    funext fd
    obtain ⟨d',hd',_⟩ := exists_ownedBy hw fd
    exact (repeats_order now hfds hfds' hmem hd').1
  have hrepeats := (repeats_order now hfds hfds' hmem hd).2
  have hsafe' := (orderSafe_repeats hw now hfds fetch t).mpr hsafe
  obtain ⟨hdevices,htyping⟩ := repeats_frame now ctx fds
  obtain ⟨hdevices',htyping'⟩ := repeats_frame now ctx fds'
  have hshrinks := repeats_shrinks now ctx fds
  unfold dispatchLoops
  extract_lets repeats events removals repeats' events' removals'
  have hloop : CellLoop (fun s : LibinputContext F D × List RawFd => s.1.tracked)
      (drainDevice fetch) (deviceView d) (DrainInv repeats.1.tracked repeats.1.devices
        repeats.1.backend.globalTypingTime fetch t) k :=
    DrainInv.cellLoop hclock (hd.shrinks hshrinks)
  have hstart : DrainInv repeats.1.tracked repeats.1.devices
      repeats.1.backend.globalTypingTime fetch t (repeats.1,[]) := ⟨.refl _,rfl,.inl rfl⟩
  have hstart' : DrainInv repeats.1.tracked repeats.1.devices
      repeats.1.backend.globalTypingTime fetch t (repeats'.1,[]) :=
    ⟨htable ▸ .refl _,hdevices'.trans hdevices.symm,.inl (htyping'.trans htyping.symm)⟩
  have hdrain : events.1.1.tracked k = events'.1.1.tracked k ∧
      deviceView d events.2 = deviceView d events'.2 :=
    hloop.run_order hfds hfds' (hmem k) hstart hstart' (congrFun htable k)
      fun s s' hs hs' hcell hcell' => drainDevice_local hclock hsafe' hs hs' hcell hcell'
  have hdead : events.1.2.Nodup ∧ events'.1.2.Nodup ∧ (k ∈ events.1.2 ↔ k ∈ events'.1.2) := by
    have heq := deadFds_eq fetch (repeats.1,[]) fds
    have heq' := deadFds_eq fetch (repeats'.1,[]) fds'
    change events.1.2 = _ at heq
    change events'.1.2 = _ at heq'
    rw [heq,heq']
    have hcell : repeats.1.tracked k = repeats'.1.tracked k := congrFun htable k
    refine ⟨hfds.filter _,hfds'.filter _,?_⟩
    simp only [List.nil_append,List.mem_filter,hmem k,hcell]
  have hevents : DeviceTable.Shrinks ctx.tracked events.1.1.tracked := hshrinks.trans
    (run_shrinks (fun s => tracked s.1) (drainDevice_shrinks fetch) (repeats.1,[]) fds)
  have hevents' : DeviceTable.Shrinks ctx.tracked events'.1.1.tracked :=
    (repeats_shrinks now ctx fds').trans
      (run_shrinks (fun s => tracked s.1) (drainDevice_shrinks fetch) (repeats'.1,[]) fds')
  have hremovals := (removeDead_cellLoop ctx.tracked hd).run_order hdead.1 hdead.2.1 hdead.2.2
    hevents hevents' hdrain.1 fun s s' _ _ hcell hcell' =>
      removeDead_local d (hcell.trans hcell'.symm)
  refine ⟨hremovals.1,?_⟩
  simp only [deviceView_append]
  exact congrArg₂ _ (congrArg₂ _ hrepeats hdrain.2) hremovals.2

/-- What the loops make of an absolute device with a batch: the repeat pass shows nothing of it
and the removal pass does not come to it, so it is the batch under the typing time at its
turn. -/
theorem dispatchLoops_absolute {ctx : LibinputContext F D} (hw : ctx.view.WellFormed)
    (now : Instant) {fetch : RawFd → Fetch} {t : Instant} (hclock : ClockAt fetch t)
    {before after : List RawFd} {a : RawFd} (hfds : (before ++ a :: after).Nodup)
    {td : TrackedDevice F D} {events : List TimedEvent} (ht : ctx.tracked a = some td)
    (habs : td.isAbsolute = true) (hfetch : fetch a = .batch events) :
    ∃ typing, typing = (run (drainDevice fetch)
        ((run (repeatDevice now) ctx (before ++ a :: after)).1,[]) before).1.1.backend.globalTypingTime ∧
      (ctx.dispatchLoops now fetch (before ++ a :: after)).1.tracked a =
        some (td.touchBatch (ctx.settings td.libDevice)
          (dwtActive (ctx.settings td.libDevice).cfgDwt typing t) events).1 ∧
      deviceView td.libDevice (ctx.dispatchLoops now fetch (before ++ a :: after)).2 =
        (td.touchBatch (ctx.settings td.libDevice)
          (dwtActive (ctx.settings td.libDevice).cfgDwt typing t) events).2 := by
  have hsilent := emitKeyRepeats_of_noKeys (D := D) now td (hw.noKeys a td ht habs)
  have hsettings : (run (drainDevice fetch) ((run (repeatDevice now) ctx
      (before ++ a :: after)).1,[]) before).1.1.settings td.libDevice =
        ctx.settings td.libDevice := by
    have hdevices : (run (drainDevice fetch) ((run (repeatDevice now) ctx
        (before ++ a :: after)).1,[]) before).1.1.devices = ctx.devices :=
      run_invariant (drainDevice fetch) (fun s => s.1.devices = ctx.devices)
        (fun s fd _ h => (drainDevice_devices fetch s fd).trans h) (repeats_frame now ctx _).1
    simp only [settings,libDevice,hdevices]
  obtain ⟨hstate,hview⟩ := dispatchLoops_at hw now fetch hfds ht
  rw [hsilent,hsettings,hfetch] at hstate hview
  simp only [Fetch.events,reduceCtorEq,if_false,List.nil_append,List.append_nil,
    td.batch_absolute _ _ _ habs (hclock a events hfetch)] at hstate hview
  exact ⟨_,rfl,hstate,hview⟩

theorem iterationOrder_pair {k a : RawFd} {keys : List RawFd} (hne : k ≠ a) (hk : k ∈ keys)
    (ha : a ∈ keys) : iterationOrder [k,a] keys = k :: a :: keys.filter (· ∉ [k,a]) := by
  have hfilter : [k,a].filter (· ∈ keys) = [k,a] := by simp [hk,ha]
  have hnodup : [k,a].Nodup := by simp [hne]
  rw [iterationOrder,hfilter,hnodup.dedup]
  rfl

/-- A dispatch gives every device the same events and the same state in whatever order the map
is iterated. -/
def OrderIndependent (ctx : LibinputContext F D) (inp : Dispatch) : Prop :=
  ∀ order order',
    (∀ d, deviceView d (ctx.drainIntoQueue { inp with order := order }).2 =
      deviceView d (ctx.drainIntoQueue { inp with order := order' }).2) ∧
    ∀ fd, (ctx.drainIntoQueue { inp with order := order }).1.tracked fd =
      (ctx.drainIntoQueue { inp with order := order' }).1.tracked fd

/-- After the turn of a typing keyboard the typing time is the instant of the call. -/
theorem typing_after_press {ctx : LibinputContext F D} (hw : ctx.view.WellFormed) (now : Instant)
    {fetch : RawFd → Fetch} {t : Instant} (hclock : ClockAt fetch t) {fds : List RawFd}
    (hfds : fds.Nodup) {k : RawFd} {td : TrackedDevice F D} {events : List TimedEvent}
    (hk : ctx.tracked k = some td) (hfetch : fetch k = .batch events) (htypes : td.Types events) :
    (run (drainDevice fetch) ((run (repeatDevice now) ctx fds).1,[])
      [k]).1.1.backend.globalTypingTime = some t := by
  obtain ⟨td',hk',htypes'⟩ := types_of_shrinks (shrinks_repeats hw now hfds) hk htypes
  rw [run_singleton,(drainDevice_batch fetch _ hk' hfetch).2.2.1]
  rcases td'.batch_typing _ _ _ (hclock k events hfetch) with ⟨_,heq⟩ | ⟨hnone,_⟩
  · exact heq
  · exact absurd htypes' hnone

/-- The two orders of a typing keyboard and a touchpad show what the window does to the
touchpad's batch. -/
theorem touchBatch_of_orderIndependent {ctx : LibinputContext F D} (hw : ctx.view.WellFormed)
    (now : Instant) {fetch : RawFd → Fetch} {t : Instant} (hclock : ClockAt fetch t)
    (hsame : ∀ fds fds', fds.Nodup → fds'.Nodup → (∀ fd, fd ∈ fds ↔ fd ∈ fds') →
      (∃ order, fds = iterationOrder order ctx.backend.devices.keys) →
      (∃ order, fds' = iterationOrder order ctx.backend.devices.keys) →
      (∀ d, deviceView d (ctx.dispatchLoops now fetch fds).2 =
        deviceView d (ctx.dispatchLoops now fetch fds').2) ∧
      ∀ fd, (ctx.dispatchLoops now fetch fds).1.tracked fd =
        (ctx.dispatchLoops now fetch fds').1.tracked fd) : ctx.OrderSafe fetch t := by
  rintro ⟨k,tdk,eventsk,hk,hfetchk,htypes⟩ hwindow a td events ha habs hfetch hdwt
  have hne : k ≠ a := by
    rintro rfl
    obtain rfl := Option.some.inj (hk.symm.trans ha)
    exact Bool.noConfusion (htypes.1.2.symm.trans habs)
  have hmemk : k ∈ ctx.backend.devices.keys := (mem_keys_iff ctx k).mpr (by rw [hk]; rfl)
  have hmema : a ∈ ctx.backend.devices.keys := (mem_keys_iff ctx a).mpr (by rw [ha]; rfl)
  have hnodup := fun order => nodup_iterationOrder order ctx.backend.devices.nodupKeys
  have hka := iterationOrder_pair hne hmemk hmema
  have hak := iterationOrder_pair hne.symm hmema hmemk
  have hnodupka := hka ▸ hnodup [k,a]
  have hnodupak := hak ▸ hnodup [a,k]
  have hperm : ∀ fd, fd ∈ k :: a :: ctx.backend.devices.keys.filter (· ∉ [k,a]) ↔
      fd ∈ a :: k :: ctx.backend.devices.keys.filter (· ∉ [a,k]) := by
    intro fd
    rw [← hka,← hak,mem_iterationOrder,mem_iterationOrder]
  obtain ⟨hviews,hstates⟩ := hsame _ _ hnodupka hnodupak hperm ⟨_,hka.symm⟩ ⟨_,hak.symm⟩
  -- the keyboard's turn comes first: the touchpad reads the new typing time
  obtain ⟨typing,htyping,hstate,hview⟩ := dispatchLoops_absolute hw now hclock
    (show ([k] ++ a :: _).Nodup from hnodupka) ha habs hfetch
  -- the touchpad's turn comes first: it reads the old one
  obtain ⟨typing',htyping',hstate',hview'⟩ := dispatchLoops_absolute hw now hclock
    (show ([] ++ a :: _).Nodup from hnodupak) ha habs hfetch
  have hnew : dwtActive true typing t = true := by
    have hpress := typing_after_press hw now hclock hnodupka hk hfetchk htypes
    rw [htyping.trans hpress]
    simp [dwtActive,Instant.elapsed,fromMillis]
  have hold : dwtActive true typing' t = false := by
    rw [htyping',run_nil,(repeats_frame now ctx _).2]
    exact hwindow
  rw [hdwt,hnew] at hstate hview
  rw [hdwt,hold] at hstate' hview'
  apply (td.touchBatch_eq_iff _ events).mp
  apply Prod.ext (Option.some.inj (hstate.symm.trans ((hstates a).trans hstate')))
  exact hview.symm.trans ((hviews td.libDevice).trans hview')

/-- Exactly the safe dispatches give every device the same events and the same state in every
iteration order of the map. -/
theorem orderIndependent_iff (ctx : LibinputContext F D) (hw : ctx.view.WellFormed)
    (inp : Dispatch) (t : Instant) (hclock : ClockAt inp.fetch t) :
    ctx.OrderIndependent inp ↔ (ctx.handleHotplug inp.inotify).1.OrderSafe inp.fetch t := by
  have hplug : (ctx.handleHotplug inp.inotify).1.view.WellFormed :=
    handleHotplug_wellFormed hw inp.inotify
  unfold OrderIndependent
  simp only [drainIntoQueue_eq,deviceView_append,List.append_cancel_left_eq]
  constructor
  · intro h
    apply touchBatch_of_orderIndependent hplug inp.now hclock
    rintro fds fds' _ _ _ ⟨order,rfl⟩ ⟨order',rfl⟩
    exact h order order'
  · intro hsafe order order'
    have hnodup := fun order => nodup_iterationOrder order
      (ctx.handleHotplug inp.inotify).1.backend.devices.nodupKeys
    have hmem : ∀ fd, fd ∈ iterationOrder order
        (ctx.handleHotplug inp.inotify).1.backend.devices.keys ↔ fd ∈ iterationOrder order'
        (ctx.handleHotplug inp.inotify).1.backend.devices.keys := by
      intro fd
      rw [mem_iterationOrder,mem_iterationOrder]
    refine ⟨fun d => ?_,fun fd => ?_⟩
    · obtain ⟨k,hd⟩ := exists_owner hplug d
      exact (dispatchLoops_order hplug inp.now hclock hsafe (hnodup order) (hnodup order') hmem hd).2
    · obtain ⟨d,hd,_⟩ := exists_ownedBy hplug fd
      exact (dispatchLoops_order hplug inp.now hclock hsafe (hnodup order) (hnodup order') hmem hd).1

/-- A keyboard under descriptor 5 and a touchpad under descriptor 6. -/
def keyboardAndTouchpad : List (Call ℚ) :=
  [.addDevice "/dev/input/event3" ⟨5,some plainKeyboard⟩,
    .addDevice "/dev/input/event4" ⟨6,some plainTouchpad⟩]

/-- A press of A on the keyboard and a stroke on the touchpad, both read at one instant. -/
def typeAndStroke (now : Instant) : RawFd → Fetch
  | 5 => .batch [⟨⟨0,.key,KeyCode.keyA,1⟩,now⟩]
  | 6 => .batch [⟨⟨0,.key,KeyCode.btnTouch,1⟩,now⟩,⟨⟨0,.absolute,AbsoluteAxisCode.absX,0⟩,now⟩,
      ⟨⟨0,.absolute,AbsoluteAxisCode.absX,100⟩,now⟩,⟨⟨0,.synchronization,0,0⟩,now⟩]
  | _ => .wouldBlock

theorem clockAt_typeAndStroke (now : Instant) : ClockAt (typeAndStroke now) now := by
  intro fd events hfetch te hte
  unfold typeAndStroke at hfetch
  split at hfetch
  · obtain rfl := Fetch.batch.inj hfetch
    rw [List.mem_singleton.mp hte]
  · obtain rfl := Fetch.batch.inj hfetch
    simp only [List.mem_cons,List.not_mem_nil,or_false] at hte
    rcases hte with rfl | rfl | rfl | rfl <;> rfl
  · cases hfetch

/-- A key typed 100 ms ago has opened the window already, so the order cannot be seen. -/
theorem orderIndependent_while_typing : ((new (F := ℚ) (D := ℚ) ⟨true,true⟩ false).runCalls
      (keyboardAndTouchpad ++ [.dispatch ⟨none,0,[],typeAndStroke 0⟩])).1.OrderIndependent
    ⟨none,fromMillis 100,[],typeAndStroke (fromMillis 100)⟩ :=
  (orderIndependent_iff _ (runCalls_wellFormed _ _ _) _ _ (clockAt_typeAndStroke _)).mpr
    fun _ hwindow => absurd hwindow (by decide +kernel)

/-- The first key in a long time and a stroke in one dispatch: the stroke moves the pointer
when the touchpad comes first in the map, and does not when the keyboard does. -/
theorem stroke_depends_on_map_order : ClockAt (typeAndStroke 0) 0 ∧
    ¬ ((new (F := ℚ) (D := ℚ) ⟨true,true⟩ false).runCalls keyboardAndTouchpad).1.OrderIndependent
      ⟨none,0,[],typeAndStroke 0⟩ := by
  refine ⟨clockAt_typeAndStroke 0,fun h => ?_⟩
  exact absurd ((h [5,6] [6,5]).1 1) (by decide +kernel)

end Dispatch
end LibinputContext
end LibinputRs
