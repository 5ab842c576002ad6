import LibinputRs.Library.Accounts

/-! What a device leaves pressed or open when it is removed. The removal synthesizes no
release, so this is what the kernel had reported down and not up again. -/
namespace LibinputRs
open Automata

variable {F D : Type}

/-- The accounts of all tracked devices, and what keeps those of new devices in order. -/
structure Accounts (out : List (Obs F D)) (w : World F D) : Prop where
  allocated : ∀ e ∈ produced out, e.device < w.devices
  noSwipe : ∀ e ∈ produced out, e.eventType ≠ .gestureSwipeBegin
  tracked : ∀ fd td, w.tracked fd = some td →
    Accounted td (produced out) (reads td.libDevice out)

/-- A tick that keeps the accounts of the devices it leaves tracked. -/
theorem Accounts.step {out o : List (Obs F D)} {w w' : World F D} (h : Accounts out w)
    (hdevices : w.devices ≤ w'.devices)
    (hevents : ∀ e ∈ produced o, e.device < w'.devices ∧ e.eventType ≠ .gestureSwipeBegin)
    (htracked : ∀ fd td, w'.tracked fd = some td →
      Accounted td (produced out ++ produced o) (reads td.libDevice out ++ reads td.libDevice o)) :
    Accounts (out ++ o) w' := by
  constructor
  · intro e he
    rcases List.mem_append.mp (produced_append out o ▸ he) with he | he
    · exact (h.allocated e he).trans_le hdevices
    · exact (hevents e he).1
  · intro e he
    rcases List.mem_append.mp (produced_append out o ▸ he) with he | he
    · exact h.noSwipe e he
    · exact (hevents e he).2
  · intro fd td ht
    rw [produced_append,reads_append]
    exact htracked fd td ht

/-- The account of a device that a tick is not about. -/
theorem Accounted.frame {td : TrackedDevice F D} {q es : List (LibinputEvent D)}
    {rd rs : List InputEvent} (h : Accounted td q rd)
    (hes : ∀ e ∈ es, e.device ≠ td.libDevice) (hrs : rs = []) :
    Accounted td (q ++ es) (rd ++ rs) := by
  rw [hrs,List.append_nil]
  exact h.inert (fun e he => .of_device_ne (hes e he)) rfl rfl rfl

theorem reads_of_silent {o : List (Obs F D)} (h : ∀ x ∈ o, x.Silent) (d : DevicePtr) :
    reads d o = [] := by
  refine List.filterMap_eq_nil_iff.mpr fun x hx => ?_
  have hsilent := h x hx
  cases x with
  | fd a => rfl
  | delivered e => rfl
  | processed p => exact hsilent.elim
  | queued e => exact hsilent.elim

theorem reads_map_queued (es : List (LibinputEvent D)) (d : DevicePtr) :
    reads d (es.map (Obs.queued (F := F))) = [] := by
  simp [reads,List.filterMap_map]

variable [F32 F] [F64 D] [FloatCast F D]

/-- One kernel event of a tracked device keeps the account of the device. -/
theorem Accounted.event {td : TrackedDevice F D} {q : List (LibinputEvent D)}
    {rd : List InputEvent} (h : Accounted td q rd) (cfg : Settings F)
    (typing live : Option Instant) (te : TimedEvent) :
    Accounted (TrackedDevice.processEvent cfg typing (td,live) te).1.1
      (q ++ (TrackedDevice.processEvent cfg typing (td,live) te).2) (rd ++ [te.ev]) := by
  rcases TrackedDevice.processEvent_cases cfg typing (td,live) te with
    ⟨hkbd,habs,heq⟩ | ⟨hkbd,habs,hptr,heq⟩ | ⟨habs,dwt,_,heq⟩ | ⟨hkbd,habs,hptr,heq⟩ <;> rw [heq]
  · exact h.keyboard hkbd habs te live
  · exact h.relative hkbd habs hptr te
  · exact h.touchpad_effect habs (td.processAbsoluteEvent_step te _ _ _ dwt)
      (td.processAbsoluteEvent_effect te _ _ _ dwt)
  · rw [List.append_nil]
    exact h.ignored hkbd habs hptr te.ev

theorem reads_observeEvent (cfg : Settings F) (typing : Option Instant)
    (s : TrackedDevice F D × Option Instant) (te : TimedEvent) (d : DevicePtr) :
    reads d (TrackedDevice.observeEvent cfg typing s te).2 =
      if s.1.libDevice = d then [te.ev] else [] := by
  unfold TrackedDevice.observeEvent
  by_cases hd : s.1.libDevice = d <;> simp [reads,hd]

/-- No handler begins a swipe. -/
theorem processEvent_noSwipe (cfg : Settings F) (typing : Option Instant)
    (s : TrackedDevice F D × Option Instant) (te : TimedEvent) :
    ∀ e ∈ (TrackedDevice.processEvent cfg typing s te).2, e.eventType ≠ .gestureSwipeBegin := by
  intro e he hswipe
  rcases TrackedDevice.processEvent_type cfg typing s te e he with htype | htype
  · cases hswipe.symm.trans htype
  · rw [hswipe] at htype
    cases htype

omit [F32 F] [F64 D] [FloatCast F D] in
/-- The repeat pass keeps the account of the device. -/
theorem Accounted.repeats {td : TrackedDevice F D} {q : List (LibinputEvent D)}
    {rd : List InputEvent} (h : Accounted td q rd) (now : Instant) :
    Accounted (td.emitKeyRepeats (D := D) now).1 (q ++ (td.emitKeyRepeats now).2) rd := by
  refine h.inert (fun e he => ?_) (td.emitKeyRepeats_identity now) ?_ ?_
  · obtain ⟨hk,_,rfl⟩ := td.emitKeyRepeats_out now e he
    exact ⟨fun code => ⟨by simp [LibinputEvent.isKey_key],by simp [LibinputEvent.isKey_key]⟩,
      fun code => key_not_button,key_not_pinch⟩
  · unfold TrackedDevice.emitKeyRepeats
    split_ifs <;> rfl
  · unfold TrackedDevice.emitKeyRepeats
    split_ifs <;> rfl

namespace Accounts
variable {out : List (Obs F D)} {w : World F D} {fd : RawFd} {td : TrackedDevice F D}

omit [F32 F] [F64 D] [FloatCast F D] in
theorem silent (h : Accounts out w) {o : List (Obs F D)} {w' : World F D}
    (hsilent : ∀ x ∈ o, x.Silent) (htracked : w'.tracked = w.tracked)
    (hdevices : w.devices ≤ w'.devices) : Accounts (out ++ o) w' := by
  have hprod := produced_of_silent hsilent
  refine h.step hdevices (by simp [hprod]) fun fd td ht => ?_
  exact (h.tracked fd td (htracked ▸ ht)).frame (by simp [hprod]) (reads_of_silent hsilent _)

omit [FloatCast F D] in
/-- A new device has a clear account. -/
theorem admitted (h : Accounts out w) (hw : w.WellFormed) (fd : RawFd) (device : EvdevDevice)
    (path : PathBuf) :
    Accounts (out ++ (w.opened fd ++ [.fd (.epollAdd fd),.queued (.added w.devices)]))
      (({ w with devices := w.devices + 1 }).set fd (some (.new device path w.devices))) := by
  have hreads : ∀ d, reads d (w.opened fd ++ [.fd (.epollAdd fd),.queued (.added w.devices)]) = [] := by
    intro d
    rw [reads_append,reads_of_silent (opened_silent w fd)]
    rfl
  refine h.step (Nat.le_succ _) ?_ fun fd' td' ht' => ?_
  · rw [produced_admission]
    exact List.forall_mem_singleton.mpr ⟨Nat.lt_succ_self w.devices,by simp⟩
  · rw [produced_admission]
    rcases World.tracked_set ht' with ⟨_,heq⟩ | ⟨_,ht'⟩
    · obtain rfl := Option.some.inj heq
      refine .of_inert fun e he => ?_
      rcases List.mem_append.mp he with he | he
      · exact .of_device_ne (h.allocated e he).ne
      · obtain rfl := List.mem_singleton.mp he
        exact .of_type rfl
    · exact (h.tracked fd' td' ht').frame
        (List.forall_mem_singleton.mpr (hw.allocated fd' td' ht').ne') (hreads _)

omit [F32 F] [F64 D] [FloatCast F D] in
/-- Events of one tracked device, whose own account is kept. -/
theorem device (h : Accounts out w) (hw : w.WellFormed) (ht : w.tracked fd = some td)
    {o : List (Obs F D)} {td' : TrackedDevice F D} (hid : td'.identity = td.identity)
    (hout : ∀ e ∈ produced o, e.device = td.libDevice ∧ e.eventType ≠ .gestureSwipeBegin)
    (hreads : ∀ d, d ≠ td.libDevice → reads d o = [])
    (haccount : Accounted td' (produced out ++ produced o)
      (reads td.libDevice out ++ reads td.libDevice o)) :
    Accounts (out ++ o) (w.set fd (some td')) := by
  refine h.step le_rfl (fun e he => ?_) fun fd₁ td₁ ht₁ => ?_
  · exact ⟨(hout e he).1 ▸ hw.allocated fd td ht,(hout e he).2⟩
  · rcases World.tracked_set ht₁ with ⟨_,heq⟩ | ⟨hne,ht₁⟩
    · obtain rfl := Option.some.inj heq
      rw [TrackedDevice.libDevice_of_identity hid]
      exact haccount
    · have hd := hw.libDevice_ne ht ht₁ hne
      exact (h.tracked fd₁ td₁ ht₁).frame (fun e he => (hout e he).1 ▸ hd.symm) (hreads _ hd)

omit [F32 F] [F64 D] [FloatCast F D] in
/-- A removal closes the account of the device. -/
theorem removed (h : Accounts out w) (hw : w.WellFormed) (ht : w.tracked fd = some td) :
    Accounts (out ++ (.fd (.epollDel fd) :: w.closed fd ++
      [.queued (.removed td.libDevice),.fd (.dropped fd)])) (w.set fd none) := by
  refine h.step le_rfl ?_ fun fd' td' ht' => ?_
  · rw [produced_removal]
    exact List.forall_mem_singleton.mpr ⟨hw.allocated fd td ht,by simp⟩
  · rw [produced_removal]
    rcases World.tracked_set ht' with ⟨_,heq⟩ | ⟨hne,ht'⟩
    · cases heq
    refine (h.tracked fd' td' ht').frame
      (List.forall_mem_singleton.mpr (hw.libDevice_ne ht ht' hne).symm) ?_
    rw [List.cons_append,reads_fd,reads_append,reads_of_silent (closed_silent w fd)]
    rfl

end Accounts

theorem Tick.accounts {out o : List (Obs F D)} {w w' : World F D} (h : Tick w o w')
    (hw : w.WellFormed) (hI : Accounts out w) : Accounts (out ++ o) w' := by
  cases h.kind with
  | silent o w' hsilent htracked hdevices => exact hI.silent hsilent htracked hdevices
  | admitted fd device path ht => exact hI.admitted hw fd device path
  | repeats fd td now ht =>
    refine hI.device hw ht (td.emitKeyRepeats_identity now) (fun e he => ?_)
      (fun d _ => reads_map_queued _ d) ?_
    · rw [produced_map_queued] at he
      obtain ⟨hk,_,rfl⟩ := td.emitKeyRepeats_out now e he
      exact ⟨rfl,by simp⟩
    · rw [produced_map_queued,reads_map_queued,List.append_nil]
      exact (hI.tracked fd td ht).repeats now
  | event fd td cfg typing live te ht =>
    have hout := TrackedDevice.processEvent_out cfg typing (td,live) te
    refine hI.device hw ht (TrackedDevice.processEvent_identity cfg typing (td,live) te)
      (fun e he => ?_) (fun d hd => ?_) ?_
    · rw [TrackedDevice.produced_observeEvent] at he
      exact ⟨(hout e he).1,processEvent_noSwipe cfg typing (td,live) te e he⟩
    · rw [reads_observeEvent,if_neg (Ne.symm hd)]
    · rw [TrackedDevice.produced_observeEvent,reads_observeEvent,if_pos rfl]
      exact (hI.tracked fd td ht).event cfg typing live te
  | removed fd td ht => exact hI.removed hw ht

/-- What may be left pressed or open: what the kernel reported down and not up. -/
structure LeftByKernel (d : DevicePtr) (front : List (Obs F D)) : Prop where
  keys : ∀ code, KeyLeft d code (produced front) → KernelDown code (reads d front)
  pinch : PinchLeft d (produced front) → KernelDown KeyCode.btnTouch (reads d front)
  swipe : ∀ e ∈ produced front, ¬ e.OfType .gestureSwipeBegin d
  buttons : LeftAlternates (reads d front) → ∀ code, ButtonLeft d code (produced front) →
    KernelDown code (reads d front) ∨
      (isTouchpadButton code = true ∧ KernelDown KeyCode.btnLeft (reads d front))

/-- Nothing is left pressed or open. -/
def NothingLeft (d : DevicePtr) (q : List (LibinputEvent D)) : Prop :=
  (∀ code, ¬ KeyLeft d code q ∧ ¬ ButtonLeft d code q) ∧ ¬ PinchLeft d q ∧
    ¬ OpenAfter (·.OfType .gestureSwipeBegin d) (·.OfType .gestureSwipeEnd d) q

omit [F32 F] [F64 D] [FloatCast F D] in
theorem Accounts.leftByKernel {front : List (Obs F D)} {w : World F D} (h : Accounts front w)
    {fd : RawFd} {td : TrackedDevice F D} (ht : w.tracked fd = some td) :
    LeftByKernel td.libDevice front := by
  have hacc := h.tracked fd td ht
  refine ⟨fun code hleft => (hacc.keys code hleft).2,fun hleft => (hacc.pinch hleft).2,
    fun e he hswipe => h.noSwipe e he hswipe.2,fun halt code hleft => ?_⟩
  cases habs : td.isAbsolute with
  | false => exact .inl (hacc.mouse code habs hleft).2
  | true =>
    obtain ⟨hbutton,hcase⟩ := hacc.touchpad code habs halt hleft
    rcases hcase with ⟨_,hdown⟩ | ⟨_,hdown⟩
    · exact .inl hdown
    · exact .inr ⟨hbutton,hdown⟩

omit [F32 F] [F64 D] [FloatCast F D] in
/-- Descriptor actions leave nothing pressed or open. -/
theorem LeftByKernel.append {d : DevicePtr} {front o : List (Obs F D)} (h : LeftByKernel d front)
    (hprod : produced o = []) (hreads : reads d o = []) : LeftByKernel d (front ++ o) := by
  constructor
  · simpa [hprod,hreads] using h.keys
  · simpa [hprod,hreads] using h.pinch
  · simpa [hprod] using h.swipe
  · simpa [hprod,hreads] using h.buttons

omit [F32 F] [F64 D] [FloatCast F D] in
/-- What is no removal needs no account. -/
theorem atEach_of_not_removal {pre l : List (Obs F D)}
    (h : ∀ x ∈ l, ∀ d, x ≠ .queued (.removed d)) :
    AtEach (fun front x => ∀ d, x = .queued (.removed d) → LeftByKernel d (pre ++ front)) l :=
  atEach_of_forall fun x hx _ d heq => absurd heq (h x hx d)

omit [F32 F] [F64 D] [FloatCast F D] in
theorem Obs.Silent.not_removal {x : Obs F D} (h : x.Silent) (d : DevicePtr) :
    x ≠ .queued (.removed d) := by
  rintro rfl
  exact h

/-- Where a tick queues a removal, the account of the removed device is in order. -/
theorem Tick.removals {out o : List (Obs F D)} {w w' : World F D} (h : Tick w o w')
    (hI : Accounts out w) :
    AtEach (fun front x => ∀ d, x = .queued (.removed d) → LeftByKernel d (out ++ front)) o := by
  cases h.kind with
  | silent o w' hsilent htracked hdevices =>
    exact atEach_of_not_removal fun x hx => (hsilent x hx).not_removal
  | admitted fd device path ht =>
    refine atEach_of_not_removal fun x hx d => ?_
    rcases List.mem_append.mp hx with hx | hx
    · exact (opened_silent w fd x hx).not_removal d
    · rcases List.mem_cons.mp hx with rfl | hx
      · simp
      · obtain rfl := List.mem_singleton.mp hx
        rintro heq
        cases heq
  | repeats fd td now ht =>
    refine atEach_of_not_removal fun x hx d => ?_
    obtain ⟨e,he,rfl⟩ := List.mem_map.mp hx
    obtain ⟨hk,_,rfl⟩ := td.emitKeyRepeats_out now e he
    rintro heq
    cases heq
  | event fd td cfg typing live te ht =>
    refine atEach_of_not_removal fun x hx d => ?_
    obtain rfl := List.mem_singleton.mp hx
    simp
  | removed fd td ht =>
    change AtEach _ ((.fd (.epollDel fd) :: w.closed fd) ++
      ([.queued (.removed td.libDevice)] ++ [.fd (.dropped fd)]))
    have hsilent : ∀ x ∈ .fd (.epollDel fd) :: w.closed fd, x.Silent :=
      List.forall_mem_cons.mpr ⟨trivial,closed_silent w fd⟩
    refine atEach_append.mpr ⟨atEach_of_not_removal fun x hx => (hsilent x hx).not_removal,
      atEach_append.mpr ⟨atEach_singleton.mpr ?_,by simp⟩⟩
    rintro d heq
    obtain rfl : td.libDevice = d := congrArg LibinputEvent.device (Obs.queued.inj heq)
    rw [List.append_nil]
    exact (hI.leftByKernel ht).append (produced_of_silent hsilent) (reads_of_silent hsilent _)

/-- At the moment a removal is queued, a key left pressed is one whose press the kernel reported
and whose release it did not, a pinch left open is one whose touch it did not report lifted, no
swipe was begun, and a button left pressed is one the kernel reported pressed and not released,
itself or as the left button it stands for. -/
theorem removal_leaves_kernelDown (interface : LibinputInterface) (inotify : Bool)
    (calls : List (Call D)) :
    AtEach (fun front x => ∀ d, x = .queued (.removed d) → LeftByKernel d front)
      ((LibinputContext.new (F := F) interface inotify).runCalls calls).2 := by
  have hinit : Accounts [] (LibinputContext.new (F := F) (D := D) interface inotify).view :=
    ⟨by simp,by simp,fun fd td ht => by cases ht⟩
  refine (LibinputContext.runCalls_history (fun out w => Accounts out w ∧
    AtEach (fun front x => ∀ d, x = .queued (.removed d) → LeftByKernel d front) out)
    interface inotify ⟨hinit,atEach_nil⟩ (fun out w o w' hw hI ht => ⟨ht.accounts hw hI.1,?_⟩)
    calls).2
  exact atEach_append.mpr ⟨hI.2,ht.removals hI.1⟩

/-- A keyboard unplugged while a key is held: the key stays pressed. -/
theorem unplugged_keyboard_leaves_key :
    ¬ AtEach (fun front x => ∀ d, x = .queued (.removed d) → NothingLeft d (produced front))
      ((LibinputContext.new (F := ℚ) (D := ℚ) ⟨true,true⟩ false).runCalls
        [.addDevice "/dev/input/event3" ⟨5,some plainKeyboard⟩,
          .dispatch ⟨none,0,[],fun _ => .batch [⟨⟨7,.key,KeyCode.keyA,1⟩,1⟩]⟩,
          .dispatch ⟨none,2,[],fun _ => .gone⟩]).2 := by
  intro h
  have hrun : ((LibinputContext.new (F := ℚ) (D := ℚ) ⟨true,true⟩ false).runCalls
      [.addDevice "/dev/input/event3" ⟨5,some plainKeyboard⟩,
        .dispatch ⟨none,0,[],fun _ => .batch [⟨⟨7,.key,KeyCode.keyA,1⟩,1⟩]⟩,
        .dispatch ⟨none,2,[],fun _ => .gone⟩]).2 =
      [.fd (.opened 5),.fd (.epollAdd 5),.queued (.added 0),
        .processed ⟨0,⟨⟨7,.key,KeyCode.keyA,1⟩,1⟩,⟨true,true,true,1⟩,none,[.key 0 7 KeyCode.keyA 1]⟩,
        .fd (.epollDel 5),.fd (.closeRestricted 5)] ++ .queued (.removed 0) :: [.fd (.dropped 5)] := by
    decide +kernel
  have hnothing := h _ _ _ hrun 0 rfl
  exact (hnothing.1 KeyCode.keyA).1 ⟨[.added 0],.key 0 7 KeyCode.keyA 1,[],rfl,⟨7,rfl⟩,by simp⟩

end LibinputRs
