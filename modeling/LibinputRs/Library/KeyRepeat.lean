import LibinputRs.Automata.Sessions
import LibinputRs.Backend.Ticks

/-! Synthetic key repeats. A key is in some `held_keys` list only while its press is pending in
the queue, so a repeat is always preceded by a press that nothing has ended. -/
namespace LibinputRs
open Automata

variable {F D : Type}

namespace LibinputEvent

/-- A keyboard event with the given code and state. -/
def IsKey (d : DevicePtr) (code state : ℕ) (e : LibinputEvent D) : Prop :=
  ∃ timeUsec, e = .key d timeUsec code state

/-- The events after which a key is no longer pressed. -/
def EndsKey (d : DevicePtr) (code : ℕ) (e : LibinputEvent D) : Prop :=
  e.IsKey d code 0 ∨ e = .removed d

theorem isKey_key {d d' : DevicePtr} {timeUsec code code' state state' : ℕ} :
    (key d timeUsec code state : LibinputEvent D).IsKey d' code' state' ↔
      d = d' ∧ code = code' ∧ state = state' := by
  constructor
  · rintro ⟨t,h⟩
    simp only [key,mk.injEq,EventPayload.keyboardKey.injEq,KeyboardKeyEvent.mk.injEq] at h
    exact ⟨h.2.2,h.2.1.2.1,h.2.1.2.2⟩
  · rintro ⟨rfl,rfl,rfl⟩
    exact ⟨timeUsec,rfl⟩

theorem endsKey_key {d d' : DevicePtr} {timeUsec code code' state : ℕ} :
    (key d timeUsec code state : LibinputEvent D).EndsKey d' code' ↔
      d = d' ∧ code = code' ∧ state = 0 := by
  simp only [EndsKey,isKey_key,or_iff_left_iff_imp]
  intro h
  cases h

/-- Only keyboard events have a key in them. -/
theorem not_isKey_of_type {d : DevicePtr} {code state : ℕ} {e : LibinputEvent D}
    (h : e.eventType ≠ .keyboardKey) : ¬ e.IsKey d code state := by
  rintro ⟨t,rfl⟩
  exact h rfl

theorem PointerOf.not_isKey {c d : DevicePtr} {code state : ℕ} {e : LibinputEvent D}
    (h : e.PointerOf c) : ¬ e.IsKey d code state := by
  refine not_isKey_of_type fun ht => ?_
  have := h.2
  simp [ht,LibinputEventType.isPointerOrGesture] at this

theorem PointerOf.not_endsKey {c d : DevicePtr} {code : ℕ} {e : LibinputEvent D}
    (h : e.PointerOf c) : ¬ e.EndsKey d code := by
  rintro (hkey | rfl)
  · exact h.not_isKey hkey
  · cases h.2

end LibinputEvent

/-- Some tracked device holds the key. -/
def World.Holds (w : World F D) (d : DevicePtr) (code : ℕ) : Prop :=
  ∃ fd td hk, w.tracked fd = some td ∧ td.libDevice = d ∧ hk ∈ td.heldKeys ∧ hk.code = code

/-- What a tick may do about held keys: a key is held after it only if the tick queued its
press or it was held before and not ended, and only held keys repeat. -/
structure HeldStep (w : World F D) (es : List (LibinputEvent D)) (w' : World F D) : Prop where
  held : ∀ d code, w'.Holds d code → OpenAfter (·.IsKey d code 1) (·.EndsKey d code) es ∨
    (w.Holds d code ∧ ∀ e ∈ es, ¬ e.EndsKey d code)
  repeats : AtEach (fun front e => ∀ d code, e.IsKey d code 2 →
    w.Holds d code ∧ ∀ e' ∈ front, ¬ e'.EndsKey d code) es

/-- Every held key is pending in the queue, and every repeat was of a pending key. -/
structure HeldKeysQueued (out : List (Obs F D)) (w : World F D) : Prop where
  held : ∀ d code, w.Holds d code →
    OpenAfter (·.IsKey d code 1) (·.EndsKey d code) (produced out)
  repeats : AtEach (fun front e => ∀ d code, e.IsKey d code 2 →
    OpenAfter (·.IsKey d code 1) (·.EndsKey d code) front) (produced out)

theorem HeldKeysQueued.step {out o : List (Obs F D)} {w w' : World F D}
    (h : HeldKeysQueued out w) (hs : HeldStep w (produced o) w') :
    HeldKeysQueued (out ++ o) w' := by
  constructor
  · intro d code hw
    rw [produced_append,openAfter_append]
    rcases hs.held d code hw with hopen | ⟨hw,hends⟩
    · exact .inl hopen
    · exact .inr ⟨h.held d code hw,hends⟩
  · rw [produced_append,atEach_append]
    refine ⟨h.repeats,fun front e back heq d code hrep => ?_⟩
    obtain ⟨hw,hends⟩ := hs.repeats front e back heq d code hrep
    exact (h.held d code hw).append hends

namespace HeldStep

/-- A tick that queues no keyboard event and holds no new key. -/
theorem of_other {w w' : World F D} {es : List (LibinputEvent D)}
    (hholds : ∀ d code, w'.Holds d code → w.Holds d code ∧ ∀ e ∈ es, ¬ e.EndsKey d code)
    (hes : ∀ e ∈ es, ∀ d code state, ¬ e.IsKey d code state) : HeldStep w es w' :=
  ⟨fun d code hw => .inr (hholds d code hw),
    atEach_of_forall fun e he _ d code hrep => absurd hrep (hes e he d code 2)⟩

end HeldStep

/-- The keys held after the tracking state of one device was replaced. -/
theorem World.holds_set {w : World F D} {fd : RawFd} {td : TrackedDevice F D} {d : DevicePtr}
    {code : ℕ} (h : (w.set fd (some td)).Holds d code) :
    (td.libDevice = d ∧ ∃ hk ∈ td.heldKeys, hk.code = code) ∨
      (∃ fd' td' hk, fd' ≠ fd ∧ w.tracked fd' = some td' ∧ td'.libDevice = d ∧
        hk ∈ td'.heldKeys ∧ hk.code = code) := by
  obtain ⟨fd',td',hk,ht,hd,hmem,hcode⟩ := h
  rcases World.tracked_set ht with ⟨_,heq⟩ | ⟨hne,ht⟩
  · obtain rfl := Option.some.inj heq
    exact .inl ⟨hd,hk,hmem,hcode⟩
  · exact .inr ⟨fd',td',hk,hne,ht,hd,hmem,hcode⟩

theorem World.holds_of_set {w : World F D} {fd : RawFd} {td td' : TrackedDevice F D}
    (ht : w.tracked fd = some td) (hid : td'.libDevice = td.libDevice)
    (hcodes : ∀ hk ∈ td'.heldKeys, ∃ hk₀ ∈ td.heldKeys, hk₀.code = hk.code) {d : DevicePtr}
    {code : ℕ} (h : (w.set fd (some td')).Holds d code) : w.Holds d code := by
  rcases World.holds_set h with ⟨hd,hk,hmem,hcode⟩ | ⟨fd',td'',hk,_,ht',hd,hmem,hcode⟩
  · obtain ⟨hk₀,hmem₀,hcode₀⟩ := hcodes hk hmem
    exact ⟨fd,td,hk₀,ht,hid ▸ hd,hmem₀,hcode₀.trans hcode⟩
  · exact ⟨fd',td'',hk,ht',hd,hmem,hcode⟩

/-- A keyboard event of a tracked device. -/
theorem HeldStep.keyboard {w : World F D} (hw : w.WellFormed) {fd : RawFd}
    {td : TrackedDevice F D} (ht : w.tracked fd = some td) (te : TimedEvent)
    (t : Option Instant) :
    HeldStep w (td.processKeyboardEvent te t).2.2
      (w.set fd (some (td.processKeyboardEvent te t).1)) := by
  rcases td.processKeyboardEvent_cases te t with ⟨_,_,h⟩ | ⟨_,_,h⟩ | ⟨_,h⟩ <;> rw [h]
  · refine ⟨fun d code hholds => ?_,by simp [LibinputEvent.isKey_key]⟩
    have hends : ∀ e ∈ [(.key td.libDevice (systimeToUsec te.ev.time) te.ev.code 1 :
        LibinputEvent D)], ¬ e.EndsKey d code := by
      simp [LibinputEvent.endsKey_key]
    rcases World.holds_set hholds with ⟨hd,hk,hmem,hcode⟩ | ⟨fd',td',hk,_,ht',hd,hmem,hcode⟩
    · rcases List.mem_append.mp hmem with hmem | hmem
      · exact .inr ⟨⟨fd,td,hk,ht,hd,hmem,hcode⟩,hends⟩
      · obtain rfl := List.mem_singleton.mp hmem
        exact .inl (openAfter_singleton.mpr (LibinputEvent.isKey_key.mpr ⟨hd,hcode,rfl⟩))
    · exact .inr ⟨⟨fd',td',hk,ht',hd,hmem,hcode⟩,hends⟩
  · refine ⟨fun d code hholds => .inr ?_,by simp [LibinputEvent.isKey_key]⟩
    rcases World.holds_set hholds with ⟨hd,hk,hmem,hcode⟩ | ⟨fd',td',hk,hne,ht',hd,hmem,hcode⟩
    · obtain ⟨hmem,hother⟩ := List.mem_filter.mp hmem
      refine ⟨⟨fd,td,hk,ht,hd,hmem,hcode⟩,List.forall_mem_singleton.mpr fun hends => ?_⟩
      have heq := (LibinputEvent.endsKey_key.mp hends).2.1
      exact of_decide_eq_true hother (hcode.trans heq.symm)
    · refine ⟨⟨fd',td',hk,ht',hd,hmem,hcode⟩,List.forall_mem_singleton.mpr fun hends => ?_⟩
      have heq := (LibinputEvent.endsKey_key.mp hends).1
      exact hw.libDevice_ne ht ht' hne (hd.trans heq.symm)
  · rw [World.set_eq_self ht]
    exact .of_other (fun d code hholds => ⟨hholds,by simp⟩) (by simp)

namespace HeldStep
variable {w : World F D} {fd : RawFd} {td : TrackedDevice F D}

/-- The repeat pass over a tracked device: held keys repeat, and stay held. -/
theorem repeatPass (ht : w.tracked fd = some td) (now : Instant) :
    HeldStep w (td.emitKeyRepeats (D := D) now).2
      (w.set fd (some (td.emitKeyRepeats (D := D) now).1)) := by
  have hrepeat : ∀ e ∈ (td.emitKeyRepeats (D := D) now).2, ∃ hk ∈ td.heldKeys,
      e = .key td.libDevice hk.tsUsec hk.code 2 := td.emitKeyRepeats_out now
  have hends : ∀ e ∈ (td.emitKeyRepeats (D := D) now).2, ∀ d code, ¬ e.EndsKey d code := by
    intro e he d code
    obtain ⟨hk,_,rfl⟩ := hrepeat e he
    simp [LibinputEvent.endsKey_key]
  constructor
  · intro d code hholds
    refine .inr ⟨World.holds_of_set ht ?_ ?_ hholds,fun e he => hends e he d code⟩
    · exact TrackedDevice.libDevice_of_identity (td.emitKeyRepeats_identity now)
    · intro hk hmem
      have hcode : hk.code ∈ td.heldKeys.map HeldKey.code :=
        td.emitKeyRepeats_codes now ▸ List.mem_map_of_mem hmem
      exact List.mem_map.mp hcode
  · rintro front e back heq d code hrep
    obtain ⟨hk,hmem,rfl⟩ := hrepeat e (by simp [heq])
    obtain ⟨hd,hcode,_⟩ := LibinputEvent.isKey_key.mp hrep
    exact ⟨⟨fd,td,hk,ht,hd,hmem,hcode⟩,fun e' he' => hends e' (by simp [heq,he']) d code⟩

/-- A step of a mouse or a touchpad. -/
theorem pointer (ht : w.tracked fd = some td) {td' : TrackedDevice F D}
    {es : List (LibinputEvent D)} (hid : td'.identity = td.identity)
    (hkey : td'.keyState = td.keyState) (hes : ∀ e ∈ es, e.PointerOf td.libDevice) :
    HeldStep w es (w.set fd (some td')) := by
  refine .of_other (fun d code hholds => ?_) fun e he d code state => (hes e he).not_isKey
  refine ⟨World.holds_of_set ht (TrackedDevice.libDevice_of_identity hid) ?_ hholds,
    fun e he => (hes e he).not_endsKey⟩
  rw [TrackedDevice.heldKeys_of_keyState hkey]
  exact fun hk hmem => ⟨hk,hmem,rfl⟩

/-- The removal of a tracked device ends its keys and no other's. -/
theorem removed (hw : w.WellFormed) (ht : w.tracked fd = some td) :
    HeldStep w [(.removed td.libDevice : LibinputEvent D)] (w.set fd none) := by
  refine .of_other (fun d code hholds => ?_) (List.forall_mem_singleton.mpr fun d code state =>
    LibinputEvent.not_isKey_of_type (by simp [LibinputEvent.removed]))
  obtain ⟨fd',td',hk,ht',hd,hmem,hcode⟩ := hholds
  rcases World.tracked_set ht' with ⟨_,hnone⟩ | ⟨hne,ht'⟩
  · cases hnone
  refine ⟨⟨fd',td',hk,ht',hd,hmem,hcode⟩,List.forall_mem_singleton.mpr ?_⟩
  rintro (⟨t,hkey⟩ | hremoved)
  · cases hkey
  · have heq : td.libDevice = d := congrArg LibinputEvent.device hremoved
    exact hw.libDevice_ne ht ht' hne (hd.trans heq.symm)

variable [F32 F] [F64 D]

/-- A new device holds no key, and its notification ends none. -/
theorem admitted (device : EvdevDevice) (path : PathBuf) (c : DevicePtr) :
    HeldStep w [(.added c : LibinputEvent D)]
      (({ w with devices := w.devices + 1 }).set fd (some (.new device path c))) := by
  refine .of_other (fun d code hholds => ?_) ?_
  · rcases World.holds_set hholds with ⟨_,hk,hmem,_⟩ | ⟨fd',td',hk,_,ht',hd,hmem,hcode⟩
    · simp [TrackedDevice.new] at hmem
    · refine ⟨⟨fd',td',hk,ht',hd,hmem,hcode⟩,List.forall_mem_singleton.mpr ?_⟩
      rintro (⟨t,hkey⟩ | hremoved)
      · cases hkey
      · cases hremoved
  · exact List.forall_mem_singleton.mpr fun d code state =>
      LibinputEvent.not_isKey_of_type (by simp [LibinputEvent.added])

variable [FloatCast F D]

/-- One kernel event of a tracked device. -/
theorem event (hw : w.WellFormed) (ht : w.tracked fd = some td) (cfg : Settings F)
    (typing live : Option Instant) (te : TimedEvent) :
    HeldStep w (TrackedDevice.processEvent cfg typing (td,live) te).2
      (w.set fd (some (TrackedDevice.processEvent cfg typing (td,live) te).1.1)) := by
  rcases TrackedDevice.processEvent_cases cfg typing (td,live) te with
    ⟨_,_,h⟩ | ⟨_,_,_,h⟩ | ⟨_,dwt,_,h⟩ | ⟨_,_,_,h⟩ <;> rw [h]
  · exact keyboard hw ht te live
  · exact pointer ht rfl rfl (td.processRelativeEvent_out te)
  · have hstep := TrackedDevice.processAbsoluteEvent_step te cfg.cfgTap cfg.cfgNat cfg.cfgAccel dwt td
    exact pointer ht hstep.identity hstep.keyState hstep.out
  · exact pointer ht rfl rfl (List.forall_mem_nil _)

end HeldStep

variable [F32 F] [F64 D] [FloatCast F D]

/-- Every tick of a well-formed world treats held keys as it should. -/
theorem Tick.heldStep {w w' : World F D} {o : List (Obs F D)} (h : Tick w o w')
    (hw : w.WellFormed) : HeldStep w (produced o) w' := by
  cases h.kind with
  | silent o w' hsilent htracked hdevices =>
    rw [produced_of_silent hsilent]
    refine .of_other (fun d code hholds => ⟨?_,List.forall_mem_nil _⟩) (List.forall_mem_nil _)
    unfold World.Holds at hholds
    rwa [htracked] at hholds
  | admitted fd device path ht =>
    rw [produced_admission]
    exact .admitted device path w.devices
  | repeats fd td now ht =>
    rw [produced_map_queued]
    exact .repeatPass ht now
  | event fd td cfg typing live te ht =>
    rw [TrackedDevice.produced_observeEvent]
    exact .event hw ht cfg typing live te
  | removed fd td ht =>
    rw [produced_removal]
    exact .removed hw ht

/-- Every repeat of a key is preceded by a press of it that neither a release of the key nor
the removal of its device has ended. -/
theorem repeats_pressed_keys (interface : LibinputInterface) (inotify : Bool)
    (calls : List (Call D)) :
    AtEach (fun front e => ∀ d code, e.IsKey d code 2 →
        OpenAfter (·.IsKey d code 1) (·.EndsKey d code) front)
      (produced ((LibinputContext.new (F := F) interface inotify).runCalls calls).2) := by
  have hinit : HeldKeysQueued [] (LibinputContext.new (F := F) (D := D) interface inotify).view := by
    refine ⟨?_,atEach_nil⟩
    rintro d code ⟨fd,td,hk,ht,_⟩
    cases ht
  exact (LibinputContext.runCalls_history HeldKeysQueued interface inotify hinit
    (fun out w o w' hw hI ht => hI.step (ht.heldStep hw)) calls).repeats

end LibinputRs
