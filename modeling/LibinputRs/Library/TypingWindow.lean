import LibinputRs.Backend.Ticks
import LibinputRs.Backend.TouchpadSteps
import LibinputRs.Library.Moments
import Mathlib.Data.List.Pairwise

/-! Disable-while-typing of the library. The shared typing time is that of the last press handled
so far, so the window that a touchpad's batch reads covers every press before it; one branch of
the touchpad handler emits without asking. -/
namespace LibinputRs
open Automata

section TypingTime
variable {F D : Type}

/-- The press of a key, as queued. -/
def LibinputEvent.isKeyPress (e : LibinputEvent D) : Bool :=
  match e.eventType,e.payload with
  | .keyboardKey,.keyboardKey k => decide (k.state = 1)
  | _,_ => false

/-- The instant at which a kernel event was handled as the press of a key. -/
def Obs.pressInstant : Obs F D → Option Instant
  | .processed p => if p.out.any LibinputEvent.isKeyPress then some p.event.now else none
  | _ => none

/-- The instants of the key presses handled so far. -/
def pressInstants (out : List (Obs F D)) : List Instant := out.filterMap Obs.pressInstant

theorem pressInstants_append (l m : List (Obs F D)) :
    pressInstants (l ++ m) = pressInstants l ++ pressInstants m := List.filterMap_append

theorem pressInstants_of_silent {o : List (Obs F D)} (h : ∀ x ∈ o, x.Silent) :
    pressInstants o = [] := by
  refine List.filterMap_eq_nil_iff.mpr fun x hx => ?_
  have hsilent := h x hx
  cases x with
  | fd a => rfl
  | delivered e => rfl
  | processed p => exact hsilent.elim
  | queued e => rfl

theorem pressInstants_queued (es : List (LibinputEvent D)) :
    pressInstants (es.map (Obs.queued (F := F))) = [] := by
  refine List.filterMap_eq_nil_iff.mpr fun x hx => ?_
  obtain ⟨e,_,rfl⟩ := List.mem_map.mp hx
  rfl

theorem pressInstants_processed (p : Processed F D) : pressInstants [.processed p] =
    if p.out.any LibinputEvent.isKeyPress then [p.event.now] else [] := by
  simp only [pressInstants,List.filterMap_cons,List.filterMap_nil,Obs.pressInstant]
  split_ifs <;> rfl

theorem not_isKeyPress_of_pointer {d : DevicePtr} {l : List (LibinputEvent D)}
    (h : ∀ e ∈ l, e.PointerOf d) : l.any LibinputEvent.isKeyPress = false := by
  refine List.any_eq_false.mpr fun e he => ?_
  have htype := (h e he).2
  unfold LibinputEvent.isKeyPress
  split
  · rename_i k hkey _
    rw [hkey] at htype
    cases htype
  · exact Bool.false_ne_true

variable [F32 F] [F64 D] [FloatCast F D]

/-- A kernel event is a press exactly when it sets the typing time, to its instant. -/
theorem observeEvent_press (cfg : Settings F) (typing live : Option Instant)
    (td : TrackedDevice F D) (te : TimedEvent) :
    (pressInstants (TrackedDevice.observeEvent cfg typing (td,live) te).2 = [te.now] ∧
      (TrackedDevice.observeEvent cfg typing (td,live) te).1.2 = some te.now) ∨
    (pressInstants (TrackedDevice.observeEvent cfg typing (td,live) te).2 = [] ∧
      (TrackedDevice.observeEvent cfg typing (td,live) te).1.2 = live) := by
  have hrecord : pressInstants (TrackedDevice.observeEvent cfg typing (td,live) te).2 =
      if (TrackedDevice.processEvent cfg typing (td,live) te).2.any LibinputEvent.isKeyPress then
        [te.now] else [] := pressInstants_processed _
  rw [hrecord]
  change _ ∧ (TrackedDevice.processEvent cfg typing (td,live) te).1.2 = some te.now ∨
    _ ∧ (TrackedDevice.processEvent cfg typing (td,live) te).1.2 = live
  rcases TrackedDevice.processEvent_cases cfg typing (td,live) te with
    ⟨_,_,h⟩ | ⟨_,_,_,h⟩ | ⟨_,dwt,_,h⟩ | ⟨_,_,_,h⟩ <;> rw [h]
  · rcases td.processKeyboardEvent_cases te live with ⟨_,_,hk⟩ | ⟨_,_,hk⟩ | ⟨_,hk⟩
    · exact .inl (by simp [hk,LibinputEvent.isKeyPress,LibinputEvent.key])
    · exact .inr (by simp [hk,LibinputEvent.isKeyPress,LibinputEvent.key])
    · exact .inr (by simp [hk])
  · exact .inr ⟨by simp [not_isKeyPress_of_pointer (td.processRelativeEvent_out te)],rfl⟩
  · refine .inr ⟨?_,rfl⟩
    simp [not_isKeyPress_of_pointer (td.processAbsoluteEvent_step te cfg.cfgTap cfg.cfgNat
      cfg.cfgAccel dwt).out]
  · exact .inr ⟨rfl,rfl⟩

/-- The shared typing time is the instant of the last press handled. -/
def TypingIsLast (out : List (Obs F D)) (ctx : LibinputContext F D) : Prop :=
  ctx.backend.globalTypingTime = (pressInstants out).getLast?

theorem Turn.typingIsLast {ctx ctx' : LibinputContext F D} {out o : List (Obs F D)}
    (h : Turn ctx o ctx') (hI : TypingIsLast out ctx) : TypingIsLast (out ++ o) ctx' := by
  have hquiet : pressInstants o = [] →
      ctx'.backend.globalTypingTime = ctx.backend.globalTypingTime →
      TypingIsLast (out ++ o) ctx' := by
    intro hnone hsame
    rw [TypingIsLast,pressInstants_append,hnone,List.append_nil,hsame]
    exact hI
  have hopened : ∀ fd, pressInstants (ctx.view.opened fd) = [] :=
    fun fd => pressInstants_of_silent (opened_silent ctx.view fd)
  have hclosed : ∀ fd, pressInstants (ctx.view.closed fd) = [] :=
    fun fd => pressInstants_of_silent (closed_silent ctx.view fd)
  cases h with
  | probeFailed fd hcb => exact hquiet (hclosed fd) rfl
  | filtered fd device hpass => exact hquiet (by rw [pressInstants_append,hopened]; rfl) rfl
  | alreadyTracked fd device path hpass ht =>
    exact hquiet (by rw [pressInstants_append,hopened]; rfl) rfl
  | admitted fd device path hpass ht =>
    exact hquiet (by rw [pressInstants_append,hopened]; rfl) rfl
  | repeats fd td now ht => exact hquiet (pressInstants_queued _) rfl
  | event fd td typing te ht htyping =>
    rcases observeEvent_press (ctx.settings td.libDevice) typing ctx.backend.globalTypingTime td te
      with ⟨hpress,hset⟩ | ⟨hnone,hsame⟩
    · rw [TypingIsLast,pressInstants_append,hpress,List.getLast?_append_cons]
      exact hset
    · exact hquiet hnone hsame
  | removed fd td ht =>
    refine hquiet ?_ rfl
    rw [pressInstants_append]
    exact congrArg (· ++ []) (hclosed fd)
  | client _ _ ho hview htyping hdevices =>
    refine hquiet ?_ htyping
    rcases ho with rfl | ⟨e,rfl⟩ <;> rfl

theorem Turns.typingIsLast {ctx ctx' : LibinputContext F D} {out o : List (Obs F D)}
    (h : Turns ctx o ctx') (hI : TypingIsLast out ctx) : TypingIsLast (out ++ o) ctx' := by
  refine h.history (fun o ctx => TypingIsLast (out ++ o) ctx) (fun o₁ ctx o₂ ctx' hI hturn => ?_)
    (by simpa using hI)
  rw [← List.append_assoc]
  exact hturn.typingIsLast hI

end TypingTime

section Window
variable {F D : Type}

/-- What disable-while-typing holds back at an event: motion, finger scrolling, the click of a
tap, the begin and the updates of a pinch, the updates of a swipe. -/
def LibinputEvent.HeldBack (ev : InputEvent) (e : LibinputEvent D) : Prop :=
  e.eventType = .pointerMotion ∨ e.eventType = .pointerScrollFinger ∨
    (e.eventType = .pointerButton ∧ ev.KeyWith KeyCode.btnTouch) ∨
    e.eventType = .gesturePinchBegin ∨ e.eventType = .gesturePinchUpdate ∨
    e.eventType = .gestureSwipeUpdate

instance (ev : InputEvent) (e : LibinputEvent D) : Decidable (e.HeldBack ev) :=
  inferInstanceAs (Decidable (_ ∨ _ ∨ (_ ∧ (_ ∧ _)) ∨ _))

/-- A touch lands while two contacts are down and no pinch is open. -/
def TrackedDevice.PinchLands (td : TrackedDevice F D) (ev : InputEvent) : Prop :=
  ev.KeyWith KeyCode.btnTouch ∧ ev.value ≠ 0 ∧ 2 ≤ td.activeSlotCount ∧ td.pinchActive = false

instance (td : TrackedDevice F D) (ev : InputEvent) : Decidable (td.PinchLands ev) :=
  inferInstanceAs (Decidable ((_ ∧ _) ∧ _ ∧ _ ∧ _))

namespace TrackedDevice
variable [F64 D]

theorem primarySlotDistance_eq_none (td : TrackedDevice F D) :
    td.primarySlotDistance = none ↔ td.activeSlotCount < 2 := by
  unfold primarySlotDistance activeSlotCount
  match td.activeSlots with
  | [] => simp
  | [a] => simp
  | a :: b :: l => simp

/-- The landing of a touch asks nobody: it begins a pinch whenever it can. -/
theorem touchDown_heldBack (te : TimedEvent) (td : TrackedDevice F D)
    (hev : te.ev.KeyWith KeyCode.btnTouch) (hvalue : te.ev.value ≠ 0) :
    (∀ e ∈ (td.touchDown te).2, ¬ e.HeldBack te.ev) ↔ ¬ td.PinchLands te.ev := by
  have hlands : td.PinchLands te.ev ↔ 2 ≤ td.activeSlotCount ∧ td.pinchActive = false := by
    simp [PinchLands,hev,hvalue]
  rw [hlands]
  unfold touchDown
  dsimp only
  split_ifs with hpinch
  · cases hdist : td.primarySlotDistance with
    | none => exact absurd (td.primarySlotDistance_eq_none.mp hdist) (by omega)
    | some dist =>
      have hsame : primarySlotDistance { td with
          touchActive := true
          touchStartTime := some te.now
          tapEmitted := false
          touchFingers := max td.activeSlotCount 1
          lastX := none
          lastY := none } = some dist := hdist
      rw [hsame]
      refine iff_of_false (fun h => ?_) (not_not.mpr ⟨by omega,hpinch.2⟩)
      exact h _ (List.mem_singleton.mpr rfl) (.inr (.inr (.inr (.inl rfl))))
  · exact iff_of_true (List.forall_mem_nil _) fun h => hpinch ⟨by omega,h.2⟩

/-- A lift in the window ends a pinch at most. -/
theorem touchUp_heldBack (te : TimedEvent) (cfgTap : Bool) (td : TrackedDevice F D) :
    ∀ e ∈ (td.touchUp te cfgTap true).2, ¬ e.HeldBack te.ev := by
  have hnotap : td.isTap te.now cfgTap true = false := by simp [isTap]
  intro e he
  simp only [touchUp,hnotap,Bool.false_eq_true,if_false,List.append_nil] at he
  unfold liftPinch at he
  split_ifs at he
  · obtain rfl := List.mem_singleton.mp he
    simp [LibinputEvent.HeldBack,LibinputEvent.pinchEnd,LibinputEvent.gesture]
  · simp at he

omit [F64 D] in
theorem physicalClick_heldBack (te : TimedEvent) (td : TrackedDevice F D)
    (hev : ¬ te.ev.KeyWith KeyCode.btnTouch) :
    ∀ e ∈ (td.physicalClick te).2, ¬ e.HeldBack te.ev := by
  intro e he
  unfold physicalClick at he
  dsimp only at he
  split_ifs at he
  · obtain rfl := List.mem_singleton.mp he
    simp [LibinputEvent.HeldBack,LibinputEvent.button,hev]
  · simp at he

variable [F32 F] [FloatCast F D]

/-- In the window every event is held back, but for the pinch that a landing touch begins. -/
theorem processAbsoluteEvent_heldBack (te : TimedEvent) (cfgTap cfgNat : Bool) (cfgAccel : F)
    (td : TrackedDevice F D) :
    (∀ e ∈ (td.processAbsoluteEvent te cfgTap cfgNat cfgAccel true).2, ¬ e.HeldBack te.ev) ↔
      ¬ td.PinchLands te.ev := by
  have hnolanding : ¬ (te.ev.KeyWith KeyCode.btnTouch ∧ te.ev.value ≠ 0) →
      ¬ td.PinchLands te.ev := fun h hlands => h ⟨hlands.1,hlands.2.1⟩
  unfold processAbsoluteEvent
  dsimp only
  rw [if_pos rfl]
  cases hev : te.ev.eventType with
  | key =>
    dsimp only
    unfold processAbsoluteKey
    by_cases htouch : te.ev.code = KeyCode.btnTouch
    · rw [if_pos htouch]
      by_cases hvalue : te.ev.value = 0
      · rw [if_neg (not_not.mpr hvalue)]
        exact iff_of_true (touchUp_heldBack te cfgTap _) (hnolanding fun h => h.2 hvalue)
      · rw [if_pos hvalue]
        exact touchDown_heldBack te { td with tapEmitted := true } ⟨hev,htouch⟩ hvalue
    · rw [if_neg htouch]
      refine iff_of_true ?_ (hnolanding fun h => htouch h.1.2)
      split_ifs
      all_goals first
        | exact physicalClick_heldBack te _ fun h => htouch h.2
        | exact List.forall_mem_nil _
  | absolute =>
    exact iff_of_true (List.forall_mem_nil _) (hnolanding fun h => by simp [h.1.1] at hev)
  | synchronization =>
    refine iff_of_true ?_ (hnolanding fun h => by simp [h.1.1] at hev)
    unfold processSyn
    simp only [Bool.not_true,Bool.and_false,Bool.false_eq_true,if_false,if_true]
    split_ifs <;> exact List.forall_mem_nil _
  | relative =>
    exact iff_of_true (List.forall_mem_nil _) (hnolanding fun h => by simp [h.1.1] at hev)
  | other n =>
    exact iff_of_true (List.forall_mem_nil _) (hnolanding fun h => by simp [h.1.1] at hev)

end TrackedDevice
end Window

section Runs
variable {F D : Type} [F32 F] [F64 D] [FloatCast F D]

namespace LibinputContext

/-- In a sequence of instants that never runs backwards none comes after the last. -/
theorem le_getLast_of_pairwise {l : List Instant} (h : l.Pairwise (· ≤ ·)) {t : Instant}
    (ht : t ∈ l) : ∃ last, l.getLast? = some last ∧ t ≤ last := by
  induction l using List.reverseRecOn with
  | nil => cases ht
  | append_singleton l last ih =>
    refine ⟨last,by simp,?_⟩
    rcases List.mem_append.mp ht with ht | ht
    · exact (List.pairwise_append.mp h).2.2 t ht last (List.mem_singleton.mpr rfl)
    · exact (List.mem_singleton.mp ht).le

/-- In every run, at every event of a touchpad under disable-while-typing less than 500 ms after
a press handled before its batch: nothing that should be is queued, exactly when the event is not
a touch that lands on two contacts with no pinch open. -/
theorem typing_window_iff (interface : LibinputInterface) (inotify : Bool) (calls : List (Call D))
    (inp : Dispatch) (m : Moment ((new (F := F) interface inotify).runCalls calls).1 inp)
    (htouchpad : m.td.isAbsolute = true) (hdwt : m.cfg.cfgDwt = true)
    (hclock : (pressInstants (((new (F := F) interface inotify).runCalls calls).2 ++
      m.seen)).Pairwise (· ≤ ·)) (t : Instant)
    (hpress : t ∈ pressInstants (((new (F := F) interface inotify).runCalls calls).2 ++ m.seen))
    (hwindow : t.elapsed m.te.now < fromMillis 500) :
    (∀ e ∈ m.out, ¬ e.HeldBack m.te.ev) ↔ ¬ m.state.1.PinchLands m.te.ev := by
  have htyping : m.typing = (pressInstants ([] ++ (_ ++ m.seen))).getLast? :=
    Turns.typingIsLast ((runCalls_turns (new interface inotify) calls).trans m.seen_turns) rfl
  obtain ⟨last,hlast,hle⟩ := le_getLast_of_pairwise hclock hpress
  have hactive : dwtActive m.cfg.cfgDwt m.typing m.te.now = true := by
    rw [htyping,List.nil_append,hlast,hdwt,dwtActive]
    have helapsed : last.elapsed m.te.now ≤ t.elapsed m.te.now := Nat.sub_le_sub_left hle _
    simpa using helapsed.trans_lt hwindow
  have habs : m.state.1.isAbsolute = true := (congrArg (·.2.2.1) m.state_identity).trans htouchpad
  have hout : m.out = (m.state.1.processAbsoluteEvent m.te m.cfg.cfgTap m.cfg.cfgNat
      m.cfg.cfgAccel true).2 := by
    unfold Moment.out
    rcases TrackedDevice.processEvent_cases m.cfg m.typing m.state m.te with
      ⟨_,hplain,_⟩ | ⟨_,hplain,_,_⟩ | ⟨_,dwt,hdwt',h⟩ | ⟨_,hplain,_,_⟩
    · simp [habs] at hplain
    · simp [habs] at hplain
    · rw [h,hdwt',hactive]
    · simp [habs] at hplain
  rw [hout]
  exact m.state.1.processAbsoluteEvent_heldBack m.te _ _ _

/-- A keyboard and a touchpad, and a press on the keyboard at instant zero. -/
def keyPressed : List (Call ℚ) :=
  [.addDevice "/dev/input/event3" ⟨5,some plainKeyboard⟩,
    .addDevice "/dev/input/event5" ⟨6,some plainTouchpad⟩,
    .dispatch ⟨none,0,[],fun fd =>
      if fd = 5 then .batch [⟨⟨1,.key,KeyCode.keyA,1⟩,0⟩] else .wouldBlock⟩]

/-- The given events of the touchpad, 100 ms after the press. -/
def touchedAfter (events : List InputEvent) : Dispatch :=
  ⟨none,fromMillis 100,[5,6],fun fd =>
    if fd = 6 then .batch (events.map fun ev => ⟨ev,fromMillis 100⟩) else .wouldBlock⟩

/-- A stroke while typing: the pointer stays where it is. -/
theorem stroke_while_typing_held_back :
    ∃ m : Moment ((new (F := ℚ) (D := ℚ) ⟨true,true⟩ false).runCalls keyPressed).1
        (touchedAfter [⟨2,.absolute,AbsoluteAxisCode.absX,0⟩,⟨2,.absolute,AbsoluteAxisCode.absX,100⟩,
          ⟨2,.synchronization,0,0⟩]),
      m.te.ev.eventType = .synchronization ∧ ∀ e ∈ m.out, ¬ e.HeldBack m.te.ev := by
  let m : Moment ((new (F := ℚ) (D := ℚ) ⟨true,true⟩ false).runCalls keyPressed).1
      (touchedAfter [⟨2,.absolute,AbsoluteAxisCode.absX,0⟩,⟨2,.absolute,AbsoluteAxisCode.absX,100⟩,
        ⟨2,.synchronization,0,0⟩]) :=
    ⟨[5],6,[],_,[⟨⟨2,.absolute,AbsoluteAxisCode.absX,0⟩,fromMillis 100⟩,
      ⟨⟨2,.absolute,AbsoluteAxisCode.absX,100⟩,fromMillis 100⟩],⟨⟨2,.synchronization,0,0⟩,fromMillis 100⟩,[],
      by decide +kernel,(Option.some_get (by decide +kernel)).symm,rfl⟩
  exact ⟨m,rfl,(typing_window_iff ⟨true,true⟩ false keyPressed _ m (by decide +kernel)
    (by decide +kernel) (by decide +kernel) 0 (by decide +kernel) (by decide +kernel)).mpr
      (by decide +kernel)⟩

/-- Two fingers that land while typing: a pinch begins. -/
theorem pinch_begins_while_typing :
    ∃ m : Moment ((new (F := ℚ) (D := ℚ) ⟨true,true⟩ false).runCalls keyPressed).1
        (touchedAfter [⟨2,.absolute,AbsoluteAxisCode.absMtTrackingId,1⟩,
          ⟨2,.absolute,AbsoluteAxisCode.absMtSlot,1⟩,⟨2,.absolute,AbsoluteAxisCode.absMtTrackingId,2⟩,
          ⟨2,.key,KeyCode.btnTouch,1⟩]),
      m.td.isAbsolute = true ∧ m.cfg.cfgDwt = true ∧ m.te.now = fromMillis 100 ∧
        pressInstants (((new (F := ℚ) (D := ℚ) ⟨true,true⟩ false).runCalls keyPressed).2 ++ m.seen) = [0] ∧
        ¬ ∀ e ∈ m.out, ¬ e.HeldBack m.te.ev := by
  refine ⟨⟨[5],6,[],_,[⟨⟨2,.absolute,AbsoluteAxisCode.absMtTrackingId,1⟩,fromMillis 100⟩,
    ⟨⟨2,.absolute,AbsoluteAxisCode.absMtSlot,1⟩,fromMillis 100⟩,
    ⟨⟨2,.absolute,AbsoluteAxisCode.absMtTrackingId,2⟩,fromMillis 100⟩],
    ⟨⟨2,.key,KeyCode.btnTouch,1⟩,fromMillis 100⟩,[],by decide +kernel,
    (Option.some_get (by decide +kernel)).symm,rfl⟩,?_⟩
  decide +kernel

end LibinputContext
end Runs

end LibinputRs
