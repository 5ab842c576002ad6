import LibinputRs.Accessors
import LibinputRs.Backend.TouchpadSteps
import LibinputRs.Library.Advertised
import Mathlib.Algebra.BigOperators.Ring.List
import Mathlib.Tactic.NormNum
import Mathlib.Tactic.Ring

/-! Sums of scroll distances, in exact arithmetic: what a client adds up through the accessors,
what the backend emitted on each axis, and the wheel steps read from the devices. -/
namespace LibinputRs
open Automata

section Wheel
variable {F D : Type}

namespace LibinputEvent

def isWheel (e : LibinputEvent D) : Bool := decide (e.eventType = .pointerScrollWheel)

/-- A wheel or finger-scroll event. -/
def isScroll (e : LibinputEvent D) : Bool :=
  decide (e.eventType = .pointerScrollWheel ∨ e.eventType = .pointerScrollFinger)

end LibinputEvent

theorem filter_isWheel_eq_nil {l : List (LibinputEvent D)}
    (h : ∀ e ∈ l, e.eventType ≠ .pointerScrollWheel) : l.filter LibinputEvent.isWheel = [] :=
  List.filter_eq_nil_iff.mpr fun e he => by simpa [LibinputEvent.isWheel] using h e he

variable [F64 D]

/-- The event a wheel step becomes. -/
def wheelEvents (d : DevicePtr) (te : TimedEvent) : List (LibinputEvent D) :=
  if te.ev.eventType = .relative then
    if te.ev.code = RelativeAxisCode.relWheel then
      [.scroll .pointerScrollWheel d (systimeToUsec te.ev.time) 0 te.ev.value 1]
    else if te.ev.code = RelativeAxisCode.relHwheel then
      [.scroll .pointerScrollWheel d (systimeToUsec te.ev.time) 1 te.ev.value 1]
    else []
  else []

namespace TrackedDevice

theorem processRelativeEvent_wheel (te : TimedEvent) (td : TrackedDevice F D) :
    (td.processRelativeEvent te).filter LibinputEvent.isWheel = wheelEvents td.libDevice te := by
  unfold processRelativeEvent wheelEvents
  cases htype : te.ev.eventType with
  | relative =>
    dsimp only
    by_cases hx : te.ev.code = RelativeAxisCode.relX
    · rw [if_pos hx,hx]
      rfl
    by_cases hy : te.ev.code = RelativeAxisCode.relY
    · rw [if_neg hx,if_pos hy,hy]
      rfl
    rw [if_neg hx,if_neg hy,if_pos rfl]
    split_ifs <;> rfl
  | key =>
    rw [if_neg (c := EventType.key = .relative) nofun]
    dsimp only
    split_ifs <;> rfl
  | synchronization => rfl
  | absolute => rfl
  | other n => rfl

theorem TouchEffect.no_wheel {td : TrackedDevice F D} {ev : InputEvent}
    {r : TrackedDevice F D × List (LibinputEvent D)} (h : TouchEffect td ev r) :
    ∀ e ∈ r.2, e.eventType ≠ .pointerScrollWheel := by
  cases h with
  | contact _ _ _ hout => simp [hout]
  | pinchBegins _ _ fingers _ _ hout =>
    rw [hout]
    exact List.forall_mem_singleton.mpr nofun
  | lift _ _ ends taps hends htaps _ hout =>
    rw [hout]
    refine List.forall_mem_append.mpr ⟨?_,?_⟩
    · rcases hends with ⟨_,scale,angle,rfl⟩ | ⟨_,rfl⟩
      · exact List.forall_mem_singleton.mpr nofun
      · exact List.forall_mem_nil _
    · rcases htaps with rfl | rfl <;> simp
  | leftPress _ _ mapped _ _ hout => simp [hout]
  | leftRelease _ _ _ hout =>
    rw [hout]
    split_ifs <;> simp
  | otherButton code _ _ _ _ hout => simp [hout]
  | quiet _ _ hout => simp [hout]
  | frame _ _ hout =>
    intro e he
    rcases hout with ⟨_,hout | ⟨scale,angle,hout⟩⟩ | ⟨_,hout⟩
    · simp [hout] at he
    · rw [hout,List.mem_singleton] at he
      rw [he]
      exact nofun
    · have hmove := (hout e he).2
      intro htype
      rw [htype] at hmove
      cases hmove

variable [F32 F] [FloatCast F D]

/-- A wheel step becomes a wheel event on the mouse route only, and nothing else does. -/
theorem processEvent_wheel (cfg : Settings F) (typing live : Option Instant)
    (td : TrackedDevice F D) (te : TimedEvent) :
    (processEvent cfg typing (td,live) te).2.filter LibinputEvent.isWheel =
      if td.isKeyboard = false ∧ td.isAbsolute = false ∧ td.isPointer = true then
        wheelEvents td.libDevice te else [] := by
  rcases processEvent_cases cfg typing (td,live) te with
    ⟨hk,_,h⟩ | ⟨hk,ha,hp,h⟩ | ⟨ha,dwt,_,h⟩ | ⟨_,_,hp,h⟩ <;> rw [h]
  · rw [if_neg fun hroute => Bool.false_ne_true (hroute.1.symm.trans hk)]
    refine filter_isWheel_eq_nil fun e he => ?_
    obtain ⟨_,_,_,rfl⟩ := processKeyboardEvent_out te td live e he
    exact nofun
  · rw [if_pos ⟨hk,ha,hp⟩]
    exact processRelativeEvent_wheel te td
  · rw [if_neg fun hroute => Bool.false_ne_true (hroute.2.1.symm.trans ha)]
    exact filter_isWheel_eq_nil (processAbsoluteEvent_effect te _ _ _ dwt td).no_wheel
  · rw [if_neg fun hroute => Bool.false_ne_true (hp.symm.trans hroute.2.2)]
    rfl

end TrackedDevice

/-- The wheel events of an observation are those of the wheel steps of a mouse. -/
def RoutedBy (ctx : LibinputContext F D) : Obs F D → Prop
  | .processed p => (∀ e ∈ p.out, e.device = p.device) ∧ ∃ dev, ctx.devices[p.device]? = some dev ∧
      p.out.filter LibinputEvent.isWheel =
        if dev.isMouse then wheelEvents p.device p.event else []
  | .queued e => e.eventType ≠ .pointerScrollWheel
  | .fd _ | .delivered _ => True

theorem RoutedBy.keep {ctx ctx' : LibinputContext F D} {o : Obs F D} (h : RoutedBy ctx o)
    (hdevices : ctx.KeepsDevices ctx') : RoutedBy ctx' o := by
  cases o with
  | processed p =>
    obtain ⟨hown,dev,hdev,hwheel⟩ := h
    obtain ⟨dev',hdev',hcap⟩ := hdevices _ dev hdev
    simp only [LibinputDevice.capabilities,Prod.mk.injEq] at hcap
    refine ⟨hown,dev',hdev',?_⟩
    rw [hwheel,LibinputDevice.isMouse,LibinputDevice.isMouse,hcap.1,hcap.2.2.1]
  | queued e => exact h
  | fd a => trivial
  | delivered e => trivial

theorem RoutedBy.of_silent {ctx : LibinputContext F D} {o : Obs F D} (h : o.Silent) :
    RoutedBy ctx o := by
  cases o with
  | fd a => trivial
  | delivered e => trivial
  | processed p => exact h.elim
  | queued e => exact h.elim

variable [F32 F] [FloatCast F D]

theorem Turn.routed {ctx ctx' : LibinputContext F D} {o : List (Obs F D)} (h : Turn ctx o ctx')
    (hadv : ctx.Advertised) : ∀ x ∈ o, RoutedBy ctx' x := by
  have hopened : ∀ fd, ∀ x ∈ ctx.view.opened fd, RoutedBy ctx' x :=
    fun fd x hx => .of_silent (opened_silent ctx.view fd x hx)
  have hclosed : ∀ fd, ∀ x ∈ ctx.view.closed fd, RoutedBy ctx' x :=
    fun fd x hx => .of_silent (closed_silent ctx.view fd x hx)
  have hkeeps := (hadv.turn h).2
  cases h with
  | probeFailed fd hcb => simpa [RoutedBy] using hclosed fd
  | filtered fd device hpass =>
    exact List.forall_mem_append.mpr ⟨hopened fd,List.forall_mem_singleton.mpr trivial⟩
  | alreadyTracked fd device path hpass ht =>
    exact List.forall_mem_append.mpr ⟨hopened fd,List.forall_mem_singleton.mpr trivial⟩
  | admitted fd device path hpass ht =>
    refine List.forall_mem_append.mpr ⟨hopened fd,?_⟩
    simp [RoutedBy]
  | repeats fd td now ht =>
    intro x hx
    obtain ⟨e,he,rfl⟩ := List.mem_map.mp hx
    obtain ⟨hk,_,rfl⟩ := td.emitKeyRepeats_out now e he
    exact nofun
  | event fd td typing te ht htyping =>
    suffices hrouted : RoutedBy ctx (.processed _) from
      List.forall_mem_singleton.mpr (hrouted.keep hkeeps)
    obtain ⟨dev,hdev,hmouse⟩ := (hadv fd td ht).isMouse_iff
    refine ⟨fun e he => (TrackedDevice.processEvent_out _ typing _ te e he).1,dev,hdev,?_⟩
    change (TrackedDevice.processEvent _ typing (td,ctx.backend.globalTypingTime) te).2.filter
      LibinputEvent.isWheel = _
    rw [TrackedDevice.processEvent_wheel]
    simp only [hmouse]
  | removed fd td ht =>
    rw [List.cons_append]
    refine List.forall_mem_cons.mpr ⟨trivial,List.forall_mem_append.mpr ⟨hclosed fd,?_⟩⟩
    simp [RoutedBy]
  | client _ _ ho hview htyping hdevices =>
    rcases ho with rfl | ⟨e,rfl⟩
    · exact List.forall_mem_nil _
    · exact List.forall_mem_singleton.mpr trivial

theorem runCalls_routed (interface : LibinputInterface) (inotify : Bool) (calls : List (Call D)) :
    ∀ x ∈ ((LibinputContext.new (F := F) interface inotify).runCalls calls).2,
      RoutedBy ((LibinputContext.new (F := F) interface inotify).runCalls calls).1 x := by
  have hall := (LibinputContext.runCalls_turns (.new (F := F) interface inotify) calls).history_new
    (fun out ctx => ctx.Advertised ∧ ∀ x ∈ out, RoutedBy ctx x)
    ⟨LibinputContext.new_advertised interface inotify,List.forall_mem_nil _⟩
    (fun out ctx o ctx' _ hI hturn => ⟨(hI.1.turn hturn).1,List.forall_mem_append.mpr
      ⟨fun x hx => (hI.2 x hx).keep (hI.1.turn hturn).2,hturn.routed hI.1⟩⟩)
  exact hall.2.2

end Wheel

section Sums
variable {F : Type}

/-- What an event scrolls on the axis. -/
def LibinputEvent.valueOn (a : ℕ) (e : LibinputEvent ℚ) : ℚ :=
  match e.payload with
  | .pointerAxis p => if p.axis = a then p.value else 0
  | _ => 0

/-- What it scrolls elsewhere. -/
def LibinputEvent.valueOff (a : ℕ) (e : LibinputEvent ℚ) : ℚ :=
  match e.payload with
  | .pointerAxis p => if p.axis = a then 0 else p.value
  | _ => 0

/-- What a client adds up that asks each event for the axis and then for its value. -/
def clientSum (get : LibinputEvent ℚ → ℕ → ℚ) (a : ℕ) (l : List (LibinputEvent ℚ)) : ℚ :=
  ((l.filter fun e => e.libinputEventPointerHasAxis a).map fun e => get e a).sum

theorem clientSum_append (get : LibinputEvent ℚ → ℕ → ℚ) (a : ℕ) (l m : List (LibinputEvent ℚ)) :
    clientSum get a (l ++ m) = clientSum get a l + clientSum get a m := by
  simp [clientSum]

/-- The client gets both axes, whichever it asks for. -/
theorem clientSum_axisValue (a : ℕ) (l : List (LibinputEvent ℚ)) :
    clientSum LibinputEvent.libinputEventPointerGetAxisValue a l =
      (l.map (LibinputEvent.valueOn a)).sum + (l.map (LibinputEvent.valueOff a)).sum := by
  induction l with
  | nil => simp [clientSum]
  | cons e l ih =>
    have hcons := clientSum_append LibinputEvent.libinputEventPointerGetAxisValue a [e] l
    rw [List.singleton_append] at hcons
    have hone : clientSum LibinputEvent.libinputEventPointerGetAxisValue a [e] =
        e.valueOn a + e.valueOff a := by
      cases hp : e.payload with
      | pointerAxis p =>
        by_cases ha : p.axis = a <;>
          simp [clientSum,LibinputEvent.libinputEventPointerHasAxis,hp,ha,LibinputEvent.valueOn,
            LibinputEvent.libinputEventPointerGetAxisValue,LibinputEvent.valueOff]
      | _ =>
        simp [clientSum,LibinputEvent.libinputEventPointerHasAxis,hp,LibinputEvent.valueOn,
          LibinputEvent.valueOff]
    rw [hcons,hone,ih,List.map_cons,List.map_cons,List.sum_cons,List.sum_cons]
    ring

theorem clientSum_v120 (a : ℕ) (l : List (LibinputEvent ℚ)) :
    clientSum LibinputEvent.libinputEventPointerGetScrollValueV120 a l =
      120 * clientSum LibinputEvent.libinputEventPointerGetAxisValue a l := by
  have h120 : ∀ e : LibinputEvent ℚ, e.libinputEventPointerGetScrollValueV120 a =
      120 * e.libinputEventPointerGetAxisValue a := by
    intro e
    change e.libinputEventPointerGetAxisValue a * (120.0 : ℚ) = _
    rw [mul_comm]
    norm_num
  simp only [clientSum,h120,List.sum_map_mul_left]

/-- The step of the axis with the code, if the observation is one read from a chosen device. -/
def wheelStep (sel : DevicePtr → Bool) (code : ℕ) : Obs F ℚ → ℤ
  | .processed p =>
    if sel p.device = true ∧ p.event.ev.eventType = .relative ∧ p.event.ev.code = code then
      p.event.ev.value
    else 0
  | _ => 0

/-- The sum of the steps read from the chosen devices. -/
def wheelStepSum (sel : DevicePtr → Bool) (code : ℕ) (out : List (Obs F ℚ)) : ℤ :=
  (out.map (wheelStep sel code)).sum

/-- The code of the wheel of an axis: vertical, then horizontal. -/
def wheelCode (a : Fin 2) : ℕ :=
  if a = 0 then RelativeAxisCode.relWheel else RelativeAxisCode.relHwheel

/-- The chosen devices among the mice. -/
def miceOf (ctx : LibinputContext F ℚ) (sel : DevicePtr → Bool) (d : DevicePtr) : Bool :=
  sel d && (ctx.devices[d]?).any LibinputDevice.isMouse

theorem clientSum_wheelEvents (a : ℕ) (d : DevicePtr) (te : TimedEvent) :
    clientSum LibinputEvent.libinputEventPointerGetAxisValue a (wheelEvents d te) =
      if te.ev.eventType = .relative ∧ (te.ev.code = RelativeAxisCode.relWheel ∨
        te.ev.code = RelativeAxisCode.relHwheel) then 15 * (te.ev.value : ℚ) else 0 := by
  have hscroll : ∀ axis, clientSum LibinputEvent.libinputEventPointerGetAxisValue a
      [.scroll .pointerScrollWheel d (systimeToUsec te.ev.time) axis te.ev.value 1] =
        15 * (te.ev.value : ℚ) := by
    intro axis
    change (te.ev.value : ℚ) * (15.0 : ℚ) + 0 = _
    rw [mul_comm]
    norm_num
  unfold wheelEvents
  by_cases htype : te.ev.eventType = .relative
  · rw [if_pos htype]
    by_cases hw : te.ev.code = RelativeAxisCode.relWheel
    · rw [if_pos hw,if_pos ⟨htype,.inl hw⟩,hscroll]
    · rw [if_neg hw]
      by_cases hh : te.ev.code = RelativeAxisCode.relHwheel
      · rw [if_pos hh,if_pos ⟨htype,.inr hh⟩,hscroll]
      · rw [if_neg hh,if_neg fun h => h.2.elim hw hh]
        rfl
  · rw [if_neg htype,if_neg fun h => htype h.1]
    rfl

/-- The wheel events of one observation carry fifteen times the steps of a mouse, whichever axis
the client asks for. -/
theorem RoutedBy.clientSum_wheel {ctx : LibinputContext F ℚ} {o : Obs F ℚ} (h : RoutedBy ctx o)
    (sel : DevicePtr → Bool) (a : ℕ) :
    clientSum LibinputEvent.libinputEventPointerGetAxisValue a
        ((o.queuedEvents.filter fun e => sel e.device).filter LibinputEvent.isWheel) =
      15 * ((wheelStep (miceOf ctx sel) RelativeAxisCode.relWheel o +
        wheelStep (miceOf ctx sel) RelativeAxisCode.relHwheel o : ℤ) : ℚ) := by
  cases o with
  | fd x => simp [Obs.queuedEvents,clientSum,wheelStep]
  | delivered e => simp [Obs.queuedEvents,clientSum,wheelStep]
  | queued e =>
    have hnil := filter_isWheel_eq_nil (l := [e].filter fun e => sel e.device) fun e' he' => by
      obtain rfl := List.mem_singleton.mp (List.mem_of_mem_filter he')
      exact h
    simp [Obs.queuedEvents,hnil,clientSum,wheelStep]
  | processed p =>
    obtain ⟨hown,dev,hdev,hwheel⟩ := h
    have hmouse : miceOf ctx sel p.device = (sel p.device && dev.isMouse) := by
      simp [miceOf,hdev]
    by_cases hsel : sel p.device = true
    · have hall : (p.out.filter fun e => sel e.device) = p.out :=
        List.filter_eq_self.mpr fun e he => by rw [hown e he,hsel]
      change clientSum _ a ((p.out.filter fun e => sel e.device).filter LibinputEvent.isWheel) = _
      rw [hall,hwheel]
      simp only [wheelStep]
      rw [hmouse,hsel,Bool.true_and]
      cases dev.isMouse with
      | false => simp [clientSum]
      | true =>
        rw [if_pos rfl,clientSum_wheelEvents]
        by_cases htype : p.event.ev.eventType = .relative
        · by_cases hw : p.event.ev.code = RelativeAxisCode.relWheel
          · simp [htype,hw,RelativeAxisCode.relWheel,RelativeAxisCode.relHwheel]
          · by_cases hh : p.event.ev.code = RelativeAxisCode.relHwheel
            · simp [htype,hh,RelativeAxisCode.relWheel,RelativeAxisCode.relHwheel]
            · simp [htype,hw,hh]
        · simp [htype]
    · have hnone : (p.out.filter fun e => sel e.device) = [] :=
        List.filter_eq_nil_iff.mpr fun e he => by rwa [hown e he]
      change clientSum _ a ((p.out.filter fun e => sel e.device).filter LibinputEvent.isWheel) = _
      rw [hnone]
      simp only [wheelStep]
      rw [hmouse,Bool.eq_false_iff.mpr hsel,Bool.false_and]
      simp [clientSum]

theorem clientSum_wheel {ctx : LibinputContext F ℚ} (sel : DevicePtr → Bool) (a : ℕ)
    (out : List (Obs F ℚ)) (h : ∀ o ∈ out, RoutedBy ctx o) :
    clientSum LibinputEvent.libinputEventPointerGetAxisValue a
        (((produced out).filter fun e => sel e.device).filter LibinputEvent.isWheel) =
      15 * ((wheelStepSum (miceOf ctx sel) RelativeAxisCode.relWheel out +
        wheelStepSum (miceOf ctx sel) RelativeAxisCode.relHwheel out : ℤ) : ℚ) := by
  induction out with
  | nil => simp [clientSum,wheelStepSum]
  | cons o out ih =>
    obtain ⟨ho,hout⟩ := List.forall_mem_cons.mp h
    rw [produced_cons,List.filter_append,List.filter_append,clientSum_append,ih hout,
      ho.clientSum_wheel sel a]
    simp only [wheelStepSum,List.map_cons,List.sum_cons]
    push_cast
    ring

variable [F32 F] [FloatCast F ℚ]

/-- In every run, for every choice of devices and each axis: the client ends with what the
backend emitted on the axis, and its 120ths with the wheel steps read, exactly when what was
emitted on the other axis adds up to nothing, and fifteen times the steps of both wheels of the
mice are the steps of the wheel of the axis. -/
theorem scroll_sums_iff (interface : LibinputInterface) (inotify : Bool) (calls : List (Call ℚ))
    (sel : DevicePtr → Bool) (a : Fin 2) :
    let run := (LibinputContext.new (F := F) interface inotify).runCalls calls
    let events := (produced run.2).filter fun e => sel e.device
    let scrolls := events.filter LibinputEvent.isScroll
    let wheels := events.filter LibinputEvent.isWheel
    (clientSum LibinputEvent.libinputEventPointerGetAxisValue a scrolls =
        (scrolls.map (LibinputEvent.valueOn a)).sum ∧
      clientSum LibinputEvent.libinputEventPointerGetScrollValueV120 a wheels =
        120 * (wheelStepSum sel (wheelCode a) run.2 : ℚ)) ↔
    ((scrolls.map (LibinputEvent.valueOff a)).sum = 0 ∧
      15 * (wheelStepSum (miceOf run.1 sel) RelativeAxisCode.relWheel run.2 +
        wheelStepSum (miceOf run.1 sel) RelativeAxisCode.relHwheel run.2) =
          wheelStepSum sel (wheelCode a) run.2) := by
  intro run events scrolls wheels
  rw [clientSum_axisValue,add_eq_left,clientSum_v120,
    clientSum_wheel sel a run.2 (runCalls_routed interface inotify calls)]
  refine and_congr_right fun _ => ?_
  rw [mul_right_inj' (by norm_num : (120 : ℚ) ≠ 0)]
  exact_mod_cast Iff.rfl

/-- A wheel turned one step down and one to the side: both are counted on the vertical axis,
fifteenfold. -/
theorem wheel_step_counted_fifteenfold :
    let run := (LibinputContext.new (F := ℚ) (D := ℚ) ⟨true,true⟩ false).runCalls
      [.addDevice "/dev/input/event3" ⟨5,some plainMouse⟩,
        .dispatch ⟨none,0,[],fun _ => .batch [⟨⟨1,.relative,RelativeAxisCode.relWheel,1⟩,0⟩,
          ⟨⟨2,.relative,RelativeAxisCode.relHwheel,1⟩,0⟩]⟩]
    clientSum LibinputEvent.libinputEventPointerGetAxisValue 0
        ((produced run.2).filter LibinputEvent.isScroll) ≠
      (((produced run.2).filter LibinputEvent.isScroll).map (LibinputEvent.valueOn 0)).sum ∧
    clientSum LibinputEvent.libinputEventPointerGetScrollValueV120 0
        ((produced run.2).filter LibinputEvent.isWheel) ≠
      120 * (wheelStepSum (fun _ => true) RelativeAxisCode.relWheel run.2 : ℚ) := by
  decide +kernel

end Sums

end LibinputRs
