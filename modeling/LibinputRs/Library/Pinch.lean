import LibinputRs.Library.Accounts

/-! Pinch sessions of a touchpad, over any stream of events and any settings: they begin,
update and end in order, with one finger count, under a finger that is down, and exclude the
other movement events. -/
namespace LibinputRs
open Automata

variable {F D : Type}

/-- One event for a touchpad with the settings it is processed under. -/
structure TouchInput (F : Type) where
  te : TimedEvent
  cfgTap : Bool
  cfgNat : Bool
  cfgAccel : F
  dwtActive : Bool

/-- The part of a pinch session an event is, with its finger count. -/
def pinchTag (e : LibinputEvent D) : Option (SessionTag ℤ) :=
  match e.eventType,e.payload with
  | .gesturePinchBegin,.gesturePinchBegin g => some (.begin g.fingerCount)
  | .gesturePinchUpdate,.gesturePinchUpdate g => some (.update g.fingerCount)
  | .gesturePinchEnd,.gesturePinchEnd g => some (.finish g.fingerCount)
  | _,_ => none

/-- The pinch events of a sequence. -/
def pinchTags (l : List (LibinputEvent D)) : List (SessionTag ℤ) := l.filterMap pinchTag

@[simp] theorem pinchTags_nil : pinchTags ([] : List (LibinputEvent D)) = [] := rfl

@[simp] theorem pinchTags_append (l m : List (LibinputEvent D)) :
    pinchTags (l ++ m) = pinchTags l ++ pinchTags m := List.filterMap_append

/-- The finger count of the session that is open after a sequence. -/
def pinchAfter (l : List (LibinputEvent D)) : Option (Option ℤ) := followAll none (pinchTags l)

theorem pinchAfter_append (l m : List (LibinputEvent D)) :
    pinchAfter (l ++ m) = (pinchAfter l).bind (followAll · (pinchTags m)) := by
  rw [pinchAfter,pinchTags_append,followAll_append]
  rfl

namespace TrackedDevice

/-- The session the device believes to be open. -/
def openPinch (td : TrackedDevice F D) : Option ℤ :=
  if td.pinchActive then some td.pinchFingers else none

theorem openPinch_of_gestureState {td : TrackedDevice F D} {touch pinch : Bool} {fingers : ℤ}
    {active : Option ℕ} (h : td.gestureState = (touch,pinch,fingers,active)) :
    td.openPinch = if pinch then some fingers else none := by
  simp only [gestureState,Prod.mk.injEq] at h
  rw [openPinch,h.2.1,h.2.2.1]

end TrackedDevice

/-- The device knows which session is open in the queue, has one open only under a finger, and
has queued no movement inside a session. -/
structure PinchTracked (rd : List InputEvent) (out : List (LibinputEvent D))
    (td : TrackedDevice F D) : Prop where
  session : pinchAfter out = some td.openPinch
  touch : td.pinchActive = true → KernelDown KeyCode.btnTouch rd
  exclusive : AtEach (fun front e => e.eventType.isMovement = true → pinchAfter front = some none) out

namespace PinchTracked
variable {rd : List InputEvent} {out es : List (LibinputEvent D)} {td td' : TrackedDevice F D}
  {ev : InputEvent}

/-- A step that queues no movement, from what its events do to the session. -/
theorem step (h : PinchTracked rd out td)
    (hsession : followAll td.openPinch (pinchTags es) = some td'.openPinch)
    (htouch : td'.pinchActive = true → KernelDown KeyCode.btnTouch (rd ++ [ev]))
    (hes : ∀ e ∈ es, e.eventType.isMovement = false) :
    PinchTracked (rd ++ [ev]) (out ++ es) td' := by
  refine ⟨?_,htouch,atEach_append.mpr ⟨h.exclusive,atEach_of_forall fun e he _ hmove => ?_⟩⟩
  · rw [pinchAfter_append,h.session]
    exact hsession
  · simp [hes e he] at hmove

/-- A step that queues no event of a pinch and leaves the session as it was. -/
theorem step_same (h : PinchTracked rd out td) (hstate : td'.gestureState.2.1 = td.pinchActive)
    (hfingers : td'.pinchFingers = td.pinchFingers) (hes : pinchTags es = [])
    (hev : ∀ code, ev.KeyWith code → code ≠ KeyCode.btnTouch)
    (hmove : td.pinchActive = true → ∀ e ∈ es, e.eventType.isMovement = false) :
    PinchTracked (rd ++ [ev]) (out ++ es) td' := by
  have hactive : td'.pinchActive = td.pinchActive := hstate
  have hopen : td'.openPinch = td.openPinch := by
    rw [TrackedDevice.openPinch,TrackedDevice.openPinch,hactive,hfingers]
  have hafter : ∀ front, (∃ back, es = front ++ back) → pinchAfter (out ++ front) =
      some td.openPinch := by
    rintro front ⟨back,rfl⟩
    have hnil : pinchTags front = [] := by
      rw [pinchTags_append,List.append_eq_nil_iff] at hes
      exact hes.1
    rw [pinchAfter_append,h.session,hnil]
    rfl
  refine ⟨?_,fun ht => ?_,atEach_append.mpr ⟨h.exclusive,?_⟩⟩
  · rw [hafter es ⟨[],by simp⟩,hopen]
  · exact (h.touch (hactive ▸ ht)).keep fun hrel => hev _ hrel.1 rfl
  · intro front e back heq hmoves
    rw [hafter front ⟨e :: back,heq⟩]
    cases hpinch : td.pinchActive with
    | true =>
      have hnot := hmove hpinch e (by simp [heq])
      simp [hmoves] at hnot
    | false => simp [TrackedDevice.openPinch,hpinch]

end PinchTracked

theorem pinchTags_of_movement {es : List (LibinputEvent D)}
    (h : ∀ e ∈ es, e.eventType.isMovement = true) : pinchTags es = [] := by
  refine List.filterMap_eq_nil_iff.mpr fun e he => ?_
  have hmove := h e he
  unfold pinchTag
  cases ht : e.eventType <;> simp_all [LibinputEventType.isMovement]

variable [F64 D]

@[simp] theorem pinchTags_begin (d : DevicePtr) (t : ℕ) (fingers : ℤ) :
    pinchTags ([.pinchBegin d t fingers] : List (LibinputEvent D)) = [.begin fingers] := rfl

@[simp] theorem pinchTags_update (d : DevicePtr) (t : ℕ) (fingers : ℤ) (scale angle : D) :
    pinchTags [.pinchUpdate d t fingers scale angle] = [.update fingers] := rfl

@[simp] theorem pinchTags_end (d : DevicePtr) (t : ℕ) (fingers : ℤ) (scale angle : D) :
    pinchTags [.pinchEnd d t fingers scale angle] = [.finish fingers] := rfl

namespace PinchTracked
variable {rd : List InputEvent} {out : List (LibinputEvent D)} {td : TrackedDevice F D}
  {ev : InputEvent} {r : TrackedDevice F D × List (LibinputEvent D)} {touch : Bool} {fingers : ℤ}
  {active : Option ℕ}

omit [F64 D] in
/-- A click leaves the session as it was and is no movement. -/
theorem clicked (h : PinchTracked rd out td) {code : ℕ} (hev : ev.KeyWith code)
    (hcode : code ≠ KeyCode.btnTouch)
    (hs : r.1.gestureState = (touch,td.pinchActive,td.pinchFingers,active))
    (hout : r.2 = [] ∨ ∃ d t code state, r.2 = [.button d t code state]) :
    PinchTracked (rd ++ [ev]) (out ++ r.2) r.1 := by
  refine h.step_same (congrArg (·.2.1) hs) (congrArg (·.2.2.1) hs) ?_ (fun code' hkey => ?_) ?_
  · rcases hout with hout | ⟨d,t,code,state,hout⟩ <;> rw [hout] <;> rfl
  · rw [← hkey.2,hev.2]
    exact hcode
  · rintro -
    rcases hout with hout | ⟨d,t,code,state,hout⟩ <;> rw [hout]
    · exact List.forall_mem_nil _
    · exact List.forall_mem_singleton.mpr rfl

/-- The lift ends the session that is open, before its tap. -/
theorem lifted (h : PinchTracked rd out td) {ends taps : List (LibinputEvent D)}
    (hends : (td.pinchActive = true ∧ ∃ d t scale angle,
        ends = [.pinchEnd d t td.pinchFingers scale angle]) ∨
      (td.pinchActive = false ∧ ends = []))
    (htags : pinchTags taps = []) (hquiet : ∀ e ∈ taps, e.eventType.isMovement = false)
    (hs : r.1.gestureState = (touch,false,fingers,active)) (hout : r.2 = ends ++ taps) :
    PinchTracked (rd ++ [ev]) (out ++ r.2) r.1 := by
  refine h.step ?_ (fun ht => ?_) ?_
  · rw [hout,pinchTags_append,htags,List.append_nil,TrackedDevice.openPinch_of_gestureState hs]
    rcases hends with ⟨hopen,d,t,scale,angle,rfl⟩ | ⟨hclosed,rfl⟩
    · simp [TrackedDevice.openPinch,hopen,followAll,follow]
    · simp [TrackedDevice.openPinch,hclosed]
  · rw [show r.1.pinchActive = false from congrArg (·.2.1) hs] at ht
    cases ht
  · rw [hout]
    intro e he
    rcases List.mem_append.mp he with he | he
    · rcases hends with ⟨_,d,t,scale,angle,rfl⟩ | ⟨_,rfl⟩
      · obtain rfl := List.mem_singleton.mp he
        rfl
      · cases he
    · exact hquiet e he

/-- A frame updates the session that is open, and moves or scrolls outside one only. -/
theorem framed (h : PinchTracked rd out td) (hev : ev.eventType = .synchronization)
    (hs : r.1.gestureState = td.gestureState)
    (hout : (td.pinchActive = true ∧ (r.2 = [] ∨ ∃ d t scale angle,
        r.2 = [.pinchUpdate d t td.pinchFingers scale angle])) ∨
      (td.pinchActive = false ∧ ∀ e ∈ r.2, e.eventType.isMovement = true)) :
    PinchTracked (rd ++ [ev]) (out ++ r.2) r.1 := by
  have hactive : r.1.pinchActive = td.pinchActive := congrArg (·.2.1) hs
  have hfingers : r.1.pinchFingers = td.pinchFingers := congrArg (·.2.2.1) hs
  have hnokey : ∀ code, ev.KeyWith code → code ≠ KeyCode.btnTouch := by
    intro code hkey
    have hsync := hkey.1
    rw [hev] at hsync
    cases hsync
  rcases hout with ⟨hopen,hout | ⟨d,t,scale,angle,hout⟩⟩ | ⟨hclosed,hout⟩
  · exact h.step_same hactive hfingers (by rw [hout]; rfl) hnokey (by simp [hout])
  · refine h.step ?_ (fun _ => ?_) ?_
    · rw [hout,TrackedDevice.openPinch_of_gestureState hs]
      simp [TrackedDevice.openPinch,hopen,followAll,follow]
    · exact (h.touch hopen).keep fun hrel => hnokey _ hrel.1 rfl
    · rw [hout]
      exact List.forall_mem_singleton.mpr rfl
  · refine h.step_same hactive hfingers (pinchTags_of_movement hout) hnokey fun hopen => ?_
    simp [hclosed] at hopen

/-- Every event of a touchpad keeps the session tracked, one case for an effect. -/
theorem effect (h : PinchTracked rd out td) (heff : TrackedDevice.TouchEffect td ev r) :
    PinchTracked (rd ++ [ev]) (out ++ r.2) r.1 := by
  cases heff with
  | contact hev hvalue hs hout =>
    refine h.step ?_ (fun _ => .press ⟨hev,hvalue⟩) (by simp [hout])
    rw [hout,TrackedDevice.openPinch_of_gestureState hs]
    rfl
  | pinchBegins hev hvalue fingers hclosed hs hout =>
    refine h.step ?_ (fun _ => .press ⟨hev,hvalue⟩) ?_
    · rw [hout,TrackedDevice.openPinch_of_gestureState hs]
      simp [TrackedDevice.openPinch,hclosed,followAll,follow]
    · rw [hout]
      exact List.forall_mem_singleton.mpr rfl
  | lift hev hvalue ends taps hends htaps hs hout =>
    have hends' : (td.pinchActive = true ∧ ∃ d t scale angle,
        ends = [.pinchEnd d t td.pinchFingers scale angle]) ∨
        (td.pinchActive = false ∧ ends = []) := by
      apply hends.imp_left
      rintro ⟨hopen,scale,angle,hends⟩
      exact ⟨hopen,_,_,scale,angle,hends⟩
    rcases htaps with rfl | rfl
    · exact h.lifted hends' rfl (List.forall_mem_nil _) hs hout
    · exact h.lifted hends' rfl (by simp [LibinputEventType.isMovement]) hs hout
  | leftPress hev hvalue mapped hmapped hs hout =>
    exact h.clicked hev (by decide) hs (.inr ⟨_,_,_,_,hout⟩)
  | leftRelease hev hvalue hs hout =>
    apply h.clicked hev (by decide) hs
    split_ifs at hout
    · exact .inr ⟨_,_,_,_,hout⟩
    · exact .inl hout
  | otherButton code hev hcode hleft hs hout =>
    refine h.clicked hev ?_ hs (.inr ⟨_,_,_,_,hout⟩)
    rintro rfl
    cases hcode
  | quiet hev hs hout =>
    exact h.step_same (congrArg (·.2.1) hs) (congrArg (·.2.2.1) hs) (by rw [hout]; rfl)
      (fun code hkey => (hev code hkey).1) (by simp [hout])
  | frame hev hs hout =>
    apply h.framed hev hs
    rcases hout with ⟨hopen,hout | ⟨scale,angle,hout⟩⟩ | ⟨hclosed,hout⟩
    · exact .inl ⟨hopen,.inl hout⟩
    · exact .inl ⟨hopen,.inr ⟨_,_,scale,angle,hout⟩⟩
    · exact .inr ⟨hclosed,fun e he => (hout e he).2⟩

end PinchTracked

theorem TrackedDevice.processAbsoluteAxis_x (td : TrackedDevice F D) {te : TimedEvent}
    (hx : te.ev.AxisWith AbsoluteAxisCode.absX) :
    td.processAbsoluteAxis te = td.positionX te := by
  unfold processAbsoluteAxis
  simp [hx.2,AbsoluteAxisCode.absX,AbsoluteAxisCode.absMtSlot,AbsoluteAxisCode.absMtTrackingId,
    AbsoluteAxisCode.absMtPositionX,AbsoluteAxisCode.absMtPositionY,AbsoluteAxisCode.absMtDistance]

theorem TrackedDevice.processAbsoluteAxis_y (td : TrackedDevice F D) {te : TimedEvent}
    (hy : te.ev.AxisWith AbsoluteAxisCode.absY) :
    td.processAbsoluteAxis te = td.positionY te := by
  unfold processAbsoluteAxis
  simp [hy.2,AbsoluteAxisCode.absX,AbsoluteAxisCode.absY,AbsoluteAxisCode.absMtSlot,
    AbsoluteAxisCode.absMtTrackingId,AbsoluteAxisCode.absMtPositionX,
    AbsoluteAxisCode.absMtPositionY,AbsoluteAxisCode.absMtDistance]

variable [F32 F] [FloatCast F D]

/-- One turn of the touchpad handler. -/
def TrackedDevice.touchStep (td : TrackedDevice F D) (i : TouchInput F) :
    TrackedDevice F D × List (LibinputEvent D) :=
  td.processAbsoluteEvent i.te i.cfgTap i.cfgNat i.cfgAccel i.dwtActive

theorem TrackedDevice.touchStep_key (td : TrackedDevice F D) (i : TouchInput F)
    (hkey : i.te.ev.eventType = .key) : td.touchStep i =
      (if i.dwtActive then { td with tapEmitted := true } else td).processAbsoluteKey i.te i.cfgTap
        i.dwtActive := by
  unfold TrackedDevice.touchStep TrackedDevice.processAbsoluteEvent
  rw [hkey]

theorem TrackedDevice.touchStep_absolute (td : TrackedDevice F D) (i : TouchInput F)
    (habs : i.te.ev.eventType = .absolute) : td.touchStep i =
      ((if i.dwtActive then { td with tapEmitted := true } else td).processAbsoluteAxis i.te,[]) := by
  unfold TrackedDevice.touchStep TrackedDevice.processAbsoluteEvent
  rw [habs]

theorem TrackedDevice.touchStep_synchronization (td : TrackedDevice F D) (i : TouchInput F)
    (hsyn : i.te.ev.eventType = .synchronization) : td.touchStep i =
      (if i.dwtActive then { td with tapEmitted := true } else td).processSyn i.te i.cfgNat
        i.cfgAccel i.dwtActive := by
  unfold TrackedDevice.touchStep TrackedDevice.processAbsoluteEvent
  rw [hsyn]

/-- Only keys and frames are answered. -/
theorem TrackedDevice.touchStep_silent (td : TrackedDevice F D) (i : TouchInput F)
    (hkey : i.te.ev.eventType ≠ .key) (hsyn : i.te.ev.eventType ≠ .synchronization) :
    (td.touchStep i).2 = [] := by
  unfold TrackedDevice.touchStep TrackedDevice.processAbsoluteEvent
  cases htype : i.te.ev.eventType with
  | key => exact absurd htype hkey
  | synchronization => exact absurd htype hsyn
  | absolute => rfl
  | relative => rfl
  | other n => rfl

/-- After any stream the device knows which session is open. -/
theorem run_pinchTracked (device : EvdevDevice) (path : PathBuf) (d : DevicePtr)
    (inputs : List (TouchInput F)) :
    PinchTracked (inputs.map (·.te.ev))
      (run TrackedDevice.touchStep (.new device path d : TrackedDevice F D) inputs).2
      (run TrackedDevice.touchStep (.new device path d : TrackedDevice F D) inputs).1 := by
  have hinit : PinchTracked [] ([] : List (LibinputEvent D))
      (.new device path d : TrackedDevice F D) := ⟨rfl,(nomatch ·),atEach_nil⟩
  exact run_history TrackedDevice.touchStep
    (fun (is : List (TouchInput F)) (out : List (LibinputEvent D)) (td : TrackedDevice F D) =>
      PinchTracked (is.map (·.te.ev)) out td)
    (fun is out td i h => by
      rw [List.map_append]
      exact h.effect (td.processAbsoluteEvent_effect i.te _ _ _ _)) hinit inputs

/-- Over any stream, under any settings: the pinch events are complete sessions followed by an
unfinished one at most, each with one finger count; a session is open only while `BTN_TOUCH` is
down; inside a session no motion, scroll or swipe is queued. -/
theorem pinch_sessions (device : EvdevDevice) (path : PathBuf) (d : DevicePtr)
    (inputs : List (TouchInput F)) :
    let out := (run TrackedDevice.touchStep (.new device path d) inputs :
      TrackedDevice F D × List (LibinputEvent D)).2
    pinchTags out ∈ prefixes (KStar.kstar (session ℤ)) ∧
      (∀ fingers, pinchAfter out = some (some fingers) →
        KernelDown KeyCode.btnTouch (inputs.map (·.te.ev))) ∧
      AtEach (fun front e => e.eventType.isMovement = true → pinchAfter front = some none) out := by
  have hrun := run_pinchTracked (D := D) device path d inputs
  refine ⟨mem_prefixes_of_followAll hrun.session,fun fingers hopen => hrun.touch ?_,hrun.exclusive⟩
  rw [hrun.session,TrackedDevice.openPinch] at hopen
  by_contra hclosed
  simp [hclosed] at hopen

end LibinputRs
