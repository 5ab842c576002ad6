import LibinputRs.Automata.Frames
import LibinputRs.Daemon.Reliable
import LibinputRs.Library.Accounts

/-! What becomes of the frames of a mouse. The daemon passes every event on by itself, and the
virtual device ends a frame after each, so that only frames of one event come through as they
are. -/
namespace LibinputRs
open Automata

variable {F : Type}

/-- The type of an event, its code and its value. -/
abbrev EventContent := EventType × ℕ × ℤ

/-- Frames of `KEY` and `REL` events. -/
def eventFraming : Framing InputEvent EventContent where
  ends ev := decide ev.IsReport
  content ev :=
    if ev.eventType = .key ∨ ev.eventType = .relative then some (ev.eventType,ev.code,ev.value)
    else none
  content_of_end ev h := by
    rw [if_neg]
    rw [(of_decide_eq_true h).1]
    simp

/-- The frames in which a device reports, without those in which there is no `KEY` or `REL` event. -/
def framesRead (rd : List InputEvent) : List (List EventContent) := eventFraming.frames rd

/-- The frames that the virtual device shows: what the kernel has accepted and passes on. -/
def framesShown (writes : List Write) : List (List EventContent) :=
  eventFraming.frames
    (((writes.filter (·.accepted)).map (·.ev)).filter fun ev =>
      VirtualDevice.declares ev.eventType ev.code)

namespace DeviceWrapper
variable [F32 F]

/-- All events of a relative device are passed on. -/
theorem run_relative (cfg : InputConfig F) {w : DeviceWrapper F} (habs : w.isAbsolute = false)
    (events : List WrapperInput) :
    (run (eventStep cfg) w events).2 = (events.map (·.te.ev)).flatMap accepted := by
  induction events generalizing w with
  | nil => rfl
  | cons i events ih =>
    have hstep : (w.eventStep cfg i).2 = accepted i.te.ev :=
      congrArg Prod.snd (reliably_processEvent_relative cfg i.typing i.te habs)
    rw [run_cons,hstep,ih ((eventStep_isAbsolute cfg w i).trans habs)]
    rfl

/-- The kernel has accepted each event, and after it the end of a frame. -/
theorem accepted_events (rd : List InputEvent) :
    ((rd.flatMap accepted).filter (·.accepted)).map Write.ev =
      rd.flatMap fun ev => [ev,.synReport] := by
  induction rd with
  | nil => rfl
  | cons ev rd ih =>
    rw [List.flatMap_cons,List.flatMap_cons,← ih]
    rfl

/-- For every stream of a mouse: the virtual device shows the frames that were read exactly if each
of them has a single event, which the virtual device declares. -/
theorem passthrough_iff (cfg : InputConfig F) {w : DeviceWrapper F} (habs : w.isAbsolute = false)
    (events : List WrapperInput) :
    framesShown (run (eventStep cfg) w events).2 = framesRead (events.map (·.te.ev)) ↔
      ∀ frame ∈ framesRead (events.map (·.te.ev)), frame.length ≤ 1 ∧
        ∀ e ∈ frame, VirtualDevice.declares e.1 e.2.1 = true := by
  have hends : ∀ ev : InputEvent, eventFraming.ends ev = true →
      VirtualDevice.declares ev.eventType ev.code = true := by
    intro ev hev
    rw [(of_decide_eq_true hev).1]
    rfl
  have hkept : ∀ (ev : InputEvent) (e : EventContent), eventFraming.content ev = some e →
      VirtualDevice.declares e.1 e.2.1 = VirtualDevice.declares ev.eventType ev.code := by
    intro ev e he
    obtain ⟨_,hev⟩ := Option.ite_none_right_eq_some.mp he
    rw [← Option.some.inj hev]
  rw [run_relative cfg habs,framesShown,accepted_events,eventFraming.frames_filter hends,
    (eventFraming.restrict _).frames_flatMap_pair (by decide)]
  exact eventFraming.frames_pair_eq_iff _ (eventFraming.filterMap_restrict hkept _)

/-- A mouse that has just been opened. -/
def openedMouse : DeviceWrapper ℚ := .new ⟨plainMouse,6,true⟩ "/dev/input/event4"

/-- The events of a stream, each a type, a code and a value. -/
def mouseStream (events : List EventContent) : List WrapperInput :=
  events.map fun e => ⟨⟨⟨1,e.1,e.2.1,e.2.2⟩,0⟩,none⟩

/-- One step to the right and one down in a frame: they come through as two frames. -/
theorem diagonal_frame_split :
    let events := mouseStream [(.relative,RelativeAxisCode.relX,1),(.relative,RelativeAxisCode.relY,1),
      (.synchronization,0,0)]
    framesShown (run (eventStep .default) openedMouse events).2 ≠
      framesRead (events.map (·.te.ev)) := by
  decide +kernel

/-- A step and a click, in a frame each. -/
def stepAndClick : List WrapperInput :=
  mouseStream [(.relative,RelativeAxisCode.relX,1),(.synchronization,0,0),
    (.key,KeyCode.btnLeft,1),(.synchronization,0,0)]

theorem step_and_click_shown : framesShown (run (eventStep .default) openedMouse stepAndClick).2 =
    framesRead (stepAndClick.map (·.te.ev)) :=
  (passthrough_iff .default (by decide) stepAndClick).mpr (by decide +kernel)

end DeviceWrapper
end LibinputRs
