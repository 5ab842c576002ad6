import LibinputRs.Backend.TouchpadClock
import LibinputRs.Library.Accounts

/-! What a touchpad handler keeps of the position of the finger, and what an event leaves of it in
the library and in the daemon. They differ in what a stall drops. -/
namespace LibinputRs

namespace InputEvent
variable {ev : InputEvent} {code : ℕ}

/-- Touches, coordinates and the ends of frames are events of three types. -/
theorem AxisWith.not_touch (h : ev.AxisWith code) : ¬ ev.IsTouch :=
  fun ht => by cases ht.1.symm.trans h.1

theorem IsReport.not_touch (h : ev.IsReport) : ¬ ev.IsTouch :=
  fun ht => by cases ht.1.symm.trans h.1

theorem IsReport.not_axis (h : ev.IsReport) : ¬ ev.AxisWith code :=
  fun ha => by cases ha.1.symm.trans h.1

theorem IsReport.not_position (h : ev.IsReport) : ¬ ev.IsPosition :=
  fun hp => by cases hp.1.symm.trans h.1

end InputEvent

/-- The stored coordinate of each axis, the displacement since the last `SYN_REPORT`, and the
instant of the last position event. -/
structure Pointing where
  lastX : Option ℤ
  lastY : Option ℤ
  currentDx : ℤ
  currentDy : ℤ
  lastMovementTime : Option Instant
  deriving DecidableEq, Repr

namespace Pointing
variable (p : Pointing)

def stalled (now : Instant) : Bool := stalledSince p.lastMovementTime now

/-- `BTN_TOUCH`: a lift drops the displacement as well. -/
def touch (value : ℤ) : Pointing :=
  if value ≠ 0 then { p with lastX := none, lastY := none }
  else { p with lastX := none, lastY := none, currentDx := 0, currentDy := 0 }

/-- `ABS_X`, where a stall drops the stored coordinate of this axis. -/
def moveX (now : Instant) (val : ℤ) : Pointing :=
  { p with
    lastMovementTime := some now
    currentDx := TrackedDevice.accumulate p.currentDx (if p.stalled now then none else p.lastX) val
    lastX := some val }

/-- `ABS_Y`, where a stall drops the stored coordinate of this axis. -/
def moveY (now : Instant) (val : ℤ) : Pointing :=
  { p with
    lastMovementTime := some now
    currentDy := TrackedDevice.accumulate p.currentDy (if p.stalled now then none else p.lastY) val
    lastY := some val }

def report : Pointing := { p with currentDx := 0, currentDy := 0 }

/-- What an event leaves of it in the library. -/
def next (te : TimedEvent) : Pointing :=
  if te.ev.IsTouch then p.touch te.ev.value
  else if te.ev.AxisWith AbsoluteAxisCode.absX then p.moveX te.now te.ev.value
  else if te.ev.AxisWith AbsoluteAxisCode.absY then p.moveY te.now te.ev.value
  else if te.ev.IsReport then p.report
  else p

/-- In the daemon a position event after a stall drops both stored coordinates first. -/
def shared (te : TimedEvent) : Pointing :=
  if te.ev.IsPosition ∧ p.stalled te.now = true then { p with lastX := none, lastY := none } else p

/-- What an event leaves of it in the daemon. -/
def nextShared (te : TimedEvent) : Pointing := (p.shared te).next te

variable {p} {te : TimedEvent}

theorem next_touch (h : te.ev.IsTouch) : p.next te = p.touch te.ev.value := if_pos h

theorem next_of_key (hkey : te.ev.eventType = .key) (h : ¬ te.ev.IsTouch) : p.next te = p := by
  unfold next InputEvent.AxisWith InputEvent.IsReport
  simp [h,hkey]

theorem next_of_absolute (habs : te.ev.eventType = .absolute) : p.next te =
    if te.ev.code = AbsoluteAxisCode.absX then p.moveX te.now te.ev.value
    else if te.ev.code = AbsoluteAxisCode.absY then p.moveY te.now te.ev.value else p := by
  unfold next InputEvent.AxisWith InputEvent.IsTouch InputEvent.KeyWith InputEvent.IsReport
  simp [habs]

theorem next_of_other (hkey : te.ev.eventType ≠ .key) (habs : te.ev.eventType ≠ .absolute)
    (h : ¬ te.ev.IsReport) : p.next te = p := by
  unfold next InputEvent.AxisWith InputEvent.IsTouch InputEvent.KeyWith
  simp [hkey,habs,h]

theorem next_x (h : te.ev.AxisWith AbsoluteAxisCode.absX) :
    p.next te = p.moveX te.now te.ev.value := by
  rw [next_of_absolute h.1,if_pos h.2]

theorem next_y (h : te.ev.AxisWith AbsoluteAxisCode.absY) :
    p.next te = p.moveY te.now te.ev.value := by
  rw [next_of_absolute h.1,if_neg (by rw [h.2]; decide),if_pos h.2]

theorem next_report (h : te.ev.IsReport) : p.next te = p.report := by
  unfold next InputEvent.AxisWith InputEvent.IsTouch InputEvent.KeyWith
  simp [h.1,h]

theorem nextShared_x (h : te.ev.AxisWith AbsoluteAxisCode.absX) : p.nextShared te =
    { p.moveX te.now te.ev.value with
      lastY := if p.stalled te.now then none else p.lastY } := by
  have hshared : p.shared te =
      if p.stalled te.now then { p with lastX := none, lastY := none } else p := by
    unfold shared
    simp [show te.ev.IsPosition from ⟨h.1,.inl h.2⟩]
  rw [nextShared,next_x h,hshared]
  cases hstalled : p.stalled te.now with
  | true => simp [moveX,hstalled]
  | false => rfl

theorem nextShared_y (h : te.ev.AxisWith AbsoluteAxisCode.absY) : p.nextShared te =
    { p.moveY te.now te.ev.value with
      lastX := if p.stalled te.now then none else p.lastX } := by
  have hshared : p.shared te =
      if p.stalled te.now then { p with lastX := none, lastY := none } else p := by
    unfold shared
    simp [show te.ev.IsPosition from ⟨h.1,.inr h.2⟩]
  rw [nextShared,next_y h,hshared]
  cases hstalled : p.stalled te.now with
  | true => simp [moveY,hstalled]
  | false => rfl

theorem nextShared_of_not_position (h : ¬ te.ev.IsPosition) : p.nextShared te = p.next te := by
  rw [nextShared,shared,if_neg fun hs => h hs.1]

/-- An event that is no touch, no position and no end of a frame. -/
theorem next_of_neutral (htouch : ¬ te.ev.IsTouch) (hpos : ¬ te.ev.IsPosition)
    (hreport : ¬ te.ev.IsReport) : p.next te = p := by
  have hx : ¬ te.ev.AxisWith AbsoluteAxisCode.absX := fun h => hpos ⟨h.1,.inl h.2⟩
  have hy : ¬ te.ev.AxisWith AbsoluteAxisCode.absY := fun h => hpos ⟨h.1,.inr h.2⟩
  rw [next,if_neg htouch,if_neg hx,if_neg hy,if_neg hreport]

end Pointing
end LibinputRs
