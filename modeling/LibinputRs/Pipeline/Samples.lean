import LibinputRs.Backend.Drain
import LibinputRs.Daemon.DeviceWrapper

/-! Single-touch streams, the two programs as machines that read them, what is compared of their
outputs, and the displacement that is measured against a coordinate from before a stall. -/
namespace LibinputRs
open Automata

/-- The three buttons both programs forward. -/
inductive ClickButton
  | left
  | right
  | middle
  deriving DecidableEq, Repr

def ClickButton.code : ClickButton → ℕ
  | .left => KeyCode.btnLeft
  | .right => KeyCode.btnRight
  | .middle => KeyCode.btnMiddle

/-- The events of a single-touch stream. -/
inductive SingleTouch
  | btnTouch (value : ℤ)
  | button (b : ClickButton) (value : ℤ)
  | absX (value : ℤ)
  | absY (value : ℤ)
  | synReport
  deriving DecidableEq, Repr

def SingleTouch.toEvent (time : ℤ) : SingleTouch → InputEvent
  | .btnTouch value => ⟨time,.key,KeyCode.btnTouch,value⟩
  | .button b value => ⟨time,.key,b.code,value⟩
  | .absX value => ⟨time,.absolute,AbsoluteAxisCode.absX,value⟩
  | .absY value => ⟨time,.absolute,AbsoluteAxisCode.absY,value⟩
  | .synReport => ⟨time,.synchronization,0,0⟩

/-- One event with its kernel time, the clock when it is processed, and the typing time under
which it is. -/
structure Sample where
  time : ℤ
  input : SingleTouch
  now : Instant
  typing : Option Instant
  deriving DecidableEq, Repr

def Sample.event (x : Sample) : TimedEvent := ⟨x.input.toEvent x.time,x.now⟩

/-- The typing window is open at the sample. -/
def Sample.dwt (cfgDwt : Bool) (x : Sample) : Bool := dwtActive cfgDwt x.typing x.now

/-- An opened node with absolute axes. -/
abbrev AbsoluteDevice := { d : EvdevDevice // d.supports .absolute = true }

variable {F D : Type}

/-- The daemon's configuration for the same settings. -/
def InputConfig.ofSettings (cfg : Settings F) : InputConfig F :=
  ⟨cfg.cfgTap,cfg.cfgNat,cfg.cfgAccel,cfg.cfgDwt⟩

section Machines
variable [F32 F]

/-- The library reading a sample. -/
def libraryStep [F64 D] [FloatCast F D] (cfg : Settings F) (td : TrackedDevice F D) (x : Sample) :
    TrackedDevice F D × List (LibinputEvent D) :=
  td.processAbsoluteEvent x.event cfg.cfgTap cfg.cfgNat cfg.cfgAccel (x.dwt cfg.cfgDwt)

/-- The daemon reading a sample. -/
def daemonStep (cfg : Settings F) (s : DeviceWrapper F × VirtualDevice) (x : Sample) :
    (DeviceWrapper F × VirtualDevice) × List Write :=
  match DeviceWrapper.processEvent (.ofSettings cfg) x.typing x.event s with
  | (s,writes,_) => (s,writes)

end Machines

section Views
variable [F64 D]

/-- The motion among queued events, zero when there is none. -/
def libraryMotion (out : List (LibinputEvent D)) : D × D :=
  (out.filterMap fun e =>
    match e.payload with
    | .pointerMotion m => some (m.dx,m.dy)
    | _ => none).headD (F64.ofI32 0,F64.ofI32 0)

/-- The code and state of each button event queued. -/
def libraryButtons (out : List (LibinputEvent D)) : List (ℕ × ℕ) :=
  out.filterMap fun e =>
    match e.payload with
    | .pointerButton b => some (b.button,b.state)
    | _ => none

/-- What is written on one relative axis. -/
def relSum (code : ℕ) (writes : List Write) : ℤ :=
  (writes.filterMap fun w =>
    if w.ev.eventType = .relative ∧ w.ev.code = code then some w.ev.value else none).sum

/-- The motion among writes, zero when there is none. -/
def daemonMotion (writes : List Write) : D × D :=
  (F64.ofI32 (relSum RelativeAxisCode.relX writes),F64.ofI32 (relSum RelativeAxisCode.relY writes))

/-- The code and state of each button event written. -/
def daemonButtons (writes : List Write) : List (ℕ × ℕ) :=
  writes.filterMap fun w =>
    if w.ev.eventType = .key then some (w.ev.code,asU32 w.ev.value) else none

/-- The motions at the frame ends of a stream. -/
def reportedMotions {α : Type} (motion : α → D × D) (xs : List Sample) (answers : List α) :
    List (D × D) :=
  (xs.zip answers).filterMap fun p => if p.1.input = .synReport then some (motion p.2) else none

omit [F64 D] in
theorem reportedMotions_cons {α : Type} (motion : α → D × D) (x : Sample) (xs : List Sample)
    (a : α) (answers : List α) : reportedMotions motion (x :: xs) (a :: answers) =
      (if x.input = .synReport then [motion a] else []) ++ reportedMotions motion xs answers := by
  unfold reportedMotions
  rw [List.zip_cons_cons,List.filterMap_cons]
  split_ifs <;> rfl

variable [F32 F] [FloatCast F D]

/-- Both programs report the same motion at every frame end and the same buttons. -/
def SamePipeline (cfg : Settings F) (td : TrackedDevice F D) (s : DeviceWrapper F × VirtualDevice)
    (xs : List Sample) : Prop :=
  reportedMotions libraryMotion xs (answers (libraryStep cfg) td xs) =
      reportedMotions daemonMotion xs (answers (daemonStep cfg) s xs) ∧
    libraryButtons (run (libraryStep cfg) td xs).2 = daemonButtons (run (daemonStep cfg) s xs).2

instance [DecidableEq D] (cfg : Settings F) (td : TrackedDevice F D)
    (s : DeviceWrapper F × VirtualDevice) (xs : List Sample) : Decidable (SamePipeline cfg td s xs) :=
  inferInstanceAs (Decidable (_ ∧ _))

end Views

/-- What the frame in progress owes to one axis: the coordinate stored since the touch-down,
whether a stall has come between, and the displacement measured against such a coordinate. -/
structure StaleAxis where
  stored : Option ℤ
  stale : Bool
  extra : ℤ
  deriving DecidableEq, Repr

namespace StaleAxis

/-- A position event on the axis itself. -/
def measure (stalled : Bool) (value : ℤ) (a : StaleAxis) : StaleAxis where
  stored := some value
  stale := false
  extra := if !stalled && a.stale then TrackedDevice.accumulate a.extra a.stored value else a.extra

/-- A position event on the other axis. -/
def stall (stalled : Bool) (a : StaleAxis) : StaleAxis := { a with stale := a.stale || stalled }

/-- A touch-down forgets the coordinate. -/
def forget (a : StaleAxis) : StaleAxis := { a with stored := none, stale := false }

/-- A frame end settles the account. -/
def settle (a : StaleAxis) : StaleAxis := { a with extra := 0 }

end StaleAxis

/-- The two axes, and the instant of the last position event. -/
structure Stale where
  last : Option Instant
  x : StaleAxis
  y : StaleAxis
  deriving DecidableEq, Repr

namespace Stale

/-- Nothing stored, nothing owed. -/
def fresh : Stale := ⟨none,⟨none,false,0⟩,⟨none,false,0⟩⟩

/-- A position event now comes more than 50 ms after the last one. -/
def stalled (now : Instant) (g : Stale) : Bool :=
  g.last.any fun last => decide (fromMillis 50 < last.elapsed now)

def next (g : Stale) (x : Sample) : Stale :=
  match x.input with
  | .btnTouch value =>
    if value ≠ 0 then { g with x := g.x.forget, y := g.y.forget }
    else { g with x := g.x.forget.settle, y := g.y.forget.settle }
  | .button _ _ => g
  | .absX value => ⟨some x.now,g.x.measure (g.stalled x.now) value,g.y.stall (g.stalled x.now)⟩
  | .absY value => ⟨some x.now,g.x.stall (g.stalled x.now),g.y.measure (g.stalled x.now) value⟩
  | .synReport => { g with x := g.x.settle, y := g.y.settle }

/-- The frame that ends at the sample is reported with nothing owed. -/
def Settled (cfgDwt : Bool) (g : Stale) (x : Sample) : Prop :=
  x.input = .synReport → x.dwt cfgDwt = false → g.x.extra = 0 ∧ g.y.extra = 0

/-- Every reported frame of the stream is. -/
def AllSettled (cfgDwt : Bool) : Stale → List Sample → Prop
  | _, [] => True
  | g, x :: xs => g.Settled cfgDwt x ∧ AllSettled cfgDwt (g.next x) xs

instance (cfgDwt : Bool) (g : Stale) (x : Sample) : Decidable (g.Settled cfgDwt x) :=
  inferInstanceAs (Decidable (_ → _))

instance AllSettled.decide (cfgDwt : Bool) : (g : Stale) → (xs : List Sample) →
    Decidable (g.AllSettled cfgDwt xs)
  | _, [] => inferInstanceAs (Decidable True)
  | g, x :: xs => @instDecidableAnd _ _ _ (AllSettled.decide cfgDwt (g.next x) xs)

end Stale
end LibinputRs
