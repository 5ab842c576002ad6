import LibinputRs.Backend.TouchpadSteps
import LibinputRs.Daemon.EventLoop

/-! What one event can do to a wrapper, whatever the branch and whatever becomes of the writes:
it keeps the identity, it changes the keyboard state only as `trackKey` does, and a touchpad in
the typing window writes no motion and no tap. -/
namespace LibinputRs
open Automata

variable {F : Type}

namespace DeviceWrapper

/-- The fields fixed when the node was opened. -/
def identity (w : DeviceWrapper F) : Device × PathBuf × Bool × Bool :=
  (w.device,w.path,w.isAbsolute,w.isKeyboard)

/-- The keyboard state, which only the bookkeeping of key events touches. -/
def keyState (w : DeviceWrapper F) : Option Instant × Bool × Bool :=
  (w.lastTypingTime,w.ctrlPressed,w.altPressed)

section Frame
variable {α : Type} (read : DeviceWrapper F → α)

/-- The bookkeeping of keys keeps whatever depends neither on the keys held nor on the typing
time. -/
theorem trackKey_frame
    (hread : ∀ (w : DeviceWrapper F) ctrl alt typing,
      read { w with
        ctrlPressed := ctrl
        altPressed := alt
        lastTypingTime := typing } = read w)
    (te : TimedEvent) (w : DeviceWrapper F) : read (w.trackKey te) = read w := by
  unfold trackKey
  split_ifs
  · exact hread w _ _ _
  · rfl

/-- A click keeps whatever does not depend on the button being clicked. -/
theorem mapClick_frame
    (hread : ∀ (w : DeviceWrapper F) active, read { w with activeClickButton := active } = read w)
    (code : ℕ) (value : ℤ) (w : DeviceWrapper F) :
    read (w.mapClick code value).1 = read w := by
  unfold mapClick
  by_cases hleft : code = KeyCode.btnLeft
  · rw [if_pos hleft]
    by_cases hdown : value ≠ 0
    · rw [if_pos hdown]
      exact hread w _
    · rw [if_neg hdown]
      exact hread w none
  · rw [if_neg hleft]

/-- A position keeps whatever does not depend on positions. -/
theorem processAxis_frame
    (hread : ∀ (w : DeviceWrapper F) x y dx dy last,
      read { w with
        lastX := x
        lastY := y
        currentDx := dx
        currentDy := dy
        lastMovementTime := last } = read w)
    (te : TimedEvent) (w : DeviceWrapper F) : read (w.processAxis te) = read w := by
  have hdrop : read (w.dropStalled te) = read w := by
    unfold dropStalled
    split_ifs
    · exact hread w _ _ w.currentDx w.currentDy _
    · rfl
  generalize hw' : w.dropStalled te = w' at hdrop
  unfold processAxis
  rw [hw',← hdrop]
  dsimp only
  split_ifs
  · exact hread w' _ w'.lastY _ w'.currentDy w'.lastMovementTime
  · exact hread w' w'.lastX _ w'.currentDx _ w'.lastMovementTime
  · rfl

end Frame

theorem trackKey_identity (te : TimedEvent) (w : DeviceWrapper F) :
    (w.trackKey te).identity = w.identity :=
  trackKey_frame identity (fun _ _ _ _ => rfl) te w

/-- `BTN_TOUCH` itself is not forwarded. -/
theorem forwardButton_touch {te : TimedEvent} (h : te.ev.code = KeyCode.btnTouch) :
    forwardButton te = (.skip : Step F) := by
  funext s
  unfold forwardButton mapClick
  rw [h,if_neg (by decide)]
  rfl

/-- A step that leaves identity and keyboard state alone, writing what it likes. -/
def Tracks (w₀ : DeviceWrapper F) (p : Step F) : Prop :=
  p.Ensures (fun s => s.1.identity = w₀.identity ∧ s.1.keyState = w₀.keyState) fun _ => True

namespace Tracks
variable {w₀ : DeviceWrapper F} {p q : Step F}

theorem skip : Tracks w₀ .skip := Fallible.Ensures.skip

theorem andThen (hp : Tracks w₀ p) (hq : Tracks w₀ q) : Tracks w₀ (p.andThen q) :=
  Fallible.Ensures.andThen hp hq

theorem ite {c : Prop} {_ : Decidable c} (hp : Tracks w₀ p) (hq : Tracks w₀ q) :
    Tracks w₀ (if c then p else q) := Fallible.Ensures.ite (fun _ => hp) fun _ => hq

theorem emitRaw (ev : InputEvent) : Tracks w₀ (emitRaw ev) :=
  fun _ hs => ⟨hs,fun _ _ => trivial⟩

theorem modify {f : DeviceWrapper F → DeviceWrapper F} (hid : ∀ w, (f w).identity = w.identity)
    (hkey : ∀ w, (f w).keyState = w.keyState) : Tracks w₀ (modify f) :=
  Fallible.Ensures.update fun s hs => ⟨(hid s.1).trans hs.1,(hkey s.1).trans hs.2⟩

end Tracks

variable [F32 F] {w₀ : DeviceWrapper F}

omit [F32 F] in
theorem mapClick_keeps (code : ℕ) (value : ℤ) (w : DeviceWrapper F) :
    (w.mapClick code value).1.identity = w.identity ∧
      (w.mapClick code value).1.keyState = w.keyState :=
  ⟨mapClick_frame identity (fun _ _ => rfl) code value w,
    mapClick_frame keyState (fun _ _ => rfl) code value w⟩

omit [F32 F] in
theorem forwardButton_tracks (te : TimedEvent) : Tracks w₀ (forwardButton te) := by
  intro s hs
  obtain ⟨hid,hkey⟩ := mapClick_keeps te.ev.code te.ev.value s.1
  unfold forwardButton
  dsimp only
  split_ifs
  · exact Tracks.emitRaw _ _ ⟨hid.trans hs.1,hkey.trans hs.2⟩
  · exact ⟨⟨hid.trans hs.1,hkey.trans hs.2⟩,List.forall_mem_nil _⟩

omit [F32 F] in
theorem processTouchKey_tracks (te : TimedEvent) (cfg : InputConfig F) (dwt : Bool) :
    Tracks w₀ (processTouchKey te cfg dwt) := by
  have htap : Tracks w₀ (emitTap (F := F)) :=
    Tracks.andThen (.emitRaw _) (Tracks.andThen (.emitRaw _) (.emitRaw _))
  have hup : Tracks w₀ (touchUp te cfg dwt) := by
    intro s hs
    unfold touchUp
    refine Tracks.andThen (.ite htap .skip) (.modify ?_ ?_) _ hs <;> exact fun _ => rfl
  unfold processTouchKey
  refine Tracks.ite (Tracks.ite ?_ hup) (Tracks.ite ?_ (Tracks.ite ?_ .skip))
  all_goals exact .modify (fun _ => rfl) fun _ => rfl

omit [F32 F] in
theorem processAxis_keeps (te : TimedEvent) (w : DeviceWrapper F) :
    (w.processAxis te).identity = w.identity ∧ (w.processAxis te).keyState = w.keyState :=
  ⟨processAxis_frame identity (fun _ _ _ _ _ _ => rfl) te w,
    processAxis_frame keyState (fun _ _ _ _ _ _ => rfl) te w⟩

theorem movementFrame_tracks (cfg : InputConfig F) : Tracks w₀ (movementFrame cfg) := by
  have hrel : ∀ code value, Tracks w₀ (emitRel code value) :=
    fun code value => Tracks.ite (.emitRaw _) .skip
  have hmotion : Tracks w₀ (motionFrame cfg) := by
    intro s hs
    unfold motionFrame
    exact Tracks.andThen (hrel _ _) (hrel _ _) _ hs
  have hscroll : Tracks w₀ (scrollFrame cfg) := by
    intro s hs
    unfold scrollFrame
    refine Tracks.andThen (.ite (.emitRaw _) .skip) (.modify ?_ ?_) _ hs <;> exact fun _ => rfl
  intro s hs
  unfold movementFrame
  refine Tracks.andThen (.ite hmotion (.ite hscroll .skip)) (.modify ?_ ?_) _ hs <;>
    exact fun _ => rfl

theorem processSyn_tracks (te : TimedEvent) (cfg : InputConfig F) (dwt : Bool) :
    Tracks w₀ (processSyn te cfg dwt) := by
  intro s hs
  unfold processSyn
  by_cases hcode : te.ev.code = 0
  · rw [if_neg (not_not.mpr hcode)]
    refine Tracks.andThen (.ite (.modify ?_ ?_) (.ite (movementFrame_tracks cfg) .skip))
      (.ite (.emitRaw _) .skip) s hs <;> exact fun _ => rfl
  · rw [if_pos hcode]
    exact Tracks.emitRaw _ s hs

theorem processAbsolute_tracks (te : TimedEvent) (cfg : InputConfig F) (dwt : Bool) :
    Tracks w₀ (processAbsolute te cfg dwt) := by
  intro s hs
  have hs' : (if dwt then { s.1 with tapEmitted := true } else s.1).identity = w₀.identity ∧
      (if dwt then { s.1 with tapEmitted := true } else s.1).keyState = w₀.keyState := by
    split_ifs <;> exact hs
  unfold processAbsolute
  dsimp only
  generalize (if dwt then { s.1 with tapEmitted := true } else s.1) = w at hs'
  cases te.ev.eventType with
  | key => exact Tracks.andThen (processTouchKey_tracks te cfg dwt) (forwardButton_tracks te) _ hs'
  | absolute =>
    obtain ⟨hid,hkey⟩ := processAxis_keeps te w
    exact ⟨⟨hid.trans hs'.1,hkey.trans hs'.2⟩,List.forall_mem_nil _⟩
  | synchronization => exact processSyn_tracks te cfg dwt _ hs'
  | relative => exact ⟨hs',List.forall_mem_nil _⟩
  | other n => exact ⟨hs',List.forall_mem_nil _⟩

/-- An event keeps the identity of its wrapper, and touches the keyboard state only in the
bookkeeping of key events. -/
theorem processEvent_keeps (cfg : InputConfig F) (typing : Option Instant) (te : TimedEvent)
    (s : DeviceWrapper F × VirtualDevice) :
    (processEvent cfg typing te s).1.1.identity = s.1.identity ∧
      (processEvent cfg typing te s).1.1.keyState = (s.1.trackKey te).keyState := by
  have hid := trackKey_identity te s.1
  unfold processEvent
  dsimp only
  split_ifs
  · exact ⟨hid,rfl⟩
  · have h := processAbsolute_tracks te cfg (dwtActive cfg typing te.now)
      (s.1.trackKey te,s.2) ⟨rfl,rfl⟩
    exact ⟨h.1.1.trans hid,h.1.2⟩

end DeviceWrapper
end LibinputRs
