import LibinputRs.Daemon.Outcomes
import LibinputRs.Pipeline.Pointing

/-! The position of the finger in the daemon. A refused write can leave a lift or the end of a frame
where it stands; any other event changes the position as it would on its own. -/
namespace LibinputRs
open Automata

variable {F : Type}

namespace DeviceWrapper
variable {s : DeviceWrapper F × VirtualDevice} {cfg : InputConfig F} {te : TimedEvent} {dwt : Bool}

def pointing (w : DeviceWrapper F) : Pointing :=
  ⟨w.lastX,w.lastY,w.currentDx,w.currentDy,w.lastMovementTime⟩

@[simp] theorem guarded_pointing (dwt : Bool) (w : DeviceWrapper F) :
    (w.guarded dwt).pointing = w.pointing := by
  unfold guarded
  split_ifs <;> rfl

theorem found_pointing (te : TimedEvent) (dwt : Bool) (w : DeviceWrapper F) :
    ((w.trackKey te).guarded dwt).pointing = w.pointing :=
  found_frame pointing (fun _ _ _ _ _ => rfl) te dwt w

/-- The two positions change it alone, and no other absolute event does. -/
theorem processAxis_pointing (w : DeviceWrapper F) (habs : te.ev.eventType = .absolute) :
    (w.processAxis te).pointing = w.pointing.nextShared te := by
  have hdrop : te.ev.IsPosition → w.dropStalled te =
      { w with
        lastX := if w.pointing.stalled te.now then none else w.lastX
        lastY := if w.pointing.stalled te.now then none else w.lastY
        lastMovementTime := some te.now } := fun h => if_pos h.2
  unfold processAxis
  dsimp only
  by_cases hx : te.ev.code = AbsoluteAxisCode.absX
  · rw [if_pos hx,hdrop ⟨habs,.inl hx⟩,Pointing.nextShared_x ⟨habs,hx⟩]
    rfl
  by_cases hy : te.ev.code = AbsoluteAxisCode.absY
  · rw [if_neg hx,if_pos hy,hdrop ⟨habs,.inr hy⟩,Pointing.nextShared_y ⟨habs,hy⟩]
    rfl
  · have hpos : ¬ te.ev.IsPosition := fun h => h.2.elim hx hy
    have hkept : w.dropStalled te = w := if_neg fun h => h.elim hx hy
    rw [if_neg hx,if_neg hy,hkept,Pointing.nextShared_of_not_position hpos,
      Pointing.next_of_absolute habs,if_neg hx,if_neg hy]

/-- A step that ends by changing a reading has changed it, if it came to its end. -/
theorem andThen_changing {α : Type} {read : DeviceWrapper F → α} {p : Step F}
    {f : DeviceWrapper F → DeviceWrapper F} {g : α → α} (hp : Keeps read p)
    (hf : ∀ w, read (f w) = g (read w)) (s : DeviceWrapper F × VirtualDevice) :
    read (p.andThen (modify f) s).1.1 =
      if (p.andThen (modify f) s).2.2 = true then g (read s.1) else read s.1 := by
  have hkept := hp s
  cases hout : p s with
  | mk t r =>
    obtain ⟨out,ok⟩ := r
    rw [hout] at hkept
    cases ok with
    | true =>
      rw [Fallible.andThen_of_ok hout]
      exact (hf t.1).trans (congrArg g hkept)
    | false =>
      rw [Fallible.andThen_of_stop hout]
      exact hkept

/-- A lift with a refused write leaves it. -/
theorem touchUp_pointing (te : TimedEvent) (cfg : InputConfig F) (dwt : Bool) :
    (touchUp te cfg dwt s).1.1.pointing =
      if (touchUp te cfg dwt s).2.2 = true then s.1.pointing.touch 0 else s.1.pointing := by
  have htap : Keeps (F := F) pointing emitTap := .emitTap
  have hreset : ∀ w : DeviceWrapper F, w.resetTouch.pointing = w.pointing.touch 0 := fun _ => rfl
  exact andThen_changing (g := fun p => p.touch 0) (.ite htap .skip) hreset
    ({ s.1 with touchActive := false },s.2)

/-- A touch-down drops the coordinates, and the other keys leave it. -/
theorem processKey_pointing (te : TimedEvent) (cfg : InputConfig F) (dwt : Bool)
    (hkey : te.ev.eventType = .key) (hup : ¬ te.ev.Releases KeyCode.btnTouch) :
    (processKey te cfg dwt s).1.1.pointing = s.1.pointing.next te := by
  have hforward : Keeps pointing (forwardButton (F := F) te) := .forwardButton te fun _ _ => rfl
  refine (hforward.read_andThen _ s).trans ?_
  by_cases htouch : te.ev.code = KeyCode.btnTouch
  · have hvalue : te.ev.value ≠ 0 := fun h => hup ⟨⟨hkey,htouch⟩,h⟩
    rw [processTouchKey,if_pos htouch,if_pos hvalue,Pointing.next_touch ⟨hkey,htouch⟩,
      Pointing.touch,if_pos hvalue]
    rfl
  · rw [processTouchKey,if_neg htouch,Pointing.next_of_key hkey fun h => htouch h.2]
    refine Keeps.ite ?_ (Keeps.ite ?_ .skip) s <;> exact .modify fun _ => rfl

variable [F32 F]

theorem movementFrame_pointing (cfg : InputConfig F) : (movementFrame cfg s).1.1.pointing =
    if (movementFrame cfg s).2.2 = true then s.1.pointing.report else s.1.pointing := by
  have hmotion : Keeps pointing (motionFrame cfg) :=
    fun s => (Keeps.andThen (.emitRel _ _) (.emitRel _ _)) (_,s.2)
  have hstraight : Keeps (F := F) pointing (modify fun w => { w with remainderX := 0.0 }) :=
    .modify fun _ => rfl
  have hscroll : Keeps pointing (scrollFrame cfg) :=
    fun s => (Keeps.andThen (.ite (.emitRaw _) .skip) hstraight) (_,s.2)
  have hclear : ∀ w : DeviceWrapper F, w.clearDisplacement.pointing = w.pointing.report :=
    fun _ => rfl
  exact andThen_changing (g := Pointing.report) (.ite hmotion (.ite hscroll .skip)) hclear
    ({ s.1 with tapEmitted := true },s.2)

/-- A frame clears the displacement in the typing window, and where its movement comes to its end. -/
theorem processSyn_pointing (te : TimedEvent) (cfg : InputConfig F) (dwt : Bool) :
    (processSyn te cfg dwt s).1.1.pointing =
      if te.ev.code = 0 ∧ (dwt = true ∨ ((s.1.currentDx ≠ 0 ∨ s.1.currentDy ≠ 0) ∧
        (movementFrame cfg s).2.2 = true)) then s.1.pointing.report else s.1.pointing := by
  have hpass : ∀ b : Bool, Keeps (F := F) pointing (if b then emitRaw te.ev else .skip) :=
    fun _ => .ite (.emitRaw _) .skip
  unfold processSyn
  by_cases hcode : te.ev.code = 0
  · rw [if_neg (not_not.mpr hcode)]
    dsimp only
    rw [(hpass _).read_andThen]
    cases dwt with
    | true =>
      rw [if_pos rfl,if_pos ⟨hcode,.inl rfl⟩]
      rfl
    | false =>
      by_cases hmoved : s.1.currentDx ≠ 0 ∨ s.1.currentDy ≠ 0
      · simp [hcode,hmoved,movementFrame_pointing]
      · simp [hmoved]
  · rw [if_pos hcode,if_neg fun h => hcode h.1]
    rfl

end DeviceWrapper
end LibinputRs
