import LibinputRs.Backend.TouchpadSteps

/-! What the touchpad handler makes of the clock. It stores two instants, the touch and the last
position event, and reads them only for two verdicts: whether a lift is quick enough for a tap,
and whether the position has stalled. -/
namespace LibinputRs

variable {F D : Type}

namespace InputEvent

/-- A change of `BTN_TOUCH`. -/
def IsTouch (ev : InputEvent) : Prop := ev.KeyWith KeyCode.btnTouch

/-- A single-touch coordinate. -/
def IsPosition (ev : InputEvent) : Prop :=
  ev.eventType = .absolute ∧ (ev.code = AbsoluteAxisCode.absX ∨ ev.code = AbsoluteAxisCode.absY)

instance : DecidablePred IsTouch := fun _ => inferInstanceAs (Decidable (_ ∧ _))
instance : DecidablePred IsPosition := fun _ => inferInstanceAs (Decidable (_ ∧ (_ ∨ _)))

end InputEvent

/-- Less than 250 ms have passed since the touch. -/
def quickTouch (touchStart : Option Instant) (now : Instant) : Bool :=
  touchStart.any fun start => decide (start.elapsed now < fromMillis 250)

/-- More than 50 ms have passed since the last position event. -/
def stalledSince (movement : Option Instant) (now : Instant) : Bool :=
  movement.any fun last => decide (fromMillis 50 < last.elapsed now)

namespace InputEvent

/-- The touch instant stored after an event. -/
def touchStartAfter (ev : InputEvent) (now : Instant) (touchStart : Option Instant) :
    Option Instant :=
  if ev.IsTouch then if ev.value ≠ 0 then some now else none else touchStart

/-- The movement instant stored after an event. -/
def movementAfter (ev : InputEvent) (now : Instant) (movement : Option Instant) :
    Option Instant :=
  if ev.IsPosition then some now else movement

end InputEvent

namespace TrackedDevice

/-- The same device with other stored instants. -/
def retimed (td : TrackedDevice F D) (touchStart movement : Option Instant) : TrackedDevice F D :=
  { td with touchStartTime := touchStart, lastMovementTime := movement }

theorem retimed_retimed (td : TrackedDevice F D) (a b a' b' : Option Instant) :
    (td.retimed a b).retimed a' b' = td.retimed a' b' := rfl

/-- One outcome is the other with the given instants stored. -/
def Retimes (a b : Option Instant) (r r' : TrackedDevice F D × List (LibinputEvent D)) : Prop :=
  r = (r'.1.retimed a b,r'.2)

theorem Retimes.ite {a b : Option Instant} {r r' s s' : TrackedDevice F D × List (LibinputEvent D)}
    {c : Prop} {_ : Decidable c} (hr : c → Retimes a b r r') (hs : ¬ c → Retimes a b s s') :
    Retimes a b (if c then r else s) (if c then r' else s') := by
  split_ifs with hc
  · exact hr hc
  · exact hs hc

theorem ite_retimed {a b : Option Instant} {x x' y y' : TrackedDevice F D} {c : Prop}
    {_ : Decidable c} (hx : c → x = x'.retimed a b) (hy : ¬ c → y = y'.retimed a b) :
    (if c then x else y) = (if c then x' else y').retimed a b := by
  split_ifs with hc
  · exact hx hc
  · exact hy hc

variable [F64 D]

/-- The base distance of the pinch that a contact begins, if it begins one. -/
def pinchBase (td : TrackedDevice F D) : Option D :=
  if 2 ≤ max td.activeSlotCount 1 ∧ td.pinchActive = false then td.primarySlotDistance else none

theorem touchDown_eq (te : TimedEvent) (td : TrackedDevice F D) :
    td.touchDown te =
      let td' := { td with
        touchActive := true
        touchStartTime := some te.now
        tapEmitted := false
        touchFingers := max td.activeSlotCount 1
        lastX := none
        lastY := none }
      match td.pinchBase with
      | some dist => ({ td' with
          pinchActive := true
          pinchBaseDist := dist
          pinchBaseAngle := td.primarySlotAngle
          pinchFingers := (max td.activeSlotCount 1 : ℕ) },
        [.pinchBegin td.libDevice (systimeToUsec te.ev.time) (max td.activeSlotCount 1 : ℕ)])
      | none => (td',[]) := by
  unfold touchDown pinchBase
  dsimp only
  split_ifs
  · cases hdist : td.primarySlotDistance <;> split <;> rename_i hdist' <;>
      cases hdist.symm.trans hdist' <;> rfl
  · rfl

theorem touchDown_retimes (ev : InputEvent) (now now' : Instant) (td : TrackedDevice F D)
    (a b a' b' : Option Instant) : Retimes (some now) b ((td.retimed a b).touchDown ⟨ev,now⟩)
      ((td.retimed a' b').touchDown ⟨ev,now'⟩) := by
  have hbase : ∀ a b, (td.retimed a b).pinchBase = td.pinchBase := fun _ _ => rfl
  rw [touchDown_eq,touchDown_eq,hbase,hbase]
  cases td.pinchBase <;> rfl

theorem touchUp_retimes (ev : InputEvent) (now now' : Instant) (cfgTap dwt : Bool)
    (td : TrackedDevice F D) (a b a' b' : Option Instant)
    (hquick : quickTouch a now = quickTouch a' now') :
    Retimes none b ((td.retimed a b).touchUp ⟨ev,now⟩ cfgTap dwt)
      ((td.retimed a' b').touchUp ⟨ev,now'⟩ cfgTap dwt) := by
  have htap : (td.retimed a b).isTap now cfgTap dwt = (td.retimed a' b').isTap now' cfgTap dwt := by
    change (_ && quickTouch a now && _) = (_ && quickTouch a' now' && _)
    rw [hquick]
    rfl
  unfold touchUp
  rw [htap]
  rfl

omit [F64 D] in
theorem physicalClick_retimes (ev : InputEvent) (now now' : Instant) (td : TrackedDevice F D)
    (a b a' b' : Option Instant) : Retimes a b ((td.retimed a b).physicalClick ⟨ev,now⟩)
      ((td.retimed a' b').physicalClick ⟨ev,now'⟩) := by
  rw [physicalClick_commutes (·.retimed a b) (fun _ => ⟨rfl,rfl,rfl⟩) (fun _ _ => rfl),
    physicalClick_commutes (·.retimed a' b') (fun _ => ⟨rfl,rfl,rfl⟩) (fun _ _ => rfl)]
  rfl

theorem processAbsoluteKey_retimes (ev : InputEvent) (now now' : Instant) (cfgTap dwt : Bool)
    (td : TrackedDevice F D) (a b a' b' : Option Instant) (hev : ev.eventType = .key)
    (hquick : ev.IsTouch → ev.value = 0 → quickTouch a now = quickTouch a' now') :
    Retimes (ev.touchStartAfter now a) b
      ((td.retimed a b).processAbsoluteKey ⟨ev,now⟩ cfgTap dwt)
      ((td.retimed a' b').processAbsoluteKey ⟨ev,now'⟩ cfgTap dwt) := by
  refine .ite (fun htouch => ?_) fun htouch => ?_
  · have hstart : ev.touchStartAfter now a = if ev.value ≠ 0 then some now else none :=
      if_pos ⟨hev,htouch⟩
    rw [hstart]
    by_cases hvalue : ev.value = 0
    · have hno : ¬ ev.value ≠ 0 := not_not.mpr hvalue
      rw [if_neg hno,if_neg hno,if_neg hno]
      exact touchUp_retimes ev now now' cfgTap dwt td a b a' b' (hquick ⟨hev,htouch⟩ hvalue)
    · rw [if_pos hvalue,if_pos hvalue,if_pos hvalue]
      exact touchDown_retimes ev now now' td a b a' b'
  · have hstart : ev.touchStartAfter now a = a := if_neg fun h => htouch h.2
    rw [hstart]
    exact .ite (fun _ => rfl) fun _ => .ite (fun _ => rfl) fun _ => .ite (fun _ => rfl)
      fun _ => physicalClick_retimes ev now now' td a b a' b'

omit [F64 D] in
theorem position_retimed (ev : InputEvent) (now now' : Instant) (td : TrackedDevice F D)
    (a b a' b' : Option Instant) (hstall : stalledSince b now = stalledSince b' now') :
    (td.retimed a b).positionX ⟨ev,now⟩ =
        ((td.retimed a' b').positionX ⟨ev,now'⟩).retimed a (some now) ∧
      (td.retimed a b).positionY ⟨ev,now⟩ =
        ((td.retimed a' b').positionY ⟨ev,now'⟩).retimed a (some now) := by
  have h : (td.retimed a b).stalled now = (td.retimed a' b').stalled now' := hstall
  unfold positionX positionY
  rw [h]
  exact ⟨rfl,rfl⟩

theorem processAbsoluteAxis_retimed (ev : InputEvent) (now now' : Instant)
    (td : TrackedDevice F D) (a b a' b' : Option Instant) (hev : ev.eventType = .absolute)
    (hstall : ev.IsPosition → stalledSince b now = stalledSince b' now') :
    (td.retimed a b).processAbsoluteAxis ⟨ev,now⟩ =
      ((td.retimed a' b').processAbsoluteAxis ⟨ev,now'⟩).retimed a (ev.movementAfter now b) := by
  by_cases hpos : ev.IsPosition
  · have hmoved : ev.movementAfter now b = some now := if_pos hpos
    obtain ⟨hx,hy⟩ := position_retimed ev now now' td a b a' b' (hstall hpos)
    have hother : ∀ code, code ≠ AbsoluteAxisCode.absX → code ≠ AbsoluteAxisCode.absY →
        ev.code ≠ code := by
      rintro _ hnx hny rfl
      exact hpos.2.elim hnx hny
    rw [hmoved]
    refine ite_retimed (fun h => absurd h (hother _ (by decide) (by decide))) fun _ =>
      ite_retimed (fun h => absurd h (hother _ (by decide) (by decide))) fun _ =>
      ite_retimed (fun h => absurd h (hother _ (by decide) (by decide))) fun _ =>
      ite_retimed (fun h => absurd h (hother _ (by decide) (by decide))) fun _ =>
      ite_retimed (fun h => absurd h (hother _ (by decide) (by decide))) fun _ =>
      ite_retimed (fun _ => hx) fun hnx => ite_retimed (fun _ => hy) fun hny => ?_
    exact absurd hpos.2 (not_or.mpr ⟨hnx,hny⟩)
  · have hkept : ev.movementAfter now b = b := if_neg hpos
    rw [hkept]
    refine ite_retimed (fun _ => ite_retimed (fun _ => rfl) fun _ => rfl) fun _ =>
      ite_retimed (fun _ => rfl) fun _ => ite_retimed (fun _ => rfl) fun _ =>
      ite_retimed (fun _ => rfl) fun _ => ite_retimed (fun _ => rfl) fun _ =>
      ite_retimed (fun hx => ?_) fun _ => ite_retimed (fun hy => ?_) fun _ => rfl
    · exact absurd ⟨hev,.inl hx⟩ hpos
    · exact absurd ⟨hev,.inr hy⟩ hpos

variable [F32 F] [FloatCast F D]

theorem movementFrame_retimes (ev : InputEvent) (now now' : Instant) (cfgNat : Bool)
    (cfgAccel : F) (td : TrackedDevice F D) (a b a' b' : Option Instant) :
    Retimes a b ((td.retimed a b).movementFrame ⟨ev,now⟩ cfgNat cfgAccel)
      ((td.retimed a' b').movementFrame ⟨ev,now'⟩ cfgNat cfgAccel) := by
  have hclear : ∀ r r' : TrackedDevice F D × List (LibinputEvent D), Retimes a b r r' →
      Retimes a b ({ r.1 with currentDx := 0, currentDy := 0 },r.2)
        ({ r'.1 with currentDx := 0, currentDy := 0 },r'.2) := by
    rintro _ r' rfl
    rfl
  exact hclear _ _ (.ite (fun _ => rfl) fun _ => .ite (fun _ => rfl) fun _ => rfl)

theorem processSyn_retimes (ev : InputEvent) (now now' : Instant) (cfgNat : Bool) (cfgAccel : F)
    (dwt : Bool) (td : TrackedDevice F D) (a b a' b' : Option Instant) :
    Retimes a b ((td.retimed a b).processSyn ⟨ev,now⟩ cfgNat cfgAccel dwt)
      ((td.retimed a' b').processSyn ⟨ev,now'⟩ cfgNat cfgAccel dwt) :=
  .ite (fun _ => rfl) fun _ => .ite (fun _ => rfl) fun _ => .ite (fun _ => rfl) fun _ =>
    .ite (fun _ => movementFrame_retimes ev now now' cfgNat cfgAccel td a b a' b') fun _ => rfl

/-- The clock enters an event only through its two verdicts and the instants it stores. -/
theorem processAbsoluteEvent_retimes (ev : InputEvent) (now now' : Instant)
    (cfgTap cfgNat : Bool) (cfgAccel : F) (dwt : Bool) (td : TrackedDevice F D)
    (a b a' b' : Option Instant)
    (hquick : ev.IsTouch → ev.value = 0 → quickTouch a now = quickTouch a' now')
    (hstall : ev.IsPosition → stalledSince b now = stalledSince b' now') :
    Retimes (ev.touchStartAfter now a) (ev.movementAfter now b)
      ((td.retimed a b).processAbsoluteEvent ⟨ev,now⟩ cfgTap cfgNat cfgAccel dwt)
      ((td.retimed a' b').processAbsoluteEvent ⟨ev,now'⟩ cfgTap cfgNat cfgAccel dwt) := by
  obtain ⟨base,hbase⟩ : ∃ base : TrackedDevice F D, ∀ a b,
      (if dwt then { td.retimed a b with tapEmitted := true } else td.retimed a b) =
        base.retimed a b := by
    refine ⟨if dwt then { td with tapEmitted := true } else td,fun a b => ?_⟩
    exact ite_retimed (fun _ => rfl) fun _ => rfl
  have hstart : ev.eventType ≠ .key → ev.touchStartAfter now a = a :=
    fun hev => if_neg fun h => hev h.1
  have hmoved : ev.eventType ≠ .absolute → ev.movementAfter now b = b :=
    fun hev => if_neg fun h => hev h.1
  unfold processAbsoluteEvent
  dsimp only
  rw [hbase,hbase]
  cases hev : ev.eventType with
  | key =>
    rw [hmoved (by simp [hev])]
    exact processAbsoluteKey_retimes ev now now' cfgTap dwt base a b a' b' hev hquick
  | absolute =>
    rw [hstart (by simp [hev])]
    exact congrArg (·,[]) (processAbsoluteAxis_retimed ev now now' base a b a' b' hev hstall)
  | synchronization =>
    rw [hstart (by simp [hev]),hmoved (by simp [hev])]
    exact processSyn_retimes ev now now' cfgNat cfgAccel dwt base a b a' b'
  | relative =>
    rw [hstart (by simp [hev]),hmoved (by simp [hev])]
    rfl
  | other n =>
    rw [hstart (by simp [hev]),hmoved (by simp [hev])]
    rfl

end TrackedDevice
end LibinputRs
