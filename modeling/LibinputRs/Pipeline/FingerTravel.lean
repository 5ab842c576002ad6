import LibinputRs.Pipeline.Overflow
import Mathlib.Data.ZMod.Basic

/-! Where the travel of a finger goes. Over any stream, with any change between pointing, scrolling,
swiping, pinching and typing, what the coordinates travel is framed, dropped by a lift or still
pending, and what the frames owe is emitted but for one remainder, which never exceeds one half. -/
namespace LibinputRs
open Automata

/-- What the end of a frame makes of the displacement. -/
inductive FrameUse
  | pointer
  | scroll
  | swipe
  | pinch
  | typing
  deriving DecidableEq, Repr

/-- The factor on the displacement; a pinch and the typing window discard it. -/
def FrameUse.gain (accel : ℚ) : FrameUse → ℚ
  | .pointer => FrameMode.gain accel .pointer
  | .scroll => FrameMode.gain accel .scroll
  | .swipe => 0.18
  | .pinch => 0
  | .typing => 0

/-- What an event moves on an axis, the sign of natural scrolling undone. -/
def LibinputEvent.moved (a : TouchAxis) (cfgNat : Bool) (e : LibinputEvent ℚ) : ℚ :=
  match e.payload with
  | .pointerMotion m => a.select m.dx m.dy
  | .pointerAxis s => if s.axis = a.scrollAxis then unsigned cfgNat s.valueDiscrete else 0
  | .gestureSwipeUpdate g => a.select g.dx g.dy
  | _ => 0

namespace TrackedDevice

section Travel
variable {F D : Type}

def displacement (a : TouchAxis) (td : TrackedDevice F D) : ℤ :=
  a.select td.currentDx td.currentDy

/-- How far the coordinate of an axis travels with an event, from the last one, if that is known and
not from before a stall. -/
def travel (a : TouchAxis) (td : TrackedDevice F D) (i : TouchInput F) : ℤ :=
  if i.te.ev.AxisWith (a.select AbsoluteAxisCode.absX AbsoluteAxisCode.absY) then
    (if td.stalled i.te.now then none else a.select td.lastX td.lastY).elim 0 (i.te.ev.value - ·)
  else 0

/-- The displacement that the end of a frame takes. -/
def framed (a : TouchAxis) (td : TrackedDevice F D) (i : TouchInput F) : ℤ :=
  if i.te.ev.IsReport then td.displacement a else 0

/-- The displacement that a lift drops before any frame ended. -/
def dropped (a : TouchAxis) (td : TrackedDevice F D) (i : TouchInput F) : ℤ :=
  if i.te.ev.KeyWith KeyCode.btnTouch ∧ i.te.ev.value = 0 then td.displacement a else 0

/-- What the frame is used for, if one ends. -/
def frameUse (td : TrackedDevice F D) (i : TouchInput F) : Option FrameUse :=
  if ¬ i.te.ev.IsReport then none
  else if i.dwtActive then some .typing
  else if td.pinchActive then some .pinch
  else if max td.activeSlotCount td.touchFingers ≤ 1 then some .pointer
  else if max td.activeSlotCount td.touchFingers = 2 then some .scroll
  else some .swipe

end Travel

def remainder (a : TouchAxis) (td : TrackedDevice ℚ ℚ) : ℚ := a.select td.remainderX td.remainderY

/-- What a frame owes. -/
def due (a : TouchAxis) (td : TrackedDevice ℚ ℚ) (i : TouchInput ℚ) : ℚ :=
  (td.frameUse i).elim 0 fun use => use.gain i.cfgAccel * td.displacement a

/-- The remainder that the typing window discards. -/
def lost (a : TouchAxis) (td : TrackedDevice ℚ ℚ) (i : TouchInput ℚ) : ℚ :=
  if td.frameUse i = some .typing then td.remainder a else 0

/-- What the answer to an event moves. -/
def movedBy (a : TouchAxis) (td : TrackedDevice ℚ ℚ) (i : TouchInput ℚ) : ℚ :=
  ((td.touchStep i).2.map (LibinputEvent.moved a i.cfgNat)).sum

section Displacement
variable {F D : Type} [F32 F] [F64 D] [FloatCast F D] {td : TrackedDevice F D} {i : TouchInput F}

def displacements (td : TrackedDevice F D) : ℤ × ℤ := (td.currentDx,td.currentDy)

omit [F32 F] [F64 D] [FloatCast F D] in
theorem displacement_congr {td td' : TrackedDevice F D} (h : td'.displacements = td.displacements)
    (a : TouchAxis) : td'.displacement a = td.displacement a := by
  cases a with
  | x => exact congrArg Prod.fst h
  | y => exact congrArg Prod.snd h

omit [F32 F] [FloatCast F D] in
/-- A lift drops the displacement, and the other key events leave it alone. -/
theorem processAbsoluteKey_displacement (te : TimedEvent) (cfgTap dwt : Bool) (a : TouchAxis)
    (td : TrackedDevice F D) : (td.processAbsoluteKey te cfgTap dwt).1.displacement a =
      if te.ev.code = KeyCode.btnTouch ∧ te.ev.value = 0 then 0 else td.displacement a := by
  have hdown := displacement_congr (touchDown_frame displacements (fun _ _ _ _ _ => rfl) te td) a
  have hclick := displacement_congr (physicalClick_frame displacements (fun _ _ => rfl) te td) a
  unfold processAbsoluteKey
  dsimp only
  by_cases htouch : te.ev.code = KeyCode.btnTouch
  · rw [if_pos htouch]
    by_cases hvalue : te.ev.value = 0
    · rw [if_neg (not_not.mpr hvalue),if_pos ⟨htouch,hvalue⟩]
      cases a <;> rfl
    · have hlift : ¬ (te.ev.code = KeyCode.btnTouch ∧ te.ev.value = 0) := fun h => hvalue h.2
      rw [if_pos hvalue,if_neg hlift]
      exact hdown
  · have hlift : ¬ (te.ev.code = KeyCode.btnTouch ∧ te.ev.value = 0) := fun h => htouch h.1
    rw [if_neg htouch,if_neg hlift]
    split_ifs
    all_goals first
      | rfl
      | exact hclick

omit [F32 F] [F64 D] [FloatCast F D] in
theorem cast_i32Wrap (z : ℤ) : ((i32Wrap z : ℤ) : ZMod (2^32)) = z :=
  (ZMod.intCast_eq_intCast_iff _ _ _).mpr Int.bmod_emod

omit [F32 F] [F64 D] [FloatCast F D] in
theorem cast_accumulate (current : ℤ) (previous : Option ℤ) (val : ℤ) :
    ((accumulate current previous val : ℤ) : ZMod (2^32)) =
      current + (previous.elim 0 (val - ·) : ℤ) := by
  cases previous with
  | none => simp [accumulate]
  | some p =>
    change ((i32Wrap (current + i32Wrap (val - p)) : ℤ) : ZMod (2^32)) = _
    rw [cast_i32Wrap,Int.cast_add,cast_i32Wrap]
    rfl

omit [F32 F] [FloatCast F D] in
/-- A position adds what its coordinate travelled, as `i32` adds. -/
theorem processAbsoluteAxis_displacement (i : TouchInput F) (habs : i.te.ev.eventType = .absolute)
    (a : TouchAxis) (td : TrackedDevice F D) :
    ((td.processAbsoluteAxis i.te).displacement a : ZMod (2^32)) =
      td.displacement a + td.travel a i := by
  have hmodify : ∀ f, (td.modifySlot f).displacement a = td.displacement a := by
    intro f
    cases a <;> rfl
  have hother : i.te.ev.code ≠ AbsoluteAxisCode.absX → i.te.ev.code ≠ AbsoluteAxisCode.absY →
      td.travel a i = 0 := by
    intro hx hy
    refine if_neg fun haxis => ?_
    cases a
    · exact hx haxis.2
    · exact hy haxis.2
  have hslots : ∀ {td' : TrackedDevice F D}, td'.displacement a = td.displacement a →
      i.te.ev.code ≠ AbsoluteAxisCode.absX → i.te.ev.code ≠ AbsoluteAxisCode.absY →
        (td'.displacement a : ZMod (2^32)) = td.displacement a + td.travel a i := by
    intro td' hsame hx hy
    rw [hsame,hother hx hy,Int.cast_zero,add_zero]
  have hposition : ∀ {td' : TrackedDevice F D} {b : TouchAxis},
      i.te.ev.code = b.select AbsoluteAxisCode.absX AbsoluteAxisCode.absY →
      td'.displacement b = accumulate (td.displacement b)
        (if td.stalled i.te.now then none else b.select td.lastX td.lastY) i.te.ev.value →
      (∀ c, c ≠ b → td'.displacement c = td.displacement c) →
        (td'.displacement a : ZMod (2^32)) = td.displacement a + td.travel a i := by
    intro td' b hcode hmoves hkeeps
    by_cases hab : a = b
    · subst hab
      have htravel : td.travel a i =
          (if td.stalled i.te.now then none else a.select td.lastX td.lastY).elim 0
            (i.te.ev.value - ·) := if_pos ⟨habs,hcode⟩
      rw [hmoves,cast_accumulate,htravel]
    · have hnot : td.travel a i = 0 := by
        refine if_neg fun haxis => hab ?_
        have hsame := haxis.2.symm.trans hcode
        cases a <;> cases b <;> first | rfl | exact absurd hsame (by decide)
      rw [hkeeps a hab,hnot,Int.cast_zero,add_zero]
  unfold processAbsoluteAxis
  dsimp only
  split_ifs with hslot hfits hid hmx hmy hdist hx hy
  · exact hslots (by cases a <;> rfl) (hslot ▸ by decide) (hslot ▸ by decide)
  · exact hslots rfl (hslot ▸ by decide) (hslot ▸ by decide)
  · exact hslots (hmodify _) (hid ▸ by decide) (hid ▸ by decide)
  · exact hslots (hmodify _) (hmx ▸ by decide) (hmx ▸ by decide)
  · exact hslots (hmodify _) (hmy ▸ by decide) (hmy ▸ by decide)
  · exact hslots (hmodify _) (hdist ▸ by decide) (hdist ▸ by decide)
  · refine hposition (b := .x) hx rfl fun c hc => ?_
    cases c
    · exact absurd rfl hc
    · rfl
  · refine hposition (b := .y) hy rfl fun c hc => ?_
    cases c
    · rfl
    · exact absurd rfl hc
  · exact hslots rfl hx hy

/-- The end of a frame takes the displacement. -/
theorem processSyn_displacement (te : TimedEvent) (cfgNat : Bool) (cfgAccel : F) (dwt : Bool)
    (a : TouchAxis) (td : TrackedDevice F D) :
    (td.processSyn te cfgNat cfgAccel dwt).1.displacement a =
      if te.ev.code = 0 then 0 else td.displacement a := by
  have hzero : ∀ td : TrackedDevice F D,
      ({ td with currentDx := 0, currentDy := 0 } : TrackedDevice F D).displacement a = 0 := by
    intro td
    cases a <;> rfl
  unfold processSyn
  by_cases hcode : te.ev.code = 0
  · rw [if_neg (not_not.mpr hcode),if_pos hcode]
    split_ifs with hpinch hdwt hmoved
    · exact hzero td
    · cases a <;> rfl
    · exact hzero _
    · rw [not_or,not_not,not_not] at hmoved
      cases a
      · exact hmoved.1
      · exact hmoved.2
  · rw [if_pos hcode,if_neg hcode]

/-- One event: what was pending and what travels is framed, dropped or pending. -/
theorem touchStep_travel (a : TouchAxis) (td : TrackedDevice F D) (i : TouchInput F) :
    (td.framed a i + td.dropped a i : ZMod (2^32)) + (td.touchStep i).1.displacement a =
      td.displacement a + td.travel a i := by
  have hguard : (if i.dwtActive then { td with tapEmitted := true } else td).displacement a =
      td.displacement a := by
    split_ifs <;> rfl
  have hframed : i.te.ev.eventType ≠ .synchronization → td.framed a i = 0 :=
    fun hne => if_neg fun hreport => hne hreport.1
  have hdropped : i.te.ev.eventType ≠ .key → td.dropped a i = 0 :=
    fun hne => if_neg fun hlift => hne hlift.1.1
  have htravel : i.te.ev.eventType ≠ .absolute → td.travel a i = 0 :=
    fun hne => if_neg fun haxis => hne haxis.1
  unfold touchStep processAbsoluteEvent
  cases htype : i.te.ev.eventType with
  | key =>
    rw [hframed (by simp [htype]),htravel (by simp [htype])]
    dsimp only
    rw [processAbsoluteKey_displacement,hguard]
    by_cases hlift : i.te.ev.code = KeyCode.btnTouch ∧ i.te.ev.value = 0
    · rw [if_pos hlift,dropped,if_pos ⟨⟨htype,hlift.1⟩,hlift.2⟩]
      simp
    · rw [if_neg hlift,dropped,if_neg fun h => hlift ⟨h.1.2,h.2⟩]
      simp
  | absolute =>
    rw [hframed (by simp [htype]),hdropped (by simp [htype])]
    dsimp only
    have hsame : (if i.dwtActive then { td with tapEmitted := true } else td).travel a i =
        td.travel a i := by
      split_ifs <;> rfl
    rw [processAbsoluteAxis_displacement i htype,hguard,hsame]
    simp
  | synchronization =>
    rw [hdropped (by simp [htype]),htravel (by simp [htype])]
    dsimp only
    rw [processSyn_displacement,hguard]
    by_cases hcode : i.te.ev.code = 0
    · rw [if_pos hcode,framed,if_pos ⟨htype,hcode⟩]
      simp
    · rw [if_neg hcode,framed,if_neg fun h => hcode h.2]
      simp
  | relative =>
    rw [hframed (by simp [htype]),hdropped (by simp [htype]),htravel (by simp [htype]),hguard]
    simp
  | other n =>
    rw [hframed (by simp [htype]),hdropped (by simp [htype]),htravel (by simp [htype]),hguard]
    simp

end Displacement

section Output
variable {a : TouchAxis} {td : TrackedDevice ℚ ℚ} {i : TouchInput ℚ}

/-- What an event moves, discards and keeps of the remainder is what was kept and is owed. -/
def Balanced (a : TouchAxis) (td : TrackedDevice ℚ ℚ) (i : TouchInput ℚ) : Prop :=
  td.movedBy a i + td.lost a i + (td.touchStep i).1.remainder a = td.remainder a + td.due a i

theorem Centred.remainder_le (h : td.Centred) (a : TouchAxis) : |td.remainder a| ≤ 1/2 := by
  cases a with
  | x => exact h.x
  | y => exact h.y

theorem Centred.displacement_fits (h : td.Centred) (a : TouchAxis) :
    FitsI32 (td.displacement a) := by
  cases a with
  | x => exact h.bounded.1
  | y => exact h.bounded.2

theorem remainder_congr {td td' : TrackedDevice ℚ ℚ} (h : td'.remainders = td.remainders)
    (a : TouchAxis) : td'.remainder a = td.remainder a := by
  cases a with
  | x => exact congrArg Prod.fst h
  | y => exact congrArg Prod.snd h

/-- No key event moves anything. -/
theorem processAbsoluteKey_moved (te : TimedEvent) (cfgTap dwt : Bool) (td : TrackedDevice ℚ ℚ)
    (cfgNat : Bool) : ∀ e ∈ (td.processAbsoluteKey te cfgTap dwt).2, e.moved a cfgNat = 0 := by
  have hdown : ∀ e ∈ (td.touchDown te).2, e.moved a cfgNat = 0 := by
    unfold touchDown
    dsimp only
    split_ifs
    · split
      · exact List.forall_mem_singleton.mpr rfl
      · exact List.forall_mem_nil _
    · exact List.forall_mem_nil _
  have hup : ∀ e ∈ (td.touchUp te cfgTap dwt).2, e.moved a cfgNat = 0 := by
    unfold touchUp liftPinch
    refine List.forall_mem_append.mpr ⟨?_,?_⟩ <;> split_ifs
    · exact List.forall_mem_singleton.mpr rfl
    · exact List.forall_mem_nil _
    · exact List.forall_mem_cons.mpr ⟨rfl,List.forall_mem_singleton.mpr rfl⟩
    · exact List.forall_mem_nil _
  have hclick : ∀ e ∈ (td.physicalClick te).2, e.moved a cfgNat = 0 := by
    unfold physicalClick
    dsimp only
    split_ifs
    · exact List.forall_mem_singleton.mpr rfl
    · exact List.forall_mem_nil _
  unfold processAbsoluteKey
  dsimp only
  split_ifs
  all_goals first
    | exact hdown
    | exact hup
    | exact hclick
    | exact List.forall_mem_nil _

/-- An event that ends no frame moves nothing. -/
theorem movedBy_of_not_report (hreport : ¬ i.te.ev.IsReport) : td.movedBy a i = 0 := by
  have hall : ∀ e ∈ (td.touchStep i).2, e.moved a i.cfgNat = 0 := by
    by_cases hkey : i.te.ev.eventType = .key
    · rw [touchStep_key td i hkey]
      exact processAbsoluteKey_moved _ _ _ _ _
    · by_cases hsyn : i.te.ev.eventType = .synchronization
      · rw [touchStep_synchronization td i hsyn,processSyn,if_pos fun hcode => hreport ⟨hsyn,hcode⟩]
        exact List.forall_mem_nil _
      · rw [touchStep_silent td i hkey hsyn]
        exact List.forall_mem_nil _
  refine List.sum_eq_zero fun q hq => ?_
  obtain ⟨e,he,rfl⟩ := List.mem_map.mp hq
  exact hall e he

theorem balanced_of_not_report (hreport : ¬ i.te.ev.IsReport) : td.Balanced a i := by
  have hkept : (td.touchStep i).1.remainders = td.remainders := touchStep_remainders i hreport
  have hrem := remainder_congr hkept a
  have huse : td.frameUse i = none := if_pos hreport
  rw [Balanced,movedBy_of_not_report hreport,hrem,lost,due,huse]
  simp

/-- What a frame of one mode moves is what it emits in that mode. -/
theorem movementFrame_moved {mode : FrameMode} (te : TimedEvent) (cfgNat : Bool) (accel : ℚ)
    (hfits : mode.Fits (max td.activeSlotCount td.touchFingers)) :
    ∀ e ∈ (td.movementFrame te cfgNat accel).2, e.moved a cfgNat = e.emitted mode a cfgNat := by
  have haxis : ∀ (td : TrackedDevice ℚ ℚ) axis q, ∀ e ∈ td.scrollAxis te cfgNat axis q,
      e.moved a cfgNat = e.emitted .scroll a cfgNat := by
    intro td axis q
    unfold scrollAxis
    by_cases hq : q ≠ 0
    · rw [if_pos hq]
      exact List.forall_mem_singleton.mpr rfl
    · rw [if_neg hq]
      exact List.forall_mem_nil _
  unfold movementFrame
  dsimp only
  cases mode with
  | pointer =>
    rw [if_pos (show max ({ td with tapEmitted := true } : TrackedDevice ℚ ℚ).activeSlotCount
      td.touchFingers ≤ 1 from hfits)]
    unfold motionFrame
    dsimp only
    split_ifs
    · exact List.forall_mem_singleton.mpr rfl
    · exact List.forall_mem_nil _
  | scroll =>
    have htwo : max ({ td with tapEmitted := true } : TrackedDevice ℚ ℚ).activeSlotCount
      td.touchFingers = 2 := hfits
    rw [if_neg (by omega),if_pos htwo]
    exact List.forall_mem_append.mpr ⟨haxis _ _ _,haxis _ _ _⟩

/-- The frames of one mode. -/
theorem balanced_of_mode {mode : FrameMode} {use : FrameUse} (hreport : i.te.ev.IsReport)
    (hawake : i.dwtActive = false) (hclosed : td.pinchActive = false)
    (hfits : mode.Fits (max td.activeSlotCount td.touchFingers)) (huse : td.frameUse i = some use)
    (hne : use ≠ .typing) (hgain : use.gain i.cfgAccel = mode.gain i.cfgAccel)
    (hrange : InRange (use.gain i.cfgAccel * td.displacement a + td.remainder a)) :
    td.Balanced a i := by
  have hlost : td.lost a i = 0 := if_neg fun h => hne (Option.some.inj (huse.symm.trans h))
  have hdue : td.due a i = mode.gain i.cfgAccel * td.displacement a := by
    rw [due,huse,Option.elim_some,hgain]
  have hstep := touchStep_syn i hawake hclosed hreport.1
  rw [hgain] at hrange
  by_cases hmoved : td.currentDx ≠ 0 ∨ td.currentDy ≠ 0
  · rw [if_pos ⟨hreport.2,hmoved⟩] at hstep
    obtain ⟨hemit,hrem⟩ := movementFrame_pays (a := a) i.te i.cfgNat i.cfgAccel hfits hrange
    have hsum : td.movedBy a i =
        ((td.movementFrame i.te i.cfgNat i.cfgAccel).2.map
          (LibinputEvent.emitted mode a i.cfgNat)).sum := by
      rw [movedBy,hstep]
      exact congrArg List.sum
        (List.map_congr_left (movementFrame_moved i.te i.cfgNat i.cfgAccel hfits))
    have hkept : (td.touchStep i).1.remainder a =
        mode.gain i.cfgAccel * td.displacement a + td.remainder a -
          roundHalfAway (mode.gain i.cfgAccel * td.displacement a + td.remainder a) := by
      rw [hstep]
      exact hrem
    rw [Balanced,hsum,hemit,hkept,hlost,hdue]
    change (roundHalfAway (mode.gain i.cfgAccel * td.displacement a + td.remainder a) : ℚ) + 0 +
      _ = _
    ring
  · rw [if_neg fun h => hmoved h.2] at hstep
    rw [not_or,not_not,not_not] at hmoved
    have hzero : td.displacement a = 0 := by
      cases a
      · exact hmoved.1
      · exact hmoved.2
    have hnone : td.movedBy a i = 0 := by
      rw [movedBy,hstep]
      rfl
    rw [Balanced,hnone,hlost,hdue,hzero,hstep]
    simp

/-- The frames that discard the displacement: one in the typing window and one of a pinch. -/
theorem balanced_of_typing (hreport : i.te.ev.IsReport) (hdwt : i.dwtActive = true) :
    td.Balanced a i := by
  have hstep : td.touchStep i = ({ td with
      currentDx := 0
      currentDy := 0
      remainderX := 0.0
      remainderY := 0.0
      tapEmitted := true },[]) := by
    rw [touchStep_synchronization td i hreport.1]
    unfold processSyn
    rw [if_neg (not_not.mpr hreport.2),hdwt]
    simp
  have huse : td.frameUse i = some .typing := by simp [frameUse,hreport,hdwt]
  have hrem : (td.touchStep i).1.remainder a = 0 := by
    rw [hstep]
    cases a <;> norm_num [remainder,TouchAxis.select]
  rw [Balanced,hrem,movedBy,hstep,lost,due,huse]
  simp [FrameUse.gain]

theorem balanced_of_pinch (hreport : i.te.ev.IsReport) (hawake : i.dwtActive = false)
    (hopen : td.pinchActive = true) : td.Balanced a i := by
  have hstep : td.touchStep i = td.pinchFrame i.te := by
    rw [touchStep_synchronization td i hreport.1]
    unfold processSyn
    rw [if_neg (not_not.mpr hreport.2),hawake]
    simp [hopen]
  have huse : td.frameUse i = some .pinch := by simp [frameUse,hreport,hawake,hopen]
  have hmoved : td.movedBy a i = 0 := by
    rw [movedBy,hstep]
    unfold pinchFrame
    cases td.primarySlotDistance <;> simp [LibinputEvent.moved,LibinputEvent.pinchUpdate,
      LibinputEvent.gesture]
  have hrem : (td.touchStep i).1.remainder a = td.remainder a := by
    rw [hstep]
    cases a <;> rfl
  rw [Balanced,hmoved,hrem,lost,due,huse]
  simp [FrameUse.gain]

/-- A swipe moves the scaled displacement and keeps the remainder. -/
theorem balanced_of_swipe (hreport : i.te.ev.IsReport) (hawake : i.dwtActive = false)
    (hclosed : td.pinchActive = false) (hfingers : 3 ≤ max td.activeSlotCount td.touchFingers) :
    td.Balanced a i := by
  have huse : td.frameUse i = some .swipe := by
    simp only [frameUse,hreport,hawake,hclosed]
    rw [if_neg (by simp),if_neg (by simp),if_neg (by simp),if_neg (by omega),if_neg (by omega)]
  have hdue : td.due a i = 0.18 * td.displacement a := by
    rw [due,huse]
    rfl
  have hlost : td.lost a i = 0 := if_neg (by rw [huse]; decide)
  have hone : ¬ max ({ td with tapEmitted := true } : TrackedDevice ℚ ℚ).activeSlotCount
      td.touchFingers ≤ 1 := by
    change ¬ max td.activeSlotCount td.touchFingers ≤ 1
    omega
  have htwo : ¬ max ({ td with tapEmitted := true } : TrackedDevice ℚ ℚ).activeSlotCount
      td.touchFingers = 2 := by
    change ¬ max td.activeSlotCount td.touchFingers = 2
    omega
  have hstep := touchStep_syn i hawake hclosed hreport.1
  by_cases hmoved : td.currentDx ≠ 0 ∨ td.currentDy ≠ 0
  · rw [if_pos ⟨hreport.2,hmoved⟩,movementFrame] at hstep
    dsimp only at hstep
    rw [if_neg hone,if_neg htwo] at hstep
    have hrem : (td.touchStep i).1.remainder a = td.remainder a := by
      rw [hstep]
      cases a <;> rfl
    have hsum : td.movedBy a i = td.displacement a * 0.18 := by
      rw [movedBy,hstep]
      change a.select ((td.currentDx : ℚ) * 0.18) ((td.currentDy : ℚ) * 0.18) + 0 = _
      cases a <;> exact add_zero _
    rw [Balanced,hsum,hlost,hrem,hdue]
    ring
  · rw [if_neg fun h => hmoved h.2] at hstep
    rw [not_or,not_not,not_not] at hmoved
    have hzero : td.displacement a = 0 := by
      cases a
      · exact hmoved.1
      · exact hmoved.2
    have hnone : td.movedBy a i = 0 := by
      rw [movedBy,hstep]
      rfl
    rw [Balanced,hnone,hlost,hdue,hzero,hstep]
    simp

/-- One event, whatever it is. -/
theorem Centred.balanced (h : td.Centred) (haccel : |i.cfgAccel| ≤ 2) (a : TouchAxis) :
    td.Balanced a i := by
  have hrange : ∀ {gain : ℚ}, |gain| ≤ 0.36 → InRange (gain * td.displacement a + td.remainder a) :=
    fun hgain => inRange_total hgain (h.displacement_fits a) (h.remainder_le a)
  by_cases hreport : i.te.ev.IsReport
  · cases hdwt : i.dwtActive with
    | true => exact balanced_of_typing hreport hdwt
    | false =>
      cases hpinch : td.pinchActive with
      | true => exact balanced_of_pinch hreport hdwt hpinch
      | false =>
        by_cases hone : max td.activeSlotCount td.touchFingers ≤ 1
        · have huse : td.frameUse i = some .pointer := by
            rw [frameUse,if_neg (not_not.mpr hreport),hdwt,hpinch,if_pos hone]
            simp
          have hfits : FrameMode.pointer.Fits (max td.activeSlotCount td.touchFingers) := hone
          exact balanced_of_mode hreport hdwt hpinch hfits huse (by decide) rfl
            (hrange (abs_pointer_gain haccel))
        · by_cases htwo : max td.activeSlotCount td.touchFingers = 2
          · have huse : td.frameUse i = some .scroll := by
              rw [frameUse,if_neg (not_not.mpr hreport),hdwt,hpinch,if_neg hone,if_pos htwo]
              simp
            have hfits : FrameMode.scroll.Fits (max td.activeSlotCount td.touchFingers) := htwo
            exact balanced_of_mode hreport hdwt hpinch hfits huse (by decide) rfl
              (hrange (by norm_num [FrameUse.gain,FrameMode.gain]))
          · exact balanced_of_swipe hreport hdwt hpinch (by omega)
  · exact balanced_of_not_report hreport

end Output

/-- The books of an axis over some events: what is moved, discarded with the remainder and kept of
it is what was kept and is owed, no more than one half is kept, and what is framed, dropped and
pending is what was pending and travelled, as `i32` adds. -/
structure TravelLedger (a : TouchAxis) (td : TrackedDevice ℚ ℚ) (inputs : List (TouchInput ℚ)) :
    Prop where
  output : tally touchStep (movedBy a) td inputs + tally touchStep (lost a) td inputs +
    (run touchStep td inputs).1.remainder a = td.remainder a + tally touchStep (due a) td inputs
  kept : |(run touchStep td inputs).1.remainder a| ≤ 1/2
  travel : tally touchStep (fun td i => (td.framed a i + td.dropped a i : ZMod (2^32))) td inputs +
      (run touchStep td inputs).1.displacement a =
    td.displacement a + tally touchStep (fun td i => (td.travel a i : ZMod (2^32))) td inputs

/-- Under admitted speeds the books of both axes balance. -/
theorem Centred.travelLedger {td : TrackedDevice ℚ ℚ} (h : td.Centred)
    {inputs : List (TouchInput ℚ)} (haccel : ∀ i ∈ inputs, |i.cfgAccel| ≤ 2) (a : TouchAxis) :
    TravelLedger a td inputs := by
  have hcentred : ∀ before, before <+: inputs → (run touchStep td before).1.Centred := by
    rintro before ⟨after,rfl⟩
    exact run_invariant touchStep Centred
      (fun td i hi h => h.step (haccel i (List.mem_append_left _ hi))) h
  refine ⟨?_,(hcentred inputs List.prefix_rfl).remainder_le a,?_⟩
  · rw [← tally_add]
    refine tally_conserved touchStep (remainder a) _ (due a) fun before i after heq => ?_
    exact (hcentred before ⟨_,heq.symm⟩).balanced (haccel i (by simp [heq])) a
  · exact tally_conserved touchStep (fun td => (td.displacement a : ZMod (2^32))) _ _
      fun before i after _ => touchStep_travel a _ i

end TrackedDevice
end LibinputRs
