import LibinputRs.Library.Pinch
import Mathlib.Analysis.SpecialFunctions.Complex.Arg

/-! What a pinch depends on. It is reported as a ratio of distances and a difference of angles of
the two primary contacts, so that in exact arithmetic the units of the device drop out; and the code
keeps it apart from the rest of a touchpad: single-touch coordinates, clicks, the finger keys, the
clock and the settings, but for the typing window, are nothing to it. -/
namespace LibinputRs
open Automata

variable {F D : Type} [F64 D]

/-- A factor that the arithmetic of a pinch does not see. -/
structure UnitChange (D : Type) [F64 D] where
  factor : ℤ
  map : D → D
  map_zero : map 0.0 = 0.0
  map_ofI32 : ∀ z, map (F64.ofI32 z) = F64.ofI32 (factor*z)
  distance : ∀ x x' y y', F64.sqrt ((map x - map x')*(map x - map x') +
    (map y - map y')*(map y - map y')) = map (F64.sqrt ((x - x')*(x - x') + (y - y')*(y - y')))
  angle : ∀ x x' y y', F64.atan2Degrees (map y - map y') (map x - map x') =
    F64.atan2Degrees (y - y') (x - x')
  positive : ∀ d, F64.isPositive (map d) = F64.isPositive d
  ratio : ∀ d d', map d / map d' = d / d'

namespace UnitChange
variable (m : UnitChange D)

def slot (s : MtSlot D) : MtSlot D := { s with x := m.map s.x, y := m.map s.y }

/-- A device whose contacts are in the finer units. -/
def device (td : TrackedDevice F D) : TrackedDevice F D :=
  { td with
    mtSlots := td.mtSlots.map m.slot
    pinchBaseDist := m.map td.pinchBaseDist }

/-- A kernel event in the finer units. -/
def event (ev : InputEvent) : InputEvent :=
  if ev.AxisWith AbsoluteAxisCode.absMtPositionX ∨ ev.AxisWith AbsoluteAxisCode.absMtPositionY then
    { ev with value := m.factor*ev.value }
  else ev

def input (i : TouchInput F) : TouchInput F := { i with te := { i.te with ev := m.event i.te.ev } }

end UnitChange

namespace TrackedDevice
variable (m : UnitChange D) (td : TrackedDevice F D)

theorem activeSlots_rescaled : (m.device td).activeSlots = td.activeSlots.map m.slot := by
  rw [activeSlots,UnitChange.device,List.filter_map]
  rfl

theorem activeSlotCount_rescaled : (m.device td).activeSlotCount = td.activeSlotCount := by
  rw [activeSlotCount,activeSlots_rescaled,List.length_map,activeSlotCount]

theorem primarySlotDistance_rescaled :
    (m.device td).primarySlotDistance = td.primarySlotDistance.map m.map := by
  unfold primarySlotDistance
  rw [activeSlots_rescaled]
  rcases td.activeSlots with _ | ⟨a,_ | ⟨b,rest⟩⟩
  · rfl
  · rfl
  · exact congrArg some (m.distance a.x b.x a.y b.y)

theorem primarySlotAngle_rescaled : (m.device td).primarySlotAngle = td.primarySlotAngle := by
  unfold primarySlotAngle
  rw [activeSlots_rescaled]
  rcases td.activeSlots with _ | ⟨a,_ | ⟨b,rest⟩⟩
  · rfl
  · rfl
  · exact m.angle b.x a.x b.y a.y

theorem pinchScale_rescaled (dist : D) :
    (m.device td).pinchScale (m.map dist) = td.pinchScale dist := by
  unfold pinchScale UnitChange.device
  dsimp only
  rw [m.positive,m.ratio]

/-- The device as a touch-down finds it. -/
def contacted (te : TimedEvent) (td : TrackedDevice F D) : TrackedDevice F D :=
  { td with
    touchActive := true
    touchStartTime := some te.now
    tapEmitted := false
    touchFingers := max td.activeSlotCount 1
    lastX := none
    lastY := none }

theorem contacted_rescaled (te : TimedEvent) :
    (m.device td).contacted te = m.device (td.contacted te) := by
  unfold contacted
  rw [activeSlotCount_rescaled]
  rfl

theorem touchDown_contacted (te : TimedEvent) : td.touchDown te =
    if 2 ≤ (td.contacted te).touchFingers ∧ (td.contacted te).pinchActive = false then
      match (td.contacted te).primarySlotDistance with
      | some dist =>
        ({ td.contacted te with
            pinchActive := true
            pinchBaseDist := dist
            pinchBaseAngle := (td.contacted te).primarySlotAngle
            pinchFingers := (td.contacted te).touchFingers },
          [.pinchBegin td.libDevice (systimeToUsec te.ev.time) (td.contacted te).touchFingers])
      | none => (td.contacted te,[])
    else (td.contacted te,[]) := rfl

theorem touchDown_rescaled (te : TimedEvent) :
    (m.device td).touchDown te = (m.device (td.touchDown te).1,(td.touchDown te).2) := by
  rw [touchDown_contacted,touchDown_contacted,contacted_rescaled,primarySlotDistance_rescaled,
    primarySlotAngle_rescaled]
  have hfingers : (m.device (td.contacted te)).touchFingers = (td.contacted te).touchFingers := rfl
  have hactive : (m.device (td.contacted te)).pinchActive = (td.contacted te).pinchActive := rfl
  rw [hfingers,hactive]
  split_ifs
  · cases (td.contacted te).primarySlotDistance <;> rfl
  · rfl

theorem touchUp_rescaled (te : TimedEvent) (cfgTap dwt : Bool) :
    (m.device td).touchUp te cfgTap dwt =
      (m.device (td.touchUp te cfgTap dwt).1,(td.touchUp te cfgTap dwt).2) := by
  have hscale : ((m.device td).primarySlotDistance.map (m.device td).pinchScale).getD 1.0 =
      (td.primarySlotDistance.map td.pinchScale).getD 1.0 := by
    rw [primarySlotDistance_rescaled]
    cases td.primarySlotDistance with
    | none => rfl
    | some dist => exact pinchScale_rescaled m td dist
  have hlift : (m.device td).liftPinch te = td.liftPinch te := by
    unfold liftPinch
    rw [hscale,primarySlotAngle_rescaled]
    rfl
  unfold touchUp
  rw [hlift]
  rfl

theorem physicalClick_rescaled (te : TimedEvent) :
    (m.device td).physicalClick te =
      (m.device (td.physicalClick te).1,(td.physicalClick te).2) :=
  physicalClick_commutes m.device (fun _ => ⟨rfl,rfl,rfl⟩) (fun _ _ => rfl) te td

theorem processAbsoluteKey_rescaled (te : TimedEvent) (cfgTap dwt : Bool) :
    (m.device td).processAbsoluteKey te cfgTap dwt =
      (m.device (td.processAbsoluteKey te cfgTap dwt).1,
        (td.processAbsoluteKey te cfgTap dwt).2) := by
  unfold processAbsoluteKey
  dsimp only
  split_ifs
  · exact touchDown_rescaled m td te
  · exact touchUp_rescaled m td te cfgTap dwt
  all_goals first
    | rfl
    | exact physicalClick_rescaled m td te

/-- A change of the selected slot, in both units. -/
theorem modifySlot_rescaled {f g : MtSlot D → MtSlot D} (h : ∀ s, g (m.slot s) = m.slot (f s)) :
    (m.device td).modifySlot g = m.device (td.modifySlot f) := by
  have hslots : ∀ (l : List (MtSlot D)) (n : ℕ),
      (l.map m.slot).modify n g = (l.modify n f).map m.slot := by
    intro l
    induction l with
    | nil => simp
    | cons s l ih =>
      intro n
      cases n with
      | zero => simp [h]
      | succ n => simp [ih]
  exact congrArg (fun slots => ({ m.device td with mtSlots := slots } : TrackedDevice F D))
    (hslots td.mtSlots td.currentSlot)

/-- An absolute event does in the finer units what it does in the others. -/
theorem processAbsoluteAxis_rescaled (te : TimedEvent) (habs : te.ev.eventType = .absolute) :
    (m.device td).processAbsoluteAxis { te with ev := m.event te.ev } =
      m.device (td.processAbsoluteAxis te) := by
  by_cases hx : te.ev.code = AbsoluteAxisCode.absMtPositionX
  · have hev : m.event te.ev = { te.ev with value := m.factor*te.ev.value } :=
      if_pos (.inl ⟨habs,hx⟩)
    rw [hev]
    unfold processAbsoluteAxis
    simp only [hx,AbsoluteAxisCode.absMtPositionX,AbsoluteAxisCode.absMtSlot,
      AbsoluteAxisCode.absMtTrackingId]
    refine modifySlot_rescaled m td fun s => ?_
    simp [UnitChange.slot,m.map_ofI32]
  · by_cases hy : te.ev.code = AbsoluteAxisCode.absMtPositionY
    · have hev : m.event te.ev = { te.ev with value := m.factor*te.ev.value } :=
        if_pos (.inr ⟨habs,hy⟩)
      rw [hev]
      unfold processAbsoluteAxis
      simp only [hy,AbsoluteAxisCode.absMtPositionX,AbsoluteAxisCode.absMtPositionY,
        AbsoluteAxisCode.absMtSlot,AbsoluteAxisCode.absMtTrackingId]
      refine modifySlot_rescaled m td fun s => ?_
      simp [UnitChange.slot,m.map_ofI32]
    · have hev : m.event te.ev = te.ev := by
        refine if_neg ?_
        rintro (h | h)
        · exact hx h.2
        · exact hy h.2
      have hlength : (m.device td).mtSlots.length = td.mtSlots.length := List.length_map _
      rw [hev]
      unfold processAbsoluteAxis
      dsimp only
      rw [hlength,if_neg hx,if_neg hx,if_neg hy,if_neg hy]
      split_ifs
      any_goals rfl
      · exact modifySlot_rescaled m td fun _ => rfl
      · exact modifySlot_rescaled m td fun _ => rfl

theorem pinchFrame_rescaled (te : TimedEvent) :
    (m.device td).pinchFrame te = (m.device (td.pinchFrame te).1,(td.pinchFrame te).2) := by
  unfold pinchFrame
  rw [primarySlotDistance_rescaled,primarySlotAngle_rescaled]
  cases td.primarySlotDistance with
  | none => rfl
  | some dist =>
    dsimp only [Option.map_some]
    rw [pinchScale_rescaled]
    rfl

variable [F32 F] [FloatCast F D]

theorem movementFrame_rescaled (te : TimedEvent) (cfgNat : Bool) (cfgAccel : F) :
    (m.device td).movementFrame te cfgNat cfgAccel =
      (m.device (td.movementFrame te cfgNat cfgAccel).1,
        (td.movementFrame te cfgNat cfgAccel).2) := by
  have hcount : ({ m.device td with tapEmitted := true } : TrackedDevice F D).activeSlotCount =
      ({ td with tapEmitted := true } : TrackedDevice F D).activeSlotCount :=
    activeSlotCount_rescaled m { td with tapEmitted := true }
  unfold movementFrame
  dsimp only
  rw [hcount]
  have hfingers : (m.device td).touchFingers = td.touchFingers := rfl
  rw [hfingers]
  split_ifs <;> rfl

theorem processSyn_rescaled (te : TimedEvent) (cfgNat : Bool) (cfgAccel : F) (dwt : Bool) :
    (m.device td).processSyn te cfgNat cfgAccel dwt =
      (m.device (td.processSyn te cfgNat cfgAccel dwt).1,
        (td.processSyn te cfgNat cfgAccel dwt).2) := by
  have hactive : (m.device td).pinchActive = td.pinchActive := rfl
  have hmoved : ((m.device td).currentDx ≠ 0 ∨ (m.device td).currentDy ≠ 0) =
      (td.currentDx ≠ 0 ∨ td.currentDy ≠ 0) := rfl
  unfold processSyn
  rw [hactive]
  split_ifs with hcode hpinch hdwt hmove hmove' hmove'
  · rfl
  · exact pinchFrame_rescaled m td te
  · rfl
  · exact movementFrame_rescaled m td te cfgNat cfgAccel
  · exact absurd hmove hmove'
  · exact absurd hmove' hmove
  · rfl

/-- Whatever comes, the device answers alike in the finer units. -/
theorem touchStep_rescaled (i : TouchInput F) :
    (m.device td).touchStep (m.input i) =
      (m.device (td.touchStep i).1,(td.touchStep i).2) := by
  have hguard : (if i.dwtActive then { m.device td with tapEmitted := true } else m.device td) =
      m.device (if i.dwtActive then { td with tapEmitted := true } else td) := by
    split_ifs <;> rfl
  by_cases habs : i.te.ev.eventType = .absolute
  · have habs' : (m.input i).te.ev.eventType = .absolute := by
      change (m.event i.te.ev).eventType = .absolute
      unfold UnitChange.event
      split_ifs <;> exact habs
    rw [touchStep_absolute _ _ habs,touchStep_absolute _ _ habs']
    refine Prod.ext ?_ rfl
    change (if i.dwtActive then { m.device td with tapEmitted := true } else
      m.device td).processAbsoluteAxis { i.te with ev := m.event i.te.ev } = _
    rw [hguard,processAbsoluteAxis_rescaled m _ i.te habs]
  · have hinput : m.input i = i := by
      have hev : m.event i.te.ev = i.te.ev := by
        refine if_neg ?_
        rintro (h | h)
        · exact habs h.1
        · exact habs h.1
      unfold UnitChange.input
      rw [hev]
    rw [hinput]
    cases htype : i.te.ev.eventType with
    | absolute => exact absurd htype habs
    | key =>
      rw [touchStep_key _ _ htype,touchStep_key _ _ htype,hguard]
      exact processAbsoluteKey_rescaled m _ i.te i.cfgTap i.dwtActive
    | synchronization =>
      rw [touchStep_synchronization _ _ htype,touchStep_synchronization _ _ htype,hguard]
      exact processSyn_rescaled m _ i.te i.cfgNat i.cfgAccel i.dwtActive
    | relative =>
      unfold touchStep processAbsoluteEvent
      simp only [htype,hguard]
    | other n =>
      unfold touchStep processAbsoluteEvent
      simp only [htype,hguard]

omit [FloatCast F D] in
theorem new_rescaled (device : EvdevDevice) (path : PathBuf) (d : DevicePtr) :
    m.device (.new device path d : TrackedDevice F D) = .new device path d := by
  have hslot : m.slot MtSlot.default = MtSlot.default := by
    unfold UnitChange.slot MtSlot.default
    dsimp only
    rw [m.map_zero]
  unfold UnitChange.device TrackedDevice.new
  dsimp only
  rw [List.map_replicate,hslot,m.map_zero]

end TrackedDevice

section Dependence

/-- What a pinch is made of. -/
def LibinputEventType.isPinch : LibinputEventType → Bool
  | .gesturePinchBegin => true
  | .gesturePinchUpdate => true
  | .gesturePinchEnd => true
  | _ => false

def pinches (l : List (LibinputEvent D)) : List (LibinputEvent D) :=
  l.filter fun e => e.eventType.isPinch

/-- The kernel events that a pinch depends on: the touch key, the slots, and the ends of frames. -/
def InputEvent.ForPinch (ev : InputEvent) : Prop :=
  ev.KeyWith KeyCode.btnTouch ∨ ev.eventType = .synchronization ∨
    ev.AxisWith AbsoluteAxisCode.absMtSlot ∨ ev.AxisWith AbsoluteAxisCode.absMtTrackingId ∨
      ev.AxisWith AbsoluteAxisCode.absMtPositionX ∨ ev.AxisWith AbsoluteAxisCode.absMtPositionY ∨
        ev.AxisWith AbsoluteAxisCode.absMtDistance

namespace TrackedDevice

/-- The part of a device that a pinch depends on. -/
def pinchPart (td : TrackedDevice F D) :
    List (MtSlot D) × ℕ × Bool × D × D × ℤ × DevicePtr :=
  (td.mtSlots,td.currentSlot,td.pinchActive,td.pinchBaseDist,td.pinchBaseAngle,td.pinchFingers,
    td.libDevice)

omit [F64 D] in
theorem pinchPart_iff {td td' : TrackedDevice F D} : td.pinchPart = td'.pinchPart ↔
    td.mtSlots = td'.mtSlots ∧ td.currentSlot = td'.currentSlot ∧
      td.pinchActive = td'.pinchActive ∧ td.pinchBaseDist = td'.pinchBaseDist ∧
        td.pinchBaseAngle = td'.pinchBaseAngle ∧ td.pinchFingers = td'.pinchFingers ∧
          td.libDevice = td'.libDevice := by
  simp only [pinchPart,Prod.mk.injEq]

/-- What the two devices make of it is one and the same for the pinch. -/
def SamePinch (r r' : TrackedDevice F D × List (LibinputEvent D)) : Prop :=
  pinches r.2 = pinches r'.2 ∧ r.1.pinchPart = r'.1.pinchPart

section Congruence
variable {td td' : TrackedDevice F D} {te te' : TimedEvent}

omit [F64 D] in
theorem activeSlots_congr (h : td.mtSlots = td'.mtSlots) : td.activeSlots = td'.activeSlots :=
  congrArg (List.filter MtSlot.active) h

theorem primarySlotDistance_congr (h : td.mtSlots = td'.mtSlots) :
    td.primarySlotDistance = td'.primarySlotDistance := by
  unfold primarySlotDistance
  rw [activeSlots_congr h]

theorem primarySlotAngle_congr (h : td.mtSlots = td'.mtSlots) :
    td.primarySlotAngle = td'.primarySlotAngle := by
  unfold primarySlotAngle
  rw [activeSlots_congr h]

theorem pinchScale_congr (h : td.pinchBaseDist = td'.pinchBaseDist) :
    td.pinchScale = td'.pinchScale := by
  funext dist
  unfold pinchScale
  rw [h]

theorem touchDown_samePinch (h : td.pinchPart = td'.pinchPart) (hev : te.ev = te'.ev) :
    SamePinch (td.touchDown te) (td'.touchDown te') := by
  obtain ⟨hslots,hcurrent,hactive,hdist,hangle,hfingers,hdevice⟩ := pinchPart_iff.mp h
  have hcontacted : (td.contacted te).mtSlots = (td'.contacted te').mtSlots := hslots
  have hcount : (td.contacted te).touchFingers = (td'.contacted te').touchFingers := by
    change max td.activeSlotCount 1 = max td'.activeSlotCount 1
    rw [activeSlotCount,activeSlotCount,activeSlots_congr hslots]
  have hopen : (td.contacted te).pinchActive = (td'.contacted te').pinchActive := hactive
  rw [touchDown_contacted,touchDown_contacted,primarySlotDistance_congr hcontacted,
    primarySlotAngle_congr hcontacted,hcount,hopen,hdevice,hev]
  split_ifs
  · cases (td'.contacted te').primarySlotDistance with
    | none => exact ⟨rfl,h⟩
    | some dist => exact ⟨rfl,pinchPart_iff.mpr ⟨hslots,hcurrent,rfl,rfl,rfl,rfl,hdevice⟩⟩
  · exact ⟨rfl,h⟩

theorem touchUp_samePinch (h : td.pinchPart = td'.pinchPart) (hev : te.ev = te'.ev)
    (cfgTap cfgTap' dwt : Bool) :
    SamePinch (td.touchUp te cfgTap dwt) (td'.touchUp te' cfgTap' dwt) := by
  obtain ⟨hslots,hcurrent,hactive,hdist,hangle,hfingers,hdevice⟩ := pinchPart_iff.mp h
  have hlift : td.liftPinch te = td'.liftPinch te' := by
    unfold liftPinch
    rw [primarySlotDistance_congr hslots,primarySlotAngle_congr hslots,pinchScale_congr hdist,
      hactive,hangle,hfingers,hdevice,hev]
  -- the click of a tap is no part of a pinch
  have hpinches : ∀ (td : TrackedDevice F D) (te : TimedEvent) cfgTap,
      pinches (td.touchUp te cfgTap dwt).2 = pinches (td.liftPinch te) := by
    intro td te cfgTap
    unfold touchUp pinches
    rw [List.filter_append]
    refine (congrArg _ ?_).trans (List.append_nil _)
    split_ifs <;> rfl
  refine ⟨by rw [hpinches,hpinches,hlift],?_⟩
  exact pinchPart_iff.mpr ⟨hslots,hcurrent,rfl,hdist,hangle,hfingers,hdevice⟩

/-- Clicks and the finger keys are nothing to a pinch. -/
theorem processAbsoluteKey_other (td : TrackedDevice F D) {te : TimedEvent}
    (htouch : te.ev.code ≠ KeyCode.btnTouch) (cfgTap dwt : Bool) :
    pinches (td.processAbsoluteKey te cfgTap dwt).2 = [] ∧
      (td.processAbsoluteKey te cfgTap dwt).1.pinchPart = td.pinchPart := by
  unfold processAbsoluteKey
  dsimp only
  rw [if_neg htouch]
  split_ifs
  all_goals first
    | exact ⟨rfl,rfl⟩
    | skip
  all_goals
    refine ⟨?_,physicalClick_frame pinchPart (fun _ _ => rfl) te td⟩
    unfold physicalClick
    dsimp only
    split_ifs <;> rfl

theorem processAbsoluteKey_samePinch (h : td.pinchPart = td'.pinchPart) (hev : te.ev = te'.ev)
    (cfgTap cfgTap' dwt : Bool) :
    SamePinch (td.processAbsoluteKey te cfgTap dwt) (td'.processAbsoluteKey te' cfgTap' dwt) := by
  by_cases htouch : te.ev.code = KeyCode.btnTouch
  · unfold processAbsoluteKey
    dsimp only
    rw [← hev,if_pos htouch,if_pos htouch]
    split_ifs
    · exact touchDown_samePinch h hev
    · exact touchUp_samePinch h hev cfgTap cfgTap' dwt
  · obtain ⟨hout,hpart⟩ := td.processAbsoluteKey_other htouch cfgTap dwt
    obtain ⟨hout',hpart'⟩ := td'.processAbsoluteKey_other (hev ▸ htouch) cfgTap' dwt
    exact ⟨hout.trans hout'.symm,hpart.trans (h.trans hpart'.symm)⟩

theorem processAbsoluteAxis_samePinch (h : td.pinchPart = td'.pinchPart) (hev : te.ev = te'.ev) :
    (td.processAbsoluteAxis te).pinchPart = (td'.processAbsoluteAxis te').pinchPart := by
  obtain ⟨hslots,hcurrent,hactive,hdist,hangle,hfingers,hdevice⟩ := pinchPart_iff.mp h
  have hmodify : ∀ f, (td.modifySlot f).pinchPart = (td'.modifySlot f).pinchPart := by
    intro f
    refine pinchPart_iff.mpr ⟨?_,hcurrent,hactive,hdist,hangle,hfingers,hdevice⟩
    change td.mtSlots.modify td.currentSlot f = td'.mtSlots.modify td'.currentSlot f
    rw [hslots,hcurrent]
  have hlength : td'.mtSlots.length = td.mtSlots.length := by rw [hslots]
  unfold processAbsoluteAxis
  dsimp only
  rw [← hev,hlength]
  split_ifs
  · exact pinchPart_iff.mpr ⟨hslots,rfl,hactive,hdist,hangle,hfingers,hdevice⟩
  · exact h
  · exact hmodify _
  · exact hmodify _
  · exact hmodify _
  · exact hmodify _
  · exact h
  · exact h
  · exact h

/-- The single-touch coordinates are nothing to a pinch. -/
theorem processAbsoluteAxis_other (habs : te.ev.eventType = .absolute)
    (hother : ¬ te.ev.ForPinch) : (td.processAbsoluteAxis te).pinchPart = td.pinchPart := by
  unfold InputEvent.ForPinch at hother
  simp only [InputEvent.AxisWith,habs,true_and,not_or] at hother
  obtain ⟨_,_,hslot,htracking,hx,hy,hdistance⟩ := hother
  unfold processAbsoluteAxis
  dsimp only
  rw [if_neg hslot,if_neg htracking,if_neg hx,if_neg hy,if_neg hdistance]
  split_ifs <;> rfl

variable [F32 F] [FloatCast F D]

/-- The frames of an open pinch are its updates; the other frames are nothing to it. -/
theorem pinches_processSyn (cfgNat : Bool) (cfgAccel : F) (dwt : Bool) :
    pinches (td.processSyn te cfgNat cfgAccel dwt).2 =
      if te.ev.code = 0 ∧ td.pinchActive = true ∧ dwt = false then (td.pinchFrame te).2
      else [] := by
  have hmovement : pinches (td.movementFrame te cfgNat cfgAccel).2 = [] := by
    refine List.filter_eq_nil_iff.mpr fun e he => ?_
    have hmove := (movementFrame_movement te cfgNat cfgAccel td e he).2
    cases htype : e.eventType <;> rw [htype] at hmove <;>
      simp_all [LibinputEventType.isMovement,LibinputEventType.isPinch]
  have hframe : pinches (td.pinchFrame te).2 = (td.pinchFrame te).2 := by
    unfold pinchFrame
    cases td.primarySlotDistance <;> rfl
  unfold processSyn
  by_cases hcode : te.ev.code = 0
  · rw [if_neg (not_not.mpr hcode)]
    cases hactive : td.pinchActive <;> cases dwt
    · simp only [Bool.false_and,Bool.false_eq_true,if_false,false_and,and_false]
      split_ifs
      · exact hmovement
      · rfl
    · simp [pinches]
    · simpa [hcode] using hframe
    · simp [pinches]
  · simp [hcode,pinches]

theorem processSyn_samePinch (h : td.pinchPart = td'.pinchPart) (hev : te.ev = te'.ev)
    (cfgNat cfgNat' : Bool) (cfgAccel cfgAccel' : F) (dwt : Bool) :
    SamePinch (td.processSyn te cfgNat cfgAccel dwt)
      (td'.processSyn te' cfgNat' cfgAccel' dwt) := by
  obtain ⟨hslots,_,hactive,hdist,hangle,hfingers,hdevice⟩ := pinchPart_iff.mp h
  have hframe : (td.pinchFrame te).2 = (td'.pinchFrame te').2 := by
    unfold pinchFrame
    rw [primarySlotDistance_congr hslots,primarySlotAngle_congr hslots,pinchScale_congr hdist,
      hangle,hfingers,hdevice,hev]
  have hkeep : ∀ (td : TrackedDevice F D) (te : TimedEvent) cfgNat cfgAccel,
      (td.processSyn te cfgNat cfgAccel dwt).1.pinchPart = td.pinchPart :=
    fun td te cfgNat cfgAccel =>
      processSyn_frame pinchPart (fun _ _ _ _ _ _ => rfl) te cfgNat cfgAccel dwt td
  refine ⟨?_,by rw [hkeep,hkeep,h]⟩
  rw [pinches_processSyn,pinches_processSyn,hframe,hactive,hev]

end Congruence

section Steps
variable [F32 F] [FloatCast F D]

omit [F64 D] [F32 F] [FloatCast F D] in
/-- The device as the branches of the handler find it. -/
theorem guard_pinchPart (td : TrackedDevice F D) (dwt : Bool) :
    (if dwt then { td with tapEmitted := true } else td).pinchPart = td.pinchPart := by
  split_ifs <;> rfl

/-- The same kernel event in or out of the typing window is to the pinch the same, whatever else the
devices hold. -/
theorem touchStep_samePinch {td td' : TrackedDevice F D} {i i' : TouchInput F}
    (h : td.pinchPart = td'.pinchPart) (hev : i.te.ev = i'.te.ev)
    (hdwt : i.dwtActive = i'.dwtActive) : SamePinch (td.touchStep i) (td'.touchStep i') := by
  have hguard := (guard_pinchPart td i.dwtActive).trans
    (h.trans (guard_pinchPart td' i.dwtActive).symm)
  cases htype : i.te.ev.eventType with
  | key =>
    rw [touchStep_key td i htype,touchStep_key td' i' (hev ▸ htype),← hdwt]
    exact processAbsoluteKey_samePinch hguard hev _ _ _
  | absolute =>
    rw [touchStep_absolute td i htype,touchStep_absolute td' i' (hev ▸ htype),← hdwt]
    exact ⟨rfl,processAbsoluteAxis_samePinch hguard hev⟩
  | synchronization =>
    rw [touchStep_synchronization td i htype,touchStep_synchronization td' i' (hev ▸ htype),← hdwt]
    exact processSyn_samePinch hguard hev _ _ _ _ _
  | relative =>
    have htype' := hev ▸ htype
    unfold touchStep processAbsoluteEvent
    rw [htype,htype',← hdwt]
    exact ⟨rfl,hguard⟩
  | other n =>
    have htype' := hev ▸ htype
    unfold touchStep processAbsoluteEvent
    rw [htype,htype',← hdwt]
    exact ⟨rfl,hguard⟩

/-- What is not for the pinch leaves it alone. -/
theorem touchStep_other_pinch (td : TrackedDevice F D) {i : TouchInput F}
    (hother : ¬ i.te.ev.ForPinch) :
    pinches (td.touchStep i).2 = [] ∧ (td.touchStep i).1.pinchPart = td.pinchPart := by
  have hguard := guard_pinchPart td i.dwtActive
  cases htype : i.te.ev.eventType with
  | key =>
    rw [touchStep_key td i htype]
    have htouch : i.te.ev.code ≠ KeyCode.btnTouch := fun hcode => hother (.inl ⟨htype,hcode⟩)
    obtain ⟨hout,hpart⟩ := processAbsoluteKey_other
      (if i.dwtActive then { td with tapEmitted := true } else td) htouch i.cfgTap i.dwtActive
    exact ⟨hout,hpart.trans hguard⟩
  | absolute =>
    rw [touchStep_absolute td i htype]
    exact ⟨rfl,(processAbsoluteAxis_other htype hother).trans hguard⟩
  | synchronization => exact absurd (.inr (.inl htype)) hother
  | relative =>
    unfold touchStep processAbsoluteEvent
    rw [htype]
    exact ⟨rfl,hguard⟩
  | other n =>
    unfold touchStep processAbsoluteEvent
    rw [htype]
    exact ⟨rfl,hguard⟩

end Steps
end TrackedDevice

instance (ev : InputEvent) : Decidable ev.ForPinch := inferInstanceAs (Decidable (_ ∨ _))

/-- For a pinch the second input is the first in the finer units: outside the events that pinches
depend on, the two may be anything. -/
def UnitChange.Gives (m : UnitChange D) (i i' : TouchInput F) : Prop :=
  i'.dwtActive = i.dwtActive ∧
    (i'.te.ev = m.event i.te.ev ∨ ¬ i.te.ev.ForPinch ∧ ¬ i'.te.ev.ForPinch)

instance (m : UnitChange D) (i i' : TouchInput F) : Decidable (m.Gives i i') :=
  inferInstanceAs (Decidable (_ ∧ _))

namespace TrackedDevice
variable [F32 F] [FloatCast F D] {m : UnitChange D} {td td' : TrackedDevice F D}

omit [F32 F] [FloatCast F D] in
theorem pinchPart_rescaled (m : UnitChange D) (h : td.pinchPart = td'.pinchPart) :
    (m.device td).pinchPart = (m.device td').pinchPart := by
  obtain ⟨hslots,hcurrent,hactive,hdist,hangle,hfingers,hdevice⟩ := pinchPart_iff.mp h
  exact pinchPart_iff.mpr ⟨congrArg (List.map m.slot) hslots,hcurrent,hactive,
    congrArg m.map hdist,hangle,hfingers,hdevice⟩

theorem touchStep_gives {i i' : TouchInput F} (hi : m.Gives i i')
    (h : td'.pinchPart = (m.device td).pinchPart) :
    pinches (td'.touchStep i').2 = pinches (td.touchStep i).2 ∧
      (td'.touchStep i').1.pinchPart = (m.device (td.touchStep i).1).pinchPart := by
  obtain ⟨hdwt,hev | ⟨hother,hother'⟩⟩ := hi
  · have hsame : SamePinch (td'.touchStep i') ((m.device td).touchStep (m.input i)) :=
      touchStep_samePinch h hev hdwt
    rwa [touchStep_rescaled] at hsame
  · obtain ⟨hout,hpart⟩ := td.touchStep_other_pinch hother
    obtain ⟨hout',hpart'⟩ := td'.touchStep_other_pinch hother'
    exact ⟨hout'.trans hout.symm,hpart'.trans (h.trans (pinchPart_rescaled m hpart).symm)⟩

/-- The pinches of a whole stream do not depend on the units. -/
theorem run_gives {inputs inputs' : List (TouchInput F)}
    (hinputs : List.Forall₂ m.Gives inputs inputs')
    (h : td'.pinchPart = (m.device td).pinchPart) :
    pinches (run touchStep td' inputs').2 = pinches (run touchStep td inputs).2 := by
  induction hinputs generalizing td td' with
  | nil => rfl
  | cons hi _ ih =>
    obtain ⟨hout,hnext⟩ := touchStep_gives hi h
    rw [run_cons,run_cons]
    unfold pinches at *
    rw [List.filter_append,List.filter_append,hout,ih hnext]

end TrackedDevice
end Dependence

section Reals

noncomputable instance : F32 ℝ where
  ofI32 z := z
  roundToI32 x := saturateI32 (if 0 ≤ x then ⌊x + 1/2⌋ else -⌊-x + 1/2⌋)

noncomputable instance : F64 ℝ where
  ofI32 z := z
  sqrt := Real.sqrt
  atan2Degrees y x := Complex.arg ⟨x,y⟩ * (180 / Real.pi)
  isPositive x := decide (0 < x)
  clamp x lo hi := max lo (min x hi)

noncomputable instance : FloatCast ℝ ℝ where
  toF64 := id
  toF32 := id

/-- In real arithmetic every positive factor is such. -/
noncomputable def realUnits (k : ℤ) (hk : 0 < k) : UnitChange ℝ where
  factor := k
  map x := k*x
  map_zero := by norm_num
  map_ofI32 z := (Int.cast_mul k z).symm
  distance x x' y y' := by
    have hpos : (0 : ℝ) ≤ k := by exact_mod_cast hk.le
    have hfactor : ((k : ℝ)*x - k*x')*(k*x - k*x') + (k*y - k*y')*(k*y - k*y') =
        (k*k)*((x - x')*(x - x') + (y - y')*(y - y')) := by ring
    change Real.sqrt _ = k*Real.sqrt _
    rw [hfactor,Real.sqrt_mul (mul_self_nonneg _),Real.sqrt_mul_self hpos]
  angle x x' y y' := by
    have hpos : (0 : ℝ) < k := by exact_mod_cast hk
    have hpoint : (⟨k*x - k*x',k*y - k*y'⟩ : ℂ) = ((k : ℝ) : ℂ)*⟨x - x',y - y'⟩ := by
      apply Complex.ext <;> simp [mul_sub]
    change Complex.arg ⟨k*x - k*x',k*y - k*y'⟩ * _ = Complex.arg ⟨x - x',y - y'⟩ * _
    rw [hpoint,Complex.arg_real_mul _ hpos]
  positive x := by
    have hpos : (0 : ℝ) < k := by exact_mod_cast hk
    change decide (0 < (k : ℝ)*x) = decide (0 < x)
    simp [hpos]
  ratio x y := by
    have hpos : (k : ℝ) ≠ 0 := by exact_mod_cast hk.ne'
    exact mul_div_mul_left x y hpos

/-- In real arithmetic a touchpad whose positions are given in units finer by a positive factor
reports every pinch as the other does, whatever its single-touch coordinates, clicks and finger keys
are and whatever else the client has set. -/
theorem pinch_in_any_units {F : Type} [F32 F] [FloatCast F ℝ] {k : ℤ} (hk : 0 < k)
    (device : EvdevDevice) (path : PathBuf) (d : DevicePtr) {inputs inputs' : List (TouchInput F)}
    (hinputs : List.Forall₂ (realUnits k hk).Gives inputs inputs') :
    pinches (run TrackedDevice.touchStep (.new device path d : TrackedDevice F ℝ) inputs').2 =
      pinches (run TrackedDevice.touchStep (.new device path d : TrackedDevice F ℝ) inputs).2 := by
  refine TrackedDevice.run_gives hinputs ?_
  rw [TrackedDevice.new_rescaled]

/-- Two contacts land and move apart, the one in steps of a unit; a single-touch coordinate comes in
between. -/
noncomputable def spread (unit x : ℤ) : List (TouchInput ℝ) :=
  [(.absolute,AbsoluteAxisCode.absMtTrackingId,1),(.absolute,AbsoluteAxisCode.absMtSlot,1),
    (.absolute,AbsoluteAxisCode.absMtTrackingId,2),
    (.absolute,AbsoluteAxisCode.absMtPositionX,unit*30),(.key,KeyCode.btnTouch,1),
    (.absolute,AbsoluteAxisCode.absX,x),(.absolute,AbsoluteAxisCode.absMtPositionX,unit*60),
    (.synchronization,0,0),(.key,KeyCode.btnTouch,0)].map
      fun e => ⟨⟨⟨7,e.1,e.2.1,e.2.2⟩,0⟩,true,true,1,false⟩

theorem spread_in_any_units :
    pinches (run TrackedDevice.touchStep (.new plainTouchpad "/dev/input/event5" 0)
        (spread 3 250)).2 =
      pinches (run TrackedDevice.touchStep (.new plainTouchpad "/dev/input/event5" 0)
        (spread 1 40) : TrackedDevice ℝ ℝ × List (LibinputEvent ℝ)).2 := by
  refine pinch_in_any_units (k := 3) (by decide) plainTouchpad "/dev/input/event5" 0 ?_
  decide

end Reals
end LibinputRs
