import LibinputRs.Automata.Symmetry
import LibinputRs.DeviceConfig
import LibinputRs.Library.ScrollSums
import LibinputRs.Library.Slots

/-! Natural scrolling as a change of sign: one stream of events is processed with the option on and
with it off. The device passes through the same states; what differs is the scroll events queued. -/
namespace LibinputRs
open Automata

variable {F : Type} [F32 F] [FloatCast F ℚ]

/-- One event for a device, with the settings and the typing time of its batch. -/
structure ConfiguredEvent (F : Type) where
  cfg : Settings F
  typing : Option Instant
  te : TimedEvent

namespace LibinputEvent

/-- The event with the sign of its scroll distance changed; events without one stay. -/
def negated (e : LibinputEvent ℚ) : LibinputEvent ℚ :=
  match e.payload with
  | .pointerAxis a =>
    { e with
      payload := .pointerAxis { a with value := -a.value, valueDiscrete := -a.valueDiscrete } }
  | _ => e

theorem negated_scroll (eventType : LibinputEventType) (d : DevicePtr) (timeUsec axis : ℕ) (v : ℤ)
    (source : ℕ) : (scroll eventType d timeUsec axis v source : LibinputEvent ℚ).negated =
      scroll eventType d timeUsec axis (-v) source := by
  have hvalue : -(F64.ofI32 v * 15.0 : ℚ) = F64.ofI32 (-v) * 15.0 := by
    change -((v : ℚ) * 15.0) = ((-v : ℤ) : ℚ) * 15.0
    rw [Int.cast_neg,neg_mul]
  unfold negated scroll
  dsimp only
  rw [hvalue]

theorem scroll_inj (eventType : LibinputEventType) (d : DevicePtr) (timeUsec axis : ℕ) (v w : ℤ)
    (source : ℕ) : (scroll eventType d timeUsec axis v source : LibinputEvent ℚ) =
      scroll eventType d timeUsec axis w source ↔ v = w := by
  refine ⟨fun h => ?_,fun h => by rw [h]⟩
  simp only [scroll,mk.injEq,EventPayload.pointerAxis.injEq,PointerAxisEvent.mk.injEq] at h
  exact h.2.1.2.2.2.1

end LibinputEvent

theorem map_negated_of_same {l : List (LibinputEvent ℚ)} (h : ∀ e ∈ l, e.negated = e) :
    l.map LibinputEvent.negated = l := by
  rw [List.map_congr_left h,List.map_id']

/-- Changing the sign leaves the range of `i32`. -/
def NegOverflows (z : ℤ) : Prop := i32Wrap (-z) ≠ -z

namespace TrackedDevice

/-- The event is a turn of a wheel on the mouse route. -/
def TurnsWheel (td : TrackedDevice F ℚ) (te : TimedEvent) : Prop :=
  td.isKeyboard = false ∧ td.isAbsolute = false ∧ td.isPointer = true ∧
    te.ev.eventType = .relative ∧
    (te.ev.code = RelativeAxisCode.relWheel ∨ te.ev.code = RelativeAxisCode.relHwheel) ∧
    te.ev.value ≠ 0

/-- The distances that a frame of two fingers scrolls by, the vertical one first. -/
def scrollDistances (td : TrackedDevice F ℚ) : ℤ × ℤ :=
  (F32.roundToI32 (F32.ofI32 td.currentDy * scrollScale + td.remainderY : F),
    F32.roundToI32 (F32.ofI32 td.currentDx * scrollScale + td.remainderX : F))

/-- The event ends a frame of two fingers that scrolls by the least number of `i32`, which has no
opposite. -/
def ScrollOverflows (td : TrackedDevice F ℚ) (te : TimedEvent) (dwt : Bool) : Prop :=
  te.ev.IsReport ∧ td.pinchActive = false ∧ dwt = false ∧ (td.currentDx ≠ 0 ∨ td.currentDy ≠ 0) ∧
    max td.activeSlotCount td.touchFingers = 2 ∧
    (NegOverflows td.scrollDistances.1 ∨ NegOverflows td.scrollDistances.2)

section Wheel

omit [F32 F] [FloatCast F ℚ] in
theorem processRelativeEvent_negated (td : TrackedDevice F ℚ) (te : TimedEvent) :
    td.processRelativeEvent te = (td.processRelativeEvent te).map LibinputEvent.negated ↔
      ¬ (te.ev.eventType = .relative ∧
        (te.ev.code = RelativeAxisCode.relWheel ∨ te.ev.code = RelativeAxisCode.relHwheel) ∧
        te.ev.value ≠ 0) := by
  have hwheel : ∀ axis, ([.scroll .pointerScrollWheel td.libDevice (systimeToUsec te.ev.time) axis
        te.ev.value 1] : List (LibinputEvent ℚ)) =
      [.scroll .pointerScrollWheel td.libDevice (systimeToUsec te.ev.time) axis te.ev.value 1].map
        LibinputEvent.negated ↔ te.ev.value = 0 := by
    intro axis
    rw [List.map_singleton,LibinputEvent.negated_scroll,List.singleton_inj,
      LibinputEvent.scroll_inj]
    omega
  unfold processRelativeEvent
  cases htype : te.ev.eventType with
  | relative =>
    dsimp only
    split_ifs with hx hy hv hh
    · simp [hx,LibinputEvent.relativeMotion,LibinputEvent.negated,RelativeAxisCode.relX,
        RelativeAxisCode.relWheel,RelativeAxisCode.relHwheel]
    · simp [hy,LibinputEvent.relativeMotion,LibinputEvent.negated,RelativeAxisCode.relY,
        RelativeAxisCode.relWheel,RelativeAxisCode.relHwheel]
    · rw [hwheel]
      simp [hv]
    · rw [hwheel]
      simp [hh]
    · simp [hv,hh]
  | key =>
    dsimp only
    split_ifs <;> simp [LibinputEvent.button,LibinputEvent.negated]
  | synchronization => simp
  | absolute => simp
  | other n => simp

end Wheel

section Fingers

omit [F32 F] [FloatCast F ℚ] in
theorem scrollAxis_negated (td : TrackedDevice F ℚ) (te : TimedEvent) (axis : ℕ) (emit : ℤ) :
    td.scrollAxis te true axis emit =
      (td.scrollAxis te false axis emit).map LibinputEvent.negated ↔ ¬ NegOverflows emit := by
  unfold scrollAxis NegOverflows
  by_cases hemit : emit = 0
  · have hzero : i32Wrap 0 = 0 := by decide
    simp [hemit,hzero]
  · rw [← ne_eq] at hemit
    simp only [if_pos hemit,if_true,Bool.false_eq_true,if_false,List.map_singleton,
      LibinputEvent.negated_scroll,List.singleton_inj,LibinputEvent.scroll_inj,not_not]

/-- The option changes what a frame queues only, by as many events. -/
theorem movementFrame_natural (td : TrackedDevice F ℚ) (te : TimedEvent) (cfgNat : Bool)
    (cfgAccel : F) :
    (td.movementFrame te cfgNat cfgAccel).1 = (td.movementFrame te false cfgAccel).1 ∧
      (td.movementFrame te cfgNat cfgAccel).2.length =
        (td.movementFrame te false cfgAccel).2.length := by
  have hscroll : ∀ (td : TrackedDevice F ℚ) axis emit, (td.scrollAxis te cfgNat axis emit).length =
      (td.scrollAxis te false axis emit).length := by
    intro td axis emit
    unfold scrollAxis
    split_ifs <;> rfl
  unfold movementFrame
  dsimp only
  split_ifs
  · exact ⟨rfl,rfl⟩
  · exact ⟨rfl,by simp only [scrollFrame,List.length_append,hscroll]⟩
  · exact ⟨rfl,rfl⟩

omit [FloatCast F ℚ] in
theorem scrollFrame_negated (td : TrackedDevice F ℚ) (te : TimedEvent) :
    (td.scrollFrame te true).2 = (td.scrollFrame te false).2.map LibinputEvent.negated ↔
      ¬ (NegOverflows td.scrollDistances.1 ∨ NegOverflows td.scrollDistances.2) := by
  have hlength : (td.scrollAxis te true 0 td.scrollDistances.1).length =
      ((td.scrollAxis te false 0 td.scrollDistances.1).map LibinputEvent.negated).length := by
    unfold scrollAxis
    split_ifs <;> rfl
  change td.scrollAxis te true 0 td.scrollDistances.1 ++ td.scrollAxis te true 1 td.scrollDistances.2 =
    (td.scrollAxis te false 0 td.scrollDistances.1 ++
      td.scrollAxis te false 1 td.scrollDistances.2).map LibinputEvent.negated ↔ _
  rw [List.map_append,not_or,← td.scrollAxis_negated te 0,← td.scrollAxis_negated te 1]
  constructor
  · exact fun h => List.append_inj h hlength
  · rintro ⟨hy,hx⟩
    rw [hy,hx]

theorem movementFrame_negated (td : TrackedDevice F ℚ) (te : TimedEvent) (cfgAccel : F) :
    (td.movementFrame te true cfgAccel).2 =
        (td.movementFrame te false cfgAccel).2.map LibinputEvent.negated ↔
      ¬ (max td.activeSlotCount td.touchFingers = 2 ∧
        (NegOverflows td.scrollDistances.1 ∨ NegOverflows td.scrollDistances.2)) := by
  have hfingers : max ({ td with tapEmitted := true } : TrackedDevice F ℚ).activeSlotCount
      ({ td with tapEmitted := true } : TrackedDevice F ℚ).touchFingers =
        max td.activeSlotCount td.touchFingers := rfl
  unfold movementFrame
  dsimp only
  rw [hfingers]
  split_ifs with hone htwo
  · refine iff_of_true (map_negated_of_same fun e he => ?_).symm fun h => by omega
    unfold motionFrame at he
    dsimp only at he
    split_ifs at he
    · rw [List.mem_singleton.mp he]
      rfl
    · cases he
  · rw [and_iff_right htwo]
    exact scrollFrame_negated { td with tapEmitted := true } te
  · exact iff_of_true rfl fun h => htwo h.1

theorem processSyn_natural (td : TrackedDevice F ℚ) (te : TimedEvent) (cfgNat : Bool)
    (cfgAccel : F) (dwt : Bool) :
    (td.processSyn te cfgNat cfgAccel dwt).1 = (td.processSyn te false cfgAccel dwt).1 ∧
      (td.processSyn te cfgNat cfgAccel dwt).2.length =
        (td.processSyn te false cfgAccel dwt).2.length := by
  unfold processSyn
  split_ifs
  all_goals first
    | exact ⟨rfl,rfl⟩
    | exact td.movementFrame_natural te cfgNat cfgAccel

theorem processSyn_negated (td : TrackedDevice F ℚ) (te : TimedEvent) (cfgAccel : F) (dwt : Bool)
    (htype : te.ev.eventType = .synchronization) :
    (td.processSyn te true cfgAccel dwt).2 =
        (td.processSyn te false cfgAccel dwt).2.map LibinputEvent.negated ↔
      ¬ td.ScrollOverflows te dwt := by
  unfold processSyn ScrollOverflows
  by_cases hcode : te.ev.code = 0
  · have hreport : te.ev.IsReport := ⟨htype,hcode⟩
    rw [if_neg (not_not.mpr hcode),if_neg (not_not.mpr hcode)]
    cases hdwt : dwt with
    | true => simp
    | false =>
      cases hpinch : td.pinchActive with
      | true =>
        simp only [pinchFrame]
        cases td.primarySlotDistance <;> simp [LibinputEvent.negated,LibinputEvent.pinchUpdate,
          LibinputEvent.gesture]
      | false =>
        by_cases hmoved : td.currentDx ≠ 0 ∨ td.currentDy ≠ 0
        · simp only [Bool.false_and,Bool.false_eq_true,if_false,hreport,hmoved,true_and]
          exact td.movementFrame_negated te cfgAccel
        · simp [hmoved]
  · rw [if_pos hcode,if_pos hcode]
    simp [InputEvent.IsReport,hcode]

end Fingers

section Events

omit [F32 F] [FloatCast F ℚ] in
/-- A touch, a gesture or a click carries no scroll distance. -/
theorem TouchEffect.negated {td : TrackedDevice F ℚ} {ev : InputEvent}
    {r : TrackedDevice F ℚ × List (LibinputEvent ℚ)} (h : TouchEffect td ev r)
    (htype : ev.eventType = .key) : ∀ e ∈ r.2, e.negated = e := by
  cases h with
  | contact _ _ _ hout => simp [hout]
  | pinchBegins _ _ fingers _ _ hout =>
    rw [hout]
    exact List.forall_mem_singleton.mpr rfl
  | lift _ _ ends taps hends htaps _ hout =>
    rw [hout]
    refine List.forall_mem_append.mpr ⟨?_,?_⟩
    · rcases hends with ⟨_,scale,angle,rfl⟩ | ⟨_,rfl⟩
      · exact List.forall_mem_singleton.mpr rfl
      · exact List.forall_mem_nil _
    · rcases htaps with rfl | rfl
      · exact List.forall_mem_nil _
      · exact List.forall_mem_cons.mpr ⟨rfl,List.forall_mem_singleton.mpr rfl⟩
  | leftPress _ _ mapped _ _ hout =>
    rw [hout]
    exact List.forall_mem_singleton.mpr rfl
  | leftRelease _ _ _ hout =>
    rw [hout]
    split_ifs
    · exact List.forall_mem_singleton.mpr rfl
    · exact List.forall_mem_nil _
  | otherButton code _ _ _ _ hout =>
    rw [hout]
    exact List.forall_mem_singleton.mpr rfl
  | quiet _ _ hout => simp [hout]
  | frame hev _ _ =>
    rw [htype] at hev
    cases hev

theorem processAbsoluteEvent_natural (td : TrackedDevice F ℚ) (te : TimedEvent)
    (cfgTap cfgNat : Bool) (cfgAccel : F) (dwt : Bool) :
    (td.processAbsoluteEvent te cfgTap cfgNat cfgAccel dwt).1 =
        (td.processAbsoluteEvent te cfgTap false cfgAccel dwt).1 ∧
      (td.processAbsoluteEvent te cfgTap cfgNat cfgAccel dwt).2.length =
        (td.processAbsoluteEvent te cfgTap false cfgAccel dwt).2.length := by
  unfold processAbsoluteEvent
  cases te.ev.eventType with
  | synchronization => exact processSyn_natural _ te cfgNat cfgAccel dwt
  | key => exact ⟨rfl,rfl⟩
  | absolute => exact ⟨rfl,rfl⟩
  | relative => exact ⟨rfl,rfl⟩
  | other n => exact ⟨rfl,rfl⟩

theorem processAbsoluteEvent_negated (td : TrackedDevice F ℚ) (te : TimedEvent) (cfgTap : Bool)
    (cfgAccel : F) (dwt : Bool) :
    (td.processAbsoluteEvent te cfgTap true cfgAccel dwt).2 =
        (td.processAbsoluteEvent te cfgTap false cfgAccel dwt).2.map LibinputEvent.negated ↔
      ¬ td.ScrollOverflows te dwt := by
  have hguard : (if dwt then { td with tapEmitted := true } else td).ScrollOverflows te dwt ↔
      td.ScrollOverflows te dwt := by
    split_ifs <;> rfl
  have hother : te.ev.eventType ≠ .synchronization → ¬ td.ScrollOverflows te dwt :=
    fun htype h => htype h.1.1
  have heffect := td.processAbsoluteEvent_effect te cfgTap false cfgAccel dwt
  unfold processAbsoluteEvent at heffect ⊢
  cases htype : te.ev.eventType with
  | synchronization =>
    rw [← hguard]
    exact processSyn_negated _ te cfgAccel dwt htype
  | key =>
    rw [htype] at heffect
    exact iff_of_true (map_negated_of_same (heffect.negated htype)).symm (hother (by simp [htype]))
  | absolute => exact iff_of_true rfl (hother (by simp [htype]))
  | relative => exact iff_of_true rfl (hother (by simp [htype]))
  | other n => exact iff_of_true rfl (hother (by simp [htype]))

end Events
end TrackedDevice

section Streams
open TrackedDevice

/-- One event for a device with natural scrolling on or off. -/
def scrollStep (natural : Bool) (s : TrackedDevice F ℚ × Option Instant) (i : ConfiguredEvent F) :
    (TrackedDevice F ℚ × Option Instant) × List (LibinputEvent ℚ) :=
  processEvent { i.cfg with cfgNat := natural } i.typing s i.te

theorem scrollStep_natural (natural : Bool) (s : TrackedDevice F ℚ × Option Instant)
    (i : ConfiguredEvent F) : (scrollStep natural s i).1 = (scrollStep false s i).1 ∧
      (scrollStep natural s i).2.length = (scrollStep false s i).2.length := by
  have habs := s.1.processAbsoluteEvent_natural i.te i.cfg.cfgTap natural i.cfg.cfgAccel
    (dwtActive i.cfg.cfgDwt i.typing i.te.now)
  unfold scrollStep processEvent
  split_ifs
  · exact ⟨rfl,rfl⟩
  · exact ⟨rfl,rfl⟩
  · exact ⟨congrArg (·,s.2) habs.1,habs.2⟩
  · exact ⟨rfl,rfl⟩

/-- The event scrolls, and natural scrolling does not turn it round. -/
def DefiesNatural (td : TrackedDevice F ℚ) (i : ConfiguredEvent F) : Prop :=
  td.TurnsWheel i.te ∨ (td.isAbsolute = true ∧
    td.ScrollOverflows i.te (dwtActive i.cfg.cfgDwt i.typing i.te.now))

theorem scrollStep_negated (s : TrackedDevice F ℚ × Option Instant) (i : ConfiguredEvent F) :
    (scrollStep true s i).2 = (scrollStep false s i).2.map LibinputEvent.negated ↔
      ¬ DefiesNatural s.1 i := by
  unfold scrollStep DefiesNatural
  cases ha : s.1.isAbsolute with
  | true =>
    have hwheel : ¬ s.1.TurnsWheel i.te := fun h => by simp [h.2.1] at ha
    simp only [processEvent,ha,Bool.not_true,Bool.and_false,Bool.false_and,Bool.false_eq_true,
      if_false,if_true,hwheel,false_or,true_and]
    exact s.1.processAbsoluteEvent_negated i.te i.cfg.cfgTap i.cfg.cfgAccel _
  | false =>
    have hfinger : ∀ p : Prop, ¬ (false = true ∧ p) := fun _ h => Bool.false_ne_true h.1
    rw [or_iff_left (hfinger _)]
    cases hk : s.1.isKeyboard with
    | true =>
      simp only [processEvent,ha,hk,Bool.not_false,Bool.and_true,if_true]
      refine iff_of_true (map_negated_of_same fun e he => ?_).symm fun h => by simp [h.1] at hk
      obtain ⟨_,_,_,rfl⟩ := processKeyboardEvent_out _ _ _ e he
      rfl
    | false =>
      cases hp : s.1.isPointer with
      | true =>
        have hturn : s.1.TurnsWheel i.te ↔ i.te.ev.eventType = .relative ∧
            (i.te.ev.code = RelativeAxisCode.relWheel ∨
              i.te.ev.code = RelativeAxisCode.relHwheel) ∧ i.te.ev.value ≠ 0 := by
          unfold TurnsWheel
          rw [and_iff_right hk,and_iff_right ha,and_iff_right hp]
        rw [hturn,← s.1.processRelativeEvent_negated]
        simp only [processEvent,ha,hk,hp,Bool.not_false,Bool.and_true,Bool.false_eq_true,if_false,
          if_true]
      | false =>
        simp only [processEvent,ha,hk,hp,Bool.not_false,Bool.and_true,Bool.false_eq_true,if_false,
          Bool.and_false]
        exact iff_of_true rfl fun h => by simp [h.2.2.1] at hp

/-- Natural scrolling changes the sign of every scroll event of a stream and nothing else exactly if
no event of it is a turn of a wheel on the mouse route, or a finger scroll without an opposite. -/
theorem natural_scroll_flips_iff (s : TrackedDevice F ℚ × Option Instant)
    (inputs : List (ConfiguredEvent F)) :
    run (scrollStep true) s inputs = ((run (scrollStep false) s inputs).1,
        (run (scrollStep false) s inputs).2.map LibinputEvent.negated) ↔
      AtEach (fun before i => ¬ DefiesNatural (run (scrollStep false) s before).1.1 i) inputs := by
  rw [Prod.ext_iff,and_iff_right (run_state_congr (fun s i => (scrollStep_natural true s i).1) s
    inputs),run_image_iff _ (fun s i => (scrollStep_natural true s i).1)
    fun s i => (scrollStep_natural true s i).2]
  simp only [scrollStep_negated]

/-- One step of the wheel of a mouse. -/
def oneNotch : List (ConfiguredEvent ℚ) :=
  [⟨⟨true,false,true,1⟩,none,⟨⟨1,.relative,RelativeAxisCode.relWheel,1⟩,0⟩⟩]

/-- A mouse has natural scrolling, and its wheel turns the same way with it and without. -/
theorem wheel_defies_natural :
    LibinputDeviceConfig.scrollHasNaturalScroll (F := ℚ) (D := ℚ)
        (some (.ofEvdev plainMouse "/dev/input/event3")) = 1 ∧
      let s : TrackedDevice ℚ ℚ × Option Instant := (.new plainMouse "/dev/input/event3" 0,none)
      ¬ run (scrollStep true) s oneNotch = ((run (scrollStep false) s oneNotch).1,
        (run (scrollStep false) s oneNotch).2.map LibinputEvent.negated) := by
  decide +kernel

end Streams
end LibinputRs
