import LibinputRs.Pipeline.SingleTouch

/-! With a gain that undoes the hardware scale, exact arithmetic reports every displacement
unchanged and keeps no remainder. Under that gain the two programs agree only where nothing is
owed, so the streams on which they agree under every gain and arithmetic are exactly the settled
ones. -/
namespace LibinputRs
open Automata

/-- The inverse of the hardware scale. -/
def exactGain : ℚ := 50/9

section Rounding
variable {cfg : Settings ℚ}

theorem total_exact (hgain : cfg.cfgAccel = exactGain) (d : ℤ) : total cfg d 0 = (d : ℚ) := by
  rw [total,hgain]
  change (d : ℚ) * (0.18 : ℚ) * (50/9) + 0 = d
  ring

theorem roundHalfAway_intCast (d : ℤ) : roundHalfAway (d : ℚ) = d := by
  have hfloor : ∀ n : ℤ, ⌊(n : ℚ) + 1/2⌋ = n := by
    intro n
    rw [Int.floor_intCast_add]
    norm_num
  unfold roundHalfAway
  split_ifs
  · exact hfloor d
  · rw [← Int.cast_neg,hfloor,Int.neg_neg]

/-- A displacement in the range of `i32` is reported as it is. -/
theorem roundToI32_exact (hgain : cfg.cfgAccel = exactGain) {d : ℤ} (hd : i32Wrap d = d) :
    F32.roundToI32 (total cfg d 0) = d := by
  rw [total_exact hgain]
  change saturateI32 (roundHalfAway (d : ℚ)) = d
  rw [roundHalfAway_intCast]
  have hrange : -2^31 ≤ d ∧ d ≤ 2^31 - 1 := by
    unfold i32Wrap at hd
    rw [Int.bmod_def] at hd
    split_ifs at hd <;> omega
  unfold saturateI32
  omega

end Rounding

variable {cfg : Settings ℚ} {g : Stale} {td : TrackedDevice ℚ ℚ} {w : DeviceWrapper ℚ}

/-- Nothing is carried to the next frame. -/
def NoRemainder (td : TrackedDevice ℚ ℚ) : Prop := td.remainderX = 0 ∧ td.remainderY = 0

theorem Related.library_range (h : Related g td w) :
    i32Wrap td.currentDx = td.currentDx ∧ i32Wrap td.currentDy = td.currentDy := by
  rw [h.x.owed,h.y.owed]
  exact ⟨i32Wrap_i32Wrap _,i32Wrap_i32Wrap _⟩

/-- At a reported frame end the library reports the displacement of the frame. -/
theorem library_reports (hgain : cfg.cfgAccel = exactGain) (h : Related g td w)
    (hrem : NoRemainder td) (te : TimedEvent) (hcode : te.ev.code = 0) :
    libraryMotion (td.processSyn te cfg.cfgNat cfg.cfgAccel false).2 =
      ((td.currentDx : ℚ),(td.currentDy : ℚ)) := by
  unfold TrackedDevice.processSyn
  rw [if_neg (not_not.mpr hcode),h.pinch]
  simp only [Bool.not_false,Bool.and_true,Bool.false_eq_true,if_false]
  split_ifs with hmoved
  · rw [movementFrame_one td cfg te h.oneFinger,
      libraryMotion_motionFrame]
    dsimp only
    rw [hrem.1,hrem.2,roundToI32_exact hgain h.library_range.1,
      roundToI32_exact hgain h.library_range.2]
    rfl
  · rw [not_or,not_not,not_not] at hmoved
    rw [hmoved.1,hmoved.2]
    rfl

/-- And so does the daemon. -/
theorem daemon_reports (hgain : cfg.cfgAccel = exactGain) (h : Related g td w)
    (hrem : NoRemainder td) (te : TimedEvent) (hev : te.ev.eventType = .synchronization)
    (hcode : te.ev.code = 0) :
    daemonMotion (DeviceWrapper.processSyn te (.ofSettings cfg) false (w,.reliable)).2.1 =
      ((w.currentDx : ℚ),(w.currentDy : ℚ)) := by
  have hforward : ∀ w' : DeviceWrapper ℚ, DeviceWrapper.emitRaw te.ev (w',.reliable) =
      ((w',.reliable),[⟨te.ev,true⟩,⟨.synReport,true⟩],true) := fun _ => rfl
  unfold DeviceWrapper.processSyn
  rw [if_neg (not_not.mpr hcode)]
  simp only [Bool.not_false,Bool.or_true,Bool.false_eq_true,if_true,if_false]
  by_cases hmoved : w.currentDx ≠ 0 ∨ w.currentDy ≠ 0
  · rw [decide_eq_true hmoved,if_pos rfl,
      Fallible.andThen_of_ok (movementFrame_reliable w _ h.few),hforward,daemonMotion_frame _ _ hev,
      ← h.remainderX,← h.remainderY,hrem.1,hrem.2,
      roundToI32_exact hgain h.x.range,roundToI32_exact hgain h.y.range]
    rfl
  · rw [decide_eq_false hmoved,if_neg Bool.false_ne_true,Fallible.skip_andThen,hforward,
      daemonMotion_still hev]
    rw [not_or,not_not,not_not] at hmoved
    rw [hmoved.1,hmoved.2]
    rfl

/-- Where the two programs report the same motion at a frame end, the frame is settled. -/
theorem Related.settled_of_motion (h : Related g td w) (hgain : cfg.cfgAccel = exactGain)
    (hrem : NoRemainder td) (x : Sample) (hmotion : x.input = .synReport →
      (libraryMotion (libraryStep cfg td x).2 : ℚ × ℚ) =
        daemonMotion (daemonStep cfg (w,.reliable) x).2) :
    g.Settled cfg.cfgDwt x := by
  intro hinput hdwt
  have hev : x.event.ev = ⟨x.time,.synchronization,0,0⟩ := by
    rw [Sample.event,hinput]
    rfl
  have htype : x.event.ev.eventType = .synchronization := congrArg InputEvent.eventType hev
  have hcode : x.event.ev.code = 0 := congrArg InputEvent.code hev
  have hdwt' : x.dwt cfg.cfgDwt = false := hdwt
  have hlibrary : (libraryStep cfg td x).2 =
      (td.processSyn x.event cfg.cfgNat cfg.cfgAccel false).2 := by
    unfold libraryStep TrackedDevice.processAbsoluteEvent
    rw [hdwt',htype]
    rfl
  have hdaemon : (daemonStep cfg (w,.reliable) x).2 =
      (DeviceWrapper.processSyn x.event (.ofSettings cfg) false
        (w.trackKey x.event,.reliable)).2.1 := by
    rw [daemonStep_eq _ w .reliable x h.absolute]
    unfold DeviceWrapper.processAbsolute
    rw [hdwt',htype]
    rfl
  have heq := hmotion hinput
  rw [hlibrary,hdaemon,library_reports hgain h hrem x.event hcode,
    daemon_reports hgain (h.trackKey x.event) hrem x.event htype hcode] at heq
  have hrelated := h.trackKey x.event
  exact ⟨hrelated.x.settled_of_eq (Int.cast_injective (congrArg Prod.fst heq)),
    hrelated.y.settled_of_eq (Int.cast_injective (congrArg Prod.snd heq))⟩

/-- A key event leaves the remainders alone. -/
theorem NoRemainder.key (hrem : NoRemainder td) (te : TimedEvent) (dwt : Bool) :
    NoRemainder (td.processAbsoluteKey te cfg.cfgTap dwt).1 := by
  have hdown : NoRemainder (td.touchDown te).1 :=
    (TrackedDevice.touchDown_frame NoRemainder (fun _ _ _ _ _ => rfl) te td).mpr hrem
  have hclick : NoRemainder (td.physicalClick te).1 :=
    (TrackedDevice.physicalClick_frame NoRemainder (fun _ _ => rfl) te td).mpr hrem
  unfold TrackedDevice.processAbsoluteKey
  dsimp only
  split_ifs
  all_goals first
    | exact hdown
    | exact hclick
    | exact hrem

theorem NoRemainder.axis (hrem : NoRemainder td) (te : TimedEvent) :
    NoRemainder (td.processAbsoluteAxis te) :=
  (TrackedDevice.processAbsoluteAxis_frame NoRemainder (fun _ _ _ => rfl)
    (fun _ _ _ _ _ _ => rfl) te td).mpr hrem

/-- A frame end leaves no remainder. -/
theorem NoRemainder.syn (hgain : cfg.cfgAccel = exactGain) (h : Related g td w)
    (hrem : NoRemainder td) (te : TimedEvent) (dwt : Bool) :
    NoRemainder (td.processSyn te cfg.cfgNat cfg.cfgAccel dwt).1 := by
  unfold TrackedDevice.processSyn
  rw [h.pinch]
  simp only [Bool.false_and,Bool.false_eq_true,if_false]
  split_ifs
  · exact hrem
  · exact ⟨by norm_num,by norm_num⟩
  · rw [movementFrame_one td cfg te h.oneFinger]
    change total cfg td.currentDx td.remainderX - ((F32.roundToI32 (total cfg td.currentDx
        td.remainderX) : ℤ) : ℚ) = 0 ∧ total cfg td.currentDy td.remainderY -
      ((F32.roundToI32 (total cfg td.currentDy td.remainderY) : ℤ) : ℚ) = 0
    rw [hrem.1,hrem.2,roundToI32_exact hgain h.library_range.1,
      roundToI32_exact hgain h.library_range.2,total_exact hgain,total_exact hgain]
    exact ⟨sub_self _,sub_self _⟩
  · exact hrem

/-- Under the exact gain no sample leaves a remainder. -/
theorem NoRemainder.step (hgain : cfg.cfgAccel = exactGain) (h : Related g td w)
    (hrem : NoRemainder td) (x : Sample) : NoRemainder (libraryStep cfg td x).1 := by
  have hguard := h.guard (x.dwt cfg.cfgDwt)
  have hrem' : NoRemainder (if x.dwt cfg.cfgDwt then { td with tapEmitted := true } else td) := by
    split_ifs <;> exact hrem
  unfold libraryStep TrackedDevice.processAbsoluteEvent
  dsimp only
  generalize (if x.dwt cfg.cfgDwt then { td with tapEmitted := true } else td) = td' at hguard hrem'
  cases x.event.ev.eventType with
  | key => exact hrem'.key x.event _
  | absolute => exact hrem'.axis x.event
  | synchronization => exact NoRemainder.syn hgain hguard hrem' x.event _
  | relative => exact hrem'
  | other n => exact hrem'

/-- Under the exact gain the streams on which the motions agree are settled. -/
theorem Related.allSettled_of_motions (h : Related g td w)
    (hgain : cfg.cfgAccel = exactGain) (hrem : NoRemainder td) {xs : List Sample}
    (hmotions : (reportedMotions libraryMotion xs
        (answers (libraryStep cfg) td xs) : List (ℚ × ℚ)) =
      reportedMotions daemonMotion xs
        (answers (daemonStep cfg) (w,.reliable) xs)) :
    g.AllSettled cfg.cfgDwt xs := by
  induction xs generalizing g td w with
  | nil => trivial
  | cons x xs ih =>
    rw [answers_cons,answers_cons,reportedMotions_cons,reportedMotions_cons] at hmotions
    have hsplit : (x.input = .synReport →
        (libraryMotion (libraryStep cfg td x).2 : ℚ × ℚ) =
          daemonMotion (daemonStep cfg (w,.reliable) x).2) ∧
        reportedMotions libraryMotion xs (answers (libraryStep cfg)
          (libraryStep cfg td x).1 xs) =
        reportedMotions daemonMotion xs (answers (daemonStep cfg)
          (daemonStep cfg (w,.reliable) x).1 xs) := by
      split_ifs at hmotions with hinput
      · obtain ⟨hhead,htail⟩ := List.cons.inj hmotions
        exact ⟨fun _ => hhead,htail⟩
      · exact ⟨fun hx => absurd hx hinput,hmotions⟩
    have hsettled := h.settled_of_motion hgain hrem x hsplit.1
    obtain ⟨hrelated,hreliable,_,_⟩ := h.step cfg x hsettled
    have hstate : (daemonStep cfg (w,.reliable) x).1 =
        ((daemonStep cfg (w,.reliable) x).1.1,.reliable) :=
      Prod.ext rfl hreliable
    rw [hstate] at hsplit
    exact ⟨hsettled,ih hrelated (NoRemainder.step hgain h hrem x) hsplit.2⟩

/-- The library and the daemon report the same motions and buttons for a stream, in every
arithmetic and under every gain, exactly when no reported frame contains displacement measured
against a coordinate from before a stall. -/
theorem samePipeline_iff (cfgTap cfgNat cfgDwt : Bool) (device : AbsoluteDevice) (rawFd : RawFd)
    (path : PathBuf) (d : DevicePtr) (xs : List Sample) :
    (∀ (F D : Type) [F32 F] [F64 D] [FloatCast F D] (cfgAccel : F),
      SamePipeline (D := D) ⟨cfgTap,cfgNat,cfgDwt,cfgAccel⟩ (.new device.1 path d)
        (.new ⟨device.1,rawFd,true⟩ path,.reliable) xs) ↔ Stale.fresh.AllSettled cfgDwt xs := by
  constructor
  · intro hsame
    have hexact := (hsame ℚ ℚ exactGain).1
    have hzero : (0.0 : ℚ) = 0 := by norm_num
    exact (Related.fresh device rawFd path d).allSettled_of_motions rfl ⟨hzero,hzero⟩ hexact
  · intro hsettled F D _ _ _ cfgAccel
    exact (Related.fresh device rawFd path d).stream _ hsettled

/-- A finger down at (100,100) that rests for 60 ms and then comes to (101,200). -/
def restThenMove : List Sample :=
  [⟨0,.btnTouch 1,0,none⟩,⟨0,.absX 100,0,none⟩,⟨0,.absY 100,0,none⟩,⟨0,.synReport,0,none⟩,
    ⟨0,.absX 101,fromMillis 60,none⟩,⟨0,.absY 200,fromMillis 60,none⟩,
    ⟨0,.synReport,fromMillis 60,none⟩]

/-- After the rest the library reports 18 units down, measured against the coordinate from
before the stall; the daemon reports nothing. -/
theorem rest_parts_the_pipelines : ¬ SamePipeline (D := ℚ) ⟨true,true,true,1⟩
    (.new (F := ℚ) plainTouchpad "/dev/input/event5" 0)
    (.new ⟨plainTouchpad,7,true⟩ "/dev/input/event5",.reliable) restThenMove := by
  decide +kernel

end LibinputRs
