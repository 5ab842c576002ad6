import LibinputRs.Library.LiveSettings
import LibinputRs.Pipeline.FingerTravel

/-! The books of the touchpads of a context. The setter keeps every speed in the range in which the
arithmetic of a frame fits `i32`, so the books of each touchpad balance over every run of the
library, whatever the client sets and whichever windows and gestures come and go. -/
namespace LibinputRs
open Automata

section Records
variable {F D : Type} [F32 F] [F64 D] [FloatCast F D]

/-- What the touchpad handler is given with a record. -/
def Processed.touchInput (p : Processed F D) : TouchInput F :=
  ⟨p.event,p.cfg.cfgTap,p.cfg.cfgNat,p.cfg.cfgAccel,dwtActive p.cfg.cfgDwt p.typing p.event.now⟩

omit [F32 F] [F64 D] [FloatCast F D] in
theorem processed_of_mem_records {d : DevicePtr} {out : List (Obs F D)} {p : Processed F D}
    (h : p ∈ records d out) : .processed p ∈ out := by
  obtain ⟨o,ho,hp⟩ := List.mem_filterMap.mp h
  cases o with
  | processed p' =>
    rw [Obs.recordOf] at hp
    split_ifs at hp
    exact Option.some.inj hp ▸ ho
  | fd a => cases hp
  | queued e => cases hp
  | delivered e => cases hp

/-- A touchpad by itself is the touchpad handler. -/
theorem TrackedDevice.interpret_eq {td : TrackedDevice F D} (habs : td.isAbsolute = true)
    (p : Processed F D) : td.interpret p = td.touchStep p.touchInput := by
  unfold interpret processEvent
  simp [habs]
  rfl

theorem TrackedDevice.run_interpret {td : TrackedDevice F D} (habs : td.isAbsolute = true)
    (ps : List (Processed F D)) :
    run interpret td ps = run touchStep td (ps.map Processed.touchInput) := by
  induction ps generalizing td with
  | nil => rfl
  | cons p ps ih =>
    have hid : (td.touchStep p.touchInput).1.identity = td.identity :=
      (td.processAbsoluteEvent_step _ _ _ _ _).identity
    have hnext : (td.touchStep p.touchInput).1.isAbsolute = true :=
      (congrArg (·.2.2.1) hid).trans habs
    rw [List.map_cons,run_cons,run_cons,interpret_eq habs,ih hnext]

end Records

namespace LibinputContext
variable {ctx : LibinputContext ℚ ℚ}

/-- Every device is under an admitted speed. -/
def Admitted (ctx : LibinputContext ℚ ℚ) : Prop := ∀ d, |(ctx.settings d).cfgAccel| ≤ 2

theorem abs_clamp_factor_le (speed : ℚ) :
    |(FloatCast.toF32 (F64.clamp speed (-1.0) 1.0) + 1.0 : ℚ)| ≤ 2 := by
  have hclamp : (F64.clamp speed (-1.0) 1.0 : ℚ) = max (-1) (min speed 1) := by
    change max (-1.0 : ℚ) (min speed (1.0 : ℚ)) = _
    norm_num
  rw [hclamp]
  exact abs_factor_le ⟨le_max_left _ _,max_le (by norm_num) (min_le_right _ _)⟩

/-- Only the setter of the speed changes it, and it clamps. -/
theorem Admitted.call (h : ctx.Admitted) (c : Call ℚ) : (ctx.call c).1.Admitted := by
  intro d
  by_cases hpresent : ctx.Present c
  · rcases ctx.call_settings c d hpresent with ⟨s,_,hs⟩ | ⟨_,hs⟩ <;> rw [hs]
    · cases s with
      | accelSetSpeed speed => exact abs_clamp_factor_le speed
      | _ => exact h d
    · exact h d
  · cases c with
    | configure d' s =>
      -- there is no such device
      have hsame : (ctx.call (.configure d' s)).1.devices = ctx.devices :=
        List.modify_eq_self (not_lt.mp hpresent)
      exact (Appends.of_devices hsame).sameSettings d ▸ h d
    | _ => exact absurd trivial hpresent

/-- What is recorded is read under an admitted speed. -/
theorem runCalls_admitted (interface : LibinputInterface) (inotify : Bool)
    (calls : List (Call ℚ)) :
    ((new (F := ℚ) interface inotify).runCalls calls).1.Admitted ∧
      ∀ p, .processed p ∈ ((new (F := ℚ) interface inotify).runCalls calls).2 →
        |p.cfg.cfgAccel| ≤ 2 := by
  induction calls using List.reverseRecOn with
  | nil =>
    refine ⟨fun d => ?_,fun p hp => by cases hp⟩
    change |((0.0 : ℚ) + 1.0)| ≤ 2
    norm_num
  | append_singleton calls c ih =>
    obtain ⟨hadmitted,hrecords⟩ := ih
    rw [runCalls,run_append,run_singleton]
    refine ⟨hadmitted.call c,fun p hp => ?_⟩
    rcases List.mem_append.mp hp with hp | hp
    · exact hrecords p hp
    · have hunder : p.cfg = _ := call_under _ c _ hp
      rw [hunder]
      exact hadmitted p.device

/-- In every run the events of a touchpad, and its state, are what the touchpad handler makes of the
records of it, and over these the books of both axes balance. -/
theorem touchpad_books_balance (interface : LibinputInterface) (inotify : Bool)
    (calls : List (Call ℚ)) {fd : RawFd} {td : TrackedDevice ℚ ℚ}
    (ht : ((new (F := ℚ) interface inotify).runCalls calls).1.tracked fd = some td)
    (habs : td.isAbsolute = true) (a : TouchAxis) :
    let r := (new (F := ℚ) interface inotify).runCalls calls
    let inputs := (records td.libDevice r.2).map Processed.touchInput
    let opened : TrackedDevice ℚ ℚ := .new td.device td.path td.libDevice
    run TrackedDevice.touchStep opened inputs =
        (td,(answersTo (eventsOf td.libDevice (obtainable r))).tail) ∧
      TrackedDevice.TravelLedger a opened inputs := by
  extract_lets r inputs opened
  obtain ⟨hevents,hstate⟩ :=
    (runCalls_translated (F := ℚ) interface inotify calls td.libDevice).present fd td ht rfl
  have hwell := runCalls_wellFormed (F := ℚ) interface inotify calls
  have hqueue : obtainable r = produced r.2 := delivered_append_queue interface inotify calls
  have hid : (run TrackedDevice.interpret opened (records td.libDevice r.2)).1.isAbsolute =
      opened.isAbsolute :=
    run_invariant TrackedDevice.interpret (fun t => t.isAbsolute = opened.isAbsolute)
      (fun t p _ h => (congrArg (·.2.2.1)
        (TrackedDevice.processEvent_identity p.cfg p.typing (t,none) p.event)).trans h) rfl
  have hopened : opened.isAbsolute = true :=
    hid.symm.trans ((TrackedDevice.untimed_congr TrackedDevice.isAbsolute (fun _ => rfl)
      hstate).symm.trans habs)
  have hrun := TrackedDevice.run_interpret hopened (records td.libDevice r.2)
  have htd := TrackedDevice.untimed_eq_of_noKeys hstate (hwell.noKeys fd td ht habs)
  unfold Interprets at hevents
  refine ⟨?_,(TrackedDevice.Centred.new _ _ _).travelLedger (fun i hi => ?_) a⟩
  · rw [hqueue,hevents,List.append_nil,← hrun,List.tail_cons]
    exact Prod.ext htd.symm rfl
  · obtain ⟨p,hp,rfl⟩ := List.mem_map.mp hi
    exact (runCalls_admitted interface inotify calls).2 p (processed_of_mem_records hp)

/-- A finger points, a second one joins it and scrolls, and both leave. -/
def pointAndScroll : List (Call ℚ) :=
  [.addDevice "/dev/input/event5" ⟨7,some plainTouchpad⟩,.configure 0 (.accelSetSpeed 3),
    .dispatch ⟨none,0,[],fun _ => .batch
      [⟨⟨0,.key,KeyCode.btnTouch,1⟩,0⟩,⟨⟨0,.absolute,AbsoluteAxisCode.absX,100⟩,1⟩,
        ⟨⟨0,.absolute,AbsoluteAxisCode.absX,107⟩,2⟩,⟨⟨0,.synchronization,0,0⟩,3⟩,
        ⟨⟨0,.key,KeyCode.btnToolDoubletap,1⟩,4⟩,⟨⟨0,.absolute,AbsoluteAxisCode.absX,160⟩,5⟩,
        ⟨⟨0,.synchronization,0,0⟩,6⟩,⟨⟨0,.key,KeyCode.btnTouch,0⟩,7⟩]⟩]

theorem point_and_scroll_books :
    ∃ td, ((new (F := ℚ) (D := ℚ) ⟨true,true⟩ false).runCalls pointAndScroll).1.tracked 7 = some td ∧
      TrackedDevice.TravelLedger .x (.new td.device td.path td.libDevice) ((records td.libDevice
        ((new (F := ℚ) ⟨true,true⟩ false).runCalls pointAndScroll).2).map Processed.touchInput) := by
  have hpad : (((new (F := ℚ) (D := ℚ) ⟨true,true⟩ false).runCalls pointAndScroll).1.tracked 7).any
      (·.isAbsolute) = true := by decide +kernel
  obtain ⟨td,ht,habs⟩ := (Option.any_eq_true _ _).mp hpad
  exact ⟨td,ht,(touchpad_books_balance ⟨true,true⟩ false pointAndScroll ht habs .x).2⟩

end LibinputContext
end LibinputRs
