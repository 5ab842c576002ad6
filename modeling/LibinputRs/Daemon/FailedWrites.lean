import LibinputRs.Daemon.Outcomes
import LibinputRs.Library.Accounts

/-! Writes that the virtual device refuses. `process_event` returns from where it stands: a lift is
left without its reset, and a frame with the displacement that it has written already. -/
namespace LibinputRs
open Automata

variable {F : Type}

namespace DeviceWrapper
variable {s : DeviceWrapper F × VirtualDevice}

section Writes

/-- What `emit_raw` writes, and whether it succeeds. -/
theorem emitRaw_out (ev : InputEvent) : (emitRaw ev s).2 =
    if s.2.accepts 0 then ([⟨ev,true⟩,⟨.synReport,s.2.accepts 1⟩],s.2.accepts 1)
    else ([⟨ev,false⟩],false) := by
  rw [emitRaw_apply,VirtualDevice.emitRaw]
  cases haccepts : s.2.accepts 0 with
  | true =>
    have hfirst : VirtualDevice.writeRaw ev s.2 =
        (⟨fun n => s.2.accepts (n + 1)⟩,[⟨ev,true⟩],true) := by
      rw [VirtualDevice.writeRaw,haccepts]
    rw [Fallible.andThen_of_ok hfirst]
    rfl
  | false =>
    have hfirst : VirtualDevice.writeRaw ev s.2 =
        (⟨fun n => s.2.accepts (n + 1)⟩,[⟨ev,false⟩],false) := by
      rw [VirtualDevice.writeRaw,haccepts]
    rw [Fallible.andThen_of_stop hfirst]
    rfl

/-- `emit_raw` succeeds exactly if both its writes are accepted. -/
theorem emitRaw_ok_iff (ev : InputEvent) :
    (emitRaw ev s).2.2 = true ↔ ∀ n < 2,s.2.accepts n = true := by
  have htwo : (∀ n < 2,s.2.accepts n = true) ↔ s.2.accepts 0 = true ∧ s.2.accepts 1 = true := by
    constructor
    · exact fun h => ⟨h 0 (by decide),h 1 (by decide)⟩
    · rintro ⟨hfirst,hsecond⟩ n hn
      have hcases : n = 0 ∨ n = 1 := by omega
      rcases hcases with rfl | rfl
      · exact hfirst
      · exact hsecond
  rw [htwo,emitRaw_out]
  cases s.2.accepts 0 <;> simp

/-- The click of a tap succeeds exactly if all its writes are accepted. -/
theorem emitTap_ok_iff : (emitTap s).2.2 = true ↔ ∀ n < 6,s.2.accepts n = true := by
  refine ⟨fun h => ?_,fun h => by rw [emitTap_accepted h]⟩
  obtain ⟨hpress,hrest⟩ := Fallible.andThen_ok_iff.mp h
  have hfirst := (emitRaw_ok_iff _).mp hpress
  rw [emitRaw_accepted hfirst] at hrest
  obtain ⟨hsyn,hrelease⟩ := Fallible.andThen_ok_iff.mp hrest
  have hsecond := (emitRaw_ok_iff _).mp hsyn
  rw [emitRaw_accepted hsecond] at hrelease
  have hthird := (emitRaw_ok_iff _).mp hrelease
  intro n hn
  have hcases : n < 2 ∨ (∃ m < 2,n = m + 2) ∨ ∃ m < 2,n = m + 2 + 2 := by
    rcases Nat.lt_or_ge n 2 with h | h
    · exact .inl h
    · rcases Nat.lt_or_ge n 4 with h' | h'
      · exact .inr (.inl ⟨n - 2,by omega,by omega⟩)
      · exact .inr (.inr ⟨n - 4,by omega,by omega⟩)
  rcases hcases with hn | ⟨m,hm,rfl⟩ | ⟨m,hm,rfl⟩
  · exact hfirst n hn
  · exact hsecond m hm
  · exact hthird m hm

end Writes

section Lift

/-- The tracking of the touch is reset. -/
def TouchReset (w : DeviceWrapper F) : Prop :=
  w.lastX = none ∧ w.lastY = none ∧ w.touchStartTime = none ∧ w.currentDx = 0 ∧ w.currentDy = 0 ∧
    w.touchFingers = 0

instance (w : DeviceWrapper F) : Decidable w.TouchReset :=
  inferInstanceAs (Decidable (_ ∧ _ ∧ _ ∧ _ ∧ _ ∧ _))

/-- A press of the left button that was accepted without its release: then the release was written,
and refused. -/
def ReleaseTried (out : List Write) : Prop :=
  ⟨.new .key KeyCode.btnLeft 1,true⟩ ∈ out → ⟨.new .key KeyCode.btnLeft 0,true⟩ ∉ out →
    ⟨.new .key KeyCode.btnLeft 0,false⟩ ∈ out

instance (out : List Write) : Decidable (ReleaseTried out) :=
  inferInstanceAs (Decidable (_ → _ → _))

/-- A click that is cut short leaves the touch as it was. -/
theorem touchUp_stopped (te : TimedEvent) {cfg : InputConfig F} {dwt : Bool}
    (htap : s.1.isTap cfg dwt te.now = true) (hstop : ¬ ∀ n < 6,s.2.accepts n = true) :
    (touchUp te cfg dwt s).1.1.touchStartTime = s.1.touchStartTime := by
  have htap' : ({ s.1 with touchActive := false } : DeviceWrapper F).isTap cfg dwt te.now = true :=
    htap
  have hshort : (emitTap (({ s.1 with touchActive := false } : DeviceWrapper F),s.2)).2.2 ≠ true :=
    fun hok => absurd (emitTap_ok_iff.mp hok) hstop
  rw [touchUp,if_pos htap',Fallible.andThen_of_not_ok hshort]
  exact Keeps.emitTap _

variable [F32 F]

/-- A lift resets the tracking, and leaves no press without a tried release, exactly if the writes
of its tap are accepted. -/
theorem lift_atomic_iff (cfg : InputConfig F) (typing : Option Instant) {te : TimedEvent}
    (habs : s.1.isAbsolute = true) (hev : te.ev.Releases KeyCode.btnTouch) :
    (processEvent cfg typing te s).1.1.TouchReset ∧
        ReleaseTried (processEvent cfg typing te s).2.1 ↔
      (s.1.isTap cfg (dwtActive cfg typing te.now) te.now = true →
        ∀ n < 6,s.2.accepts n = true) := by
  have htaps : ((s.1.trackKey te).guarded (dwtActive cfg typing te.now)).isTap cfg
      (dwtActive cfg typing te.now) te.now = s.1.isTap cfg (dwtActive cfg typing te.now) te.now := by
    rw [isTap_guarded,isTap_trackKey]
  have hreset : ∀ w : DeviceWrapper F, w.resetTouch.TouchReset :=
    fun _ => ⟨rfl,rfl,rfl,rfl,rfl,rfl⟩
  rw [processEvent_touchUp cfg typing habs hev.1 hev.2,← htaps]
  generalize (s.1.trackKey te).guarded (dwtActive cfg typing te.now) = w
  by_cases htap : w.isTap cfg (dwtActive cfg typing te.now) te.now = true
  · by_cases hall : ∀ n < 6,s.2.accepts n = true
    · rw [touchUp_tap te (s := (w,s.2)) htap hall]
      refine iff_of_true ⟨hreset _,fun _ hnone => absurd ?_ hnone⟩ fun _ => hall
      simp [tapWrites,accepted]
    · refine iff_of_false (fun h => ?_) fun h => hall (h htap)
      have hstart := touchUp_stopped te (s := (w,s.2)) htap hall
      rw [h.1.2.2.1] at hstart
      unfold isTap at htap
      rw [← hstart] at htap
      simp at htap
  · rw [touchUp_quiet te (s := (w,s.2)) htap]
    exact iff_of_true ⟨hreset _,fun h => absurd h List.not_mem_nil⟩ fun h => absurd h htap

/-- A touchpad that has just been opened. -/
def opened (v : VirtualDevice) : DeviceWrapper ℚ × VirtualDevice :=
  (.new ⟨plainTouchpad,7,true⟩ "/dev/input/event5",v)

/-- The touchpad once a finger has landed. -/
def justTouched (v : VirtualDevice) : DeviceWrapper ℚ × VirtualDevice :=
  (writeStep .default (opened v) ⟨⟨⟨1,.key,KeyCode.btnTouch,1⟩,0⟩,none⟩).1

/-- The lift of the finger, an instant later. -/
def quickLift : TimedEvent := ⟨⟨2,.key,KeyCode.btnTouch,0⟩,1⟩

/-- The third write of a click is refused: the button stays down, and the touch begun. -/
theorem refused_write_leaves_press :
    let s := justTouched ⟨fun n => n != 2⟩
    s.1.isAbsolute = true ∧ quickLift.ev.Releases KeyCode.btnTouch ∧
      ¬ (processEvent .default none quickLift s).1.1.TouchReset ∧
      ¬ ReleaseTried (processEvent .default none quickLift s).2.1 := by
  decide +kernel

theorem accepted_lift_atomic :
    (processEvent .default none quickLift (justTouched .reliable)).1.1.TouchReset ∧
      ReleaseTried (processEvent .default none quickLift (justTouched .reliable)).2.1 :=
  (lift_atomic_iff .default none (by decide +kernel) (by decide)).mpr fun _ _ _ => rfl

end Lift

end DeviceWrapper
end LibinputRs
