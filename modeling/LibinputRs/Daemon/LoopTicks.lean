import LibinputRs.Automata.Sessions
import LibinputRs.Daemon.WrapperSteps

/-! The small steps of the loop: a node is opened, a batch is processed, a device goes, a reset
ends. A readiness event is a sequence of them, and what each of them keeps every run keeps. -/
namespace LibinputRs
open Automata

variable {F : Type}

namespace EventLoop

/-- No tracked wrapper has the path. -/
def Untracked (l : EventLoop F) (path : PathBuf) : Prop :=
  ∀ t w, l.wrapper t = some w → w.path ≠ path

theorem mem_entries {l : EventLoop F} {t : ℕ} {w : DeviceWrapper F} :
    (⟨t,w⟩ : Sigma fun _ => DeviceWrapper F) ∈ l.devicesMap.entries ↔ l.wrapper t = some w :=
  AList.mem_lookup_iff.symm

variable [F32 F]

/-- One small step, with what it outputs. -/
inductive LoopTick (cfg : InputConfig F) : EventLoop F → List (LoopObs F) → EventLoop F → Prop
  | opened (l) (registers : Bool) (w : DeviceWrapper F) (huntracked : l.Untracked w.path) :
      LoopTick cfg l (l.register registers w).2 (l.register registers w).1
  | batch (l) (token : ℕ) (w : DeviceWrapper F) (events : List TimedEvent)
      (hw : l.wrapper token = some w) :
      LoopTick cfg l (l.processBatch cfg token w events).2 (l.processBatch cfg token w events).1
  | gone (l) (token : ℕ) (w : DeviceWrapper F) (hw : l.wrapper token = some w) :
      LoopTick cfg l [.released w] (l.erase token)
  | resetDone (l) : LoopTick cfg l [] { l with resetting := false }

abbrev LoopTicks (cfg : InputConfig F) : EventLoop F → List (LoopObs F) → EventLoop F → Prop :=
  Steps (LoopTick cfg)

theorem tryOpenDevice_path {path : PathBuf} {node : NodeOpen} {w : DeviceWrapper F}
    (h : tryOpenDevice path node = some w) : w.path = path := by
  obtain ⟨probe,_,hw⟩ := Option.bind_eq_some_iff.mp h
  dsimp only at hw
  split_ifs at hw <;> obtain rfl := Option.some.inj hw <;> rfl

theorem hotplug_ticks (cfg : InputConfig F) (l : EventLoop F) (iev : HotplugEvent) :
    LoopTicks cfg l (l.hotplug iev).2 (l.hotplug iev).1 := by
  rcases l.hotplug_cases iev with h | ⟨name,w,_,hnone,hopen,h⟩ <;> rw [h]
  · exact .refl l
  · refine .single (.opened l iev.registers w fun t w' hw' => ?_)
    rw [tryOpenDevice_path hopen]
    exact hnone _ (mem_entries.mpr hw')

theorem run_ticks {ι : Type} {cfg : InputConfig F}
    {turn : EventLoop F → ι → EventLoop F × List (LoopObs F)}
    (hturn : ∀ l i, LoopTicks cfg l (turn l i).2 (turn l i).1) (l : EventLoop F) (is : List ι) :
    LoopTicks cfg l (run turn l is).2 (run turn l is).1 :=
  run_history turn (fun _ out l' => LoopTicks cfg l out l') (fun _ _ _ i h => h.trans (hturn _ i))
    (.refl l) is

theorem step_ticks (cfg : InputConfig F) (l : EventLoop F) (i : LoopInput) :
    LoopTicks cfg l (l.step cfg i).2 (l.step cfg i).1 := by
  rcases l.step_cases cfg i with ⟨ievents,_,h⟩ | ⟨token,events,w,_,hw,h⟩ | ⟨token,w,_,hw,h⟩ |
    ⟨_,h⟩ | h <;> rw [h]
  · exact run_ticks (hotplug_ticks cfg) l ievents
  · exact .single (.batch l token w events hw)
  · exact .single (.gone l token w hw)
  · exact .single (.resetDone l)
  · exact .refl l

/-- The loop before its first device. -/
def blank (v : VirtualDevice) : EventLoop F := ⟨∅,0,none,false,v⟩

omit [F32 F] in
/-- Only initial devices are tracked at the start. -/
theorem mem_of_start (v : VirtualDevice) (devices : List (DeviceWrapper F)) {t : ℕ}
    {w : DeviceWrapper F} (h : (start v devices).1.wrapper t = some w) : w ∈ devices := by
  induction devices using List.reverseRecOn with
  | nil => cases h
  | append_singleton devices last ih =>
    rw [start,run_append,run_singleton] at h
    dsimp only at h
    rw [register_wrapper] at h
    split_ifs at h with ht
    · obtain rfl := Option.some.inj h
      simp
    · exact List.mem_append_left _ (ih h)

/-- The start of the loop opens the initial devices, if their paths differ. -/
theorem start_ticks (cfg : InputConfig F) (v : VirtualDevice) {devices : List (DeviceWrapper F)}
    (hpaths : devices.Pairwise fun a b => a.path ≠ b.path) :
    LoopTicks cfg (blank v) (start v devices).2 (start v devices).1 := by
  induction devices using List.reverseRecOn with
  | nil => exact .refl _
  | append_singleton devices last ih =>
    obtain ⟨hfront,_,hlast⟩ := List.pairwise_append.mp hpaths
    rw [start,run_append,run_singleton]
    refine (ih hfront).trans (.single (.opened _ true last fun t w hw => ?_))
    exact hlast w (mem_of_start v devices hw) last (by simp)

section Batches

/-- The wrapper of a batch stays what it is, and every event of the batch is handled for it. -/
theorem batch_handled (cfg : InputConfig F) (token : ℕ) (b : Batch F) (events : List TimedEvent) :
    (run (Batch.handle cfg token) b events).1.wrapper.identity = b.wrapper.identity ∧
      (handledEvents (run (Batch.handle cfg token) b events).2).map Handled.event = events ∧
      ∀ h ∈ handledEvents (run (Batch.handle cfg token) b events).2,
        h.token = token ∧ h.wrapper.identity = b.wrapper.identity := by
  induction events using List.reverseRecOn with
  | nil => exact ⟨rfl,rfl,List.forall_mem_nil _⟩
  | append_singleton events te ih =>
    obtain ⟨hid,hevents,hall⟩ := ih
    rw [run_append,run_singleton]
    dsimp only
    generalize hb : (run (Batch.handle cfg token) b events).1 = b' at hid ⊢
    have hkeeps := (DeviceWrapper.processEvent_keeps cfg b'.typing te (b'.wrapper,b'.vDevice)).1
    have hout : handledEvents (b'.handle cfg token te).2 =
        [⟨token,b'.wrapper,b'.typing,te,
          (DeviceWrapper.processEvent cfg b'.typing te (b'.wrapper,b'.vDevice)).2.1⟩] := rfl
    refine ⟨hkeeps.trans hid,?_,?_⟩
    · rw [handledEvents,List.filterMap_append,List.map_append]
      exact congrArg₂ _ hevents rfl
    · rw [handledEvents,List.filterMap_append]
      refine List.forall_mem_append.mpr ⟨hall,?_⟩
      change ∀ h ∈ handledEvents (b'.handle cfg token te).2,_
      rw [hout]
      exact List.forall_mem_singleton.mpr ⟨rfl,hid⟩

/-- A batch replaces one entry of the table, by the same wrapper. -/
theorem processBatch_wrapper (cfg : InputConfig F) (l : EventLoop F) {token : ℕ}
    {w : DeviceWrapper F} (hw : l.wrapper token = some w) (events : List TimedEvent) (t : ℕ) :
    ((l.processBatch cfg token w events).1.wrapper t).map DeviceWrapper.identity =
      (l.wrapper t).map DeviceWrapper.identity := by
  obtain ⟨hid,_,_⟩ := batch_handled cfg token ⟨w,l.vDevice,l.lastGlobalTypingTime,false⟩ events
  rw [wrapper_processBatch]
  split_ifs with ht
  · rw [ht,hw]
    exact congrArg some hid
  · rfl

end Batches
end EventLoop
end LibinputRs
