import LibinputRs.Automata.Registers
import LibinputRs.Daemon.VirtualButtons

/-! The hotkey that restarts the hardware. Both Ctrl keys share one flag, as both Alt keys do, and a
flag says what the last event of its two keys was: it goes down when one of them is released,
whether or not the other is still held. -/
namespace LibinputRs
open Automata

variable {F : Type}

def ctrlKeys : List ℕ := [KeyCode.keyLeftctrl,KeyCode.keyRightctrl]
def altKeys : List ℕ := [KeyCode.keyLeftalt,KeyCode.keyRightalt]

section Events

/-- An event of one of the keys. -/
def InputEvent.KeyAmong (keys : List ℕ) (ev : InputEvent) : Prop :=
  ev.eventType = .key ∧ ev.code ∈ keys

instance (keys : List ℕ) : DecidablePred (InputEvent.KeyAmong keys) :=
  fun _ => inferInstanceAs (Decidable (_ ∧ _))

/-- The last event of the keys was no release. -/
def LastPressed (keys : List ℕ) (rd : List InputEvent) : Prop :=
  ∃ ev ∈ (rd.filter fun ev => decide (ev.KeyAmong keys)).getLast?, ev.value ≠ 0

instance (keys : List ℕ) (rd : List InputEvent) : Decidable (LastPressed keys rd) :=
  inferInstanceAs (Decidable (∃ ev ∈ (rd.filter _).getLast?, ev.value ≠ 0))

theorem not_lastPressed_nil (keys : List ℕ) : ¬ LastPressed keys [] := by
  rintro ⟨ev,hev,_⟩
  cases hev

theorem lastPressed_concat {keys : List ℕ} {rd : List InputEvent} {ev : InputEvent} :
    LastPressed keys (rd ++ [ev]) ↔
      if ev.KeyAmong keys then ev.value ≠ 0 else LastPressed keys rd := by
  unfold LastPressed
  rw [List.filter_append]
  by_cases hev : ev.KeyAmong keys <;> simp [hev]

/-- One of the keys is held then. -/
theorem LastPressed.held {keys : List ℕ} {rd : List InputEvent} (h : LastPressed keys rd) :
    ∃ key ∈ keys, HeldDown key rd := by
  induction rd using List.reverseRecOn with
  | nil => exact absurd h (not_lastPressed_nil keys)
  | append_singleton rd ev ih =>
    rw [lastPressed_concat] at h
    by_cases hev : ev.KeyAmong keys
    · rw [if_pos hev] at h
      exact ⟨ev.code,hev.2,heldDown_concat.mpr (by rwa [if_pos ⟨hev.1,rfl⟩])⟩
    · rw [if_neg hev] at h
      obtain ⟨key,hkey,hheld⟩ := ih h
      refine ⟨key,hkey,(heldDown_concat_of_not fun hwith => hev ?_).mpr hheld⟩
      exact ⟨hwith.1,hwith.2 ▸ hkey⟩

/-- A batch contains a press of `KEY_R`, where what was read before it has a property. -/
def PressesR (P : List InputEvent → Prop) (rd batch : List InputEvent) : Prop :=
  ∃ front ev back, batch = front ++ ev :: back ∧ ev.KeyWith KeyCode.keyR ∧ ev.value = 1 ∧
    P (rd ++ front)

theorem PressesR.imp {P Q : List InputEvent → Prop} {rd batch : List InputEvent}
    (h : PressesR P rd batch) (hPQ : ∀ rd, P rd → Q rd) : PressesR Q rd batch := by
  obtain ⟨front,ev,back,hbatch,hkey,hvalue,hP⟩ := h
  exact ⟨front,ev,back,hbatch,hkey,hvalue,hPQ _ hP⟩

/-- A Ctrl key and an Alt key are held. -/
def BothHeld (rd : List InputEvent) : Prop :=
  (∃ key ∈ ctrlKeys, HeldDown key rd) ∧ ∃ key ∈ altKeys, HeldDown key rd

/-- The last event of the Ctrl keys was a press, and so was that of the Alt keys. -/
def BothLastPressed (rd : List InputEvent) : Prop :=
  LastPressed ctrlKeys rd ∧ LastPressed altKeys rd

instance (rd : List InputEvent) : Decidable (BothHeld rd) := inferInstanceAs (Decidable (_ ∧ _))

instance (rd : List InputEvent) : Decidable (BothLastPressed rd) :=
  inferInstanceAs (Decidable (_ ∧ _))

theorem BothLastPressed.bothHeld {rd : List InputEvent} (h : BothLastPressed rd) : BothHeld rd :=
  ⟨h.1.held,h.2.held⟩

end Events

namespace DeviceWrapper

/-- The two flags say what the last events of their keys were. -/
def ModifiersFollow (w : DeviceWrapper F) (rd : List InputEvent) : Prop :=
  (w.ctrlPressed = true ↔ LastPressed ctrlKeys rd) ∧ (w.altPressed = true ↔ LastPressed altKeys rd)

theorem modifiersFollow_new [F32 F] (device : Device) (path : PathBuf) :
    (DeviceWrapper.new (F := F) device path).ModifiersFollow [] :=
  ⟨iff_of_false Bool.false_ne_true (not_lastPressed_nil _),
    iff_of_false Bool.false_ne_true (not_lastPressed_nil _)⟩

theorem trackKey_follow {w : DeviceWrapper F} {rd : List InputEvent} (h : w.ModifiersFollow rd)
    (te : TimedEvent) : (w.trackKey te).ModifiersFollow (rd ++ [te.ev]) := by
  unfold ModifiersFollow trackKey
  rw [lastPressed_concat,lastPressed_concat]
  by_cases htype : te.ev.eventType = .key
  · have hctrl : te.ev.KeyAmong ctrlKeys ↔
        te.ev.code = KeyCode.keyLeftctrl ∨ te.ev.code = KeyCode.keyRightctrl := by
      simp [InputEvent.KeyAmong,htype,ctrlKeys]
    have halt : te.ev.KeyAmong altKeys ↔
        te.ev.code = KeyCode.keyLeftalt ∨ te.ev.code = KeyCode.keyRightalt := by
      simp [InputEvent.KeyAmong,htype,altKeys]
    rw [if_pos htype]
    dsimp only
    constructor
    · rw [← if_congr hctrl rfl rfl]
      split_ifs
      · exact decide_eq_true_iff
      · exact h.1
    · rw [← if_congr halt rfl rfl]
      split_ifs
      · exact decide_eq_true_iff
      · exact h.2
  · have hno : ∀ keys, ¬ te.ev.KeyAmong keys := fun _ hkey => htype hkey.1
    rw [if_neg htype,if_neg (hno _),if_neg (hno _)]
    exact h

variable [F32 F]

theorem processEvent_follow (cfg : InputConfig F) (typing : Option Instant) (te : TimedEvent)
    {s : DeviceWrapper F × VirtualDevice} {rd : List InputEvent} (h : s.1.ModifiersFollow rd) :
    (processEvent cfg typing te s).1.1.ModifiersFollow (rd ++ [te.ev]) := by
  have hkeys := (processEvent_keeps cfg typing te s).2
  have hctrl : (processEvent cfg typing te s).1.1.ctrlPressed = (s.1.trackKey te).ctrlPressed :=
    congrArg (·.2.1) hkeys
  have halt : (processEvent cfg typing te s).1.1.altPressed = (s.1.trackKey te).altPressed :=
    congrArg (·.2.2) hkeys
  have htrack := trackKey_follow h te
  rw [ModifiersFollow,hctrl,halt]
  exact htrack

end DeviceWrapper

namespace Batch
variable [F32 F]

/-- Along a batch the flags keep up with the events. -/
theorem run_follow (cfg : InputConfig F) (token : ℕ) {b : Batch F} {rd : List InputEvent}
    (h : b.wrapper.ModifiersFollow rd) (events : List TimedEvent) :
    (run (Batch.handle cfg token) b events).1.wrapper.ModifiersFollow
      (rd ++ events.map TimedEvent.ev) := by
  induction events using List.reverseRecOn with
  | nil => simpa using h
  | append_singleton events te ih =>
    rw [run_append,run_singleton,List.map_append,← List.append_assoc]
    exact DeviceWrapper.processEvent_follow cfg _ te ih

/-- `trigger_reset` is a latch that nothing releases. -/
theorem triggerReset_latch (cfg : InputConfig F) (token : ℕ) :
    Latch (Batch.handle cfg token) (fun b => b.triggerReset = true)
      (fun b te => isReset te b.wrapper = true) (fun _ => False) where
  set b te h := (congrArg (b.triggerReset || ·) h).trans (Bool.or_true _)
  released _ _ _ h := h.elim
  kept b te h _ := by
    change (b.triggerReset || isReset te b.wrapper) = true ↔ _
    rw [Bool.eq_false_iff.mpr h,Bool.or_false]

/-- A batch of a keyboard triggers the reset exactly if it contains a press of `KEY_R` after
presses of the modifiers. -/
theorem triggerReset_iff (cfg : InputConfig F) (token : ℕ) {b : Batch F} {rd : List InputEvent}
    (hkeyboard : b.wrapper.isKeyboard = true) (hclear : b.triggerReset = false)
    (h : b.wrapper.ModifiersFollow rd) (events : List TimedEvent) :
    (run (Batch.handle cfg token) b events).1.triggerReset = true ↔
      PressesR BothLastPressed rd (events.map TimedEvent.ev) := by
  have hreset : ∀ front te, isReset te (run (Batch.handle cfg token) b front).1.wrapper = true ↔
      te.ev.KeyWith KeyCode.keyR ∧ te.ev.value = 1 ∧
        BothLastPressed (rd ++ front.map TimedEvent.ev) := by
    intro front te
    obtain ⟨hctrl,halt⟩ := run_follow cfg token h front
    have hkey : (run (Batch.handle cfg token) b front).1.wrapper.isKeyboard = true :=
      (congrArg (·.2.2.2) (EventLoop.batch_handled cfg token b front).1).trans hkeyboard
    rw [BothLastPressed,← hctrl,← halt,isReset,hkey]
    simp only [Bool.true_and,Bool.and_eq_true,decide_eq_true_eq,InputEvent.KeyWith]
    tauto
  rw [(triggerReset_latch cfg token).run_iff (by simp [hclear])]
  constructor
  · rintro ⟨front,te,back,rfl,hsets,_⟩
    obtain ⟨hkey,hvalue,hlast⟩ := (hreset front te).mp hsets
    exact ⟨front.map TimedEvent.ev,te.ev,back.map TimedEvent.ev,by simp,hkey,hvalue,hlast⟩
  · rintro ⟨front,ev,back,heq,hkey,hvalue,hlast⟩
    obtain ⟨front,rest,rfl,rfl,hrest⟩ := List.map_eq_append_iff.mp heq
    obtain ⟨te,back,rfl,rfl,rfl⟩ := List.map_eq_cons_iff.mp hrest
    exact ⟨front,te,back,rfl,(hreset front te).mpr ⟨hkey,hvalue,hlast⟩,fun _ _ => id⟩

end Batch

/-- The flags of every tracked wrapper follow the events that it has handled, and no event has been
handled under a token that is still to be given. -/
structure FlagsFollow (l : EventLoop F) (out : List (LoopObs F)) : Prop where
  below : ∀ t w, l.wrapper t = some w → t < l.nextToken
  unused : ∀ t, l.nextToken ≤ t → tokenEvents t out = []
  follow : ∀ t w, l.wrapper t = some w → w.ModifiersFollow (tokenEvents t out)

theorem FlagsFollow.congr {l l' : EventLoop F} {out out' : List (LoopObs F)}
    (h : FlagsFollow l out) (ho : handledEvents out' = handledEvents out)
    (hw : ∀ t w, l'.wrapper t = some w → l.wrapper t = some w) (hnext : l.nextToken ≤ l'.nextToken) :
    FlagsFollow l' out' := by
  have htokens : ∀ t, tokenEvents t out' = tokenEvents t out := fun t => by
    rw [tokenEvents,ho]
    rfl
  refine ⟨fun t w hw' => (h.below t w (hw t w hw')).trans_le hnext,fun t ht => ?_,fun t w hw' => ?_⟩
  · exact (htokens t).trans (h.unused t (hnext.trans ht))
  · exact htokens t ▸ h.follow t w (hw t w hw')

namespace EventLoop
variable [F32 F]

theorem register_follow {l : EventLoop F} {out : List (LoopObs F)} (h : FlagsFollow l out)
    (registers : Bool) {w : DeviceWrapper F} (hw : w = .new w.device w.path) :
    FlagsFollow (l.register registers w).1 (out ++ (l.register registers w).2) := by
  have hquiet : handledEvents (out ++ (l.register registers w).2) = handledEvents out := by
    cases registers <;> simp [register,handledEvents,LoopObs.handledEvent]
  have htokens : ∀ t, tokenEvents t (out ++ (l.register registers w).2) = tokenEvents t out := by
    intro t
    rw [tokenEvents,hquiet]
    rfl
  cases registers with
  | false => exact h.congr hquiet (fun _ _ => id) (Nat.le_succ _)
  | true =>
    refine ⟨fun t w' hw' => ?_,fun t ht => ?_,fun t w' hw' => ?_⟩
    · rw [register_wrapper] at hw'
      split_ifs at hw' with ht
      · exact ht ▸ Nat.lt_succ_self _
      · exact Nat.lt_succ_of_lt (h.below t w' hw')
    · exact (htokens t).trans (h.unused t (Nat.le_of_succ_le ht))
    · rw [htokens]
      rw [register_wrapper] at hw'
      split_ifs at hw' with ht
      · -- nothing has been handled under the token that the wrapper gets
        rw [ht,h.unused _ le_rfl,← Option.some.inj hw',hw]
        exact DeviceWrapper.modifiersFollow_new _ _
      · exact h.follow t w' hw'

theorem tryOpenDevice_new {path : PathBuf} {node : NodeOpen} {w : DeviceWrapper F}
    (h : tryOpenDevice path node = some w) : w = .new w.device w.path := by
  obtain ⟨probe,_,hw⟩ := Option.bind_eq_some_iff.mp h
  dsimp only at hw
  split_ifs at hw <;> obtain rfl := Option.some.inj hw <;> rfl

theorem hotplug_follow {l : EventLoop F} {out : List (LoopObs F)} (h : FlagsFollow l out)
    (iev : HotplugEvent) : FlagsFollow (l.hotplug iev).1 (out ++ (l.hotplug iev).2) := by
  rcases l.hotplug_cases iev with heq | ⟨_,w,_,_,hopen,heq⟩ <;> rw [heq]
  · rwa [List.append_nil]
  · exact register_follow h iev.registers (tryOpenDevice_new hopen)

theorem start_follow (v : VirtualDevice) {devices : List (DeviceWrapper F)}
    (hopened : JustOpened devices) : FlagsFollow (start v devices).1 [] := by
  induction devices using List.reverseRecOn with
  | nil =>
    refine ⟨fun _ _ hw => ?_,fun _ _ => rfl,fun _ _ hw => ?_⟩
    · cases hw
    · cases hw
  | append_singleton devices last ih =>
    obtain ⟨hfront,hlast⟩ := List.forall_mem_append.mp hopened
    rw [start,run_append,run_singleton]
    exact (register_follow (ih hfront) true (hlast last List.mem_cons_self)).congr rfl
      (fun _ _ => id) le_rfl

/-- A batch is handled under its token, and nothing else is. -/
theorem processBatch_tokenEvents (cfg : InputConfig F) (l : EventLoop F) (token : ℕ)
    (w : DeviceWrapper F) (events : List TimedEvent) (t : ℕ) :
    tokenEvents t (l.processBatch cfg token w events).2 =
      if t = token then events.map TimedEvent.ev else [] := by
  obtain ⟨_,_,hall⟩ := batch_handled cfg token ⟨w,l.vDevice,l.lastGlobalTypingTime,false⟩ events
  have hevents := processBatch_events cfg l token w events
  have htoken : ∀ h ∈ handledEvents (l.processBatch cfg token w events).2, h.token = token := by
    have hsplit : handledEvents (l.processBatch cfg token w events).2 = handledEvents
        (run (Batch.handle cfg token) ⟨w,l.vDevice,l.lastGlobalTypingTime,false⟩ events).2 := by
      refine List.filterMap_append.trans ((congrArg _ ?_).trans (List.append_nil _))
      split_ifs <;> rfl
    rw [hsplit]
    exact fun h hh => (hall h hh).1
  unfold tokenEvents
  split_ifs with ht
  · have hmap := congrArg (List.map TimedEvent.ev) hevents
    rw [List.map_map] at hmap
    rw [List.filter_eq_self.mpr fun h hh => decide_eq_true ((htoken h hh).trans ht.symm)]
    exact hmap
  · rw [List.filter_eq_nil_iff.mpr fun h hh hdec =>
      ht ((of_decide_eq_true hdec).symm.trans (htoken h hh)),List.map_nil]

theorem batch_follow (cfg : InputConfig F) {l : EventLoop F} {out : List (LoopObs F)}
    (h : FlagsFollow l out) {token : ℕ} {w : DeviceWrapper F} (hw : l.wrapper token = some w)
    (events : List TimedEvent) : FlagsFollow (l.processBatch cfg token w events).1
      (out ++ (l.processBatch cfg token w events).2) := by
  have hbelow := h.below token w hw
  refine ⟨fun t w' hw' => ?_,fun t ht => ?_,fun t w' hw' => ?_⟩
  · rw [wrapper_processBatch] at hw'
    split_ifs at hw' with ht
    · exact ht ▸ hbelow
    · exact h.below t w' hw'
  · have hne : t ≠ token := fun heq => absurd (heq ▸ hbelow) (not_lt.mpr ht)
    rw [tokenEvents_append,processBatch_tokenEvents,if_neg hne,h.unused t ht]
    rfl
  · rw [wrapper_processBatch] at hw'
    rw [tokenEvents_append,processBatch_tokenEvents]
    split_ifs at hw' ⊢ with ht
    · obtain rfl := Option.some.inj hw'
      exact Batch.run_follow cfg token (ht ▸ h.follow token w hw) events
    · rw [List.append_nil]
      exact h.follow t w' hw'

/-- The invariant along a run. -/
theorem runLoop_follow (cfg : InputConfig F) (v : VirtualDevice) {devices : List (DeviceWrapper F)}
    (hopened : JustOpened devices) (inputs : List LoopInput) :
    FlagsFollow (runLoop cfg v devices inputs).1 (runLoop cfg v devices inputs).2 := by
  refine run_history (step cfg) (fun _ out l => FlagsFollow l out) (fun _ out l i h => ?_)
    (start_follow v hopened) inputs
  rcases l.step_cases cfg i with ⟨ievents,_,heq⟩ | ⟨token,events,w,_,hw,heq⟩ | ⟨token,w,_,hw,heq⟩ |
    ⟨_,heq⟩ | heq <;> rw [heq]
  · exact run_history hotplug (fun _ o l' => FlagsFollow l' (out ++ o))
      (fun _ _ _ iev hl => List.append_assoc _ _ _ ▸ hotplug_follow hl iev)
      ((List.append_nil out).symm ▸ h) ievents
  · exact batch_follow cfg h hw events
  · refine h.congr (by simp [handledEvents,LoopObs.handledEvent]) (fun t w' hw' => ?_) le_rfl
    rw [wrapper_erase] at hw'
    split_ifs at hw'
    exact hw'
  · exact h.congr (by simp) (fun _ _ => id) le_rfl
  · exact h.congr (by simp) (fun _ _ => id) le_rfl

/-- At the end of the batch `trigger_reset` is set: the hardware is restarted, unless a restart is
still going on. -/
def RequestsReset (cfg : InputConfig F) (l : EventLoop F) (token : ℕ) (w : DeviceWrapper F)
    (events : List TimedEvent) : Prop :=
  (run (Batch.handle cfg token) ⟨w,l.vDevice,l.lastGlobalTypingTime,false⟩ events).1.triggerReset = true

/-- A request starts the restart exactly if none is going on. -/
theorem resetRequested_mem_iff (cfg : InputConfig F) (l : EventLoop F) (token : ℕ)
    (w : DeviceWrapper F) (events : List TimedEvent) :
    .resetRequested ∈ (l.processBatch cfg token w events).2 ↔
      l.RequestsReset cfg token w events ∧ l.resetting = false := by
  have hhandle : .resetRequested ∉
      (run (Batch.handle cfg token) ⟨w,l.vDevice,l.lastGlobalTypingTime,false⟩ events).2 := by
    intro hmem
    obtain ⟨before,te,after,_,hmem⟩ := (mem_run_iff _ _ _ _).mp hmem
    cases List.mem_singleton.mp hmem
  unfold RequestsReset processBatch
  dsimp only
  rw [List.mem_append,or_iff_right hhandle]
  cases (run (Batch.handle cfg token) ⟨w,l.vDevice,l.lastGlobalTypingTime,false⟩
    events).1.triggerReset <;> cases l.resetting <;> simp

/-- In every run of the daemon, for every batch of every keyboard: the reset is requested exactly
for a press of `KEY_R` while a Ctrl key and an Alt key are held, exactly if such a press, where
there is one, also comes with the last event of either pair a press. -/
theorem reset_requested_iff (cfg : InputConfig F) (v : VirtualDevice)
    {devices : List (DeviceWrapper F)} (hopened : JustOpened devices) (inputs : List LoopInput)
    {token : ℕ} {w : DeviceWrapper F} (hw : (runLoop cfg v devices inputs).1.wrapper token = some w)
    (hkeyboard : w.isKeyboard = true) (events : List TimedEvent) :
    ((runLoop cfg v devices inputs).1.RequestsReset cfg token w events ↔
        PressesR BothHeld (tokenEvents token (runLoop cfg v devices inputs).2)
          (events.map TimedEvent.ev)) ↔
      (PressesR BothHeld (tokenEvents token (runLoop cfg v devices inputs).2)
          (events.map TimedEvent.ev) →
        PressesR BothLastPressed (tokenEvents token (runLoop cfg v devices inputs).2)
          (events.map TimedEvent.ev)) := by
  have hfollow := (runLoop_follow cfg v hopened inputs).follow token w hw
  rw [RequestsReset,Batch.triggerReset_iff cfg token hkeyboard rfl hfollow]
  exact ⟨fun h => h.mpr,fun h => ⟨fun hlast => hlast.imp fun _ => BothLastPressed.bothHeld,h⟩⟩

end EventLoop

section Runs

/-- A batch of key events, each a code with its value. -/
def keyBatch (events : List (ℕ × ℤ)) : List TimedEvent :=
  events.map fun e => ⟨⟨1,.key,e.1,e.2⟩,0⟩

/-- A keyboard that has just been opened. -/
def openedKeyboard : DeviceWrapper ℚ := .new ⟨plainKeyboard,5,false⟩ "/dev/input/event3"

/-- The loop with one keyboard, after a batch of key events. -/
def afterKeys (events : List (ℕ × ℤ)) : EventLoop ℚ × List (LoopObs ℚ) :=
  EventLoop.runLoop .default .reliable [openedKeyboard] [.ready 0 (.batch (keyBatch events))]

/-- The wrapper of the keyboard then. -/
def keyboardAfter (events : List (ℕ × ℤ)) : DeviceWrapper ℚ :=
  ((afterKeys events).1.wrapper 0).getD openedKeyboard

/-- Both Ctrl keys and an Alt key go down, and one of the Ctrl keys is released. -/
def oneCtrlReleased : List (ℕ × ℤ) :=
  [(KeyCode.keyLeftctrl,1),(KeyCode.keyRightctrl,1),(KeyCode.keyLeftalt,1),(KeyCode.keyRightctrl,0)]

/-- The other one is still held, and the press of `KEY_R` requests nothing. -/
theorem held_ctrl_ignored :
    ¬ ((afterKeys oneCtrlReleased).1.RequestsReset .default 0 (keyboardAfter oneCtrlReleased)
        (keyBatch [(KeyCode.keyR,1)]) ↔
      PressesR BothHeld (tokenEvents 0 (afterKeys oneCtrlReleased).2)
        ((keyBatch [(KeyCode.keyR,1)]).map TimedEvent.ev)) := by
  intro h
  have hheld : BothHeld (tokenEvents 0 (afterKeys oneCtrlReleased).2 ++ []) := by decide +kernel
  have hrequests := h.mpr ⟨[],⟨1,.key,KeyCode.keyR,1⟩,[],rfl,⟨rfl,rfl⟩,rfl,hheld⟩
  exact absurd hrequests (by unfold EventLoop.RequestsReset; decide +kernel)

/-- A Ctrl key and an Alt key go down. -/
def ctrlAlt : List (ℕ × ℤ) := [(KeyCode.keyLeftctrl,1),(KeyCode.keyRightalt,1)]

theorem ctrl_alt_r_requested :
    (afterKeys ctrlAlt).1.RequestsReset .default 0 (keyboardAfter ctrlAlt)
        (keyBatch [(KeyCode.keyR,1)]) ↔
      PressesR BothHeld (tokenEvents 0 (afterKeys ctrlAlt).2)
        ((keyBatch [(KeyCode.keyR,1)]).map TimedEvent.ev) := by
  have hlast : BothLastPressed (tokenEvents 0 (afterKeys ctrlAlt).2 ++ []) := by decide +kernel
  refine (EventLoop.reset_requested_iff .default .reliable (by decide +kernel)
    [.ready 0 (.batch (keyBatch ctrlAlt))] ?_ ?_ (keyBatch [(KeyCode.keyR,1)])).mpr fun _ => ?_
  · decide +kernel
  · decide +kernel
  · exact ⟨[],⟨1,.key,KeyCode.keyR,1⟩,[],rfl,⟨rfl,rfl⟩,rfl,hlast⟩

end Runs
end LibinputRs
