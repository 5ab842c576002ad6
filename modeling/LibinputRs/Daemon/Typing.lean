import LibinputRs.Automata.Records
import LibinputRs.Daemon.WrapperSteps

/-! The typing window of the daemon. The loop keeps one typing time for all keyboards and
overwrites it after every event of any of them, so it covers the last key press exactly as long
as no keyboard puts an older time of its own in its place. -/
namespace LibinputRs
open Automata

variable {F : Type}

/-- A write that moves the pointer or the wheel. -/
def Write.IsMotion (w : Write) : Prop :=
  w.ev.eventType = .relative ∧ (w.ev.code = RelativeAxisCode.relX ∨
    w.ev.code = RelativeAxisCode.relY ∨ w.ev.code = RelativeAxisCode.relWheel)

instance : DecidablePred Write.IsMotion := fun _ => inferInstanceAs (Decidable (_ ∧ _))

namespace Handled

/-- The event moved nothing, and if it was the lift of a touch it made no click. -/
def Quiet (h : Handled F) : Prop :=
  (∀ w ∈ h.writes, ¬ w.IsMotion) ∧
    (h.event.ev.KeyWith KeyCode.btnTouch → ∀ w ∈ h.writes, ¬ w.ev.KeyWith KeyCode.btnLeft)

/-- A key press on a keyboard. -/
def IsPress (h : Handled F) : Prop :=
  h.wrapper.isKeyboard = true ∧ h.event.ev.eventType = .key ∧ h.event.ev.value = 1

/-- An event that stamps the typing time of its keyboard: a press or a kernel repeat. -/
def Types (h : Handled F) : Prop :=
  h.wrapper.isKeyboard = true ∧ h.event.ev.eventType = .key ∧ h.event.ev.value ≠ 0

/-- An event that does not put an older typing time in place of the shared one: it stamps a new
one, or its wrapper is no keyboard, or has none, or has one that is not older. -/
def KeepsTyping (h : Handled F) : Prop :=
  h.wrapper.isKeyboard = true → ¬ h.Types →
    ∀ last ∈ h.wrapper.lastTypingTime, ∀ typing ∈ h.typing, typing ≤ last

/-- The shared typing time after the event. -/
def nextTyping (h : Handled F) : Option Instant :=
  if h.wrapper.isKeyboard then (h.wrapper.trackKey h.event).lastTypingTime.or h.typing
  else h.typing

instance (h : Handled F) : Decidable h.Quiet := inferInstanceAs (Decidable (_ ∧ _))
instance (h : Handled F) : Decidable h.IsPress := inferInstanceAs (Decidable (_ ∧ _))
instance (h : Handled F) : Decidable h.Types := inferInstanceAs (Decidable (_ ∧ _))
instance (h : Handled F) : Decidable h.KeepsTyping := inferInstanceAs (Decidable (_ → _))

theorem nextTyping_of_types {h : Handled F} (ht : h.Types) :
    h.nextTyping = some h.event.now := by
  obtain ⟨hkbd,hkey,hvalue⟩ := ht
  simp [nextTyping,DeviceWrapper.trackKey,hkbd,hkey,hvalue]

theorem nextTyping_of_not_types {h : Handled F} (hkbd : h.wrapper.isKeyboard = true)
    (ht : ¬ h.Types) : h.nextTyping = h.wrapper.lastTypingTime.or h.typing := by
  have hlast : (h.wrapper.trackKey h.event).lastTypingTime = h.wrapper.lastTypingTime := by
    unfold DeviceWrapper.trackKey
    split_ifs with hkey
    · have hvalue : h.event.ev.value = 0 := not_not.mp fun hvalue => ht ⟨hkbd,hkey,hvalue⟩
      simp [hvalue]
    · rfl
  rw [nextTyping,if_pos hkbd,hlast]

end Handled

/-- In the typing window of any key press, a touchpad moves nothing and clicks nothing. -/
def QuietWhileTyping (l : List (Handled F)) : Prop :=
  l.Pairwise fun press h => press.IsPress → h.wrapper.isAbsolute = true →
    press.event.now.elapsed h.event.now < fromMillis 500 → h.Quiet

/-- The clock does not run backwards. -/
def ClockRuns (l : List (Handled F)) : Prop := l.Pairwise fun a b => a.event.now ≤ b.event.now

instance (l : List (Handled F)) : Decidable (QuietWhileTyping l) :=
  inferInstanceAs (Decidable (List.Pairwise _ _))
instance (l : List (Handled F)) : Decidable (ClockRuns l) :=
  inferInstanceAs (Decidable (List.Pairwise _ _))

namespace DeviceWrapper
variable [F32 F]

/-- A write that the typing window admits while the given event is processed. -/
def Admitted (te : TimedEvent) (w : Write) : Prop :=
  w.ev.eventType ≠ .relative ∧ (te.ev.KeyWith KeyCode.btnTouch → w.ev.eventType ≠ .key)

omit [F32 F] in
theorem emitRaw_admitted {te : TimedEvent} {ev : InputEvent}
    (hrel : ev.eventType ≠ .relative)
    (htouch : te.ev.KeyWith KeyCode.btnTouch → ev.eventType ≠ .key) :
    (emitRaw (F := F) ev).Ensures (fun _ => True) (Admitted te) := by
  refine fun s _ => ⟨trivial,fun w hw => ?_⟩
  rcases VirtualDevice.emitRaw_ev ev s.2 w hw with heq | heq
  · exact ⟨heq ▸ hrel,fun ht => heq ▸ htouch ht⟩
  · rw [Admitted,heq]
    exact ⟨by decide,fun _ => by decide⟩

omit [F32 F] in
/-- In the window the lift of a touch is no tap. -/
theorem processTouchKey_admitted (te : TimedEvent) (cfg : InputConfig F) :
    (processTouchKey te cfg true).Ensures (fun _ => True) (Admitted te) := by
  have hmodify : ∀ f : DeviceWrapper F → DeviceWrapper F,
      (modify f).Ensures (fun _ => True) (Admitted te) :=
    fun f => Fallible.Ensures.update fun _ _ => trivial
  have hup : (touchUp te cfg true).Ensures (fun _ => True) (Admitted te) := by
    intro s _
    have htap : ∀ w : DeviceWrapper F, w.isTap cfg true te.now = false := fun w => by simp [isTap]
    unfold touchUp
    simp only [htap,Bool.false_eq_true,if_false,Fallible.skip_andThen]
    exact hmodify _ _ trivial
  unfold processTouchKey
  refine .ite (fun _ => .ite (fun _ => hmodify _) fun _ => hup) fun _ => ?_
  exact .ite (fun _ => hmodify _) fun _ => .ite (fun _ => hmodify _) fun _ => .skip

omit [F32 F] in
theorem forwardButton_admitted (te : TimedEvent) :
    (forwardButton (F := F) te).Ensures (fun _ => True) (Admitted te) := by
  intro s _
  unfold forwardButton
  dsimp only
  split_ifs with hbutton
  · refine emitRaw_admitted (show EventType.key ≠ .relative by decide) (fun htouch _ => ?_) _ trivial
    have hmap : (s.1.mapClick te.ev.code te.ev.value).2 = KeyCode.btnTouch := by
      rw [htouch.2]
      rfl
    rw [hmap] at hbutton
    exact absurd hbutton (by decide)
  · exact ⟨trivial,List.forall_mem_nil _⟩

/-- In the window a frame is discarded; only its own event may be passed on. -/
theorem processSyn_admitted (te : TimedEvent) (cfg : InputConfig F)
    (hsyn : te.ev.eventType = .synchronization) :
    (processSyn te cfg true).Ensures (fun _ => True) (Admitted te) := by
  have hforward : (emitRaw (F := F) te.ev).Ensures (fun _ => True) (Admitted te) :=
    emitRaw_admitted (by simp [hsyn]) fun _ => by simp [hsyn]
  intro s _
  unfold processSyn
  by_cases hcode : te.ev.code = 0
  · rw [if_neg (not_not.mpr hcode)]
    simp only [if_true]
    have hdiscard : (modify (F := F) discardFrame).Ensures (fun _ => True) (Admitted te) :=
      Fallible.Ensures.update fun _ _ => trivial
    exact hdiscard.andThen (.ite (fun _ => hforward) fun _ => .skip) s trivial
  · rw [if_pos hcode]
    exact hforward s trivial

/-- In the window a touchpad writes no motion, and no key for the lift of a touch. -/
theorem processEvent_admitted (cfg : InputConfig F) (typing : Option Instant) (te : TimedEvent)
    (s : DeviceWrapper F × VirtualDevice) (habs : s.1.isAbsolute = true)
    (hdwt : dwtActive cfg typing te.now = true) :
    ∀ w ∈ (processEvent cfg typing te s).2.1, Admitted te w := by
  have habs' : (s.1.trackKey te).isAbsolute = true :=
    (congrArg (·.2.2.1) (trackKey_identity te s.1)).trans habs
  unfold processEvent
  simp only [habs',hdwt,Bool.not_true,Bool.false_eq_true,if_false]
  unfold processAbsolute
  cases hev : te.ev.eventType with
  | key =>
    exact (Fallible.Ensures.andThen (processTouchKey_admitted te cfg) (forwardButton_admitted te)
      _ trivial).2
  | absolute => exact List.forall_mem_nil _
  | synchronization => exact (processSyn_admitted te cfg hev _ trivial).2
  | relative => exact List.forall_mem_nil _
  | other n => exact List.forall_mem_nil _

end DeviceWrapper

section Loop
variable [F32 F]

/-- The shared typing time is threaded through the events of a batch. -/
theorem Batch.handle_threads (cfg : InputConfig F) (token : ℕ) (b : Batch F) (te : TimedEvent) :
    Threads Handled.typing Handled.nextTyping b.typing
      ((b.handle cfg token te).2.filterMap LoopObs.handledEvent) (b.handle cfg token te).1.typing := by
  obtain ⟨hid,hkey⟩ := DeviceWrapper.processEvent_keeps cfg b.typing te (b.wrapper,b.vDevice)
  have hkbd := congrArg (·.2.2.2) hid
  have hlast := congrArg (·.1) hkey
  dsimp only [DeviceWrapper.identity,DeviceWrapper.keyState] at hkbd hlast
  refine ⟨rfl,?_⟩
  simp only [handle,hkbd,hlast]
  rfl

/-- The shared typing time is threaded through a step of the loop. -/
theorem EventLoop.step_threads (cfg : InputConfig F) (l : EventLoop F) (i : LoopInput) :
    Threads Handled.typing Handled.nextTyping l.lastGlobalTypingTime
      ((l.step cfg i).2.filterMap LoopObs.handledEvent) (l.step cfg i).1.lastGlobalTypingTime := by
  have hregister : ∀ (l : EventLoop F) ok w, Threads Handled.typing Handled.nextTyping
      l.lastGlobalTypingTime ((l.register ok w).2.filterMap LoopObs.handledEvent)
      (l.register ok w).1.lastGlobalTypingTime := by
    intro l ok w
    cases ok <;> rfl
  have hhotplug : ∀ (l : EventLoop F) iev, Threads Handled.typing Handled.nextTyping
      l.lastGlobalTypingTime ((l.hotplug iev).2.filterMap LoopObs.handledEvent)
      (l.hotplug iev).1.lastGlobalTypingTime := by
    intro l iev
    rcases l.hotplug_cases iev with h | ⟨_,w,_,_,_,h⟩ <;> rw [h]
    · rfl
    · exact hregister l _ w
  rcases l.step_cases cfg i with ⟨ievents,_,h⟩ | ⟨token,events,w,_,_,h⟩ | ⟨token,w,_,_,h⟩ |
    ⟨_,h⟩ | h <;> rw [h]
  · exact run_threads LoopObs.handledEvent lastGlobalTypingTime hhotplug l ievents
  · have hbatch := run_threads LoopObs.handledEvent Batch.typing (Batch.handle_threads cfg token)
      ⟨w,l.vDevice,l.lastGlobalTypingTime,false⟩ events
    dsimp only [processBatch]
    rw [List.filterMap_append]
    apply hbatch.append
    split_ifs <;> rfl
  · rfl
  · rfl
  · rfl

/-- What a handled event wrote is what `process_event` writes. -/
def Handled.Genuine (cfg : InputConfig F) (h : Handled F) : Prop :=
  ∃ v, h.writes = (DeviceWrapper.processEvent cfg h.typing h.event (h.wrapper,v)).2.1

/-- Every event the loop handles is handled by `process_event`. -/
theorem EventLoop.step_genuine (cfg : InputConfig F) (l : EventLoop F) (i : LoopInput) :
    ∀ o ∈ (l.step cfg i).2, ∀ h ∈ o.handledEvent, h.Genuine cfg := by
  have hregister : ∀ (l : EventLoop F) ok w, ∀ o ∈ (l.register ok w).2,
      ∀ h ∈ o.handledEvent, h.Genuine cfg := by
    intro l ok w o ho h hh
    cases ok <;> obtain rfl := List.mem_singleton.mp ho <;> cases hh
  rcases l.step_cases cfg i with ⟨ievents,_,h⟩ | ⟨token,events,w,_,_,h⟩ | ⟨token,w,_,_,h⟩ |
    ⟨_,h⟩ | h <;> rw [h]
  · refine run_outputs hotplug (fun _ => True) _ (fun _ _ _ => trivial) (fun l iev _ o ho => ?_)
      trivial ievents
    rcases l.hotplug_cases iev with h | ⟨_,w,_,_,_,h⟩ <;> rw [h] at ho
    · cases ho
    · exact hregister l _ w o ho
  · intro o ho
    rcases List.mem_append.mp ho with ho | ho
    · refine run_outputs (Batch.handle cfg token) (fun _ => True)
        (fun o => ∀ h ∈ o.handledEvent, h.Genuine cfg) (fun _ _ _ => trivial)
        (fun b te _ o ho h hh => ?_) trivial events o ho
      obtain rfl := List.mem_singleton.mp ho
      obtain rfl := Option.some.inj hh
      exact ⟨b.vDevice,rfl⟩
    · intro h hh
      split_ifs at ho
      · obtain rfl := List.mem_singleton.mp ho
        cases hh
      · cases ho
  · intro o ho h hh
    obtain rfl := List.mem_singleton.mp ho
    cases hh
  · exact fun o ho => by cases ho
  · exact fun o ho => by cases ho

omit [F32 F] in
/-- In a run in which no keyboard puts an older typing time in place of the shared one, the
shared time covers every key press before it. -/
theorem typing_covers {l : List (Handled F)} {start stop : Option Instant}
    (hthreads : Threads Handled.typing Handled.nextTyping start l stop) (hclock : ClockRuns l)
    (hkeeps : ∀ h ∈ l, h.KeepsTyping) :
    AtEach (fun front h => ∀ press ∈ front, press.IsPress →
      ∃ t, h.typing = some t ∧ press.event.now ≤ t) l := by
  refine (hthreads.invariant (fun front typing => ∀ press ∈ front, press.IsPress →
    ∃ t, typing = some t ∧ press.event.now ≤ t) (by simp) ?_).1
  intro front h back hl hcovers press hpress hp
  have hle : press.event.now ≤ h.event.now := by
    rcases List.mem_append.mp hpress with hpress | hpress
    · exact (atEach_mem_iff_pairwise.mpr hclock) front h back hl press hpress
    · rw [List.mem_singleton.mp hpress]
  by_cases htypes : h.Types
  · exact ⟨h.event.now,Handled.nextTyping_of_types htypes,hle⟩
  · have hbefore : press ∈ front := by
      rcases List.mem_append.mp hpress with hpress | hpress
      · exact hpress
      · obtain rfl := List.mem_singleton.mp hpress
        exact absurd ⟨hp.1,hp.2.1,by simp [hp.2.2]⟩ htypes
    obtain ⟨t,htyping,ht⟩ := hcovers press hbefore hp
    by_cases hkbd : h.wrapper.isKeyboard = true
    · rw [Handled.nextTyping_of_not_types hkbd htypes]
      cases hlast : h.wrapper.lastTypingTime with
      | none => exact ⟨t,htyping,ht⟩
      | some last =>
        have hmem : h ∈ l := hl ▸ List.mem_append_right _ List.mem_cons_self
        exact ⟨last,rfl,ht.trans (hkeeps h hmem hkbd htypes last hlast t htyping)⟩
    · exact ⟨t,by simpa [Handled.nextTyping,hkbd] using htyping,ht⟩

/-- In every run whose events all keep the shared typing time, a touchpad is quiet for 500 ms
after each key press of any keyboard. -/
theorem quiet_while_typing (cfg : InputConfig F) (hdwt : cfg.disableWhileTyping = true)
    (v : VirtualDevice) (devices : List (DeviceWrapper F)) (inputs : List LoopInput)
    (hclock : ClockRuns (handledEvents (EventLoop.runLoop cfg v devices inputs).2))
    (hkeeps : ∀ h ∈ handledEvents (EventLoop.runLoop cfg v devices inputs).2, h.KeepsTyping) :
    QuietWhileTyping (handledEvents (EventLoop.runLoop cfg v devices inputs).2) := by
  have hthreads := run_threads LoopObs.handledEvent EventLoop.lastGlobalTypingTime
    (EventLoop.step_threads cfg) (EventLoop.start v devices).1 inputs
  have hcovers := typing_covers hthreads hclock hkeeps
  refine atEach_mem_iff_pairwise.mp fun front h back hl press hpress hp habs hwindow => ?_
  obtain ⟨t,htyping,ht⟩ := hcovers front h back hl press hpress hp
  have hmem : h ∈ handledEvents (EventLoop.runLoop cfg v devices inputs).2 :=
    hl ▸ List.mem_append_right _ List.mem_cons_self
  obtain ⟨o,ho,hh⟩ := List.mem_filterMap.mp hmem
  obtain ⟨v',hwrites⟩ := run_outputs (EventLoop.step cfg) (fun _ => True) _
    (fun _ _ _ => trivial) (fun l i _ => l.step_genuine cfg i) trivial inputs o ho h hh
  have hactive : DeviceWrapper.dwtActive cfg h.typing h.event.now = true := by
    rw [DeviceWrapper.dwtActive,hdwt,htyping]
    exact decide_eq_true (lt_of_le_of_lt (Nat.sub_le_sub_left ht _) hwindow)
  have hadmitted := DeviceWrapper.processEvent_admitted cfg h.typing h.event (h.wrapper,v') habs
    hactive
  rw [← hwrites] at hadmitted
  refine ⟨fun w hw hmotion => (hadmitted w hw).1 hmotion.1,fun htouch w hw hkey => ?_⟩
  exact (hadmitted w hw).2 htouch hkey.1

/-- A keyboard under token 0, another under token 1, and a touchpad under token 2. -/
def twoKeyboardsAndTouchpad : List (DeviceWrapper ℚ) :=
  [.new ⟨plainKeyboard,5,false⟩ "/dev/input/event3",.new ⟨plainKeyboard,6,false⟩ "/dev/input/event4",
    .new ⟨plainTouchpad,7,true⟩ "/dev/input/event5"]

/-- A press or release of A on the keyboard under a token, at a time in milliseconds. -/
def keyAt (token : ℕ) (value : ℤ) (ms : ℕ) : LoopInput :=
  .ready token (.batch [⟨⟨0,.key,KeyCode.keyA,value⟩,fromMillis ms⟩])

/-- A stroke of the touchpad under token 2, at a time in milliseconds. -/
def strokeAt (ms : ℕ) : LoopInput :=
  .ready 2 (.batch [⟨⟨0,.key,KeyCode.btnTouch,1⟩,fromMillis ms⟩,
    ⟨⟨0,.absolute,AbsoluteAxisCode.absX,0⟩,fromMillis ms⟩,
    ⟨⟨0,.absolute,AbsoluteAxisCode.absX,100⟩,fromMillis ms⟩,
    ⟨⟨0,.synchronization,0,0⟩,fromMillis ms⟩])

/-- Two keyboards typed on one after the other keep the touchpad quiet. -/
theorem quiet_after_second_keyboard : QuietWhileTyping (handledEvents (EventLoop.runLoop .default
      .reliable twoKeyboardsAndTouchpad [keyAt 1 1 0,keyAt 1 0 50,keyAt 0 1 100,strokeAt 550]).2) :=
  quiet_while_typing _ rfl _ _ _ (by decide +kernel) (by decide +kernel)

/-- A key pressed at 0 on one keyboard and released there at 110 ms, after a press at 100 ms on
another: the release restores the time of the first press, and the stroke at 550 ms, 450 ms
after the second press, moves the pointer. -/
theorem release_reopens_touchpad : ClockRuns (handledEvents (EventLoop.runLoop .default
      .reliable twoKeyboardsAndTouchpad [keyAt 1 1 0,keyAt 0 1 100,keyAt 1 0 110,strokeAt 550]).2) ∧
    ¬ QuietWhileTyping (handledEvents (EventLoop.runLoop .default
      .reliable twoKeyboardsAndTouchpad [keyAt 1 1 0,keyAt 0 1 100,keyAt 1 0 110,strokeAt 550]).2) := by
  constructor <;> decide +kernel

end Loop
end LibinputRs
