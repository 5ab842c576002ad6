import LibinputRs.Daemon.Nodes
import LibinputRs.Daemon.Reliable
import LibinputRs.Daemon.ResetHotkey
import LibinputRs.Daemon.Typing

/-! Each wrapper of the loop by itself. The loop serves its devices in batches, in the order in
which they become ready, opens and drops others in between and writes for all of them to one virtual
device; what is written for a token is what its wrapper alone would write, given the events that
were fetched for the token one after another, each with the typing time that the keyboards share. -/
namespace LibinputRs
open Automata

variable {F : Type}

namespace Handled

/-- What the wrapper was given. -/
def input (h : Handled F) : WrapperInput := ⟨h.event,h.typing⟩

end Handled

/-- The events handled under a token, in order. -/
def handledUnder (t : ℕ) (l : List (LoopObs F)) : List (Handled F) :=
  (handledEvents l).filter fun h => h.token = t

@[simp] theorem handledUnder_nil (t : ℕ) : handledUnder t ([] : List (LoopObs F)) = [] := rfl

@[simp] theorem handledUnder_append (t : ℕ) (l m : List (LoopObs F)) :
    handledUnder t (l ++ m) = handledUnder t l ++ handledUnder t m := by
  rw [handledUnder,handledEvents,List.filterMap_append,List.filter_append]
  rfl

theorem handledUnder_of_unhandled {t : ℕ} {l : List (LoopObs F)}
    (h : ∀ o ∈ l, o.handledEvent = none) : handledUnder t l = [] := by
  rw [handledUnder,handledEvents,List.filterMap_eq_nil_iff.mpr h,List.filter_nil]

variable [F32 F]

namespace DeviceWrapper

/-- Alone, from the first wrapper to the last, the handled events write what they wrote. -/
def Interprets (cfg : InputConfig F) (w₀ : DeviceWrapper F) (own : List (Handled F))
    (w : DeviceWrapper F) : Prop :=
  run (DeviceWrapper.eventStep cfg) w₀ (own.map Handled.input) = (w,own.flatMap Handled.writes)

theorem Interprets.append {cfg : InputConfig F} {w₀ w w' : DeviceWrapper F}
    {own rest : List (Handled F)} (h : Interprets cfg w₀ own w) (h' : Interprets cfg w rest w') :
    Interprets cfg w₀ (own ++ rest) w' := by
  rw [Interprets,List.map_append,run_append,h,h',List.flatMap_append]

end DeviceWrapper

namespace EventLoop

/-- What became of a token: nothing was registered under it, or a device was, and all that was
written for it is what its wrapper alone writes. -/
inductive ByItself (cfg : InputConfig F) (t : ℕ) (out : List (LoopObs F)) (l : EventLoop F) : Prop
  | unused (hown : handledUnder t out = []) (hw : l.wrapper t = none)
  | registered (device : Device) (path : PathBuf) (w : DeviceWrapper F)
      (hregistered : .registered t device.rawFd ∈ out)
      (hown : DeviceWrapper.Interprets cfg (.new device path) (handledUnder t out) w)
      (hw : ∀ w', l.wrapper t = some w' → w' = w)

/-- The events that a readiness event fetches for a token. -/
def receivedBy (t : ℕ) (l : EventLoop F) : LoopInput → List TimedEvent
  | .ready token fetch => if token = t ∧ (l.wrapper t).isSome then fetch.events else []
  | _ => []

/-- The events that a run of the loop fetches for a token. -/
def received (cfg : InputConfig F) (t : ℕ) (l : EventLoop F) (inputs : List LoopInput) :
    List TimedEvent :=
  (run (fun l i => ((l.step cfg i).1,l.receivedBy t i)) l inputs).2

section Steps

/-- On a reliable virtual device, the wrapper of a batch alone writes what the batch writes. -/
theorem batch_interprets (cfg : InputConfig F) (token : ℕ) {b : Batch F}
    (hv : b.vDevice = .reliable) (events : List TimedEvent) :
    (run (Batch.handle cfg token) b events).1.vDevice = .reliable ∧
      DeviceWrapper.Interprets cfg b.wrapper
        (handledEvents (run (Batch.handle cfg token) b events).2)
        (run (Batch.handle cfg token) b events).1.wrapper := by
  induction events generalizing b with
  | nil => exact ⟨hv,rfl⟩
  | cons te events ih =>
    obtain ⟨hwrapper,hreliable,hout⟩ := b.handle_reliable cfg token te hv
    obtain ⟨hlast,hrest⟩ := ih hreliable
    refine ⟨hlast,?_⟩
    have hone : DeviceWrapper.Interprets cfg b.wrapper (handledEvents (b.handle cfg token te).2)
        (b.handle cfg token te).1.wrapper := by
      rw [hout,hwrapper,DeviceWrapper.Interprets]
      simp [handledEvents,LoopObs.handledEvent,Handled.input]
    rw [run_cons]
    dsimp only
    rw [handledEvents,List.filterMap_append]
    exact hone.append hrest

/-- All that a batch handles, it handles under its token. -/
theorem handledUnder_batch (cfg : InputConfig F) (l : EventLoop F) (token t : ℕ)
    (w : DeviceWrapper F) (events : List TimedEvent) :
    handledUnder t (l.processBatch cfg token w events).2 = if token = t then
      handledEvents (run (Batch.handle cfg token)
        ⟨w,l.vDevice,l.lastGlobalTypingTime,false⟩ events).2 else [] := by
  obtain ⟨_,_,hall⟩ := batch_handled cfg token
    ⟨w,l.vDevice,l.lastGlobalTypingTime,false⟩ events
  have hrequest : handledUnder t (if (run (Batch.handle cfg token)
      ⟨w,l.vDevice,l.lastGlobalTypingTime,false⟩ events).1.triggerReset && !l.resetting then
        [.resetRequested] else ([] : List (LoopObs F))) = [] := by
    split_ifs <;> rfl
  unfold processBatch
  dsimp only
  rw [handledUnder_append,hrequest,List.append_nil,handledUnder]
  split_ifs with ht
  · exact List.filter_eq_self.mpr fun h hh => decide_eq_true ((hall h hh).1.trans ht)
  · exact List.filter_eq_nil_iff.mpr fun h hh => by simp [(hall h hh).1,ht]

/-- What the loop keeps for a token. -/
structure Alone (cfg : InputConfig F) (t : ℕ) (out : List (LoopObs F)) (l : EventLoop F) :
    Prop where
  reliable : l.vDevice = .reliable
  below : l.Below
  fresh : l.nextToken ≤ t → handledUnder t out = []
  byItself : ByItself cfg t out l

namespace Alone
variable {cfg : InputConfig F} {t : ℕ} {out o : List (LoopObs F)} {l l' : EventLoop F}

theorem blank (cfg : InputConfig F) (t : ℕ) :
    Alone cfg t [] (EventLoop.blank .reliable : EventLoop F) where
  reliable := rfl
  below _ _ := rfl
  fresh _ := rfl
  byItself := .unused rfl rfl

/-- A step that handles nothing under the token, and at most drops its wrapper. -/
theorem keep (h : Alone cfg t out l) (hreliable : l'.vDevice = l.vDevice) (hbelow : l'.Below)
    (hnext : l.nextToken ≤ l'.nextToken) (ho : handledUnder t o = [])
    (hw : ∀ w, l'.wrapper t = some w → l.wrapper t = some w) : Alone cfg t (out ++ o) l' where
  reliable := hreliable.trans h.reliable
  below := hbelow
  fresh hle := by rw [handledUnder_append,h.fresh (hnext.trans hle),ho]; rfl
  byItself := by
    cases h.byItself with
    | unused hown hnone =>
      refine .unused (by rw [handledUnder_append,hown,ho]; rfl) ?_
      exact Option.eq_none_iff_forall_ne_some.mpr fun w hsome => by
        have := hw w hsome
        rw [hnone] at this
        cases this
    | registered device path w hregistered hown hlast =>
      refine .registered device path w (List.mem_append_left _ hregistered) ?_
        fun w' hw' => hlast w' (hw w' hw')
      rwa [handledUnder_append,ho,List.append_nil]

/-- A fresh wrapper comes under the next token, or goes if it cannot be watched. -/
theorem register (h : Alone cfg t out l) (registers : Bool) (device : Device) (path : PathBuf) :
    Alone cfg t (out ++ (l.register registers (.new device path)).2)
      (l.register registers (.new device path)).1 := by
  have hsilent : handledUnder t (l.register registers (.new device path)).2 = [] := by
    cases registers <;> rfl
  cases registers with
  | false =>
    have hbelow : (l.register false (.new device path)).1.Below :=
      fun t' ht' => h.below t' ((Nat.le_succ _).trans ht')
    exact h.keep rfl hbelow (Nat.le_succ _) hsilent fun _ hw => hw
  | true =>
    have hbelow : (l.register true (.new device path)).1.Below := by
      intro t' ht'
      have hlt : l.nextToken < t' := ht'
      rw [register_wrapper,if_neg hlt.ne']
      exact h.below t' hlt.le
    by_cases ht : t = l.nextToken
    · have hown : handledUnder t (out ++ (l.register true (.new device path)).2) = [] := by
        rw [handledUnder_append,h.fresh ht.ge,hsilent]
        rfl
      refine ⟨h.reliable,hbelow,fun _ => hown,?_⟩
      refine .registered device path (.new device path) (List.mem_append_right _ ?_) ?_ ?_
      · rw [ht]
        exact List.mem_cons_self
      · rw [hown]
        rfl
      · intro w' hw'
        rw [register_wrapper,if_pos ht] at hw'
        exact (Option.some.inj hw').symm
    · refine h.keep rfl hbelow (Nat.le_succ _) hsilent fun w hw => ?_
      rwa [register_wrapper,if_neg ht] at hw

/-- A batch of the token is what its wrapper makes of it; a batch of another leaves it alone. -/
theorem batch (h : Alone cfg t out l) {token : ℕ} {w : DeviceWrapper F}
    (hw : l.wrapper token = some w) (events : List TimedEvent) :
    Alone cfg t (out ++ (l.processBatch cfg token w events).2)
      (l.processBatch cfg token w events).1 := by
  obtain ⟨hreliable,hbatch⟩ := batch_interprets cfg token
    (b := ⟨w,l.vDevice,l.lastGlobalTypingTime,false⟩) h.reliable events
  have hbelow : (l.processBatch cfg token w events).1.Below := by
    intro t' ht'
    have hlt : token < l.nextToken := h.below.lt hw
    have hne : t' ≠ token := (hlt.trans_le ht').ne'
    rw [wrapper_processBatch,if_neg hne]
    exact h.below t' ht'
  by_cases ht : token = t
  · subst ht
    have hown : handledUnder token (out ++ (l.processBatch cfg token w events).2) =
        handledUnder token out ++ handledEvents (run (Batch.handle cfg token)
          ⟨w,l.vDevice,l.lastGlobalTypingTime,false⟩ events).2 := by
      rw [handledUnder_append,handledUnder_batch,if_pos rfl]
    refine ⟨hreliable,hbelow,fun hle => absurd (h.below.lt hw) (not_lt.mpr hle),?_⟩
    cases h.byItself with
    | unused _ hnone =>
      rw [hw] at hnone
      cases hnone
    | registered device path w₁ hregistered hold hlast =>
      obtain rfl := hlast w hw
      refine .registered device path (run (Batch.handle cfg token)
        ⟨w,l.vDevice,l.lastGlobalTypingTime,false⟩ events).1.wrapper
        (List.mem_append_left _ hregistered) ?_ ?_
      · rw [hown]
        exact hold.append hbatch
      · intro w' hw'
        rw [wrapper_processBatch,if_pos rfl] at hw'
        exact (Option.some.inj hw').symm
  · refine h.keep (hreliable.trans h.reliable.symm) hbelow le_rfl
      (by rw [handledUnder_batch,if_neg ht]) fun w' hw' => ?_
    rwa [wrapper_processBatch,if_neg (Ne.symm ht)] at hw'

end Alone

theorem hotplug_alone {cfg : InputConfig F} {t : ℕ} {out : List (LoopObs F)} {l : EventLoop F}
    (h : Alone cfg t out l) (iev : HotplugEvent) :
    Alone cfg t (out ++ (l.hotplug iev).2) (l.hotplug iev).1 := by
  rcases l.hotplug_cases iev with hnone | ⟨name,w,_,_,hopen,hone⟩
  · rwa [hnone,List.append_nil]
  · rw [hone,tryOpenDevice_new hopen]
    exact h.register iev.registers w.device w.path

theorem step_alone {cfg : InputConfig F} {t : ℕ} {out : List (LoopObs F)} {l : EventLoop F}
    (h : Alone cfg t out l) (i : LoopInput) :
    Alone cfg t (out ++ (l.step cfg i).2) (l.step cfg i).1 := by
  rcases l.step_cases cfg i with ⟨ievents,_,hstep⟩ | ⟨token,events,w,_,hw,hstep⟩ |
    ⟨token,w,_,_,hstep⟩ | ⟨_,hstep⟩ | hstep <;> rw [hstep]
  · refine run_history hotplug (fun _ o l => Alone cfg t (out ++ o) l) (fun _ o _ iev hl => ?_)
      (by rwa [List.append_nil]) ievents
    rw [← List.append_assoc]
    exact hotplug_alone hl iev
  · exact h.batch hw events
  · refine h.keep rfl (fun t' ht' => ?_) le_rfl rfl fun w' hw' => ?_
    · rw [wrapper_erase]
      split_ifs
      · rfl
      · exact h.below t' ht'
    · rw [wrapper_erase] at hw'
      split_ifs at hw'
      exact hw'
  · exact h.keep rfl h.below le_rfl rfl fun _ hw => hw
  · rwa [List.append_nil]

/-- The initial devices come fresh into the table. -/
theorem start_alone (cfg : InputConfig F) (t : ℕ) (nodes : List (PathBuf × NodeOpen)) :
    Alone cfg t (start .reliable (scanInputDevices nodes)).2
      (start .reliable (scanInputDevices nodes) : EventLoop F × List (LoopObs F)).1 := by
  induction nodes using List.reverseRecOn with
  | nil => exact .blank cfg t
  | append_singleton nodes last ih =>
    rw [scanInputDevices,List.filterMap_append]
    cases hopen : tryOpenDevice (F := F) last.1 last.2 with
    | none => simpa [scanInputDevices,hopen] using ih
    | some w =>
      have hlast : [last].filterMap (fun n => tryOpenDevice (F := F) n.1 n.2) =
          [.new w.device w.path] := by simp [hopen,← tryOpenDevice_new hopen]
      rw [hlast,start,run_append,run_singleton]
      exact ih.register true w.device w.path

end Steps

/-- What a readiness event handles under a token is what it fetches for the token. -/
theorem step_received (cfg : InputConfig F) (t : ℕ) (l : EventLoop F) (i : LoopInput) :
    (handledUnder t (l.step cfg i).2).map Handled.event = l.receivedBy t i := by
  have hsilent : ∀ (l : EventLoop F) (iev : HotplugEvent),
      ∀ o ∈ (l.hotplug iev).2, o.handledEvent = none := by
    intro l iev o ho
    rcases l.hotplug_cases iev with h | ⟨_,w,_,_,_,h⟩ <;> rw [h] at ho
    · cases ho
    · cases hregisters : iev.registers <;> rw [hregisters] at ho <;>
        obtain rfl := List.mem_singleton.mp ho <;> rfl
  cases i with
  | inotify events =>
    cases events with
    | none => rfl
    | some ievents =>
      refine List.map_eq_nil_iff.mpr (handledUnder_of_unhandled ?_)
      exact run_outputs hotplug (fun _ => True) _ (fun _ _ _ => trivial)
        (fun l iev _ => hsilent l iev) trivial ievents
  | ready token fetch =>
    cases hw : l.wrapper token with
    | none =>
      simp only [step,hw,receivedBy,handledUnder_nil,List.map_nil]
      refine (if_neg ?_).symm
      rintro ⟨rfl,hsome⟩
      rw [hw] at hsome
      cases hsome
    | some w =>
      have hevents : l.receivedBy t (.ready token fetch) =
          if token = t then fetch.events else [] := by
        by_cases ht : token = t
        · subst ht
          simp [receivedBy,hw]
        · simp [receivedBy,ht]
      rw [hevents]
      cases fetch with
      | batch events =>
        obtain ⟨_,hall,_⟩ := batch_handled cfg token
          ⟨w,l.vDevice,l.lastGlobalTypingTime,false⟩ events
        simp only [step,hw]
        rw [handledUnder_batch]
        split_ifs
        · exact hall
        · rfl
      | wouldBlock => simp [step,hw,Fetch.events]
      | gone => simp [step,hw,Fetch.events,handledUnder,handledEvents,LoopObs.handledEvent]
      | failed => simp [step,hw,Fetch.events]
  | resetDone => rfl

theorem run_received (cfg : InputConfig F) (t : ℕ) (l : EventLoop F) (inputs : List LoopInput) :
    (handledUnder t (run (step cfg) l inputs).2).map Handled.event = l.received cfg t inputs := by
  induction inputs generalizing l with
  | nil => rfl
  | cons i inputs ih =>
    rw [received,run_cons,run_cons,handledUnder_append,List.map_append,step_received,ih]
    rfl

/-- In every run, every token has been handled by its wrapper alone. -/
theorem runLoop_alone (cfg : InputConfig F) (nodes : List (PathBuf × NodeOpen))
    (inputs : List LoopInput) (t : ℕ) :
    let opened : EventLoop F × List (LoopObs F) := start .reliable (scanInputDevices nodes)
    let r := runLoop cfg .reliable (scanInputDevices nodes) inputs
    Alone cfg t (opened.2 ++ r.2) r.1 := by
  intro opened r
  refine run_history (step cfg) (fun _ o l => Alone cfg t (opened.2 ++ o) l)
    (fun _ o _ i h => ?_) (by rw [List.append_nil]; exact start_alone cfg t nodes) inputs
  rw [← List.append_assoc]
  exact step_alone h i

/-- In every run, every token's writes are those of its wrapper alone over the events fetched for
it, the typing time going from each event handled to the next. -/
theorem runLoop_byItself (cfg : InputConfig F) (nodes : List (PathBuf × NodeOpen))
    (inputs : List LoopInput) (t : ℕ) :
    let opened : EventLoop F × List (LoopObs F) := start .reliable (scanInputDevices nodes)
    let r := runLoop cfg .reliable (scanInputDevices nodes) inputs
    ByItself cfg t (opened.2 ++ r.2) r.1 ∧
      (handledUnder t r.2).map Handled.event = opened.1.received cfg t inputs ∧
      Threads Handled.typing Handled.nextTyping none (handledEvents r.2)
        r.1.lastGlobalTypingTime := by
  intro opened r
  refine ⟨(runLoop_alone cfg nodes inputs t).byItself,run_received cfg t opened.1 inputs,?_⟩
  have hnone : opened.1.lastGlobalTypingTime = none :=
    run_invariant (fun (l : EventLoop F) w => l.register true w)
      (fun l => l.lastGlobalTypingTime = none) (fun _ _ _ h => h) (s := blank .reliable) rfl
  have hthreads := run_threads LoopObs.handledEvent lastGlobalTypingTime (step_threads cfg)
    opened.1 inputs
  rwa [hnone] at hthreads

end EventLoop
end LibinputRs
