import LibinputRs.Automata.Machine
import LibinputRs.Backend.Drain
import LibinputRs.Daemon.DeviceWrapper
import Mathlib.Data.List.AList

/-! `event_loop::run` of the daemon: the table of wrappers by token, the typing time its
keyboards share, hotplug, the processing of batches, and disconnection. -/
namespace LibinputRs
open Automata

variable {F : Type}

/-- The record of one kernel event being handled: under which token, the wrapper and the shared
typing time before it, and the writes it made. -/
structure Handled (F : Type) where
  token : ℕ
  wrapper : DeviceWrapper F
  typing : Option Instant
  event : TimedEvent
  writes : List Write
  deriving DecidableEq, Repr

/-- The observable steps of the loop. -/
inductive LoopObs (F : Type)
  | registered (token : ℕ) (rawFd : RawFd)
  | handled (h : Handled F)
  | resetRequested
  | released (wrapper : DeviceWrapper F)
  deriving DecidableEq, Repr

/-- The events handled, in order. -/
def LoopObs.handledEvent : LoopObs F → Option (Handled F)
  | .handled h => some h
  | _ => none

def handledEvents (l : List (LoopObs F)) : List (Handled F) := l.filterMap LoopObs.handledEvent

/-- One inotify record, with what opening the node it names gives and whether epoll accepts the
descriptor. -/
structure HotplugEvent where
  name : Option FileName
  node : NodeOpen
  registers : Bool
  deriving DecidableEq, Repr

/-- What the loop works on next: a readiness event of the inotify descriptor or of a token, or
the end of the thread that restarts the hardware. -/
inductive LoopInput
  | inotify (events : Option (List HotplugEvent))
  | ready (token : ℕ) (fetch : Fetch)
  | resetDone

structure EventLoop (F : Type) where
  devicesMap : AList (fun _ : ℕ => DeviceWrapper F)
  nextToken : ℕ
  lastGlobalTypingTime : Option Instant
  resetting : Bool
  vDevice : VirtualDevice

/-- What the processing of a batch works on: the wrapper, the virtual device, the shared typing
time and `trigger_reset`. -/
structure Batch (F : Type) where
  wrapper : DeviceWrapper F
  vDevice : VirtualDevice
  typing : Option Instant
  triggerReset : Bool

namespace Batch

/-- The press of `KEY_R` under both modifiers. -/
def isReset (te : TimedEvent) (w : DeviceWrapper F) : Bool :=
  w.isKeyboard && decide (te.ev.eventType = .key ∧ te.ev.value = 1 ∧ te.ev.code = KeyCode.keyR) &&
    w.ctrlPressed && w.altPressed

variable [F32 F]

/-- One turn of the loop over a batch; an error of `process_event` is logged and dropped. -/
def handle (cfg : InputConfig F) (token : ℕ) (b : Batch F) (te : TimedEvent) :
    Batch F × List (LoopObs F) :=
  match DeviceWrapper.processEvent cfg b.typing te (b.wrapper,b.vDevice) with
  | ((w,v),writes,_) =>
    ({ wrapper := w
       vDevice := v
       typing := if w.isKeyboard then w.lastTypingTime.or b.typing else b.typing
       triggerReset := b.triggerReset || isReset te b.wrapper },
      [.handled ⟨token,b.wrapper,b.typing,te,writes⟩])

end Batch

namespace EventLoop

/-- The wrapper under a token. -/
def wrapper (l : EventLoop F) (token : ℕ) : Option (DeviceWrapper F) := l.devicesMap.lookup token

def insert (l : EventLoop F) (token : ℕ) (w : DeviceWrapper F) : EventLoop F :=
  { l with devicesMap := l.devicesMap.insert token w }

def erase (l : EventLoop F) (token : ℕ) : EventLoop F :=
  { l with devicesMap := l.devicesMap.erase token }

@[simp] theorem wrapper_insert (l : EventLoop F) (token t : ℕ) (w : DeviceWrapper F) :
    (l.insert token w).wrapper t = if t = token then some w else l.wrapper t := by
  split_ifs with ht
  · subst ht
    exact AList.lookup_insert _
  · exact AList.lookup_insert_ne ht

@[simp] theorem wrapper_erase (l : EventLoop F) (token t : ℕ) :
    (l.erase token).wrapper t = if t = token then none else l.wrapper t := by
  split_ifs with ht
  · subst ht
    exact AList.lookup_erase _ _
  · exact AList.lookup_erase_ne ht

/-- Registration under the next token; a wrapper that epoll refuses goes out of scope. -/
def register (l : EventLoop F) (registers : Bool) (w : DeviceWrapper F) :
    EventLoop F × List (LoopObs F) :=
  let token := l.nextToken
  let l := { l with nextToken := token + 1 }
  if registers then (l.insert token w,[.registered token w.device.rawFd]) else (l,[.released w])

theorem register_wrapper (l : EventLoop F) (w : DeviceWrapper F) (t : ℕ) :
    (l.register true w).1.wrapper t = if t = l.nextToken then some w else l.wrapper t :=
  wrapper_insert { l with nextToken := l.nextToken + 1 } l.nextToken t w

/-- The state in which the loop is entered: every initial device registered, in order. -/
def start (v : VirtualDevice) (devices : List (DeviceWrapper F)) :
    EventLoop F × List (LoopObs F) :=
  run (fun l w => l.register true w) ⟨∅,0,none,false,v⟩ devices

variable [F32 F]

/-- One inotify record: a node whose path no tracked wrapper has is opened and registered. -/
def hotplug (l : EventLoop F) (iev : HotplugEvent) : EventLoop F × List (LoopObs F) :=
  match iev.name with
  | none => (l,[])
  | some name =>
    if l.devicesMap.entries.any fun e => e.2.path = devInput name then (l,[])
    else
      match tryOpenDevice (devInput name) iev.node with
      | none => (l,[])
      | some w => l.register iev.registers w

/-- The batch of a ready wrapper, and the request for a hardware reset at its end. -/
def processBatch (cfg : InputConfig F) (l : EventLoop F) (token : ℕ) (w : DeviceWrapper F)
    (events : List TimedEvent) : EventLoop F × List (LoopObs F) :=
  match run (Batch.handle cfg token) ⟨w,l.vDevice,l.lastGlobalTypingTime,false⟩ events with
  | (b,obs) =>
    ({ l.insert token b.wrapper with
        lastGlobalTypingTime := b.typing
        resetting := l.resetting || b.triggerReset
        vDevice := b.vDevice },
      obs ++ if b.triggerReset && !l.resetting then [.resetRequested] else [])

theorem wrapper_processBatch (cfg : InputConfig F) (l : EventLoop F) (token : ℕ)
    (w : DeviceWrapper F) (events : List TimedEvent) (t : ℕ) :
    (l.processBatch cfg token w events).1.wrapper t = if t = token then
      some (run (Batch.handle cfg token) ⟨w,l.vDevice,l.lastGlobalTypingTime,false⟩ events).1.wrapper
      else l.wrapper t := wrapper_insert _ _ _ _

/-- One readiness event. -/
def step (cfg : InputConfig F) (l : EventLoop F) : LoopInput → EventLoop F × List (LoopObs F)
  | .inotify none => (l,[])
  | .inotify (some ievents) => run hotplug l ievents
  | .ready token fetch =>
    match l.wrapper token with
    | none => (l,[])
    | some w =>
      match fetch with
      | .batch events => processBatch cfg l token w events
      | .gone => (l.erase token,[.released w])
      | .wouldBlock => (l,[])
      | .failed => (l,[])
  | .resetDone => ({ l with resetting := false },[])

/-- What one inotify record can do: nothing, or the registration of the node it names, which no
tracked wrapper has. -/
theorem hotplug_cases (l : EventLoop F) (iev : HotplugEvent) :
    l.hotplug iev = (l,[]) ∨ ∃ name w, iev.name = some name ∧
      (∀ e ∈ l.devicesMap.entries, e.2.path ≠ devInput name) ∧
      tryOpenDevice (devInput name) iev.node = some w ∧
      l.hotplug iev = l.register iev.registers w := by
  unfold hotplug
  cases hname : iev.name with
  | none => exact .inl rfl
  | some name =>
    dsimp only
    split_ifs with htracked
    · exact .inl rfl
    · cases hopen : tryOpenDevice (F := F) (devInput name) iev.node with
      | none => exact .inl rfl
      | some w =>
        refine .inr ⟨name,w,rfl,fun e he heq => htracked ?_,hopen,rfl⟩
        exact List.any_eq_true.mpr ⟨e,he,decide_eq_true heq⟩

/-- What one readiness event can do: hotplug, a batch, a disconnection, the end of a reset, or
nothing. -/
theorem step_cases (cfg : InputConfig F) (l : EventLoop F) (i : LoopInput) :
    (∃ ievents, i = .inotify (some ievents) ∧ l.step cfg i = run hotplug l ievents) ∨
    (∃ token events w, i = .ready token (.batch events) ∧ l.wrapper token = some w ∧
      l.step cfg i = processBatch cfg l token w events) ∨
    (∃ token w, i = .ready token .gone ∧ l.wrapper token = some w ∧
      l.step cfg i = (l.erase token,[.released w])) ∨
    (i = .resetDone ∧ l.step cfg i = ({ l with resetting := false },[])) ∨
    l.step cfg i = (l,[]) := by
  cases i with
  | inotify events =>
    cases events with
    | none => exact .inr (.inr (.inr (.inr rfl)))
    | some ievents => exact .inl ⟨ievents,rfl,rfl⟩
  | ready token fetch =>
    cases hw : l.wrapper token with
    | none => exact .inr (.inr (.inr (.inr (by simp only [step,hw]))))
    | some w =>
      cases fetch with
      | batch events => exact .inr (.inl ⟨token,events,w,rfl,hw,by simp only [step,hw]⟩)
      | gone => exact .inr (.inr (.inl ⟨token,w,rfl,hw,by simp only [step,hw]⟩))
      | wouldBlock => exact .inr (.inr (.inr (.inr (by simp only [step,hw]))))
      | failed => exact .inr (.inr (.inr (.inr (by simp only [step,hw]))))
  | resetDone => exact .inr (.inr (.inr (.inl ⟨rfl,rfl⟩)))

/-- Between two states of the loop and with these outputs, a token comes into the table only by
its registration. -/
def Admits (l : EventLoop F) (obs : List (LoopObs F)) (l' : EventLoop F) : Prop :=
  ∀ t, (l'.wrapper t).isSome → (l.wrapper t).isSome ∨ ∃ fd, LoopObs.registered t fd ∈ obs

omit [F32 F] in
theorem Admits.trans {l m n : EventLoop F} {obs rest : List (LoopObs F)} (h : Admits l obs m)
    (h' : Admits m rest n) : Admits l (obs ++ rest) n := by
  intro t ht
  rcases h' t ht with ht | ⟨fd,hfd⟩
  · rcases h t ht with ht | ⟨fd,hfd⟩
    · exact .inl ht
    · exact .inr ⟨fd,List.mem_append_left _ hfd⟩
  · exact .inr ⟨fd,List.mem_append_right _ hfd⟩

omit [F32 F] in
theorem register_admits (l : EventLoop F) (registers : Bool) (w : DeviceWrapper F) :
    Admits l (l.register registers w).2 (l.register registers w).1 := by
  intro t ht
  cases registers with
  | false => exact .inl ht
  | true =>
    rw [register_wrapper] at ht
    split_ifs at ht with hnext
    · subst hnext
      exact .inr ⟨_,List.mem_cons_self⟩
    · exact .inl ht

omit [F32 F] in
theorem run_admits {ι : Type} {turn : EventLoop F → ι → EventLoop F × List (LoopObs F)}
    (hturn : ∀ l i, Admits l (turn l i).2 (turn l i).1) (l : EventLoop F) (is : List ι) :
    Admits l (run turn l is).2 (run turn l is).1 :=
  run_history turn (fun _ obs l' => Admits l obs l') (fun _ _ _ i h => h.trans (hturn _ i))
    (fun _ ht => .inl ht) is

theorem hotplug_admits (l : EventLoop F) (iev : HotplugEvent) :
    Admits l (l.hotplug iev).2 (l.hotplug iev).1 := by
  rcases l.hotplug_cases iev with h | ⟨_,w,_,_,_,h⟩ <;> rw [h]
  · exact fun _ ht => .inl ht
  · exact register_admits l iev.registers w

theorem step_admits (cfg : InputConfig F) (l : EventLoop F) (i : LoopInput) :
    Admits l (l.step cfg i).2 (l.step cfg i).1 := by
  intro t
  rcases l.step_cases cfg i with ⟨ievents,_,h⟩ | ⟨token,events,w,_,hw,h⟩ | ⟨token,w,_,_,h⟩ |
    ⟨_,h⟩ | h <;> rw [h] <;> intro ht
  · exact run_admits hotplug_admits l ievents t ht
  · rw [wrapper_processBatch] at ht
    split_ifs at ht with htoken
    · subst htoken
      exact .inl (by rw [hw]; rfl)
    · exact .inl ht
  · rw [wrapper_erase] at ht
    split_ifs at ht with htoken
    · cases ht
    · exact .inl ht
  · exact .inl ht
  · exact .inl ht

/-- A device that is gone leaves the table. -/
theorem wrapper_of_gone (cfg : InputConfig F) (l : EventLoop F) (token : ℕ) :
    (l.step cfg (.ready token .gone)).1.wrapper token = none := by
  cases hw : l.wrapper token with
  | none => simp only [step,hw]
  | some w => simp only [step,hw,wrapper_erase,if_true]

/-- A run of the loop from its start. -/
def runLoop (cfg : InputConfig F) (v : VirtualDevice) (devices : List (DeviceWrapper F))
    (inputs : List LoopInput) : EventLoop F × List (LoopObs F) :=
  run (step cfg) (start v devices).1 inputs

end EventLoop
end LibinputRs
