import LibinputRs.Automata.Holdings
import LibinputRs.Daemon.Nodes

/-! `main` of the daemon, from the scan to its return. Every wrapper that it makes is held, under a
token of the loop, until it is released, on each of the ways in which `main` can return. -/
namespace LibinputRs
open Automata

variable {F : Type}

/-- What the daemon does to devices: it makes the wrapper of one that it opened (nodes that it opens
and refuses are not observed), and it creates and destroys its own. -/
inductive DaemonObs (F : Type)
  | opened (w : DeviceWrapper F)
  | created
  | loop (o : LoopObs F)
  | destroyed
  deriving DecidableEq, Repr

/-- What the calls of a start give: the nodes that `evdev::enumerate` finds, the uinput device,
`Poll::new`, the registrations by token, and the three calls that watch `/dev/input`. -/
structure Boot where
  nodes : List (PathBuf × NodeOpen)
  vDevice : Option VirtualDevice
  poll : Bool
  registers : ℕ → Bool
  inotify : Bool
  addWatch : Bool
  registersInotify : Bool

/-- A device without its driver state. -/
abbrev DeviceId := Device × PathBuf × Bool × Bool

/-- A wrapper that is made takes its device, a dropped one gives it back. -/
def DaemonObs.flow : DaemonObs F → Option (Flow DeviceId)
  | .opened w => some (.take w.identity)
  | .loop (.released w) => some (.give w.identity)
  | _ => none

def deviceFlows (obs : List (DaemonObs F)) : List (Flow DeviceId) := obs.filterMap DaemonObs.flow

theorem deviceFlows_append (obs rest : List (DaemonObs F)) :
    deviceFlows (obs ++ rest) = deviceFlows obs ++ deviceFlows rest := List.filterMap_append

namespace EventLoop

/-- The wrapper that a record opens. -/
def opening [F32 F] (l : EventLoop F) (iev : HotplugEvent) : Option (DeviceWrapper F) :=
  iev.name.bind fun name =>
    if l.devicesMap.entries.any fun e => e.2.path = devInput name then none
    else tryOpenDevice (devInput name) iev.node

/-- A record, with the device that it opens. -/
def hotplugObserved [F32 F] (l : EventLoop F) (iev : HotplugEvent) :
    EventLoop F × List (DaemonObs F) :=
  match l.hotplug iev with
  | (l',obs) => (l',(l.opening iev).toList.map .opened ++ obs.map .loop)

/-- A readiness event, with the devices that it opens. -/
def stepObserved [F32 F] (cfg : InputConfig F) (l : EventLoop F) (i : LoopInput) :
    EventLoop F × List (DaemonObs F) :=
  match i with
  | .inotify (some ievents) => Automata.run hotplugObserved l ievents
  | i =>
    match l.step cfg i with
    | (l,obs) => (l,obs.map .loop)

/-- The wrappers that go out of scope with the table. -/
def closing (l : EventLoop F) : List (DaemonObs F) :=
  l.devicesMap.entries.map fun e => .loop (.released e.2)

/-- The registration of the initial devices. A refusal ends `run`: the device and those after it
go out of scope, and then the table. -/
def registerAll (registers : ℕ → Bool) :
    EventLoop F → List (DeviceWrapper F) → Option (EventLoop F) × List (DaemonObs F)
  | l, [] => (some l,[])
  | l, w :: ws =>
    if registers l.nextToken then
      match l.register true w with
      | (l,obs) =>
        match registerAll registers l ws with
        | (r,rest) => (r,obs.map .loop ++ rest)
    else (none,(w :: ws).map (fun w => .loop (.released w)) ++ l.closing)

/-- The loop over what `poll` returns; its error ends `run`. -/
def polling [F32 F] (cfg : InputConfig F) :
    EventLoop F → List (Option (List LoopInput)) → Option (EventLoop F) × List (DaemonObs F)
  | l, [] => (some l,[])
  | l, none :: _ => (none,l.closing)
  | l, some inputs :: polls =>
    match Automata.run (stepObserved cfg) l inputs with
    | (l,obs) =>
      match polling cfg l polls with
      | (r,rest) => (r,obs ++ rest)

/-- `event_loop::run`: the loop after the polls, unless `run` has returned by then. -/
protected def run [F32 F] (boot : Boot) (cfg : InputConfig F) (v : VirtualDevice)
    (devices : List (DeviceWrapper F)) (polls : List (Option (List LoopInput))) :
    Option (EventLoop F) × List (DaemonObs F) :=
  if !boot.poll then (none,devices.map fun w => .loop (.released w))
  else
    match registerAll boot.registers (blank v) devices with
    | (none,obs) => (none,obs)
    | (some l,obs) =>
      if boot.inotify && boot.addWatch && boot.registersInotify then
        match polling cfg l polls with
        | (r,rest) => (r,obs ++ rest)
      else (none,obs ++ l.closing)

end EventLoop

/-- `main`, with what `load_config` gives. -/
def main [F32 F] (config : Option (InputConfig F)) (boot : Boot)
    (polls : List (Option (List LoopInput))) : Option (EventLoop F) × List (DaemonObs F) :=
  let cfg := config.getD .default
  let devices := scanInputDevices boot.nodes
  let scanned := devices.map .opened
  match boot.vDevice with
  | none => (none,scanned ++ devices.map fun w => .loop (.released w))
  | some v =>
    match EventLoop.run boot cfg v devices polls with
    | (none,obs) => (none,scanned ++ .created :: obs ++ [.destroyed])
    | (some l,obs) => (some l,scanned ++ .created :: obs)

def DaemonObs.ofLoop : DaemonObs F → Option (LoopObs F)
  | .loop o => some o
  | _ => none

/-- Not about the daemon's own device. -/
def DaemonObs.OfDevices : DaemonObs F → Prop
  | .created => False
  | .destroyed => False
  | _ => True

namespace EventLoop

/-- The devices under the tokens of the loop. -/
def held (l : EventLoop F) : Multiset DeviceId := tableNames DeviceWrapper.identity l.devicesMap

/-- What is done to devices leads from one set of devices held to another. -/
structure Settles (h : Multiset DeviceId) (obs : List (DaemonObs F)) (h' : Multiset DeviceId) :
    Prop where
  flows : Flow.settle h (deviceFlows obs) = some h'
  devices : ∀ o ∈ obs, o.OfDevices

namespace Settles
variable {h h' h'' : Multiset DeviceId} {obs rest : List (DaemonObs F)}

theorem refl (h : Multiset DeviceId) : Settles h ([] : List (DaemonObs F)) h :=
  ⟨rfl,List.forall_mem_nil _⟩

theorem trans (h₁ : Settles h obs h') (h₂ : Settles h' rest h'') : Settles h (obs ++ rest) h'' := by
  refine ⟨?_,List.forall_mem_append.mpr ⟨h₁.devices,h₂.devices⟩⟩
  rw [deviceFlows_append]
  exact Flow.settle_trans h₁.flows h₂.flows

/-- What else is held stays held. -/
theorem frame (g : Multiset DeviceId) (h₁ : Settles h obs h') : Settles (g + h) obs (g + h') :=
  ⟨Flow.settle_frame g h₁.flows,h₁.devices⟩

/-- Devices are opened. -/
theorem opened (h : Multiset DeviceId) (ws : List (DeviceWrapper F)) :
    Settles h (ws.map .opened) (↑(ws.map DeviceWrapper.identity) + h) := by
  refine ⟨?_,fun o ho => ?_⟩
  · have hflows : deviceFlows (ws.map .opened) = (ws.map DeviceWrapper.identity).map .take := by
      rw [deviceFlows,List.filterMap_map,List.map_map]
      exact congrFun List.filterMap_eq_map ws
    rw [hflows]
    exact Flow.settle_takes _
  · obtain ⟨w,_,rfl⟩ := List.mem_map.mp ho
    trivial

/-- Wrappers go out of scope. -/
theorem released (h : Multiset DeviceId) (ws : List (DeviceWrapper F)) :
    Settles (↑(ws.map DeviceWrapper.identity) + h) (ws.map fun w => .loop (.released w)) h := by
  refine ⟨?_,fun o ho => ?_⟩
  · have hflows : deviceFlows (ws.map fun w => .loop (.released w)) =
        (ws.map DeviceWrapper.identity).map .give := by
      rw [deviceFlows,List.filterMap_map,List.map_map]
      exact congrFun List.filterMap_eq_map ws
    rw [hflows]
    exact Flow.settle_gives _
  · obtain ⟨w,_,rfl⟩ := List.mem_map.mp ho
    trivial

/-- The loop outputs what takes and gives back nothing. -/
theorem of_idle {out : List (LoopObs F)} (h : Multiset DeviceId)
    (hout : ∀ o ∈ out, ∀ w, o ≠ .released w) : Settles h (out.map .loop) h := by
  refine ⟨?_,fun o ho => ?_⟩
  · have hnone : deviceFlows (out.map .loop) = [] := by
      rw [deviceFlows,List.filterMap_map,List.filterMap_eq_nil_iff]
      intro o ho
      cases o with
      | released w => exact absurd rfl (hout _ ho w)
      | _ => rfl
    rw [hnone]
    rfl
  · obtain ⟨o,_,rfl⟩ := List.mem_map.mp ho
    trivial

end Settles

/-- The new wrapper of a device in the table takes the place of the old one. -/
theorem held_insert_of_identity {l : EventLoop F} {token : ℕ} {w w' : DeviceWrapper F}
    (hw : l.wrapper token = some w) (hid : w'.identity = w.identity) :
    (l.insert token w').held = l.held :=
  (tableNames_insert _ l.devicesMap token w').trans
    (hid ▸ (tableNames_of_lookup DeviceWrapper.identity hw).symm)

theorem held_insert_of_none {l : EventLoop F} {token : ℕ} (w : DeviceWrapper F)
    (hw : l.wrapper token = none) : (l.insert token w).held = w.identity ::ₘ l.held :=
  (tableNames_insert _ l.devicesMap token w).trans
    (congrArg _ (tableNames_erase_of_none DeviceWrapper.identity hw))

/-- A device that is open gets into the table, or it is given back. -/
theorem register_settles {l : EventLoop F} (h : l.Below) (registers : Bool) (w : DeviceWrapper F) :
    Settles (w.identity ::ₘ l.held) ((l.register registers w).2.map .loop)
        (l.register registers w).1.held ∧ (l.register registers w).1.Below := by
  cases registers with
  | false =>
    exact ⟨⟨Flow.settle_give,List.forall_mem_singleton.mpr trivial⟩,fun t ht =>
      h t (Nat.le_of_succ_le ht)⟩
  | true =>
    have hheld := held_insert_of_none (l := { l with nextToken := l.nextToken + 1 }) w
      (h l.nextToken le_rfl)
    refine ⟨⟨congrArg some hheld.symm,List.forall_mem_singleton.mpr trivial⟩,fun t ht => ?_⟩
    have hlt : l.nextToken < t := ht
    rw [register_wrapper,if_neg hlt.ne']
    exact h t hlt.le

theorem closing_settles (l : EventLoop F) : Settles l.held l.closing 0 := by
  have hgives := Settles.released 0 (l.devicesMap.entries.map fun e => e.2)
  rw [add_zero,List.map_map,List.map_map] at hgives
  exact hgives

variable [F32 F]

theorem hotplug_eq (l : EventLoop F) (iev : HotplugEvent) :
    l.hotplug iev = (l.opening iev).elim (l,[]) (l.register iev.registers) := by
  unfold hotplug opening
  cases iev.name with
  | none => rfl
  | some name =>
    dsimp only [Option.bind_some]
    split_ifs
    · rfl
    · cases tryOpenDevice (F := F) (devInput name) iev.node <;> rfl

theorem hotplugObserved_settles {l : EventLoop F} (h : l.Below) (iev : HotplugEvent) :
    Settles l.held (l.hotplugObserved iev).2 (l.hotplugObserved iev).1.held ∧
      (l.hotplugObserved iev).1.Below := by
  unfold hotplugObserved
  rw [hotplug_eq]
  cases l.opening iev with
  | none => exact ⟨.refl _,h⟩
  | some w =>
    obtain ⟨hsettles,hbelow⟩ := register_settles h iev.registers w
    exact ⟨(Settles.opened l.held [w]).trans hsettles,hbelow⟩

theorem processBatch_settles (cfg : InputConfig F) {l : EventLoop F} {token : ℕ}
    {w : DeviceWrapper F} (hw : l.wrapper token = some w) (events : List TimedEvent) :
    Settles l.held ((l.processBatch cfg token w events).2.map .loop)
      (l.processBatch cfg token w events).1.held := by
  obtain ⟨hid,_,_⟩ := batch_handled cfg token ⟨w,l.vDevice,l.lastGlobalTypingTime,false⟩ events
  have hheld : (l.processBatch cfg token w events).1.held = l.held :=
    held_insert_of_identity hw hid
  rw [hheld]
  refine .of_idle _ (List.forall_mem_append.mpr ⟨?_,fun o ho => ?_⟩)
  · refine run_outputs (Batch.handle cfg token) (fun _ => True)
      (fun o => ∀ w, o ≠ LoopObs.released w) (fun _ _ _ => trivial) ?_ trivial events
    rintro b te - o ho w rfl
    cases List.mem_singleton.mp ho
  · split_ifs at ho
    · rintro w rfl
      cases List.mem_singleton.mp ho
    · cases ho

omit [F32 F] in
/-- What each turn settles, every run settles. -/
theorem run_settles {ι : Type} {turn : EventLoop F → ι → EventLoop F × List (DaemonObs F)}
    (hturn : ∀ l i, l.Below → Settles l.held (turn l i).2 (turn l i).1.held ∧ (turn l i).1.Below)
    {l : EventLoop F} (h : l.Below) (is : List ι) :
    Settles l.held (Automata.run turn l is).2 (Automata.run turn l is).1.held ∧
      (Automata.run turn l is).1.Below := by
  induction is generalizing l with
  | nil => exact ⟨.refl _,h⟩
  | cons i is ih =>
    obtain ⟨hfirst,hbelow⟩ := hturn l i h
    obtain ⟨hrest,hlast⟩ := ih hbelow
    exact ⟨hfirst.trans hrest,hlast⟩

/-- One readiness event, whatever it is. -/
theorem stepObserved_settles (cfg : InputConfig F) (l : EventLoop F) (i : LoopInput)
    (h : l.Below) : Settles l.held (l.stepObserved cfg i).2 (l.stepObserved cfg i).1.held ∧
      (l.stepObserved cfg i).1.Below := by
  have hbelow := step_below cfg h i
  cases i with
  | inotify ievents =>
    cases ievents with
    | none => exact ⟨.refl _,h⟩
    | some ievents => exact run_settles (fun l iev h => hotplugObserved_settles h iev) h ievents
  | ready token fetch =>
    unfold stepObserved
    dsimp only
    refine ⟨?_,hbelow⟩
    rcases l.step_cases cfg (.ready token fetch) with ⟨_,heq,_⟩ | ⟨token,events,w,_,hw,hstep⟩ |
      ⟨token,w,_,hw,hstep⟩ | ⟨heq,_⟩ | hstep
    · cases heq
    · rw [hstep]
      exact processBatch_settles cfg hw events
    · rw [hstep]
      have hheld : l.held = w.identity ::ₘ (l.erase token).held := tableNames_of_lookup _ hw
      rw [hheld]
      exact Settles.released (l.erase token).held [w]
    · cases heq
    · rw [hstep]
      exact .refl _
  | resetDone => exact ⟨.refl _,h⟩

/-- The observed step is the step of the loop. -/
theorem stepObserved_step (cfg : InputConfig F) (l : EventLoop F) (i : LoopInput) :
    (l.stepObserved cfg i).1 = (l.step cfg i).1 ∧
      (l.stepObserved cfg i).2.filterMap DaemonObs.ofLoop = (l.step cfg i).2 := by
  have hloop : ∀ obs : List (LoopObs F),
      (obs.map DaemonObs.loop).filterMap DaemonObs.ofLoop = obs := by
    intro obs
    rw [List.filterMap_map]
    exact List.filterMap_some
  have hplug : ∀ (l : EventLoop F) ievents,
      (Automata.run hotplugObserved l ievents).1 = (Automata.run hotplug l ievents).1 ∧
        (Automata.run hotplugObserved l ievents).2.filterMap DaemonObs.ofLoop =
          (Automata.run hotplug l ievents).2 := by
    intro l ievents
    induction ievents generalizing l with
    | nil => exact ⟨rfl,rfl⟩
    | cons iev ievents ih =>
      obtain ⟨hstate,hout⟩ := ih (l.hotplug iev).1
      refine ⟨hstate,?_⟩
      rw [run_cons,run_cons,List.filterMap_append]
      refine congrArg₂ _ ?_ hout
      change (List.map DaemonObs.opened _ ++ List.map DaemonObs.loop _).filterMap _ = _
      rw [List.filterMap_append,hloop]
      cases l.opening iev <;> rfl
  cases i with
  | inotify ievents =>
    cases ievents with
    | none => exact ⟨rfl,rfl⟩
    | some ievents => exact hplug l ievents
  | ready token fetch => exact ⟨rfl,hloop _⟩
  | resetDone => exact ⟨rfl,rfl⟩

omit [F32 F] in
/-- After the registration of the initial devices all of them are in the table, or none is held. -/
theorem registerAll_settles (registers : ℕ → Bool) {l : EventLoop F} (h : l.Below)
    (ws : List (DeviceWrapper F)) :
    Settles (↑(ws.map DeviceWrapper.identity) + l.held) (registerAll registers l ws).2
        ((registerAll registers l ws).1.elim 0 held) ∧
      ∀ l' ∈ (registerAll registers l ws).1, l'.Below := by
  induction ws generalizing l with
  | nil =>
    refine ⟨?_,fun l' hl' => Option.some.inj hl' ▸ h⟩
    have hzero : (↑(([] : List (DeviceWrapper F)).map DeviceWrapper.identity) + l.held) = l.held :=
      zero_add _
    rw [hzero]
    exact .refl _
  | cons w ws ih =>
    rw [registerAll]
    split_ifs with hregisters
    · obtain ⟨hfirst,hbelow⟩ := register_settles h true w
      obtain ⟨hrest,hlast⟩ := ih hbelow
      refine ⟨Settles.trans ?_ hrest,hlast⟩
      rw [List.map_cons,← Multiset.cons_coe,Multiset.cons_add,← Multiset.add_cons]
      exact hfirst.frame _
    · exact ⟨(Settles.released l.held (w :: ws)).trans l.closing_settles,fun _ hl' => by cases hl'⟩

theorem polling_settles (cfg : InputConfig F) {l : EventLoop F} (h : l.Below)
    (polls : List (Option (List LoopInput))) :
    Settles l.held (polling cfg l polls).2 ((polling cfg l polls).1.elim 0 held) := by
  induction polls generalizing l with
  | nil => exact .refl _
  | cons poll polls ih =>
    cases poll with
    | none => exact l.closing_settles
    | some inputs =>
      obtain ⟨hfirst,hbelow⟩ := run_settles (stepObserved_settles cfg) h inputs
      exact hfirst.trans (ih hbelow)

/-- However `run` ends, its devices are in the table, or released. -/
theorem run_settles_all (boot : Boot) (cfg : InputConfig F) (v : VirtualDevice)
    (devices : List (DeviceWrapper F)) (polls : List (Option (List LoopInput))) :
    Settles (↑(devices.map DeviceWrapper.identity)) (EventLoop.run boot cfg v devices polls).2
      ((EventLoop.run boot cfg v devices polls).1.elim 0 held) := by
  have hblank : (blank v : EventLoop F).Below := fun _ _ => rfl
  have hreleased := Settles.released 0 devices
  obtain ⟨hregister,hbelow⟩ := registerAll_settles boot.registers hblank devices
  have hheld : (blank v : EventLoop F).held = 0 := rfl
  rw [hheld] at hregister
  rw [add_zero] at hreleased hregister
  unfold EventLoop.run
  cases boot.poll with
  | false => exact hreleased
  | true =>
    rw [if_neg (by decide)]
    rcases hall : registerAll boot.registers (blank v) devices with ⟨_ | l,obs⟩
    · rw [hall] at hregister
      exact hregister
    · rw [hall] at hregister hbelow
      dsimp only
      cases boot.inotify && boot.addWatch && boot.registersInotify with
      | true => exact hregister.trans (polling_settles cfg (hbelow l rfl) polls)
      | false => exact hregister.trans l.closing_settles

end EventLoop

/-- What a start of the daemon did: the account of its devices is that of the loop, or empty once
`main` has returned, and its own device goes last. -/
structure DevicesSettled (r : Option (EventLoop F) × List (DaemonObs F)) : Prop where
  settled : Flow.settle 0 (deviceFlows r.2) = some (r.1.elim 0 EventLoop.held)
  ownDevice : (∀ o ∈ r.2, o.OfDevices) ∨ ∃ front back, r.2 = front ++ .created :: back ++
    (if r.1.isNone then [.destroyed] else []) ∧ ∀ o ∈ front ++ back, o.OfDevices

/-- Whatever the calls of the start give and whatever the loop is fed, every device that was opened
is held or was released once, none is held after `main` returns, and all are released before the
virtual device goes. -/
theorem main_settles_devices [F32 F] (config : Option (InputConfig F)) (boot : Boot)
    (polls : List (Option (List LoopInput))) : DevicesSettled (main config boot polls) := by
  have hopened := EventLoop.Settles.opened 0 (scanInputDevices (F := F) boot.nodes)
  rw [add_zero] at hopened
  unfold main
  dsimp only
  cases boot.vDevice with
  | none =>
    have hreleased := EventLoop.Settles.released 0 (scanInputDevices (F := F) boot.nodes)
    rw [add_zero] at hreleased
    have hall := hopened.trans hreleased
    exact ⟨hall.flows,.inl hall.devices⟩
  | some v =>
    have hrun := EventLoop.run_settles_all boot (config.getD .default) v
      (scanInputDevices boot.nodes) polls
    have hall := hopened.trans hrun
    have hflows := hall.flows
    rw [deviceFlows_append] at hflows
    dsimp only
    rcases hresult : EventLoop.run boot (config.getD .default) v (scanInputDevices boot.nodes)
      polls with ⟨_ | l,obs⟩ <;> rw [hresult] at hall hflows
    · refine ⟨?_,.inr ⟨_,obs,rfl,hall.devices⟩⟩
      dsimp only
      rw [deviceFlows_append,deviceFlows_append]
      exact (congrArg _ (List.append_nil _)).trans hflows
    · refine ⟨?_,.inr ⟨_,obs,(List.append_nil _).symm,hall.devices⟩⟩
      dsimp only
      rw [deviceFlows_append]
      exact hflows

end LibinputRs
