import LibinputRs.Daemon.Table

/-! The nodes in `/dev/input` next to the daemon: `main` scans them before `run` watches the
directory, and the loop takes one record of the watch after another. A node is found by the scan,
or some record that names it is still to be handled, unless its creation fell between the two or
its record met a dead wrapper. -/
namespace LibinputRs
open Automata

variable {F : Type}

/-- An evdev node: what probing reads, if it may be opened, and whether the kernel grants a grab. -/
structure InputNode where
  probe : Option EvdevDevice
  grabs : Bool
  deriving DecidableEq, Repr

namespace InputNode

/-- Opening the node, when this is the next descriptor. -/
def opened (n : InputNode) (rawFd : RawFd) : NodeOpen := ⟨n.probe,rawFd,n.grabs⟩

/-- The node can be opened, it passes the name and keyboard filters, and if it is pointer hardware
it can be grabbed. -/
def Passes (n : InputNode) : Prop :=
  ∃ probe ∈ n.probe, isOwnVirtualDevice probe.nameOrUnknown = false ∧
    if isPointerName probe.nameOrUnknown then n.grabs = true else probe.isDaemonKeyboard = true

instance (n : InputNode) : Decidable n.Passes :=
  inferInstanceAs (Decidable (∃ probe ∈ n.probe, _ ∧ _))

end InputNode

/-- How far the daemon is: it has not looked yet, it opens the names that the directory listed, or
it is in the loop. -/
inductive Phase (F : Type)
  | starting
  | scanning (todo : List FileName) (tracked : List (DeviceWrapper F))
  | running (loop : EventLoop F)

/-- The evdev nodes by name (the kernel calls them `event0`, `event1` and so on, and the scan looks
at no others), the names of the records in the inotify queue, the daemon, and which of its wrappers,
by index or token, have lost their node. -/
structure Host (F : Type) where
  nodes : AList (fun _ : FileName => InputNode)
  records : List FileName
  phase : Phase F
  dead : ℕ → Bool

/-- What happens next. A node is created, its permissions change, or it is removed; `room` says
whether the inotify queue has room for the record. The daemon lists the directory, opens the next
name of the list, enters the loop with its watch, handles the first record, or handles a readiness
event of a token. -/
inductive HostInput
  | create (name : FileName) (node : InputNode) (room : Bool)
  | change (name : FileName) (node : InputNode) (room : Bool)
  | remove (name : FileName)
  | list (names : List FileName)
  | scan (rawFd : RawFd)
  | watch
  | record (rawFd : RawFd) (registers : Bool)
  | ready (token : ℕ) (fetch : Fetch)
  | resetDone

namespace Host

/-- The host as `main` finds it. -/
def init (nodes : AList (fun _ : FileName => InputNode)) : Host F :=
  ⟨nodes,[],.starting,fun _ => false⟩

/-- The wrapper at an index of the scan, which becomes its token in the loop. -/
def wrapperAt (h : Host F) (i : ℕ) : Option (DeviceWrapper F) :=
  match h.phase with
  | .starting => none
  | .scanning _ tracked => tracked[i]?
  | .running loop => loop.wrapper i

/-- A record is queued once the directory is watched, if there is room. -/
def notify (h : Host F) (name : FileName) (room : Bool) : List FileName :=
  match h.phase with
  | .running _ => if room then h.records ++ [name] else h.records
  | _ => h.records

/-- What opening a path gives at the moment. -/
def openNode (h : Host F) (name : FileName) (rawFd : RawFd) : NodeOpen :=
  match h.nodes.lookup name with
  | none => ⟨none,rawFd,false⟩
  | some n => n.opened rawFd

variable [F32 F]

def step (cfg : InputConfig F) (v : VirtualDevice) (h : Host F) :
    HostInput → Host F × List (LoopObs F)
  | .create name node room =>
    match h.nodes.lookup name with
    | some _ => (h,[])
    | none => ({ h with nodes := h.nodes.insert name node, records := h.notify name room },[])
  | .change name node room =>
    match h.nodes.lookup name with
    | none => (h,[])
    | some _ => ({ h with nodes := h.nodes.insert name node, records := h.notify name room },[])
  | .remove name =>
    match h.nodes.lookup name with
    | none => (h,[])
    | some _ =>
      -- every descriptor on the node is dead from now on
      ({ h with
          nodes := h.nodes.erase name
          dead := fun i => h.dead i || (h.wrapperAt i).any fun w => w.path = devInput name },[])
  | .list names =>
    match h.phase with
    | .starting =>
      if names.Perm h.nodes.keys then ({ h with phase := .scanning names [] },[]) else (h,[])
    | _ => (h,[])
  | .scan rawFd =>
    match h.phase with
    | .scanning (name :: todo) tracked =>
      let found := (tryOpenDevice (devInput name) (h.openNode name rawFd)).toList
      ({ h with phase := .scanning todo (tracked ++ found) },[])
    | _ => (h,[])
  | .watch =>
    match h.phase with
    | .scanning [] tracked =>
      match EventLoop.start v tracked with
      | (l,obs) => ({ h with phase := .running l },obs)
    | _ => (h,[])
  | .record rawFd registers =>
    match h.phase, h.records with
    | .running l, name :: rest =>
      match l.hotplug ⟨some name,h.openNode name rawFd,registers⟩ with
      | (l,obs) => ({ h with phase := .running l, records := rest },obs)
    | _, _ => (h,[])
  | .ready token fetch =>
    match h.phase with
    | .running l =>
      -- a read ends in ENODEV exactly if the node is gone
      if decide (fetch = .gone) = h.dead token then
        match l.step cfg (.ready token fetch) with
        | (l,obs) => ({ h with phase := .running l },obs)
      else (h,[])
    | _ => (h,[])
  | .resetDone =>
    match h.phase with
    | .running l =>
      match l.step cfg .resetDone with
      | (l,obs) => ({ h with phase := .running l },obs)
    | _ => (h,[])

/-- The host after a run from the start of `main`. -/
def after (cfg : InputConfig F) (v : VirtualDevice) (nodes : AList (fun _ : FileName => InputNode))
    (inputs : List HostInput) : Host F :=
  (run (step cfg v) (init nodes) inputs).1

section Properties

omit [F32 F]

/-- The tracked wrappers with their indices. -/
def tracked (h : Host F) : List (DeviceWrapper F × ℕ) :=
  match h.phase with
  | .starting => []
  | .scanning _ tracked => tracked.zipIdx
  | .running loop => loop.devicesMap.entries.map fun e => (e.2,e.1)

theorem mem_tracked {h : Host F} {w : DeviceWrapper F} {i : ℕ} :
    (w,i) ∈ h.tracked ↔ h.wrapperAt i = some w := by
  unfold tracked wrapperAt
  cases h.phase with
  | starting => exact iff_of_false List.not_mem_nil (Option.some_ne_none w).symm
  | scanning todo tracked => exact List.mem_zipIdx_iff_getElem?
  | running loop =>
    dsimp only
    rw [← EventLoop.mem_entries,List.mem_map]
    constructor
    · rintro ⟨⟨t,w'⟩,he,heq⟩
      cases heq
      exact he
    · exact fun he => ⟨_,he,rfl⟩

/-- The node now under the name is tracked. -/
def TracksLive (h : Host F) (name : FileName) : Prop :=
  ∃ e ∈ h.tracked, e.1.path = devInput name ∧ h.dead e.2 = false

def looping (h : Host F) : Bool :=
  match h.phase with
  | .running _ => true
  | _ => false

/-- The daemon is in the loop, and it has handled every record and every device that is gone. -/
def AllHandled (h : Host F) : Prop :=
  h.looping = true ∧ h.records = [] ∧ ∀ e ∈ h.tracked, h.dead e.2 = false

/-- Whether what happens to the node now is noticed: the scan has yet to come to the name, or the
queue of the watch has room. -/
def notices (h : Host F) (name : FileName) (room : Bool) : Bool :=
  match h.phase with
  | .starting => true
  | .scanning todo _ => decide (name ∈ todo)
  | .running _ => room

/-- The condition on a step: a node that passes appears before the scan has passed its name or with
a record, and the last record of an untracked node finds neither a dead wrapper under its path nor
an epoll that refuses. -/
def Heeded (h : Host F) : HostInput → Prop
  | .create name node room => node.Passes → h.notices name room = true
  | .change name node room => node.Passes → h.TracksLive name ∨ h.notices name room = true
  | .record _ registers => ∀ name ∈ h.records.head?, ∀ n ∈ h.nodes.lookup name, n.Passes →
      name ∈ h.records.tail ∨ h.TracksLive name ∨
        (∀ e ∈ h.tracked, e.1.path ≠ devInput name) ∧ registers = true
  | _ => True

instance (h : Host F) (name : FileName) : Decidable (h.TracksLive name) :=
  inferInstanceAs (Decidable (∃ e ∈ h.tracked, _))

instance (h : Host F) : Decidable h.AllHandled := inferInstanceAs (Decidable (_ ∧ _))

instance (h : Host F) : DecidablePred h.Heeded
  | .create _ _ _ => inferInstanceAs (Decidable (_ → _))
  | .change _ _ _ => inferInstanceAs (Decidable (_ → _))
  | .record _ registers => inferInstanceAs (Decidable (∀ name ∈ h.records.head?,
      ∀ n ∈ h.nodes.lookup name, n.Passes → name ∈ h.records.tail ∨ h.TracksLive name ∨
        (∀ e ∈ h.tracked, e.1.path ≠ devInput name) ∧ registers = true))
  | .remove _ => .isTrue trivial
  | .list _ => .isTrue trivial
  | .scan _ => .isTrue trivial
  | .watch => .isTrue trivial
  | .ready _ _ => .isTrue trivial
  | .resetDone => .isTrue trivial

end Properties

end Host

section Opening
variable [F32 F]

/-- Opening a node gives a wrapper exactly if the node passes. -/
theorem tryOpenDevice_isSome (path : PathBuf) (n : InputNode) (rawFd : RawFd) :
    (tryOpenDevice (F := F) path (n.opened rawFd)).isSome ↔ n.Passes := by
  unfold tryOpenDevice InputNode.Passes
  cases hprobe : n.probe with
  | none => simp [InputNode.opened,hprobe]
  | some probe =>
    simp only [InputNode.opened,hprobe,Option.bind_some,Option.mem_some_iff,exists_eq_left']
    split_ifs <;> simp_all

namespace EventLoop

omit [F32 F] in
/-- The wrappers of the scan get their indices as tokens. -/
theorem start_wrapper (v : VirtualDevice) (devices : List (DeviceWrapper F)) (t : ℕ) :
    (start v devices).1.wrapper t = devices[t]? := by
  induction devices using List.reverseRecOn with
  | nil => rfl
  | append_singleton devices last ih =>
    have hnext := start_nextToken v devices
    rw [start] at hnext
    rw [start,run_append,run_singleton]
    dsimp only
    rw [register_wrapper,hnext,List.getElem?_append]
    split_ifs with ht hlt hlt
    · omega
    · simp [ht]
    · exact ih
    · apply ih.trans
      rw [List.getElem?_eq_none (by omega),List.getElem?_eq_none (by simp; omega)]

/-- All tokens in the table have been drawn. -/
def Below (l : EventLoop F) : Prop := ∀ t, l.nextToken ≤ t → l.wrapper t = none

omit [F32 F] in
theorem Below.lt {l : EventLoop F} (h : l.Below) {t : ℕ} {w : DeviceWrapper F}
    (hw : l.wrapper t = some w) : t < l.nextToken := by
  by_contra hge
  rw [h t (not_lt.mp hge)] at hw
  cases hw

omit [F32 F] in
theorem Below.of_admits {l l' : EventLoop F} {out : List (LoopObs F)} (h : l.Below)
    (hadmits : Admits l out l') (hreg : ∀ b ∈ registrations out, b.1 < l'.nextToken)
    (hle : l.nextToken ≤ l'.nextToken) : l'.Below := by
  intro t ht
  by_contra hne
  rcases hadmits t (Option.isSome_iff_ne_none.mpr hne) with hold | ⟨fd,hfd⟩
  · rw [h t (hle.trans ht)] at hold
    cases hold
  · exact absurd (hreg _ (mem_registrations.mpr hfd)) (not_lt.mpr ht)

theorem hotplug_below {l : EventLoop F} (h : l.Below) (iev : HotplugEvent) :
    (l.hotplug iev).1.Below := by
  have hgrows := hotplug_grows l iev
  exact h.of_admits (hotplug_admits l iev) (fun b hb => (hgrows.registered b hb).1)
    (hgrows.next ▸ Nat.le_add_right _ _)

theorem step_below (cfg : InputConfig F) {l : EventLoop F} (h : l.Below) (i : LoopInput) :
    (l.step cfg i).1.Below := by
  obtain ⟨hnext,_,hreg⟩ := step_tokens cfg l i
  exact h.of_admits (step_admits cfg l i) (fun b hb => (hreg b hb).1)
    (hnext ▸ Nat.le_add_right _ _)

/-- A record of a node that passes and that no wrapper has puts the node into the table. -/
theorem hotplug_opens {l : EventLoop F} {name : FileName} {n : InputNode} (hpasses : n.Passes)
    (huntracked : l.Untracked (devInput name)) (rawFd : RawFd) :
    ∃ w, (l.hotplug ⟨some name,n.opened rawFd,true⟩).1.wrapper l.nextToken = some w ∧
      w.path = devInput name := by
  obtain ⟨w,hopen⟩ := Option.isSome_iff_exists.mp
    ((tryOpenDevice_isSome (F := F) (devInput name) n rawFd).mpr hpasses)
  have hnone : ¬ (l.devicesMap.entries.any fun e => e.2.path = devInput name) = true := by
    intro hany
    obtain ⟨e,he,hpath⟩ := List.any_eq_true.mp hany
    exact huntracked e.1 e.2 (mem_entries.mp he) (of_decide_eq_true hpath)
  refine ⟨w,?_,tryOpenDevice_path hopen⟩
  unfold hotplug
  dsimp only
  rw [if_neg hnone,hopen]
  exact (l.register_wrapper w _).trans (if_pos rfl)

end EventLoop
end Opening

namespace Host

section Invariant

/-- The number of indices given to wrappers so far. -/
def drawn (h : Host F) : ℕ :=
  match h.phase with
  | .starting => 0
  | .scanning _ tracked => tracked.length
  | .running loop => loop.nextToken

/-- The name is still to come: in the listing, in the list of the scan or in the queue. -/
def Awaits (h : Host F) (name : FileName) : Prop :=
  match h.phase with
  | .starting => True
  | .scanning todo _ => name ∈ todo
  | .running _ => name ∈ h.records

/-- The invariant: no index beyond those given is in use, and every node that passes is tracked, or
its name is still to come. -/
structure Finds (h : Host F) : Prop where
  below : ∀ i, h.drawn ≤ i → h.wrapperAt i = none ∧ h.dead i = false
  found : ∀ name n, h.nodes.lookup name = some n → n.Passes → h.Awaits name ∨ h.TracksLive name

theorem tracksLive_iff {h : Host F} {name : FileName} : h.TracksLive name ↔
    ∃ i w, h.wrapperAt i = some w ∧ w.path = devInput name ∧ h.dead i = false := by
  constructor
  · rintro ⟨⟨w,i⟩,he,hpath,hlive⟩
    exact ⟨i,w,mem_tracked.mp he,hpath,hlive⟩
  · rintro ⟨i,w,hw,hpath,hlive⟩
    exact ⟨(w,i),mem_tracked.mpr hw,hpath,hlive⟩

/-- While the daemon scans, the wrappers are those found so far. -/
theorem indices_of_scanning {h : Host F} {todo : List FileName} {tracked : List (DeviceWrapper F)}
    (hphase : h.phase = .scanning todo tracked) :
    (∀ i, h.wrapperAt i = tracked[i]?) ∧ h.drawn = tracked.length := by
  unfold wrapperAt drawn
  rw [hphase]
  exact ⟨fun _ => rfl,rfl⟩

/-- In the loop they are those of its table. -/
theorem Finds.indices_of_running {h : Host F} (hf : h.Finds) {l : EventLoop F}
    (hphase : h.phase = .running l) :
    (∀ i, h.wrapperAt i = l.wrapper i) ∧ h.drawn = l.nextToken ∧ l.Below := by
  have hat : ∀ i, h.wrapperAt i = l.wrapper i := fun i => by rw [wrapperAt,hphase]
  have hdrawn : h.drawn = l.nextToken := by rw [drawn,hphase]
  exact ⟨hat,hdrawn,fun i hi => (hat i).symm.trans (hf.below i (hdrawn.trans_le hi)).1⟩

/-- A node stays tracked where its wrappers stay and stay alive. -/
theorem TracksLive.mono {h h' : Host F} {name : FileName} (hlive : h.TracksLive name)
    (hstays : ∀ i w, h.wrapperAt i = some w → w.path = devInput name → h.dead i = false →
      ∃ w', h'.wrapperAt i = some w' ∧ w'.path = w.path ∧ h'.dead i = false) :
    h'.TracksLive name := by
  obtain ⟨i,w,hw,hpath,hdead⟩ := tracksLive_iff.mp hlive
  obtain ⟨w',hw',hpath',hdead'⟩ := hstays i w hw hpath hdead
  exact tracksLive_iff.mpr ⟨i,w',hw',hpath'.trans hpath,hdead'⟩

theorem init_finds (nodes : AList (fun _ : FileName => InputNode)) : (init (F := F) nodes).Finds :=
  ⟨fun _ _ => ⟨rfl,rfl⟩,fun _ _ _ _ => .inl trivial⟩

theorem Awaits.notify {h : Host F} {name' : FileName} (hawaits : h.Awaits name')
    (nodes : AList (fun _ : FileName => InputNode)) (name : FileName) (room : Bool) :
    Awaits { h with nodes := nodes, records := h.notify name room } name' := by
  unfold Awaits Host.notify at *
  dsimp only
  generalize h.phase = phase at *
  cases phase with
  | starting => trivial
  | scanning todo tracked => exact hawaits
  | running loop =>
    dsimp only at *
    split_ifs
    · exact List.mem_append_left _ hawaits
    · exact hawaits

theorem awaits_of_notices {h : Host F} {name : FileName} {room : Bool}
    (hnotices : h.notices name room = true) (nodes : AList (fun _ : FileName => InputNode)) :
    Awaits { h with nodes := nodes, records := h.notify name room } name := by
  unfold Awaits Host.notify
  unfold notices at hnotices
  dsimp only
  generalize h.phase = phase at *
  cases phase with
  | starting => trivial
  | scanning todo tracked => exact of_decide_eq_true hnotices
  | running loop =>
    dsimp only at *
    rw [if_pos hnotices]
    exact List.mem_append_right _ (List.mem_singleton_self _)

/-- A node appears, or its permissions change. -/
theorem Finds.insert {h : Host F} (hf : h.Finds) {name : FileName} {node : InputNode} {room : Bool}
    (hheeded : node.Passes → h.TracksLive name ∨ h.notices name room = true) :
    Finds { h with nodes := h.nodes.insert name node, records := h.notify name room } := by
  refine ⟨hf.below,fun name' n hn hpasses => ?_⟩
  by_cases hname : name' = name
  · subst hname
    obtain rfl := Option.some.inj ((AList.lookup_insert _).symm.trans hn)
    rcases hheeded hpasses with hlive | hnotices
    · exact .inr hlive
    · exact .inl (awaits_of_notices hnotices _)
  · rcases hf.found name' n ((AList.lookup_insert_ne hname).symm.trans hn) hpasses with h | h
    · exact .inl (h.notify _ _ _)
    · exact .inr h

/-- A node goes away: its wrappers are dead, and those of other nodes are not. -/
theorem Finds.remove {h : Host F} (hf : h.Finds) (name : FileName) :
    Finds { h with
      nodes := h.nodes.erase name
      dead := fun i => h.dead i || (h.wrapperAt i).any fun w => w.path = devInput name } := by
  refine ⟨fun i hi => ?_,fun name' n hn hpasses => ?_⟩
  · obtain ⟨hnone,hlive⟩ := hf.below i hi
    exact ⟨hnone,by simp [hnone,hlive]⟩
  · have hname : name' ≠ name := by
      rintro rfl
      rw [AList.lookup_erase] at hn
      cases hn
    rcases hf.found name' n ((AList.lookup_erase_ne hname).symm.trans hn) hpasses with hawaits | hlive
    · exact .inl hawaits
    · refine .inr (hlive.mono fun i w hw hpath hdead => ⟨w,hw,rfl,?_⟩)
      have hother : ¬ w.path = devInput name :=
        fun heq => hname (devInput_injective (hpath.symm.trans heq))
      simp [hdead,hw,hother]

/-- The directory is listed. -/
theorem Finds.list {h : Host F} (hf : h.Finds) (hphase : h.phase = .starting) {names : List FileName}
    (hnames : names.Perm h.nodes.keys) : Finds (F := F) { h with phase := .scanning names [] } := by
  refine ⟨fun i _ => ⟨rfl,(hf.below i ?_).2⟩,fun name n hn _ => .inl ?_⟩
  · rw [drawn,hphase]
    exact Nat.zero_le i
  · have hmem : name ∈ h.nodes.keys := AList.mem_keys.mp (AList.lookup_isSome.mp (by rw [hn]; rfl))
    exact hnames.mem_iff.mpr hmem

variable [F32 F]

/-- The next name of the listing is opened. -/
theorem Finds.scan {h : Host F} (hf : h.Finds) {name : FileName} {todo : List FileName}
    {tracked found : List (DeviceWrapper F)} {rawFd : RawFd}
    (hphase : h.phase = .scanning (name :: todo) tracked)
    (hfound : found = (tryOpenDevice (devInput name) (h.openNode name rawFd)).toList) :
    Finds { h with phase := .scanning todo (tracked ++ found) } := by
  obtain ⟨hat,hdrawn⟩ := indices_of_scanning hphase
  refine ⟨fun i hi => ?_,fun name' n hn hpasses => ?_⟩
  · have hlong : tracked.length + found.length ≤ i := by simpa [drawn] using hi
    refine ⟨List.getElem?_eq_none (by simpa using hlong),(hf.below i ?_).2⟩
    omega
  · have hstays : h.TracksLive name' →
        TracksLive { h with phase := .scanning todo (tracked ++ found) } name' := by
      refine fun hlive => hlive.mono fun i w hw _ hdead => ⟨w,?_,rfl,hdead⟩
      rw [hat] at hw
      exact (List.getElem?_append_left (List.getElem?_eq_some_iff.mp hw).1).trans hw
    rcases hf.found name' n hn hpasses with hawaits | hlive
    · rw [Awaits,hphase] at hawaits
      rcases List.mem_cons.mp hawaits with rfl | htodo
      · -- the node is there when its name comes up, and passes
        have hopen : h.openNode name' rawFd = n.opened rawFd := by rw [openNode,hn]
        obtain ⟨w,hw⟩ := Option.isSome_iff_exists.mp
          ((tryOpenDevice_isSome (F := F) (devInput name') n rawFd).mpr hpasses)
        rw [hopen,hw] at hfound
        refine .inr (tracksLive_iff.mpr ⟨tracked.length,w,?_,EventLoop.tryOpenDevice_path hw,?_⟩)
        · subst hfound
          exact List.getElem?_concat_length
        · exact (hf.below _ hdrawn.le).2
      · exact .inl htodo
    · exact .inr (hstays hlive)

omit [F32 F] in
/-- The loop is entered with the watch installed. -/
theorem Finds.watch {h : Host F} (hf : h.Finds) (v : VirtualDevice)
    {tracked : List (DeviceWrapper F)} (hphase : h.phase = .scanning [] tracked) :
    Finds { h with phase := .running (EventLoop.start v tracked).1 } := by
  obtain ⟨hat,hdrawn⟩ := indices_of_scanning hphase
  refine ⟨fun i hi => ?_,fun name n hn hpasses => ?_⟩
  · have hlong : tracked.length ≤ i := (EventLoop.start_nextToken v tracked).symm.trans_le hi
    obtain ⟨hnone,hdead⟩ := hf.below i (hdrawn.trans_le hlong)
    exact ⟨(EventLoop.start_wrapper v tracked i).trans ((hat i).symm.trans hnone),hdead⟩
  · rcases hf.found name n hn hpasses with hawaits | hlive
    · rw [Awaits,hphase] at hawaits
      cases hawaits
    · refine .inr (hlive.mono fun i w hw _ hdead => ⟨w,?_,rfl,hdead⟩)
      exact (EventLoop.start_wrapper v tracked i).trans ((hat i).symm.trans hw)

/-- The first record is handled. -/
theorem Finds.record {h : Host F} (hf : h.Finds) {l : EventLoop F} {name : FileName}
    {rest : List FileName} (hphase : h.phase = .running l) (hrecords : h.records = name :: rest)
    {rawFd : RawFd} {registers : Bool} (hheeded : h.Heeded (.record rawFd registers)) :
    Finds { h with
      phase := .running (l.hotplug ⟨some name,h.openNode name rawFd,registers⟩).1
      records := rest } := by
  obtain ⟨hat,hdrawn,hbelow⟩ := hf.indices_of_running hphase
  have hgrows := EventLoop.hotplug_grows l ⟨some name,h.openNode name rawFd,registers⟩
  have hle : l.nextToken ≤
      (l.hotplug ⟨some name,h.openNode name rawFd,registers⟩).1.nextToken :=
    hgrows.next ▸ Nat.le_add_right _ _
  refine ⟨fun i hi => ⟨EventLoop.hotplug_below hbelow _ i hi,(hf.below i ?_).2⟩,
    fun name' n hn hpasses => ?_⟩
  · exact (hdrawn.trans_le hle).trans hi
  · have hstays : ∀ {name'}, h.TracksLive name' → TracksLive { h with
        phase := .running (l.hotplug ⟨some name,h.openNode name rawFd,registers⟩).1
        records := rest } name' := by
      refine fun hlive => hlive.mono fun i w hw _ hdead => ⟨w,?_,rfl,hdead⟩
      rw [hat] at hw
      exact (hgrows.keeps i (hbelow.lt hw)).trans hw
    rcases hf.found name' n hn hpasses with hawaits | hlive
    · rw [Awaits,hphase] at hawaits
      dsimp only at hawaits
      rw [hrecords] at hawaits
      rcases List.mem_cons.mp hawaits with rfl | hrest
      · -- the record of this node: another one waits, or it is tracked, or it is opened now
        have hhead := hheeded name' (by rw [hrecords]; rfl) n hn hpasses
        rw [hrecords] at hhead
        rcases hhead with hagain | hlive | ⟨huntracked,rfl⟩
        · exact .inl hagain
        · exact .inr (hstays hlive)
        · have hopen : h.openNode name' rawFd = n.opened rawFd := by rw [openNode,hn]
          have hnone : l.Untracked (devInput name') := fun t w hw =>
            huntracked (w,t) (mem_tracked.mpr ((hat t).trans hw))
          obtain ⟨w,hw,hpath⟩ := EventLoop.hotplug_opens hpasses hnone rawFd
          rw [← hopen] at hw
          exact .inr (tracksLive_iff.mpr ⟨l.nextToken,w,hw,hpath,(hf.below _ hdrawn.le).2⟩)
      · exact .inl hrest
    · exact .inr (hstays hlive)

/-- The loop handles something else: a wrapper that is not dead stays, under its path. -/
theorem Finds.loop (cfg : InputConfig F) {h : Host F} (hf : h.Finds) {l : EventLoop F}
    (hphase : h.phase = .running l) {i : LoopInput}
    (hlive : ∀ t, h.dead t = false → i ≠ .ready t .gone) :
    Finds { h with phase := .running (l.step cfg i).1 } := by
  obtain ⟨hat,hdrawn,hbelow⟩ := hf.indices_of_running hphase
  obtain ⟨hnext,hkeeps,_⟩ := EventLoop.step_tokens cfg l i
  refine ⟨fun t ht => ⟨EventLoop.step_below cfg hbelow i t ht,(hf.below t ?_).2⟩,
    fun name n hn hpasses => ?_⟩
  · have hle : l.nextToken ≤ (l.step cfg i).1.nextToken := hnext ▸ Nat.le_add_right _ _
    exact (hdrawn.trans_le hle).trans ht
  · rcases hf.found name n hn hpasses with hawaits | htracks
    · rw [Awaits,hphase] at hawaits
      exact .inl hawaits
    · refine .inr (htracks.mono fun t w hw _ hdead => ?_)
      rw [hat] at hw
      have hsame := hkeeps t (hbelow.lt hw) (hlive t hdead)
      rw [hw] at hsame
      obtain ⟨w',hw',hid⟩ := Option.map_eq_some_iff.mp hsame
      exact ⟨w',hw',congrArg (·.2.1) hid,hdead⟩

/-- Every step that meets the condition keeps the invariant. -/
theorem step_finds (cfg : InputConfig F) (v : VirtualDevice) {h : Host F} (hf : h.Finds)
    {i : HostInput} (hheeded : h.Heeded i) : (h.step cfg v i).1.Finds := by
  cases i with
  | create name node room =>
    dsimp only [step]
    cases hn : h.nodes.lookup name with
    | some n => exact hf
    | none => exact hf.insert fun hpasses => .inr (hheeded hpasses)
  | change name node room =>
    dsimp only [step]
    cases hn : h.nodes.lookup name with
    | none => exact hf
    | some n => exact hf.insert hheeded
  | remove name =>
    dsimp only [step]
    cases hn : h.nodes.lookup name with
    | none => exact hf
    | some n => exact hf.remove name
  | list names =>
    dsimp only [step]
    cases hphase : h.phase with
    | starting =>
      dsimp only
      split_ifs with hnames
      · exact hf.list hphase hnames
      · exact hf
    | scanning todo tracked => exact hf
    | running l => exact hf
  | scan rawFd =>
    dsimp only [step]
    cases hphase : h.phase with
    | starting => exact hf
    | scanning todo tracked =>
      cases todo with
      | nil => exact hf
      | cons name todo => exact hf.scan hphase rfl
    | running l => exact hf
  | watch =>
    dsimp only [step]
    cases hphase : h.phase with
    | starting => exact hf
    | scanning todo tracked =>
      cases todo with
      | nil => exact hf.watch v hphase
      | cons name todo => exact hf
    | running l => exact hf
  | record rawFd registers =>
    dsimp only [step]
    cases hphase : h.phase with
    | starting => exact hf
    | scanning todo tracked => exact hf
    | running l =>
      cases hrecords : h.records with
      | nil => exact hf
      | cons name rest => exact hf.record hphase hrecords hheeded
  | ready token fetch =>
    dsimp only [step]
    cases hphase : h.phase with
    | starting => exact hf
    | scanning todo tracked => exact hf
    | running l =>
      dsimp only
      split_ifs with hdead
      · refine hf.loop cfg hphase fun t hlive heq => ?_
        obtain ⟨rfl,rfl⟩ := LoopInput.ready.inj heq
        rw [hlive] at hdead
        cases hdead
      · exact hf
  | resetDone =>
    dsimp only [step]
    cases hphase : h.phase with
    | starting => exact hf
    | scanning todo tracked => exact hf
    | running l => exact hf.loop cfg hphase fun _ _ heq => by cases heq

end Invariant

variable [F32 F]

/-- Whenever all that is pending has been handled, every node that passes is tracked. -/
def DevicesComplete (cfg : InputConfig F) (v : VirtualDevice)
    (nodes : AList (fun _ : FileName => InputNode)) (inputs : List HostInput) : Prop :=
  ∀ before, before <+: inputs → (after cfg v nodes before).AllHandled →
    ∀ e ∈ (after cfg v nodes before).nodes.entries, e.2.Passes →
      (after cfg v nodes before).TracksLive e.1

/-- In every run whose steps all meet the condition, the daemon tracks every node that passes
whenever nothing is pending. -/
theorem devices_complete (cfg : InputConfig F) (v : VirtualDevice)
    (nodes : AList (fun _ : FileName => InputNode)) (inputs : List HostInput)
    (hheeded : AtEach (fun before i => (after cfg v nodes before).Heeded i) inputs) :
    DevicesComplete cfg v nodes inputs := by
  rintro before ⟨rest,rfl⟩ ⟨hlooping,hrecords,_⟩ ⟨name,n⟩ hn hpasses
  have hfinds : ∀ before, AtEach (fun before i => (after cfg v nodes before).Heeded i) before →
      (after cfg v nodes before).Finds := by
    intro before
    induction before using List.reverseRecOn with
    | nil => exact fun _ => init_finds nodes
    | append_singleton before i ih =>
      intro hheeded
      obtain ⟨hfront,hlast⟩ := atEach_append.mp hheeded
      rw [atEach_singleton,List.append_nil] at hlast
      have hnext : after cfg v nodes (before ++ [i]) =
          ((after cfg v nodes before).step cfg v i).1 := by
        rw [after,run_append,run_singleton]
        rfl
      exact hnext ▸ step_finds cfg v (ih hfront) hlast
  rcases (hfinds before (atEach_append.mp hheeded).1).found name n (AList.mem_lookup_iff.mpr hn)
    hpasses with hawaits | hlive
  · exfalso
    unfold looping at hlooping
    unfold Awaits at hawaits
    split at hlooping
    · next heq =>
      rw [heq,hrecords] at hawaits
      cases hawaits
    · cases hlooping
  · exact hlive

def oneTouchpad : AList (fun _ : FileName => InputNode) :=
  AList.singleton .event3 ⟨some plainTouchpad,true⟩

/-- A keyboard appears after the watch, first without permission to open it; the touchpad is
unplugged, its end is handled, and it comes back under its old name. -/
theorem devices_complete_over_replug : DevicesComplete (F := ℚ) .default .reliable oneTouchpad
    [.list [.event3],.scan 5,.watch,.create .event4 ⟨none,true⟩ true,.record 6 true,
      .change .event4 ⟨some plainKeyboard,true⟩ true,.remove .event3,.record 6 true,
      .ready 0 .gone,.create .event3 ⟨some plainTouchpad,true⟩ true,.record 5 true] :=
  devices_complete _ _ _ _ (by decide +kernel)

/-- A keyboard that appears between the scan and the watch, and a touchpad that comes back under its
old name and whose record is handled before its old end, are never tracked. -/
theorem unnoticed_devices_untracked :
    (¬ DevicesComplete (F := ℚ) .default .reliable ∅
      [.list [],.create .event4 ⟨some plainKeyboard,true⟩ true,.watch]) ∧
    ¬ DevicesComplete (F := ℚ) .default .reliable oneTouchpad
      [.list [.event3],.scan 5,.watch,.remove .event3,
        .create .event3 ⟨some plainTouchpad,true⟩ true,.record 6 true,.ready 0 .gone] := by
  constructor <;> intro h
  · exact absurd (h _ List.prefix_rfl (by decide +kernel)
      ⟨.event4,⟨some plainKeyboard,true⟩⟩ (by decide +kernel) (by decide +kernel))
      (by decide +kernel)
  · exact absurd (h _ List.prefix_rfl (by decide +kernel)
      ⟨.event3,⟨some plainTouchpad,true⟩⟩ (by decide +kernel) (by decide +kernel))
      (by decide +kernel)

end Host
end LibinputRs
