import LibinputRs.Library.Replug

/-! The nodes in `/dev/input` next to a client. The context watches the directory before a seat is
assigned to it, so a node that appears while the seat is scanned leaves a record: there is no moment
at which a node is missed for good, as long as its record finds its path untracked. -/
namespace LibinputRs
open Automata

variable {F D : Type}

/-- A node, by what probing it through the client gives, and whether the process may open it itself,
as the enumeration does. -/
structure EventNode where
  probe : Option EvdevDevice
  selfOpens : Bool
  deriving DecidableEq, Repr

/-- The process may open the node itself, as the enumeration does, and what is probed passes the
filters. -/
def EventNode.Passes (n : EventNode) : Prop :=
  n.selfOpens = true ∧ n.probe.any passesFilters = true

instance (n : EventNode) : Decidable n.Passes := inferInstanceAs (Decidable (_ ∧ _))

/-- The two passes over the nodes: the scan of a seat and the hotplug pass of a dispatch. -/
inductive Pass
  | scan
  | plug

/-- What the context is in the middle of: nothing, or a pass with the names that are still to be
opened and the events that are not queued yet. -/
inductive Underway (F D : Type)
  | idle
  | opening (pass : Pass) (todo : List FileName) (tmp : List (Obs F D))

namespace Underway

def isIdle : Underway F D → Bool
  | .idle => true
  | _ => false

def todo : Underway F D → List FileName
  | .idle => []
  | .opening _ todo _ => todo

theorem eq_idle {u : Underway F D} (h : u.isIdle = true) : u = .idle := by
  cases u with
  | idle => rfl
  | opening pass todo tmp => cases h

end Underway

/-- The evdev nodes by name (the kernel calls them `event0`, `event1` and so on, and the enumeration
looks at no others), the names of the records in the inotify queue, the context with what it is in
the middle of, whether a seat has been listed, and which descriptors have lost their node. -/
structure Station (F D : Type) where
  nodes : AList (fun _ : FileName => EventNode)
  records : List FileName
  ctx : LibinputContext F D
  underway : Underway F D
  listed : Bool
  dead : RawFd → Bool

/-- The calls that neither open a node nor read a device. -/
def Call.isLocal : Call D → Bool
  | .assignSeat _ _ => false
  | .addDevice _ _ => false
  | .dispatch _ => false
  | _ => true

/-- What happens next. A node is created, its permissions change, or it is removed; `room` says
whether the inotify queue has room for the record. The client assigns a seat, dispatches, adds a
device by its path or makes another call; the scan and the hotplug pass open their names one by one,
and then come to their end. A dispatch reads the first `count` records. -/
inductive StationInput (D : Type)
  | create (name : FileName) (node : EventNode) (room : Bool)
  | change (name : FileName) (node : EventNode) (room : Bool)
  | remove (name : FileName)
  | assignSeat (seatName : String) (names : List FileName)
  | openNext (rawFd : RawFd)
  | scanned
  | dispatch (count : ℕ)
  | serve (inp : Dispatch)
  | addDevice (name : FileName) (rawFd : RawFd)
  | client (c : Call D)

namespace Station
variable [F32 F] [F64 D] [FloatCast F D]

/-- A context is made, and its watch is installed. -/
def init (interface : LibinputInterface) (nodes : AList (fun _ : FileName => EventNode)) :
    Station F D := ⟨nodes,[],.new interface true,.idle,false,fun _ => false⟩

section Definitions
omit [F32 F] [F64 D] [FloatCast F D]

def notify (h : Station F D) (name : FileName) (room : Bool) : List FileName :=
  if room then h.records ++ [name] else h.records

/-- What opening a name gives at the moment. -/
def openNode (h : Station F D) (name : FileName) (rawFd : RawFd) : OpenResult :=
  match h.nodes.lookup name with
  | none => ⟨-1,none⟩
  | some n => ⟨rawFd,n.probe⟩

/-- Whether a pass opens a name it comes to: the enumeration opens every node itself before it
yields it. -/
def yields (h : Station F D) (name : FileName) : Pass → Bool
  | .scan => (h.nodes.lookup name).any EventNode.selfOpens
  | .plug => true

/-- Whether a tracked device has the path of the name. -/
def holds (h : Station F D) (name : FileName) : Bool :=
  h.ctx.backend.devices.entries.any fun e => e.2.path = devInput name

end Definitions

/-- A name is opened, under a descriptor that is then alive. -/
def opened (h : Station F D) (name : FileName) (rawFd : RawFd) : Station F D × List (Obs F D) :=
  match h.ctx.tryOpen (devInput name) (h.openNode name rawFd) with
  | (ctx,obs) => ({ h with ctx := ctx, dead := Function.update h.dead rawFd false },obs)

/-- A call comes to its end: its events are queued. -/
def finished (h : Station F D) (tmp : List (Obs F D)) : Station F D × List (Obs F D) :=
  match LibinputContext.enqueue (h.ctx,tmp) with
  | (ctx,obs) => ({ h with ctx := ctx, underway := .idle },obs)

def step (h : Station F D) : StationInput D → Station F D × List (Obs F D)
  | .create name node room =>
    match h.nodes.lookup name with
    | some _ => (h,[])
    | none => ({ h with nodes := h.nodes.insert name node, records := h.notify name room },[])
  | .change name node room =>
    match h.nodes.lookup name with
    | none => (h,[])
    | some _ => ({ h with nodes := h.nodes.insert name node, records := h.notify name room },[])
  | .remove name =>
    match h.nodes.lookup name with
    | none => (h,[])
    | some _ =>
      -- every descriptor on the node is dead from now on
      ({ h with
          nodes := h.nodes.erase name
          dead := fun fd => h.dead fd || (h.ctx.tracked fd).any fun td => td.path = devInput name },
        [])
  | .assignSeat seatName names =>
    match h.underway with
    | .idle =>
      if names.Perm h.nodes.keys then
        ({ h with
            ctx := { h.ctx with seat := { h.ctx.seat with logicalName := seatName } }
            underway := .opening .scan names []
            listed := true },[])
      else (h,[])
    | _ => (h,[])
  | .openNext rawFd =>
    match h.underway with
    | .opening pass (name :: todo) tmp =>
      if h.yields name pass then
        match h.opened name rawFd with
        | (h,obs) => ({ h with underway := .opening pass todo (tmp ++ obs) },[])
      else ({ h with underway := .opening pass todo tmp },[])
    | _ => (h,[])
  | .scanned =>
    match h.underway with
    | .opening .scan [] tmp => h.finished tmp
    | _ => (h,[])
  | .dispatch count =>
    match h.underway with
    | .idle =>
      -- the paths are compared before the first node is opened
      ({ h with
          records := h.records.drop count
          underway := .opening .plug ((h.records.take count).filter fun name => !h.holds name) [] },
        [])
    | _ => (h,[])
  | .serve inp =>
    match h.underway with
    | .opening .plug [] tmp =>
      match h.ctx.drainIntoQueue { inp with inotify := none } with
      | (ctx,obs) => { h with ctx := ctx }.finished (tmp ++ obs)
    | _ => (h,[])
  | .addDevice name rawFd =>
    match h.underway with
    | .idle =>
      match h.opened name rawFd with
      | (h,obs) => h.finished obs
    | _ => (h,[])
  | .client c =>
    match h.underway with
    | .idle =>
      if c.isLocal then
        match h.ctx.call c with
        | (ctx,obs) => ({ h with ctx := ctx },obs)
      else (h,[])
    | _ => (h,[])

/-- The station after a run. -/
def after (interface : LibinputInterface) (nodes : AList (fun _ : FileName => EventNode))
    (inputs : List (StationInput D)) : Station F D :=
  (run step (init interface nodes) inputs).1

section Properties
omit [F32 F] [F64 D] [FloatCast F D]

/-- There is a node under the name that passes; no name has a NUL in it. -/
def Wanted (h : Station F D) (name : FileName) : Prop :=
  ¬ (devInput name).HasNul ∧ ∃ n ∈ h.nodes.lookup name, n.Passes

/-- The node now under the name is tracked. -/
def TracksLive (h : Station F D) (name : FileName) : Prop :=
  ∃ e ∈ h.ctx.backend.devices.entries, e.2.path = devInput name ∧ h.dead e.1 = false

/-- Nothing is underway after a seat was listed, and every record has been read. -/
def Settled (h : Station F D) : Prop :=
  h.listed = true ∧ h.underway.isIdle = true ∧ h.records = []

/-- Whether what happens to the node now is noticed. -/
def Notices (h : Station F D) (name : FileName) (room : Bool) : Prop :=
  room = true ∨ h.listed = false ∨ name ∈ h.underway.todo

/-- The condition on a step. A node that passes appears with room for its record, before a listing,
or before the pass that is underway comes to it; a descriptor that is opened is not tracked, and the
client opens a node that passes; no record is read while a dead device has its path, unless another
record of the name is left; and a live device does not read as gone. -/
def Heeded (h : Station F D) : StationInput D → Prop
  | .create name node room => node.Passes → h.Notices name room
  | .change name node room => node.Passes → h.TracksLive name ∨ h.Notices name room
  | .openNext rawFd => h.ctx.tracked rawFd = none ∧ ∀ name ∈ h.underway.todo.head?,
      h.Wanted name → 0 ≤ rawFd
  | .addDevice _ rawFd => h.ctx.tracked rawFd = none
  | .dispatch count => ∀ name ∈ h.records.take count, h.Wanted name →
      h.TracksLive name ∨ h.holds name = false ∨ name ∈ h.records.drop count
  | .serve inp => ∀ fd ∈ h.ctx.backend.devices.keys, h.dead fd = false → inp.fetch fd ≠ .gone
  | _ => True

instance (h : Station F D) (name : FileName) : Decidable (h.Wanted name) :=
  inferInstanceAs (Decidable (_ ∧ ∃ n ∈ h.nodes.lookup name, _))

instance (h : Station F D) (name : FileName) : Decidable (h.TracksLive name) :=
  inferInstanceAs (Decidable (∃ e ∈ h.ctx.backend.devices.entries, _))

instance (h : Station F D) : Decidable h.Settled := inferInstanceAs (Decidable (_ ∧ _))

instance (h : Station F D) (name : FileName) (room : Bool) : Decidable (h.Notices name room) :=
  inferInstanceAs (Decidable (_ ∨ _))

instance (h : Station F D) : DecidablePred h.Heeded
  | .create _ _ _ => inferInstanceAs (Decidable (_ → _))
  | .change _ _ _ => inferInstanceAs (Decidable (_ → _))
  | .openNext rawFd => inferInstanceAs (Decidable (h.ctx.tracked rawFd = none ∧
      ∀ name ∈ h.underway.todo.head?, _))
  | .addDevice _ _ => inferInstanceAs (Decidable (_ = none))
  | .dispatch count => inferInstanceAs (Decidable (∀ name ∈ h.records.take count, _))
  | .serve _ => inferInstanceAs (Decidable (∀ fd ∈ h.ctx.backend.devices.keys, _))
  | .remove _ => .isTrue trivial
  | .assignSeat _ _ => .isTrue trivial
  | .scanned => .isTrue trivial
  | .client _ => .isTrue trivial

end Properties

section Invariant
omit [F32 F] [F64 D] [FloatCast F D]

/-- The name is still to be opened, or a record of it is still to be read. -/
def Awaits (h : Station F D) (name : FileName) : Prop :=
  name ∈ h.records ∨ h.listed = false ∨ name ∈ h.underway.todo

/-- Every node that passes is tracked or awaited. -/
def Finds (h : Station F D) : Prop := ∀ name, h.Wanted name → h.TracksLive name ∨ h.Awaits name

theorem tracksLive_iff {h : Station F D} {name : FileName} : h.TracksLive name ↔
    ∃ fd td, h.ctx.tracked fd = some td ∧ td.path = devInput name ∧ h.dead fd = false := by
  constructor
  · rintro ⟨⟨fd,td⟩,he,hpath,hdead⟩
    exact ⟨fd,td,AList.mem_lookup_iff.mpr he,hpath,hdead⟩
  · rintro ⟨fd,td,ht,hpath,hdead⟩
    exact ⟨⟨fd,td⟩,AList.mem_lookup_iff.mp ht,hpath,hdead⟩

theorem Awaits.of_notices {h : Station F D} {name : FileName} {room : Bool}
    (hnotices : h.Notices name room) {nodes : AList (fun _ : FileName => EventNode)} :
    Awaits { h with nodes := nodes, records := h.notify name room } name := by
  rcases hnotices with hroom | hlisted | htodo
  · refine .inl ?_
    change name ∈ h.notify name room
    rw [notify,if_pos hroom]
    simp
  · exact .inr (.inl hlisted)
  · exact .inr (.inr htodo)

theorem Awaits.notify {h : Station F D} {name' : FileName} (hawaits : h.Awaits name')
    (name : FileName) (room : Bool) {nodes : AList (fun _ : FileName => EventNode)} :
    Awaits { h with nodes := nodes, records := h.notify name room } name' := by
  rcases hawaits with hrecord | hrest
  · refine .inl ?_
    change name' ∈ h.notify name room
    unfold Station.notify
    split_ifs
    · exact List.mem_append_left _ hrecord
    · exact hrecord
  · exact .inr hrest

/-- A node that appears or changes is found if it is noticed, or tracked already. -/
theorem Finds.insert {h : Station F D} (hf : h.Finds) {name : FileName} {node : EventNode}
    {room : Bool} (hnotices : node.Passes → h.TracksLive name ∨ h.Notices name room) :
    Finds { h with nodes := h.nodes.insert name node, records := h.notify name room } := by
  rintro name' ⟨hnul,n,hn,hpasses⟩
  by_cases hname : name' = name
  · subst hname
    obtain rfl : node = n := Option.some.inj ((AList.lookup_insert h.nodes).symm.trans hn)
    rcases hnotices hpasses with hlive | hnoticed
    · exact .inl hlive
    · exact .inr (.of_notices hnoticed)
  · have hold : n ∈ h.nodes.lookup name' := (AList.lookup_insert_ne hname).symm.trans hn
    rcases hf name' ⟨hnul,n,hold,hpasses⟩ with hlive | hawaits
    · exact .inl hlive
    · exact .inr (hawaits.notify name room)

/-- The descriptors on a node that is removed are dead; those on the others are not. -/
theorem Finds.remove {h : Station F D} (hf : h.Finds) (name : FileName) :
    Finds { h with
      nodes := h.nodes.erase name
      dead := fun fd => h.dead fd ||
        (h.ctx.tracked fd).any fun td => td.path = devInput name } := by
  rintro name' ⟨hnul,n,hn,hpasses⟩
  have hname : name' ≠ name := by
    rintro rfl
    rw [AList.lookup_erase] at hn
    cases hn
  have hold : n ∈ h.nodes.lookup name' := (AList.lookup_erase_ne hname).symm.trans hn
  rcases hf name' ⟨hnul,n,hold,hpasses⟩ with hlive | hawaits
  · obtain ⟨fd,td,ht,hpath,hdead⟩ := tracksLive_iff.mp hlive
    refine .inl (tracksLive_iff.mpr ⟨fd,td,ht,hpath,?_⟩)
    have hother : devInput name' ≠ devInput name :=
      fun heq => hname (devInput_injective heq)
    simp [hdead,ht,hpath,hother]
  · exact .inr hawaits

end Invariant

section Steps

/-- The second station is the first after a name was opened, whatever else the call did. -/
structure Opened (h : Station F D) (name : FileName) (rawFd : RawFd) (h' : Station F D) : Prop where
  nodes : h'.nodes = h.nodes
  tracked : h'.ctx.tracked = (h.ctx.tryOpen (devInput name) (h.openNode name rawFd)).1.tracked
  dead : h'.dead = Function.update h.dead rawFd false

namespace Opened
variable {h h' : Station F D} {name : FileName} {rawFd : RawFd}

omit [FloatCast F D] in
/-- What is opened under a descriptor that is not tracked leaves the others as they were. -/
theorem keeps (ho : Opened h name rawFd h') (hfresh : h.ctx.tracked rawFd = none) {name' : FileName}
    (hlive : h.TracksLive name') : h'.TracksLive name' := by
  obtain ⟨fd,td,ht,hpath,hdead⟩ := tracksLive_iff.mp hlive
  have hne : fd ≠ rawFd := by
    rintro rfl
    rw [hfresh] at ht
    cases ht
  refine tracksLive_iff.mpr ⟨fd,td,?_,hpath,?_⟩
  · rw [ho.tracked]
    rcases LibinputContext.tryOpen_tracked h.ctx (devInput name) (h.openNode name rawFd) with
      ⟨_,htracked⟩ | ⟨⟨_,hnone⟩,td',_,_,htracked⟩
    · rw [htracked,ht]
    · have hother : fd ≠ (h.openNode name rawFd).rawFd := by
        intro heq
        rw [← heq,ht] at hnone
        cases hnone
      rw [htracked,Function.update_of_ne hother,ht]
  · rw [ho.dead,Function.update_of_ne hne,hdead]

omit [FloatCast F D] in
/-- A node that passes is tracked once it was opened. -/
theorem admits (ho : Opened h name rawFd h') (hfresh : h.ctx.tracked rawFd = none)
    (hwanted : h.Wanted name) (hfd : 0 ≤ rawFd) : h'.TracksLive name := by
  obtain ⟨hnul,n,hn,_,hprobe⟩ := hwanted
  have hopen : h.openNode name rawFd = ⟨rawFd,n.probe⟩ := by
    rw [openNode,Option.mem_def.mp hn]
  have hopens : LibinputContext.OpensNode h.ctx.interface
      (devInput name,h.openNode name rawFd) := by
    rw [hopen]
    exact ⟨⟨fun _ => hnul,hfd⟩,hprobe⟩
  have hnone : h.ctx.tracked (h.openNode name rawFd).rawFd = none := by
    rw [hopen]
    exact hfresh
  rcases LibinputContext.tryOpen_tracked h.ctx (devInput name) (h.openNode name rawFd) with
    ⟨hnot,_⟩ | ⟨_,td,hpath,_,htracked⟩
  · exact absurd ⟨hopens,hnone⟩ hnot
  · refine tracksLive_iff.mpr ⟨rawFd,td,?_,hpath,?_⟩
    · rw [ho.tracked,htracked,hopen,Function.update_self]
    · rw [ho.dead,Function.update_self]

omit [FloatCast F D] in
/-- Opening a name keeps the invariant, also where that name alone is not awaited any more. -/
theorem finds (ho : Opened h name rawFd h') (hf : h.Finds) (hfresh : h.ctx.tracked rawFd = none)
    (hawaits : ∀ name', h.Wanted name' → h.Awaits name' →
      h'.Awaits name' ∨ name' = name ∧ 0 ≤ rawFd) : h'.Finds := by
  rintro name' ⟨hnul,n,hn,hpasses⟩
  rw [ho.nodes] at hn
  have hwanted : h.Wanted name' := ⟨hnul,n,hn,hpasses⟩
  rcases hf name' hwanted with hlive | hold
  · exact .inl (ho.keeps hfresh hlive)
  · rcases hawaits name' hwanted hold with hnew | ⟨rfl,hfd⟩
    · exact .inr hnew
    · exact .inl (ho.admits hfresh hwanted hfd)

end Opened

omit [FloatCast F D] in
/-- The next name of a scan or of a hotplug pass is opened. -/
theorem Finds.openNext {h : Station F D} (hf : h.Finds) {name : FileName} {u : Underway F D}
    (htodo : h.underway.todo = name :: u.todo) {rawFd : RawFd}
    (hheeded : h.Heeded (.openNext rawFd)) :
    Finds { (h.opened name rawFd).1 with underway := u } := by
  have ho : Opened h name rawFd { (h.opened name rawFd).1 with underway := u } := ⟨rfl,rfl,rfl⟩
  refine ho.finds hf hheeded.1 fun name' hwanted hold => ?_
  rcases hold with hrecord | hlisted | hname
  · exact .inl (.inl hrecord)
  · exact .inl (.inr (.inl hlisted))
  · rw [htodo] at hname
    rcases List.mem_cons.mp hname with rfl | hrest
    · exact .inr ⟨rfl,hheeded.2 name' (by rw [htodo]; rfl) hwanted⟩
    · exact .inl (.inr (.inr hrest))

omit [F32 F] [F64 D] [FloatCast F D] in
/-- The enumeration passes a name over. -/
theorem Finds.skip {h : Station F D} (hf : h.Finds) {name : FileName} {pass : Pass}
    {u : Underway F D}
    (htodo : h.underway.todo = name :: u.todo) (hskip : h.yields name pass = false) :
    Finds { h with underway := u } := by
  rintro name' ⟨hnul,n,hn,hpasses⟩
  rcases hf name' ⟨hnul,n,hn,hpasses⟩ with hlive | hrecord | hlisted | hname
  · exact .inl hlive
  · exact .inr (.inl hrecord)
  · exact .inr (.inr (.inl hlisted))
  · rw [htodo] at hname
    rcases List.mem_cons.mp hname with rfl | hrest
    · cases pass with
      | scan =>
        rw [yields,Option.mem_def.mp hn,Option.any_some,hpasses.1] at hskip
        cases hskip
      | plug => cases hskip
    · exact .inr (.inr (.inr hrest))

omit [F32 F] [F64 D] [FloatCast F D] in
/-- When a seat is listed, every node is awaited. -/
theorem listed_finds {h : Station F D} {names : List FileName} (hnames : names.Perm h.nodes.keys)
    {ctx : LibinputContext F D} : Finds { h with
      ctx := ctx, underway := .opening .scan names [], listed := true } := by
  rintro name ⟨_,n,hn,_⟩
  have hmem : name ∈ h.nodes.keys :=
    AList.mem_keys.mp (AList.lookup_isSome.mp (by rw [Option.mem_def.mp hn]; rfl))
  exact .inr (.inr (.inr (hnames.mem_iff.mpr hmem)))

omit [F32 F] [F64 D] [FloatCast F D] in
/-- A call with no name left ends. -/
theorem Finds.finished {h : Station F D} (hf : h.Finds) (htodo : h.underway.todo = [])
    (tmp : List (Obs F D)) : (h.finished tmp).1.Finds := by
  intro name hwanted
  rcases hf name hwanted with hlive | hrecord | hlisted | hname
  · exact .inl hlive
  · exact .inr (.inl hrecord)
  · exact .inr (.inr (.inl hlisted))
  · rw [htodo] at hname
    cases hname

omit [F32 F] [F64 D] [FloatCast F D] in
/-- A dispatch reads its records. -/
theorem Finds.dispatch {h : Station F D} (hf : h.Finds) (htodo : h.underway.todo = []) {count : ℕ}
    (hheeded : h.Heeded (.dispatch count)) :
    Finds { h with
      records := h.records.drop count
      underway := .opening .plug
        ((h.records.take count).filter fun name => !h.holds name) [] } := by
  intro name hwanted
  rcases hf name hwanted with hlive | hrecord | hlisted | hname
  · exact .inl hlive
  · rw [← List.take_append_drop count h.records] at hrecord
    rcases List.mem_append.mp hrecord with hread | hleft
    · rcases hheeded name hread hwanted with hlive | hholds | hleft
      · exact .inl hlive
      · exact .inr (.inr (.inr (List.mem_filter.mpr ⟨hread,by rw [hholds]; rfl⟩)))
      · exact .inr (.inl hleft)
    · exact .inr (.inl hleft)
  · exact .inr (.inr (.inl hlisted))
  · rw [htodo] at hname
    cases hname

omit [F32 F] [F64 D] [FloatCast F D] in
/-- A station finds what it found where its table has the same devices. -/
theorem Finds.of_tracked {h : Station F D} (hf : h.Finds) {ctx : LibinputContext F D}
    (hkeeps : ∀ fd td, h.ctx.tracked fd = some td → h.dead fd = false →
      ∃ td', ctx.tracked fd = some td' ∧ td'.path = td.path) : Finds { h with ctx := ctx } := by
  intro name hwanted
  rcases hf name hwanted with hlive | hawaits
  · obtain ⟨fd,td,ht,hpath,hdead⟩ := tracksLive_iff.mp hlive
    obtain ⟨td',ht',hpath'⟩ := hkeeps fd td ht hdead
    exact .inl (tracksLive_iff.mpr ⟨fd,td',ht',hpath'.trans hpath,hdead⟩)
  · exact .inr hawaits

omit [FloatCast F D] in
theorem handleHotplug_none (ctx : LibinputContext F D) : ctx.handleHotplug none = (ctx,[]) := by
  unfold LibinputContext.handleHotplug
  split_ifs <;> rfl

/-- The devices are read: those that are alive stay. -/
theorem Finds.serve {h : Station F D} (hf : h.Finds) {inp : Dispatch}
    (hheeded : h.Heeded (.serve inp)) :
    Finds { h with ctx := (h.ctx.drainIntoQueue { inp with inotify := none }).1 } := by
  refine hf.of_tracked fun fd td ht hdead => ?_
  have hkey : fd ∈ h.ctx.backend.devices.keys := by
    rw [LibinputContext.mem_keys_iff,ht]
    rfl
  have halive : ∀ fd', fd' = fd → inp.fetch fd' ≠ .gone := fun fd' heq =>
    heq ▸ hheeded fd hkey hdead
  obtain ⟨fd',td',ht',hpath',rfl⟩ := (LibinputContext.tracksNode_drain h.ctx
    { inp with inotify := none } halive).mpr (by
      rw [handleHotplug_none]
      exact ⟨fd,td,ht,rfl,rfl⟩)
  exact ⟨td',ht',hpath'⟩

/-- A call that neither opens a node nor reads a device leaves the table as it is. -/
theorem Finds.client {h : Station F D} (hf : h.Finds) {c : Call D} (hlocal : c.isLocal = true) :
    Finds { h with ctx := (h.ctx.call c).1 } := by
  have htracked : (h.ctx.call c).1.tracked = h.ctx.tracked := by
    cases c with
    | assignSeat seatName nodes => cases hlocal
    | addDevice path r => cases hlocal
    | removeDevice d => rfl
    | dispatch inp => cases hlocal
    | getEvent =>
      unfold LibinputContext.call LibinputContext.libinputGetEvent
      cases h.ctx.eventQueue <;> rfl
    | nextEventType => rfl
    | configure d c => rfl
  exact hf.of_tracked fun fd td ht _ => ⟨td,by rw [htracked,ht],rfl⟩

/-- Every step that meets the condition keeps the invariant. -/
theorem step_finds {h : Station F D} (hf : h.Finds) {i : StationInput D} (hheeded : h.Heeded i) :
    (h.step i).1.Finds := by
  cases i with
  | create name node room =>
    dsimp only [step]
    cases hn : h.nodes.lookup name with
    | some n => exact hf
    | none => exact hf.insert fun hpasses => .inr (hheeded hpasses)
  | change name node room =>
    dsimp only [step]
    cases hn : h.nodes.lookup name with
    | none => exact hf
    | some n => exact hf.insert hheeded
  | remove name =>
    dsimp only [step]
    cases hn : h.nodes.lookup name with
    | none => exact hf
    | some n => exact hf.remove name
  | assignSeat seatName names =>
    dsimp only [step]
    cases hunderway : h.underway with
    | idle =>
      dsimp only
      split_ifs with hnames
      · exact listed_finds hnames
      · exact hf
    | opening pass todo tmp => exact hf
  | openNext rawFd =>
    dsimp only [step]
    cases hunderway : h.underway with
    | idle => exact hf
    | opening pass todo tmp =>
      cases todo with
      | nil => exact hf
      | cons name todo =>
        dsimp only
        split_ifs with hyields
        · exact hf.openNext (by rw [hunderway]; rfl) hheeded
        · exact hf.skip (by rw [hunderway]; rfl) (by simpa using hyields)
  | scanned =>
    dsimp only [step]
    cases hunderway : h.underway with
    | idle => exact hf
    | opening pass todo tmp =>
      cases pass <;> cases todo
      case scan.nil => exact hf.finished (by rw [hunderway]; rfl) tmp
      all_goals exact hf
  | dispatch count =>
    dsimp only [step]
    cases hunderway : h.underway with
    | idle => exact hf.dispatch (by rw [hunderway]; rfl) hheeded
    | opening pass todo tmp => exact hf
  | serve inp =>
    dsimp only [step]
    cases hunderway : h.underway with
    | idle => exact hf
    | opening pass todo tmp =>
      cases pass <;> cases todo
      case plug.nil => exact (hf.serve hheeded).finished (congrArg Underway.todo hunderway) _
      all_goals exact hf
  | addDevice name rawFd =>
    dsimp only [step]
    cases hunderway : h.underway with
    | idle =>
      have ho : Opened h name rawFd (h.opened name rawFd).1 := ⟨rfl,rfl,rfl⟩
      have hopened := ho.finds hf hheeded fun _ _ hold => .inl hold
      exact hopened.finished (congrArg Underway.todo hunderway) _
    | opening pass todo tmp => exact hf
  | client c =>
    dsimp only [step]
    cases hunderway : h.underway with
    | idle =>
      dsimp only
      split_ifs with hlocal
      · have hcalled := hf.client hlocal
        rw [hunderway] at hcalled
        exact hcalled
      · exact hf
    | opening pass todo tmp => exact hf

omit [F32 F] [F64 D] [FloatCast F D] in
theorem init_finds (interface : LibinputInterface) (nodes : AList (fun _ : FileName => EventNode)) :
    (init (F := F) (D := D) interface nodes).Finds := fun _ _ => .inr (.inr (.inl rfl))

end Steps

section Calls

/-- What a pass opens of a list of names, each with the descriptor it would get. -/
def openings (h : Station F D) (pass : Pass) (opens : List (FileName × RawFd)) :
    List (PathBuf × OpenResult) :=
  (opens.filter fun o => h.yields o.1 pass).map fun o => (devInput o.1,h.openNode o.1 o.2)

/-- A pass that nothing disturbs opens its names one after the other. -/
theorem run_openNext (pass : Pass) (opens : List (FileName × RawFd)) (h : Station F D)
    (tmp : List (Obs F D)) :
    ∃ dead, run step { h with underway := .opening pass (opens.map Prod.fst) tmp }
        (opens.map fun o => .openNext o.2) =
      ({ h with
          ctx := (h.ctx.openAll (h.openings pass opens)).1
          underway := .opening pass [] (tmp ++ (h.ctx.openAll (h.openings pass opens)).2)
          dead := dead },[]) := by
  induction opens generalizing h tmp with
  | nil => exact ⟨h.dead,by simp [openings,LibinputContext.openAll]⟩
  | cons o opens ih =>
    rw [List.map_cons,List.map_cons,run_cons]
    by_cases hyields : h.yields o.1 pass = true
    · obtain ⟨dead,hrest⟩ := ih (h.opened o.1 o.2).1 (tmp ++ (h.opened o.1 o.2).2)
      have hstep : step { h with underway := .opening pass (o.1 :: opens.map Prod.fst) tmp }
          (.openNext o.2) = ({ (h.opened o.1 o.2).1 with
            underway := .opening pass (opens.map Prod.fst) (tmp ++ (h.opened o.1 o.2).2) },[]) :=
        if_pos hyields
      have hopenings : h.openings pass (o :: opens) =
          (devInput o.1,h.openNode o.1 o.2) :: h.openings pass opens := by
        rw [openings,List.filter_cons,if_pos hyields]
        rfl
      refine ⟨dead,?_⟩
      rw [hstep,hrest,hopenings,List.append_assoc]
      rfl
    · obtain ⟨dead,hrest⟩ := ih h tmp
      have hstep : step { h with underway := .opening pass (o.1 :: opens.map Prod.fst) tmp }
          (.openNext o.2) =
            ({ h with underway := .opening pass (opens.map Prod.fst) tmp },[]) := if_neg hyields
      have hopenings : h.openings pass (o :: opens) = h.openings pass opens := by
        rw [openings,List.filter_cons,if_neg hyields]
        rfl
      refine ⟨dead,?_⟩
      rw [hstep,hrest,hopenings]
      rfl

omit [F32 F] [F64 D] [FloatCast F D] in
/-- A hotplug pass opens the names of its records that no tracked device has. -/
theorem newPaths_records (h : Station F D) (opens : List (FileName × RawFd)) :
    h.ctx.newPaths (opens.map fun o => ⟨some o.1,h.openNode o.1 o.2⟩) =
      h.openings .plug (opens.filter fun o => !h.holds o.1) := by
  induction opens with
  | nil => rfl
  | cons o opens ih =>
    have hhead : (h.ctx.backend.devices.entries.any fun e => e.2.path = devInput o.1) =
      h.holds o.1 := rfl
    rw [List.map_cons,List.filter_cons,LibinputContext.newPaths,List.filterMap_cons,
      Option.bind_some,hhead]
    cases h.holds o.1 with
    | true => exact ih
    | false => exact congrArg (List.cons _) ih

/-- The hotplug pass comes before everything else a drain does. -/
theorem drainIntoQueue_of_watch (ctx : LibinputContext F D) (inp : Dispatch)
    (hwatch : ctx.backend.inotify = true) (ievents : List InotifyEvent) :
    ctx.drainIntoQueue { inp with inotify := some ievents } =
      ((((ctx.openAll (ctx.newPaths ievents)).1.drainIntoQueue { inp with inotify := none }).1,
        (ctx.openAll (ctx.newPaths ievents)).2 ++
          ((ctx.openAll (ctx.newPaths ievents)).1.drainIntoQueue
            { inp with inotify := none }).2)) := by
  have hplug : ctx.handleHotplug (some ievents) = ctx.openAll (ctx.newPaths ievents) :=
    if_pos hwatch
  simp only [LibinputContext.drainIntoQueue,hplug,handleHotplug_none,List.nil_append,
    List.append_assoc]

/-- The scan of a seat that nothing disturbs is the call. -/
theorem run_assignSeat (h : Station F D) (seatName : String) (opens : List (FileName × RawFd))
    (hidle : h.underway = .idle) (hnames : (opens.map Prod.fst).Perm h.nodes.keys) :
    let r := run step h (.assignSeat seatName (opens.map Prod.fst) ::
      (opens.map fun o => .openNext o.2) ++ [.scanned])
    (r.1.ctx,r.2) = h.ctx.call (.assignSeat seatName (h.openings .scan opens)) := by
  intro r
  let named : Station F D := { h with
    ctx := { h.ctx with seat := { h.ctx.seat with logicalName := seatName } }
    listed := true }
  obtain ⟨dead,hpass⟩ := run_openNext .scan opens named []
  have hstep : h.step (.assignSeat seatName (opens.map Prod.fst)) =
      ({ named with underway := .opening .scan (opens.map Prod.fst) [] },[]) := by
    rw [step,hidle]
    exact if_pos hnames
  have hr : r = run step h (.assignSeat seatName (opens.map Prod.fst) ::
    (opens.map fun o => .openNext o.2) ++ [.scanned]) := rfl
  rw [List.cons_append,run_cons,hstep,run_append,hpass,run_singleton] at hr
  rw [hr]
  rfl

/-- A dispatch that nothing disturbs is the call, with what it read of the watch. -/
theorem run_dispatch (h : Station F D) (opens : List (FileName × RawFd)) (inp : Dispatch)
    (hidle : h.underway = .idle) (hwatch : h.ctx.backend.inotify = true)
    (hread : opens.map Prod.fst <+: h.records) :
    let r := run step h (.dispatch opens.length ::
      ((opens.filter fun o => !h.holds o.1).map fun o => .openNext o.2) ++ [.serve inp])
    (r.1.ctx,r.2) = h.ctx.call (.dispatch { inp with
      inotify := some (opens.map fun o => ⟨some o.1,h.openNode o.1 o.2⟩) }) := by
  intro r
  let new := opens.filter fun o => !h.holds o.1
  let left : Station F D := { h with records := h.records.drop opens.length }
  obtain ⟨dead,hpass⟩ := run_openNext .plug new left []
  have hnames : ((h.records.take opens.length).filter fun name => !h.holds name) =
      new.map Prod.fst := by
    have htake := List.prefix_iff_eq_take.mp hread
    rw [List.length_map] at htake
    rw [← htake,List.filter_map]
    rfl
  have hstep : h.step (.dispatch opens.length) =
      ({ left with underway := .opening .plug (new.map Prod.fst) [] },[]) := by
    rw [step,hidle]
    dsimp only
    rw [hnames]
  have hnew : h.ctx.newPaths (opens.map fun o => ⟨some o.1,h.openNode o.1 o.2⟩) =
      left.openings .plug new := newPaths_records h opens
  have hr : r = run step h (.dispatch opens.length ::
    (new.map fun o => .openNext o.2) ++ [.serve inp]) := rfl
  rw [List.cons_append,run_cons,hstep,run_append,hpass,run_singleton] at hr
  rw [hr]
  change _ = LibinputContext.enqueue (h.ctx.drainIntoQueue _)
  rw [drainIntoQueue_of_watch _ _ hwatch,hnew]
  rfl

end Calls

/-- Whenever a seat has been scanned and every record read, every node that passes is tracked. -/
def DevicesFound (interface : LibinputInterface) (nodes : AList (fun _ : FileName => EventNode))
    (inputs : List (StationInput D)) : Prop :=
  ∀ before, before <+: inputs → (after (F := F) interface nodes before).Settled →
    ∀ e ∈ (after (F := F) interface nodes before).nodes.entries,
      (after (F := F) interface nodes before).Wanted e.1 →
        (after (F := F) interface nodes before).TracksLive e.1

/-- In every run whose steps all meet the condition, the context tracks every node that passes
whenever nothing is pending. -/
theorem devices_found (interface : LibinputInterface)
    (nodes : AList (fun _ : FileName => EventNode)) (inputs : List (StationInput D))
    (hheeded : AtEach (fun before i => (after (F := F) interface nodes before).Heeded i) inputs) :
    DevicesFound (F := F) interface nodes inputs := by
  rintro before ⟨rest,rfl⟩ ⟨hlisted,hidle,hrecords⟩ ⟨name,n⟩ _ hwanted
  have hfinds : ∀ before : List (StationInput D), AtEach (fun before i =>
      (after (F := F) interface nodes before).Heeded i) before →
      (after (F := F) interface nodes before).Finds := by
    intro before
    induction before using List.reverseRecOn with
    | nil => exact fun _ => init_finds interface nodes
    | append_singleton before i ih =>
      intro hheeded
      obtain ⟨hfront,hlast⟩ := atEach_append.mp hheeded
      rw [atEach_singleton,List.append_nil] at hlast
      have hnext : after (F := F) interface nodes (before ++ [i]) =
          ((after (F := F) interface nodes before).step i).1 := by
        rw [after,run_append,run_singleton]
        rfl
      exact hnext ▸ step_finds (ih hfront) hlast
  rcases hfinds before (atEach_append.mp hheeded).1 name hwanted with
    hlive | hrecord | hunlisted | htodo
  · exact hlive
  · rw [hrecords] at hrecord
    cases hrecord
  · rw [hlisted] at hunlisted
    cases hunlisted
  · rw [Underway.eq_idle hidle] at htodo
    cases htodo

/-- A touchpad appears while the seat is scanned, and a keyboard that may not be opened yet. The
touchpad is unplugged, a dispatch finds it gone, and it comes back under its old name. -/
theorem devices_found_over_replug : DevicesFound (F := ℚ) (D := ℚ) ⟨true,true⟩ ∅
    [.assignSeat "seat0" [],.create .event3 ⟨some plainTouchpad,true⟩ true,.scanned,
      .create .event4 ⟨none,false⟩ true,.dispatch 2,.openNext 5,.openNext 6,
      .serve ⟨none,0,[],fun _ => .wouldBlock⟩,
      .change .event4 ⟨some plainKeyboard,true⟩ true,.remove .event3,.dispatch 1,.openNext 6,
      .serve ⟨none,1,[],fun fd => if fd = 5 then .gone else .wouldBlock⟩,
      .create .event3 ⟨some plainTouchpad,true⟩ true,.dispatch 1,.openNext 5,
      .serve ⟨none,2,[],fun _ => .wouldBlock⟩] :=
  devices_found _ _ _ (by decide +kernel)

end Station
end LibinputRs
