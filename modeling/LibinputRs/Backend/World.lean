import LibinputRs.Api
import LibinputRs.Backend.DeviceSteps

/-! The library as a transition system. A world forgets the queue, the settings and the order
of the device map; a tick is one thing that can happen to it. -/
namespace LibinputRs

variable {F D : Type}

/-- What the ticks are about: which devices are tracked, and how many were allocated. The
client's callbacks, its reference to the context and the inotify watch stay as they are. -/
structure World (F D : Type) where
  interface : LibinputInterface
  refcount : ℤ
  inotify : Bool
  tracked : RawFd → Option (TrackedDevice F D)
  devices : ℕ

namespace World

/-- The descriptor action of an open that went through the client's callback. -/
def opened (w : World F D) (fd : RawFd) : List (Obs F D) :=
  if w.interface.openRestricted then [.fd (.opened fd)] else []

/-- The descriptor action of a close through the client's callback. -/
def closed (w : World F D) (fd : RawFd) : List (Obs F D) :=
  if w.interface.closeRestricted then [.fd (.closeRestricted fd)] else []

def set (w : World F D) (fd : RawFd) (td : Option (TrackedDevice F D)) : World F D :=
  { w with tracked := Function.update w.tracked fd td }

@[simp] theorem set_self (w : World F D) (fd : RawFd) (td : Option (TrackedDevice F D)) :
    (w.set fd td).tracked fd = td := Function.update_self ..

theorem set_of_ne (w : World F D) {fd fd' : RawFd} (td : Option (TrackedDevice F D))
    (h : fd' ≠ fd) : (w.set fd td).tracked fd' = w.tracked fd' := Function.update_of_ne h ..

theorem set_eq_self {w : World F D} {fd : RawFd} {td : Option (TrackedDevice F D)}
    (h : w.tracked fd = td) : w.set fd td = w := by
  simp [set,← h]

/-- The devices tracked after one entry of the table was replaced. -/
theorem tracked_set {w : World F D} {fd fd' : RawFd} {td : Option (TrackedDevice F D)}
    {td' : TrackedDevice F D} (h : (w.set fd td).tracked fd' = some td') :
    (fd' = fd ∧ td = some td') ∨ (fd' ≠ fd ∧ w.tracked fd' = some td') := by
  by_cases hfd : fd' = fd
  · subst hfd
    exact .inl ⟨rfl,by simpa using h⟩
  · exact .inr ⟨hfd,by simpa [set_of_ne w td hfd] using h⟩

end World

/-- A descriptor action or a delivery: nothing is processed or queued. -/
def Obs.Silent : Obs F D → Prop
  | .fd _ | .delivered _ => True
  | .processed _ | .queued _ => False

theorem produced_of_silent {o : List (Obs F D)} (h : ∀ x ∈ o, x.Silent) : produced o = [] := by
  refine List.flatMap_eq_nil_iff.mpr fun x hx => ?_
  have hsilent := h x hx
  cases x with
  | fd a => rfl
  | delivered e => rfl
  | processed p => exact hsilent.elim
  | queued e => exact hsilent.elim

theorem opened_silent (w : World F D) (fd : RawFd) : ∀ x ∈ w.opened fd, x.Silent := by
  unfold World.opened
  split_ifs
  · exact List.forall_mem_singleton.mpr trivial
  · exact List.forall_mem_nil _

theorem closed_silent (w : World F D) (fd : RawFd) : ∀ x ∈ w.closed fd, x.Silent := by
  unfold World.closed
  split_ifs
  · exact List.forall_mem_singleton.mpr trivial
  · exact List.forall_mem_nil _

/-- A removal queues the one notification. -/
theorem produced_removal (w : World F D) (fd : RawFd) (d : DevicePtr) :
    produced (.fd (.epollDel fd) :: w.closed fd ++ [.queued (.removed d),.fd (.dropped fd)]) =
      [.removed d] := by
  rw [List.cons_append,produced_cons,produced_append,produced_of_silent (closed_silent w fd)]
  rfl

/-- An admission queues the one notification. -/
theorem produced_admission (w : World F D) (fd : RawFd) (d : DevicePtr) :
    produced (w.opened fd ++ [.fd (.epollAdd fd),.queued (.added d)]) = [.added d] := by
  rw [produced_append,produced_of_silent (opened_silent w fd)]
  rfl

variable [F32 F] [F64 D] [FloatCast F D]

/-- One thing that happens to the library: a node refused at one of the filters, a node
admitted, the repeats of one device, one kernel event, one removal, one delivery. -/
inductive Tick : World F D → List (Obs F D) → World F D → Prop
  | probeFailed (w) (fd : RawFd) (h : w.interface.openRestricted = true) :
      Tick w (.fd (.opened fd) :: .fd (.dropped fd) :: w.closed fd) w
  | filtered (w) (fd : RawFd) (device : EvdevDevice) (h : passesFilters device = false) :
      Tick w (w.opened fd ++ [.fd (.dropped fd)]) w
  | alreadyTracked (w) (fd : RawFd) (device : EvdevDevice) (h : passesFilters device = true)
      (ht : (w.tracked fd).isSome) :
      Tick w (w.opened fd ++ [.fd (.dropped fd)]) { w with devices := w.devices + 1 }
  | admitted (w) (fd : RawFd) (device : EvdevDevice) (path : PathBuf)
      (h : passesFilters device = true) (ht : w.tracked fd = none) :
      Tick w (w.opened fd ++ [.fd (.epollAdd fd),.queued (.added w.devices)])
        (({ w with devices := w.devices + 1 }).set fd (some (.new device path w.devices)))
  | repeats (w) (fd : RawFd) (td : TrackedDevice F D) (now : Instant)
      (ht : w.tracked fd = some td) :
      Tick w ((td.emitKeyRepeats now).2.map .queued)
        (w.set fd (some (td.emitKeyRepeats now).1))
  | event (w) (fd : RawFd) (td : TrackedDevice F D) (cfg : Settings F)
      (typing live : Option Instant) (te : TimedEvent) (ht : w.tracked fd = some td) :
      Tick w (TrackedDevice.observeEvent cfg typing (td,live) te).2
        (w.set fd (some (TrackedDevice.observeEvent cfg typing (td,live) te).1.1))
  | removed (w) (fd : RawFd) (td : TrackedDevice F D) (ht : w.tracked fd = some td) :
      Tick w (.fd (.epollDel fd) :: w.closed fd ++
        [.queued (.removed td.libDevice),.fd (.dropped fd)]) (w.set fd none)
  | delivered (w) (e : LibinputEvent D) : Tick w [.delivered e] w

theorem Tick.refcount {w w' : World F D} {o : List (Obs F D)} (h : Tick w o w') :
    w'.refcount = w.refcount := by
  cases h <;> rfl

theorem Tick.interface {w w' : World F D} {o : List (Obs F D)} (h : Tick w o w') :
    w'.interface = w.interface := by
  cases h <;> rfl

theorem Tick.inotify {w w' : World F D} {o : List (Obs F D)} (h : Tick w o w') :
    w'.inotify = w.inotify := by
  cases h <;> rfl

/-- The ticks by what they queue: nothing, or the notification or the input of one device. -/
inductive TickKind (w : World F D) : List (Obs F D) → World F D → Prop
  | silent (o : List (Obs F D)) (w' : World F D) (hsilent : ∀ x ∈ o, x.Silent)
      (htracked : w'.tracked = w.tracked) (hdevices : w.devices ≤ w'.devices) : TickKind w o w'
  | admitted (fd : RawFd) (device : EvdevDevice) (path : PathBuf) (ht : w.tracked fd = none) :
      TickKind w (w.opened fd ++ [.fd (.epollAdd fd),.queued (.added w.devices)])
        (({ w with devices := w.devices + 1 }).set fd (some (.new device path w.devices)))
  | repeats (fd : RawFd) (td : TrackedDevice F D) (now : Instant) (ht : w.tracked fd = some td) :
      TickKind w ((td.emitKeyRepeats now).2.map .queued)
        (w.set fd (some (td.emitKeyRepeats now).1))
  | event (fd : RawFd) (td : TrackedDevice F D) (cfg : Settings F)
      (typing live : Option Instant) (te : TimedEvent) (ht : w.tracked fd = some td) :
      TickKind w (TrackedDevice.observeEvent cfg typing (td,live) te).2
        (w.set fd (some (TrackedDevice.observeEvent cfg typing (td,live) te).1.1))
  | removed (fd : RawFd) (td : TrackedDevice F D) (ht : w.tracked fd = some td) :
      TickKind w (.fd (.epollDel fd) :: w.closed fd ++
        [.queued (.removed td.libDevice),.fd (.dropped fd)]) (w.set fd none)

theorem Tick.kind {w w' : World F D} {o : List (Obs F D)} (h : Tick w o w') : TickKind w o w' := by
  cases h with
  | probeFailed fd hopen =>
    refine .silent _ _ (fun x hx => ?_) rfl le_rfl
    rcases List.mem_cons.mp hx with rfl | hx
    · trivial
    rcases List.mem_cons.mp hx with rfl | hx
    · trivial
    · exact closed_silent w fd x hx
  | filtered fd device hfail =>
    exact .silent _ _ (List.forall_mem_append.mpr
      ⟨opened_silent w fd,List.forall_mem_singleton.mpr trivial⟩) rfl le_rfl
  | alreadyTracked fd device hpass ht =>
    exact .silent _ _ (List.forall_mem_append.mpr
      ⟨opened_silent w fd,List.forall_mem_singleton.mpr trivial⟩) rfl (Nat.le_succ _)
  | admitted fd device path hpass ht => exact .admitted fd device path ht
  | repeats fd td now ht => exact .repeats fd td now ht
  | event fd td cfg typing live te ht => exact .event fd td cfg typing live te ht
  | removed fd td ht => exact .removed fd td ht
  | delivered e => exact .silent _ _ (List.forall_mem_singleton.mpr trivial) rfl le_rfl

/-- Sequences of ticks. -/
abbrev Ticks : World F D → List (Obs F D) → World F D → Prop := Automata.Steps Tick

namespace LibinputContext
open Automata

/-- What the ticks see of a context. -/
def view (ctx : LibinputContext F D) : World F D where
  interface := ctx.interface
  refcount := ctx.refcount
  inotify := ctx.backend.inotify
  tracked := ctx.tracked
  devices := ctx.devices.length

omit [F32 F] [F64 D] [FloatCast F D] in
theorem view_setTracked (ctx : LibinputContext F D) (fd : RawFd) (td : TrackedDevice F D) :
    (ctx.setTracked fd td).view = ctx.view.set fd (some td) := by
  simp only [view,World.set,setTracked,World.mk.injEq,true_and]
  refine ⟨funext fun fd' => ?_,trivial⟩
  by_cases h : fd' = fd
  · subst h
    simp [tracked]
  · simp [tracked,h]

omit [F32 F] [F64 D] [FloatCast F D] in
theorem view_eraseTracked (ctx : LibinputContext F D) (fd : RawFd) :
    (ctx.eraseTracked fd).view = ctx.view.set fd none := by
  simp only [view,World.set,eraseTracked,World.mk.injEq,true_and]
  refine ⟨funext fun fd' => ?_,trivial⟩
  by_cases h : fd' = fd
  · subst h
    simp [tracked]
  · simp [tracked,h]

omit [F32 F] [F64 D] [FloatCast F D] in
@[simp] theorem view_setTyping (ctx : LibinputContext F D) (t : Option Instant) :
    (ctx.setTyping t).view = ctx.view := rfl

omit [F32 F] [F64 D] [FloatCast F D] in
theorem view_pushDevice (ctx : LibinputContext F D) (dev : LibinputDevice F D) :
    LibinputContext.view { ctx with devices := ctx.devices ++ [dev] } =
      { ctx.view with devices := ctx.view.devices + 1 } :=
  congrArg (World.mk ctx.interface ctx.refcount ctx.backend.inotify ctx.tracked) (by simp [view])

omit [FloatCast F D] in
/-- The three ends of an admission: filtered, already tracked, tracked. -/
theorem openProbed_cases (ctx : LibinputContext F D) (path : PathBuf) (fd : RawFd)
    (device : EvdevDevice) :
    (passesFilters device = false ∧ ctx.openProbed path fd device = (ctx,[.fd (.dropped fd)])) ∨
    (passesFilters device = true ∧ (ctx.tracked fd).isSome = true ∧
      ctx.openProbed path fd device = ({ ctx with devices := ctx.devices ++ [.ofEvdev device path] },
        [.fd (.dropped fd)])) ∨
    (passesFilters device = true ∧ ctx.tracked fd = none ∧
      ctx.openProbed path fd device =
        (({ ctx with devices := ctx.devices ++ [.ofEvdev device path] } :
          LibinputContext F D).setTracked fd (.new device path ctx.devices.length),
          [.fd (.epollAdd fd),.queued (.added ctx.devices.length)])) := by
  unfold openProbed
  by_cases hname : isOwnVirtualDevice device.nameOrUnknown
  · rw [if_pos hname]
    exact .inl ⟨by simp [passesFilters,hname],rfl⟩
  rw [if_neg hname]
  by_cases hclass : (!advertisedPointer device && !device.hasKeyA) = true
  · rw [if_pos hclass]
    simp only [Bool.and_eq_true,Bool.not_eq_true'] at hclass
    exact .inl ⟨by simp [passesFilters,hclass],rfl⟩
  rw [if_neg hclass]
  have hpass : passesFilters device = true := by
    simp only [Bool.and_eq_true,Bool.not_eq_true',not_and,Bool.not_eq_false] at hclass
    cases hp : advertisedPointer device <;> simp [passesFilters,hname,hp,hclass]
  by_cases ht : (ctx.tracked fd).isSome = true
  · exact .inr (.inl ⟨hpass,ht,if_pos ht⟩)
  · exact .inr (.inr ⟨hpass,Option.not_isSome_iff_eq_none.mp ht,if_neg ht⟩)

/-- Whether an open reaches the probe: the path can be passed on, and a descriptor came back. -/
def Reaches (interface : LibinputInterface) (path : PathBuf) (fd : RawFd) : Prop :=
  (interface.openRestricted = true → ¬ path.HasNul) ∧ 0 ≤ fd

instance (interface : LibinputInterface) (path : PathBuf) (fd : RawFd) :
    Decidable (Reaches interface path fd) := inferInstanceAs (Decidable (_ ∧ _))

omit [FloatCast F D] in
/-- The ends of an open: nothing was opened, the probe failed, or the device goes through
admission. -/
theorem tryOpen_cases (ctx : LibinputContext F D) (path : PathBuf) (r : OpenResult) :
    ((¬ Reaches ctx.interface path r.rawFd ∨ r.probe = none) ∧ ctx.tryOpen path r = (ctx,[])) ∨
    (r.probe = none ∧ ctx.interface.openRestricted = true ∧
      ctx.tryOpen path r = (ctx,.fd (.opened r.rawFd) :: .fd (.dropped r.rawFd) ::
        ctx.view.closed r.rawFd)) ∨
    ∃ device, r.probe = some device ∧ Reaches ctx.interface path r.rawFd ∧
      ctx.tryOpen path r = ((ctx.openProbed path r.rawFd device).1,
        ctx.view.opened r.rawFd ++ (ctx.openProbed path r.rawFd device).2) := by
  unfold tryOpen
  by_cases hcb : ctx.interface.openRestricted = true
  · rw [if_pos hcb]
    by_cases hfail : path.HasNul ∨ r.rawFd < 0
    · rw [if_pos hfail]
      refine .inl ⟨.inl fun hreach => ?_,rfl⟩
      exact hfail.elim (hreach.1 hcb) (not_lt.mpr hreach.2)
    rw [if_neg hfail]
    rw [not_or,not_lt] at hfail
    cases hprobe : r.probe with
    | none => exact .inr (.inl ⟨rfl,hcb,rfl⟩)
    | some device =>
      have hopened : ctx.view.opened r.rawFd = [.fd (.opened r.rawFd)] := if_pos hcb
      exact .inr (.inr ⟨device,rfl,⟨fun _ => hfail.1,hfail.2⟩,by rw [hopened]; rfl⟩)
  · rw [if_neg hcb]
    cases hprobe : r.probe with
    | none => exact .inl ⟨.inr rfl,rfl⟩
    | some device =>
      dsimp only
      by_cases hfail : r.rawFd < 0
      · rw [if_pos hfail]
        exact .inl ⟨.inl fun hreach => not_lt.mpr hreach.2 hfail,rfl⟩
      · rw [if_neg hfail]
        have hopened : ctx.view.opened r.rawFd = [] := if_neg hcb
        refine .inr (.inr ⟨device,rfl,⟨fun h => absurd h hcb,not_lt.mp hfail⟩,?_⟩)
        rw [hopened,List.nil_append]

end LibinputContext
end LibinputRs
