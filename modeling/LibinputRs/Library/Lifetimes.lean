import LibinputRs.Automata.Ownership
import LibinputRs.Automata.Sessions
import LibinputRs.Backend.Ticks
import LibinputRs.Library.DrainLoops

/-! The objects behind the C interface. A context owns its seat and every device object it ever
made, and frees them with itself; the client counts references to all of them, but only the count
of the context and an excess of `libinput_device_unref` ever free anything. Events belong to the
client that took them from the queue. -/
namespace LibinputRs
open Automata

variable {F D : Type}

/-- The heap objects a client holds pointers to. Events are numbered as the client gets them. -/
inductive Object
  | context
  | seat
  | device (d : DevicePtr)
  | event (n : ℕ)
  deriving DecidableEq, Repr

/-- The calls of a client: those of a run, and those that count references, read a device or its
seat, or read and destroy an event. -/
inductive ClientCall (D : Type)
  | call (c : Call D)
  | ref
  | unref
  | deviceRef (d : DevicePtr)
  | deviceUnref (d : DevicePtr)
  | deviceGet (d : DevicePtr)
  | deviceSetSeatLogicalName (d : DevicePtr) (name : String)
  | seatRef
  | seatUnref
  | seatGet
  | eventGet (n : ℕ)
  | eventDestroy (n : ℕ)

/-- The objects that a call follows a pointer of the client to. -/
def Call.touches : Call D → List Object
  | .assignSeat _ _ => [.context,.seat]
  | .addDevice _ _ => [.context]
  | .removeDevice d => [.device d]
  | .dispatch _ => [.context]
  | .getEvent => [.context]
  | .nextEventType => [.context]
  | .configure d _ => [.device d]

namespace ClientCall

def touches : ClientCall D → List Object
  | .call c => c.touches
  | .ref => [.context]
  | .unref => [.context]
  | .deviceRef d => [.device d]
  | .deviceUnref d => [.device d]
  | .deviceGet d => [.device d]
  | .deviceSetSeatLogicalName d _ => [.device d,.seat]
  | .seatRef => [.seat]
  | .seatUnref => [.seat]
  | .seatGet => [.seat]
  | .eventGet n => [.event n]
  | .eventDestroy n => [.event n]

/-- What a call adds to the references to the context that the client holds. -/
def contextWeight : ClientCall D → ℤ
  | .ref => 1
  | .unref => -1
  | _ => 0

/-- What it adds to those it holds to a device. -/
def deviceWeight (d : DevicePtr) : ClientCall D → ℤ
  | .deviceRef c => if c = d then 1 else 0
  | .deviceUnref c => if c = d then -1 else 0
  | _ => 0

theorem contextWeight_le (c : ClientCall D) : c.contextWeight ≤ 1 := by
  cases c <;> simp [contextWeight]

theorem deviceWeight_le (d : DevicePtr) (c : ClientCall D) : c.deviceWeight d ≤ 1 := by
  cases c with
  | deviceRef e => by_cases he : e = d <;> simp [deviceWeight,he]
  | deviceUnref e => by_cases he : e = d <;> simp [deviceWeight,he]
  | _ => exact zero_le_one

def destroyed : ClientCall D → Option ℕ
  | .eventDestroy n => some n
  | _ => none

def unreffed : ClientCall D → Option DevicePtr
  | .deviceUnref d => some d
  | _ => none

end ClientCall

/-- The references to the context that a client holds after its calls; it has one to begin with. -/
def contextHolds (calls : List (ClientCall D)) : ℤ := 1 + (calls.map ClientCall.contextWeight).sum

/-- Those it holds to a device; the first reference to it is that of the context. -/
def deviceHolds (d : DevicePtr) (calls : List (ClientCall D)) : ℤ :=
  (calls.map (ClientCall.deviceWeight d)).sum

variable [F32 F] [F64 D] [FloatCast F D]

namespace LibinputContext

/-- The device whose settings one turn of the device loop reads. -/
def settingsReadAt (fetch : RawFd → Fetch) (s : LibinputContext F D × List RawFd) (fd : RawFd) :
    List DevicePtr :=
  match s.1.tracked fd,fetch fd with
  | some td,.batch _ => [td.libDevice]
  | _,_ => []

/-- The devices whose settings a dispatch reads, in the order of its device loop. -/
def settingsRead (ctx : LibinputContext F D) (inp : Dispatch) : List DevicePtr :=
  let hotplug := ctx.handleHotplug inp.inotify
  let fds := iterationOrder inp.order hotplug.1.backend.devices.keys
  let repeats := run (repeatDevice inp.now) hotplug.1 fds
  (run (fun s fd => ((drainDevice inp.fetch s fd).1,settingsReadAt inp.fetch s fd))
    (repeats.1,[]) fds).2

/-- The device objects that a call follows the pointers of the backend to. -/
def reads (ctx : LibinputContext F D) : Call D → List DevicePtr
  | .dispatch inp => ctx.settingsRead inp
  | _ => []

omit [F32 F] [F64 D] [FloatCast F D] in
/-- `drop(Box::from_raw(ctx))`: the seat, every device of the list, the context itself. -/
def freed (ctx : LibinputContext F D) : List Object :=
  .seat :: (List.range ctx.devices.length).map .device ++ [.context]

end LibinputContext

/-- A client and its context. The context is there until its last reference is given back; the
counts are those in the objects, which wrap around, and events are numbered in the order the client
took them. -/
structure Session (F D : Type) where
  context : Option (LibinputContext F D)
  seatRefcount : ℤ
  deviceRefcount : DevicePtr → ℤ
  obtained : ℕ

namespace Session

/-- The context is made; every device object comes with a count of one. -/
def start (interface : LibinputInterface) (inotify : Bool) : Session F D :=
  ⟨some (.new interface inotify),1,fun _ => 1,0⟩

/-- The state after a call. A call after the context is gone is on freed memory. -/
def next (s : Session F D) : ClientCall D → Session F D
  | .call c =>
    match s.context with
    | none => s
    | some ctx => { s with
        context := some (ctx.call c).1
        obtained := s.obtained + (delivered (ctx.call c).2).length }
  | .ref => { s with context := s.context.map LibinputContext.libinputRef }
  | .unref => { s with context := s.context.bind fun ctx => ctx.libinputUnref.1 }
  | .deviceRef d =>
    { s with deviceRefcount :=
        Function.update s.deviceRefcount d (i32Wrap (s.deviceRefcount d + 1)) }
  | .deviceUnref d =>
    { s with deviceRefcount :=
        Function.update s.deviceRefcount d (i32Wrap (s.deviceRefcount d - 1)) }
  | .deviceSetSeatLogicalName _ name => { s with
      context := s.context.map fun ctx => { ctx with seat := { ctx.seat with logicalName := name } } }
  | .seatRef => { s with seatRefcount := i32Wrap (s.seatRefcount + 1) }
  | .seatUnref => { s with seatRefcount := i32Wrap (s.seatRefcount - 1) }
  | .deviceGet _ => s
  | .seatGet => s
  | .eventGet _ => s
  | .eventDestroy _ => s

/-- What a call does to the heap after it has followed the pointers of the client: the devices it
makes, those it reads and the event it boxes; the drop of the context; the device whose count
falls to zero; the event. -/
def effects (s : Session F D) : ClientCall D → List (MemAction Object)
  | .call c =>
    match s.context with
    | none => []
    | some ctx =>
      ((List.range' ctx.devices.length ((ctx.call c).1.devices.length - ctx.devices.length)).map
        Object.device).map .alloc ++
      ((ctx.reads c).map Object.device).map .access ++
      ((List.range' s.obtained (delivered (ctx.call c).2).length).map Object.event).map .alloc
  | .unref =>
    match s.context with
    | none => []
    | some ctx => if ctx.libinputUnref.1 = none then ctx.freed.map .free else []
  | .deviceUnref d => if i32Wrap (s.deviceRefcount d - 1) ≤ 0 then [.free (.device d)] else []
  | .eventDestroy n => [.free (.event n)]
  | _ => []

def step (s : Session F D) (c : ClientCall D) : Session F D × List (MemAction Object) :=
  (s.next c,c.touches.map .access ++ s.effects c)

/-- A client that still holds its context gives it back in the end. -/
def finish (s : Session F D) : List (MemAction Object) :=
  match s.context with
  | none => []
  | some ctx => .access .context :: ctx.freed.map .free

/-- The number of device objects there are. -/
def devices (s : Session F D) : ℕ := (s.context.map fun ctx => ctx.devices.length).getD 0

end Session

/-- The state after the calls of a client. -/
def sessionAfter (interface : LibinputInterface) (inotify : Bool) (calls : List (ClientCall D)) :
    Session F D := (run Session.step (.start interface inotify) calls).1

variable (F) in
/-- All that happens on the heap from the creation of a context to its end. -/
def lifetime (interface : LibinputInterface) (inotify : Bool) (calls : List (ClientCall D)) :
    List (MemAction Object) :=
  .alloc .seat :: .alloc .context ::
    (run Session.step (.start (F := F) interface inotify) calls).2 ++
      (sessionAfter (F := F) interface inotify calls).finish

/-- An object a client may use: the context and its seat while it holds the context, the devices
made so far, the events it took and did not destroy. -/
def Usable (before : List (ClientCall D)) (s : Session F D) : Object → Prop
  | .context => 0 < contextHolds before
  | .seat => 0 < contextHolds before
  | .device d => d < s.devices
  | .event n => n < s.obtained ∧ ∀ c ∈ before, c.destroyed ≠ some n

/-- A call that a client may make: all it names is usable, and it gives no reference to a device
back that it does not hold. -/
def Permitted (before : List (ClientCall D)) (s : Session F D) (c : ClientCall D) : Prop :=
  (∀ o ∈ c.touches, Usable before s o) ∧ ∀ d ∈ c.unreffed, 0 < deviceHolds d before

omit [F32 F] [F64 D] [FloatCast F D] in
instance decidableUsable (before : List (ClientCall D)) (s : Session F D) :
    (o : Object) → Decidable (Usable before s o)
  | .context => inferInstanceAs (Decidable (0 < contextHolds before))
  | .seat => inferInstanceAs (Decidable (0 < contextHolds before))
  | .device d => inferInstanceAs (Decidable (d < s.devices))
  | .event n => inferInstanceAs (Decidable (n < s.obtained ∧ ∀ c ∈ before, c.destroyed ≠ some n))

instance (before : List (ClientCall D)) (s : Session F D) (c : ClientCall D) :
    Decidable (Permitted before s c) := inferInstanceAs (Decidable (_ ∧ _))

variable (F) in
/-- A client all of whose calls are permitted. -/
def Disciplined (interface : LibinputInterface) (inotify : Bool) (calls : List (ClientCall D)) :
    Prop :=
  AtEach (fun before c => Permitted before (sessionAfter (F := F) interface inotify before) c) calls

/-- The client never holds 2^31 references to its context or to a device, so that the 32-bit counts
know how many there are. -/
def FewReferences (calls : List (ClientCall D)) : Prop :=
  AtEach (fun before _ => contextHolds before < 2^31 ∧ ∀ d, deviceHolds d before < 2^31) calls

section Context

/-- What a call leaves of the count and the device objects. -/
theorem LibinputContext.call_keeps (ctx : LibinputContext F D) (c : Call D) :
    (ctx.call c).1.refcount = ctx.refcount ∧
      ctx.devices.length ≤ (ctx.call c).1.devices.length := by
  have hticks := (call_turns ctx c).ticks
  exact ⟨hticks.history (fun _ w => w.refcount = ctx.refcount)
    (fun _ _ _ _ h ht => ht.refcount.trans h) rfl,hticks.devices_le⟩

omit [F32 F] [F64 D] [FloatCast F D] in
/-- The count of the context is none of the business of its devices. -/
theorem view_recount {ctx : LibinputContext F D} (hw : ctx.view.WellFormed) (n : ℤ) :
    ({ ctx with refcount := n } : LibinputContext F D).view.WellFormed :=
  ⟨hw.allocated,hw.distinct,hw.noKeys⟩

/-- A dispatch reads the settings of devices that are there after its hotplug pass. -/
theorem LibinputContext.settingsRead_lt (ctx : LibinputContext F D) (hw : ctx.view.WellFormed)
    (inp : Dispatch) : ∀ d ∈ ctx.settingsRead inp, d < (ctx.drainIntoQueue inp).1.devices.length := by
  have hhot := handleHotplug_wellFormed hw inp.inotify
  unfold settingsRead drainIntoQueue
  extract_lets hotplug fds repeats events removals
  have hrepeats : repeats.1.view.WellFormed :=
    (run_turns id (repeatDevice_turns inp.now) hotplug.1 fds).ticks.wellFormed hhot
  have hevents : events.1.1.devices = repeats.1.devices :=
    run_invariant (drainDevice inp.fetch) (fun s => s.1.devices = repeats.1.devices)
      (fun s fd _ hs => (drainDevice_devices inp.fetch s fd).trans hs) rfl
  have hremovals : removals.1.devices = events.1.1.devices := by
    refine run_invariant removeDead (fun c => c.devices = events.1.1.devices) (fun c fd _ hc => ?_) rfl
    unfold removeDead
    cases c.tracked fd <;> exact hc
  rw [hremovals,hevents]
  refine run_outputs _ (fun s => s.1.view.WellFormed ∧ s.1.devices = repeats.1.devices) _ ?_ ?_
    ⟨hrepeats,rfl⟩ fds
  · rintro s fd ⟨hs,hdevices⟩
    exact ⟨(drainDevice_turns inp.fetch s fd).ticks.wellFormed hs,
      (drainDevice_devices inp.fetch s fd).trans hdevices⟩
  · rintro s fd ⟨hs,hdevices⟩ d hd
    rw [← hdevices]
    dsimp only [settingsReadAt] at hd
    cases ht : s.1.tracked fd with
    | none => simp [ht] at hd
    | some td =>
      cases hf : inp.fetch fd with
      | batch events =>
        rw [ht,hf,List.mem_singleton] at hd
        exact hd ▸ hs.allocated fd td ht
      | wouldBlock => simp [ht,hf] at hd
      | gone => simp [ht,hf] at hd
      | failed => simp [ht,hf] at hd

theorem LibinputContext.reads_lt (ctx : LibinputContext F D) (hw : ctx.view.WellFormed)
    (c : Call D) : ∀ d ∈ ctx.reads c, d < (ctx.call c).1.devices.length := by
  cases c with
  | dispatch inp => exact ctx.settingsRead_lt hw inp
  | _ => exact List.forall_mem_nil _

end Context

section Heap

omit [F32 F] [F64 D] [FloatCast F D] in
@[simp] theorem contextHolds_concat (before : List (ClientCall D)) (c : ClientCall D) :
    contextHolds (before ++ [c]) = contextHolds before + c.contextWeight := by
  simp [contextHolds,add_assoc]

omit [F32 F] [F64 D] [FloatCast F D] in
@[simp] theorem deviceHolds_concat (d : DevicePtr) (before : List (ClientCall D))
    (c : ClientCall D) : deviceHolds d (before ++ [c]) = deviceHolds d before + c.deviceWeight d := by
  simp [deviceHolds]

/-- What giving a reference to a device back leaves of its count: the references to it that the
client held. -/
theorem deviceCount_after {n : ℤ} (hn : 0 ≤ n ∧ n < 2^31) : i32Wrap (i32Wrap (1 + n) - 1) = n := by
  rw [i32Wrap_wrap_sub,add_sub_cancel_left]
  exact i32Wrap_of_fits ⟨by omega,by omega⟩

/-- The heap of a disciplined client: its context and so many devices, and the events it took. -/
def heapOf (alive : Bool) (devices obtained : ℕ) (before : List (ClientCall D)) : Heap Object
  | .context => if alive then .live else .freed
  | .seat => if alive then .live else .freed
  | .device d => if d < devices then if alive then .live else .freed else .unborn
  | .event n =>
    if n < obtained then
      if before.any fun c => decide (c.destroyed = some n) then .freed else .live
    else .unborn

omit [F32 F] [F64 D] [FloatCast F D] in
theorem heapOf_concat {c : ClientCall D} (hc : c.destroyed = none) (alive : Bool)
    (devices obtained : ℕ) (before : List (ClientCall D)) :
    heapOf alive devices obtained (before ++ [c]) = heapOf alive devices obtained before := by
  funext o
  cases o <;> simp [heapOf,hc]

omit [F32 F] [F64 D] [FloatCast F D] in
theorem heapOf_event_live {alive : Bool} {devices obtained n : ℕ} {before : List (ClientCall D)} :
    heapOf alive devices obtained before (.event n) = .live ↔
      n < obtained ∧ ∀ c ∈ before, c.destroyed ≠ some n := by
  have hany : (before.any fun c => decide (c.destroyed = some n)) = false ↔
      ∀ c ∈ before, c.destroyed ≠ some n := by simp
  rw [heapOf]
  split_ifs with hn hd
  · exact iff_of_false (by simp) fun h => by simp [hany.mpr h.2] at hd
  · exact iff_of_true rfl ⟨hn,hany.mp (Bool.eq_false_iff.mpr hd)⟩
  · exact iff_of_false (by simp) fun h => hn h.1

omit [F32 F] [F64 D] [FloatCast F D] in
theorem heapOf_destroyed (alive : Bool) (devices : ℕ) {obtained n : ℕ} (hn : n < obtained)
    (before : List (ClientCall D)) :
    (heapOf alive devices obtained before).after [.free (.event n)] =
      heapOf alive devices obtained (before ++ [.eventDestroy n]) := by
  funext o
  by_cases ho : o = .event n
  · subst ho
    simp [Heap.act,MemAction.object,MemAction.leaves,heapOf,hn,ClientCall.destroyed]
  · have hne : ∀ a ∈ [MemAction.free (.event n)], a.object ≠ o :=
      List.forall_mem_singleton.mpr fun heq => ho heq.symm
    rw [Heap.after_of_ne hne]
    cases o with
    | event m =>
      have hm : n ≠ m := fun heq => ho (heq ▸ rfl)
      simp [heapOf,ClientCall.destroyed,hm]
    | _ => rfl

omit [F32 F] [F64 D] [FloatCast F D] in
/-- New device objects. -/
theorem heapOf_devices {n m : ℕ} (hle : n ≤ m) (obtained : ℕ) (before : List (ClientCall D)) :
    (heapOf true n obtained before).after
      (((List.range' n (m - n)).map Object.device).map .alloc) = heapOf true m obtained before := by
  rw [Heap.after_allocs]
  funext o
  cases o with
  | device d =>
    have hmem : Object.device d ∈ (List.range' n (m - n)).map Object.device ↔ n ≤ d ∧ d < m := by
      simp only [List.mem_map,Object.device.injEq,exists_eq_right,List.mem_range'_1,
        Nat.add_sub_cancel' hle]
    rw [if_congr hmem rfl rfl]
    by_cases hn : n ≤ d
    · simp [heapOf,hn,not_lt.mpr hn]
    · have hd : d < n := not_le.mp hn
      simp [heapOf,hn,hd,hd.trans_le hle]
  | _ => simp [heapOf]

omit [F32 F] [F64 D] [FloatCast F D] in
/-- New events, none of which was destroyed before. -/
theorem heapOf_events {n obtained : ℕ} {before : List (ClientCall D)}
    (hbefore : ∀ c ∈ before, ∀ n ∈ c.destroyed, n < obtained) (k : ℕ) :
    (heapOf true n obtained before).after
      (((List.range' obtained k).map Object.event).map .alloc) =
      heapOf true n (obtained + k) before := by
  rw [Heap.after_allocs]
  funext o
  cases o with
  | event m =>
    have hmem : Object.event m ∈ (List.range' obtained k).map Object.event ↔
        obtained ≤ m ∧ m < obtained + k := by
      simp only [List.mem_map,Object.event.injEq,exists_eq_right,List.mem_range'_1]
    rw [if_congr hmem rfl rfl]
    by_cases hm : obtained ≤ m
    · have hfresh : (before.any fun c => decide (c.destroyed = some m)) = false := by
        refine List.any_eq_false.mpr fun c hc => ?_
        rw [decide_eq_true_eq]
        exact fun heq => absurd (hbefore c hc m heq) (not_lt.mpr hm)
      simp only [heapOf,hm,hfresh,true_and,Bool.false_eq_true,if_false,not_lt.mpr hm]
    · have hlt : m < obtained := not_le.mp hm
      simp [heapOf,hm,hlt,Nat.lt_add_right k hlt]
  | _ => simp [heapOf]

omit [F32 F] [F64 D] [FloatCast F D] in
theorem LibinputContext.mem_freed (ctx : LibinputContext F D) {o : Object} : o ∈ ctx.freed ↔
    o = .seat ∨ (∃ d, d < ctx.devices.length ∧ .device d = o) ∨ o = .context := by
  simp [freed]

omit [F32 F] [F64 D] [FloatCast F D] in
theorem LibinputContext.freed_nodup (ctx : LibinputContext F D) : ctx.freed.Nodup := by
  have hdevices : ((List.range ctx.devices.length).map Object.device).Nodup :=
    List.Nodup.map (fun _ _ => Object.device.inj) List.nodup_range
  simp [freed,List.nodup_append,hdevices]

omit [F32 F] [F64 D] [FloatCast F D] in
/-- The drop of the context finds everything it frees alive. -/
theorem safe_freed (ctx : LibinputContext F D) (obtained : ℕ) (before : List (ClientCall D)) :
    (heapOf true ctx.devices.length obtained before).Safe (ctx.freed.map .free) := by
  rw [Heap.safe_frees ctx.freed_nodup]
  intro o ho
  rcases ctx.mem_freed.mp ho with rfl | ⟨d,hd,rfl⟩ | rfl
  · rfl
  · simp [heapOf,hd]
  · rfl

omit [F32 F] [F64 D] [FloatCast F D] in
theorem heapOf_freed (ctx : LibinputContext F D) (obtained : ℕ) (before : List (ClientCall D)) :
    (heapOf true ctx.devices.length obtained before).after (ctx.freed.map .free) =
      heapOf false ctx.devices.length obtained before := by
  rw [Heap.after_frees]
  funext o
  cases o with
  | device d =>
    by_cases hd : d < ctx.devices.length <;> simp [heapOf,ctx.mem_freed,hd]
  | _ => simp [heapOf,ctx.mem_freed]

/-- What a disciplined client keeps true: the counts in the objects are those of its calls, and
the heap is what its calls make it. -/
structure Owned (before : List (ClientCall D)) (s : Session F D) (h : Heap Object) : Prop where
  alive : s.context.isSome = decide (0 < contextHolds before)
  nonneg : 0 ≤ contextHolds before
  count : ∀ ctx ∈ s.context, ctx.refcount = i32Wrap (contextHolds before)
  wellFormed : ∀ ctx ∈ s.context, ctx.view.WellFormed
  deviceCount : ∀ d, s.deviceRefcount d = i32Wrap (1 + deviceHolds d before)
  deviceNonneg : ∀ d, 0 ≤ deviceHolds d before
  destroyed : ∀ c ∈ before, ∀ n ∈ c.destroyed, n < s.obtained
  heap : ∃ n, h = heapOf s.context.isSome n s.obtained before ∧
    ∀ ctx ∈ s.context, ctx.devices.length = n

omit [F32 F] [F64 D] [FloatCast F D] in
theorem owned_start (interface : LibinputInterface) (inotify : Bool) :
    Owned [] (.start (F := F) (D := D) interface inotify)
      (Heap.empty.after [.alloc .seat,.alloc .context]) := by
  refine ⟨rfl,zero_le_one,?_,?_,fun _ => rfl,fun _ => le_rfl,List.forall_mem_nil _,0,?_,?_⟩
  · rintro ctx ⟨⟩
    rfl
  · rintro ctx ⟨⟩
    exact LibinputContext.new_wellFormed interface inotify
  · funext o
    cases o <;> rfl
  · rintro ctx ⟨⟩
    rfl

namespace Owned
variable {before : List (ClientCall D)} {s : Session F D} {h : Heap Object}

omit [F32 F] [F64 D] [FloatCast F D] in
/-- A usable object is a live one. -/
theorem live_iff (hs : Owned before s h) (o : Object) : h o = .live ↔ Usable before s o := by
  obtain ⟨n,rfl,hn⟩ := hs.heap
  have halive := hs.alive
  cases hctx : s.context with
  | none =>
    have hheld : ¬ 0 < contextHolds before := by simpa [hctx] using halive
    cases o with
    | device d =>
      refine iff_of_false ?_ (by simp [Usable,Session.devices,hctx])
      simp only [heapOf,Option.isSome_none,Bool.false_eq_true,if_false]
      split_ifs <;> simp
    | event m => exact heapOf_event_live
    | _ => simp [heapOf,Usable,hheld]
  | some ctx =>
    have hheld : 0 < contextHolds before := by simpa [hctx] using halive
    have hlength := hn ctx hctx
    cases o with
    | event m => exact heapOf_event_live
    | _ => simp [heapOf,Usable,hheld,Session.devices,hctx,hlength]

omit [F32 F] [F64 D] [FloatCast F D] in
/-- The client of a usable context, seat or device holds its context. -/
theorem context_of_usable (hs : Owned before s h) {o : Object} (ho : Usable before s o)
    (hne : ∀ n, o ≠ .event n) : ∃ ctx, s.context = some ctx ∧ 0 < contextHolds before := by
  have halive := hs.alive
  cases hctx : s.context with
  | none =>
    have hheld : ¬ 0 < contextHolds before := by simpa [hctx] using halive
    cases o with
    | context => exact absurd ho hheld
    | seat => exact absurd ho hheld
    | device d => simp [Usable,Session.devices,hctx] at ho
    | event n => exact absurd rfl (hne n)
  | some ctx => exact ⟨ctx,rfl,by simpa [hctx] using halive⟩

omit [F32 F] [F64 D] [FloatCast F D] in
theorem forall_destroyed_concat {c : ClientCall D} (hc : c.destroyed = none) {obtained : ℕ}
    (hbefore : ∀ c ∈ before, ∀ n ∈ c.destroyed, n < obtained) :
    ∀ c' ∈ before ++ [c], ∀ n ∈ c'.destroyed, n < obtained := by
  refine List.forall_mem_append.mpr ⟨hbefore,List.forall_mem_singleton.mpr fun n hn => ?_⟩
  rw [hc] at hn
  cases hn

omit [F32 F] [F64 D] [FloatCast F D] in
/-- A call that leaves the context alone. -/
theorem keep (hs : Owned before s h) {c : ClientCall D} {s' : Session F D}
    (hweight : c.contextWeight = 0) (hdestroyed : c.destroyed = none)
    (hcontext : s'.context = s.context) (hobtained : s'.obtained = s.obtained)
    (hcount : ∀ d, s'.deviceRefcount d = i32Wrap (s.deviceRefcount d + c.deviceWeight d))
    (hnonneg : ∀ d, 0 ≤ deviceHolds d before + c.deviceWeight d) : Owned (before ++ [c]) s' h := by
  obtain ⟨n,rfl,hn⟩ := hs.heap
  refine ⟨?_,?_,?_,?_,fun d => ?_,fun d => ?_,?_,n,?_,?_⟩
  · rw [hcontext,contextHolds_concat,hweight,add_zero]
    exact hs.alive
  · rw [contextHolds_concat,hweight,add_zero]
    exact hs.nonneg
  · rw [hcontext,contextHolds_concat,hweight,add_zero]
    exact hs.count
  · rw [hcontext]
    exact hs.wellFormed
  · rw [hcount,hs.deviceCount,deviceHolds_concat,i32Wrap_wrap_add,add_assoc]
  · rw [deviceHolds_concat]
    exact hnonneg d
  · rw [hobtained]
    exact forall_destroyed_concat hdestroyed hs.destroyed
  · rw [hcontext,hobtained,heapOf_concat hdestroyed]
  · rw [hcontext]
    exact hn

omit [F32 F] [F64 D] [FloatCast F D] in
/-- A call that changes the context and keeps it. -/
theorem change (hs : Owned before s h) {c : ClientCall D} (s' : Session F D)
    {ctx : LibinputContext F D} (ctx' : LibinputContext F D) (hctx : s.context = some ctx)
    (hctx' : s'.context = some ctx')
    (hcount : ctx'.refcount = i32Wrap (ctx.refcount + c.contextWeight))
    (hpositive : 0 < contextHolds before + c.contextWeight) (hw : ctx'.view.WellFormed)
    (hcounts : s'.deviceRefcount = s.deviceRefcount) (hweight : ∀ d, c.deviceWeight d = 0)
    (hdestroyed : c.destroyed = none) (hobtained : s.obtained ≤ s'.obtained)
    {h' : Heap Object} {n : ℕ} (hheap : h' = heapOf true n s'.obtained before)
    (hlength : ctx'.devices.length = n) :
    Owned (before ++ [c]) s' h' := by
  refine ⟨?_,?_,?_,?_,fun d => ?_,fun d => ?_,?_,n,?_,?_⟩
  · rw [hctx',contextHolds_concat]
    exact (decide_eq_true hpositive).symm
  · rw [contextHolds_concat]
    exact hpositive.le
  · rintro _ hsome
    obtain rfl := Option.some.inj (hctx'.symm.trans hsome)
    rw [hcount,hs.count ctx hctx,contextHolds_concat,i32Wrap_wrap_add]
  · rintro _ hsome
    obtain rfl := Option.some.inj (hctx'.symm.trans hsome)
    exact hw
  · rw [hcounts,hs.deviceCount,deviceHolds_concat,hweight,add_zero]
  · rw [deviceHolds_concat,hweight,add_zero]
    exact hs.deviceNonneg d
  · exact forall_destroyed_concat hdestroyed fun c hc n hn => (hs.destroyed c hc n hn).trans_le hobtained
  · rw [hheap,hctx',heapOf_concat hdestroyed]
    rfl
  · rintro _ hsome
    obtain rfl := Option.some.inj (hctx'.symm.trans hsome)
    exact hlength

omit [F32 F] [F64 D] [FloatCast F D] in
theorem heap_eq (hs : Owned before s h) {ctx : LibinputContext F D} (hctx : s.context = some ctx) :
    h = heapOf true ctx.devices.length s.obtained before := by
  obtain ⟨n,rfl,hn⟩ := hs.heap
  rw [hn ctx hctx,hctx]
  rfl

omit [F32 F] [F64 D] [FloatCast F D] in
/-- A count that is left alone. -/
theorem recount (hs : Owned before s h) {ctx : LibinputContext F D} (hctx : s.context = some ctx)
    {c : ClientCall D} (hc : c.contextWeight = 0) :
    ctx.refcount = i32Wrap (ctx.refcount + c.contextWeight) := by
  rw [hc,add_zero,hs.count ctx hctx,i32Wrap_i32Wrap]

omit [F32 F] [F64 D] [FloatCast F D] in
theorem device_recount (hs : Owned before s h) {c : ClientCall D} {d : DevicePtr}
    (hc : c.deviceWeight d = 0) :
    s.deviceRefcount d = i32Wrap (s.deviceRefcount d + c.deviceWeight d) := by
  rw [hc,add_zero,hs.deviceCount d,i32Wrap_i32Wrap]

/-- A call on the context makes devices, reads some and boxes an event. -/
theorem call (hs : Owned before s h) {ctx : LibinputContext F D} (hctx : s.context = some ctx)
    (hheld : 0 < contextHolds before) (c : Call D) : h.Safe (s.effects (.call c)) ∧
      Owned (before ++ [.call c]) (s.next (.call c)) (h.after (s.effects (.call c))) := by
  obtain ⟨hcount,hle⟩ := ctx.call_keeps c
  have hw := (LibinputContext.call_turns ctx c).ticks.wellFormed (hs.wellFormed ctx hctx)
  have hreads := ctx.reads_lt (hs.wellFormed ctx hctx) c
  have hdevices : (((List.range' ctx.devices.length
      ((ctx.call c).1.devices.length - ctx.devices.length)).map Object.device)).Nodup :=
    List.Nodup.map (fun _ _ => Object.device.inj) (List.nodup_range' _)
  have hevents : ((List.range' s.obtained (delivered (ctx.call c).2).length).map
      Object.event).Nodup := List.Nodup.map (fun _ _ => Object.event.inj) (List.nodup_range' _)
  have hread : ∀ o ∈ (ctx.reads c).map Object.device,
      heapOf true (ctx.call c).1.devices.length s.obtained before o = .live := by
    intro o ho
    obtain ⟨d,hd,rfl⟩ := List.mem_map.mp ho
    simp [heapOf,hreads d hd]
  have heffects : s.effects (.call c) =
      ((List.range' ctx.devices.length ((ctx.call c).1.devices.length - ctx.devices.length)).map
        Object.device).map .alloc ++
      ((ctx.reads c).map Object.device).map .access ++
      ((List.range' s.obtained (delivered (ctx.call c).2).length).map Object.event).map .alloc := by
    simp only [Session.effects,hctx]
  rw [heffects,hs.heap_eq hctx]
  simp only [Heap.safe_append,Heap.after_append,heapOf_devices hle,Heap.after_accesses hread,
    heapOf_events hs.destroyed]
  refine ⟨⟨⟨?_,Heap.safe_accesses.mpr hread⟩,?_⟩,?_⟩
  · rw [Heap.safe_allocs hdevices]
    intro o ho
    obtain ⟨d,hd,rfl⟩ := List.mem_map.mp ho
    have hd := (List.mem_range'_1.mp hd).1
    simp [heapOf,hd]
  · rw [Heap.safe_allocs hevents]
    intro o ho
    obtain ⟨n,hn,rfl⟩ := List.mem_map.mp ho
    have hn := (List.mem_range'_1.mp hn).1
    simp [heapOf,hn]
  · refine hs.change _ (ctx.call c).1 hctx (by simp only [Session.next,hctx])
      (hcount.trans (hs.recount hctx rfl)) (by simpa [ClientCall.contextWeight] using hheld) hw ?_
      (fun _ => rfl) rfl ?_ ?_ rfl
    · simp only [Session.next,hctx]
    · simp only [Session.next,hctx,Nat.le_add_right]
    · simp only [Session.next,hctx]

/-- The last reference takes the context with it, an earlier one is only counted. -/
theorem unref (hs : Owned before s h) {ctx : LibinputContext F D} (hctx : s.context = some ctx)
    (hheld : 0 < contextHolds before) (hfew : contextHolds before < 2^31) :
    h.Safe (s.effects .unref) ∧
      Owned (before ++ [.unref]) (s.next .unref) (h.after (s.effects .unref)) := by
  have hfits : FitsI32 (contextHolds before - 1) := ⟨by omega,by omega⟩
  have hcount : i32Wrap (ctx.refcount - 1) = contextHolds before - 1 := by
    rw [hs.count ctx hctx,i32Wrap_wrap_sub,i32Wrap_of_fits hfits]
  have hholds : contextHolds (before ++ [.unref]) = i32Wrap (ctx.refcount - 1) :=
    (contextHolds_concat before .unref).trans hcount.symm
  by_cases hlast : i32Wrap (ctx.refcount - 1) = 0
  · have hunref : ctx.libinputUnref.1 = none := by rw [LibinputContext.libinputUnref,if_pos hlast]
    have heffects : s.effects .unref = ctx.freed.map .free := by
      simp only [Session.effects,hctx,hunref,if_true]
    have hnext : s.next .unref = { s with context := none } := by
      simp only [Session.next,hctx,Option.bind_some,hunref]
    rw [heffects,hs.heap_eq hctx,heapOf_freed,hnext]
    refine ⟨safe_freed ctx _ _,?_⟩
    refine ⟨?_,?_,?_,?_,fun d => ?_,fun d => ?_,?_,ctx.devices.length,?_,?_⟩
    · rw [hholds,hlast]
      rfl
    · rw [hholds,hlast]
    · rintro _ ⟨⟩
    · rintro _ ⟨⟩
    · rw [hs.deviceCount,deviceHolds_concat]
      exact congrArg (fun z => i32Wrap (1 + z)) (add_zero _).symm
    · rw [deviceHolds_concat]
      exact (hs.deviceNonneg d).trans_eq (add_zero _).symm
    · exact forall_destroyed_concat rfl hs.destroyed
    · exact (heapOf_concat rfl _ _ _ _).symm
    · rintro _ ⟨⟩
  · have hunref : ctx.libinputUnref.1 =
        some { ctx with refcount := i32Wrap (ctx.refcount - 1) } := by
      rw [LibinputContext.libinputUnref,if_neg hlast]
    have heffects : s.effects .unref = [] := by
      simp only [Session.effects,hctx,hunref,reduceCtorEq,if_false]
    have hnext : s.next .unref =
        { s with context := some { ctx with refcount := i32Wrap (ctx.refcount - 1) } } := by
      simp only [Session.next,hctx,Option.bind_some,hunref]
    rw [heffects,hnext]
    refine ⟨trivial,hs.change { s with context := some _ }
      { ctx with refcount := i32Wrap (ctx.refcount - 1) } hctx rfl rfl ?_
      (view_recount (hs.wellFormed ctx hctx) _) rfl (fun _ => rfl) rfl le_rfl (hs.heap_eq hctx) rfl⟩
    rw [hcount] at hlast
    simp only [ClientCall.contextWeight]
    omega

/-- A permitted call is safe, and keeps the heap that of a disciplined client. -/
theorem step (hs : Owned before s h) {c : ClientCall D} (hc : Permitted before s c)
    (hfew : contextHolds before < 2^31 ∧ ∀ d, deviceHolds d before < 2^31) :
    h.Safe (s.step c).2 ∧ Owned (before ++ [c]) (s.next c) (h.after (s.step c).2) := by
  have hlive : ∀ o ∈ c.touches, h o = .live := fun o ho => (hs.live_iff o).mpr (hc.1 o ho)
  have hheld : ∀ o ∈ c.touches, (∀ n, o ≠ .event n) →
      ∃ ctx, s.context = some ctx ∧ 0 < contextHolds before :=
    fun o ho hne => hs.context_of_usable (hc.1 o ho) hne
  have hnonneg : ∀ d, 0 ≤ deviceHolds d before + 0 := fun d => by simpa using hs.deviceNonneg d
  suffices heffects : h.Safe (s.effects c) ∧ Owned (before ++ [c]) (s.next c)
      (h.after (s.effects c)) by
    rw [Session.step,Heap.safe_append,Heap.after_append,Heap.after_accesses hlive]
    exact ⟨⟨Heap.safe_accesses.mpr hlive,heffects.1⟩,heffects.2⟩
  cases c with
  | call c =>
    have hctx : ∃ ctx, s.context = some ctx ∧ 0 < contextHolds before := by
      cases c <;> exact hheld _ List.mem_cons_self (by simp)
    obtain ⟨ctx,hctx,hpos⟩ := hctx
    exact hs.call hctx hpos c
  | ref =>
    obtain ⟨ctx,hctx,hpos⟩ := hheld _ List.mem_cons_self (by simp)
    refine ⟨trivial,hs.change (s.next .ref) ctx.libinputRef hctx (by simp only [Session.next,hctx]; rfl)
      rfl ?_ (view_recount (hs.wellFormed ctx hctx) _) rfl (fun _ => rfl) rfl le_rfl
      (hs.heap_eq hctx) rfl⟩
    simp only [ClientCall.contextWeight]
    omega
  | unref =>
    obtain ⟨ctx,hctx,hpos⟩ := hheld _ List.mem_cons_self (by simp)
    exact hs.unref hctx hpos hfew.1
  | deviceRef d =>
    refine ⟨trivial,hs.keep rfl rfl rfl rfl (fun d' => ?_) fun d' => ?_⟩
    · by_cases hd : d = d'
      · subst hd
        simp [Session.next,ClientCall.deviceWeight]
      · rw [← hs.device_recount (c := .deviceRef d) (if_neg hd)]
        simp [Session.next,Function.update_of_ne (Ne.symm hd)]
    · have hold := hs.deviceNonneg d'
      simp only [ClientCall.deviceWeight]
      split_ifs <;> omega
  | deviceUnref d =>
    have hpos := hc.2 d rfl
    have heffects : s.effects (.deviceUnref d) = [] := by
      have hleft := deviceCount_after ⟨hpos.le,hfew.2 d⟩
      simp only [Session.effects,hs.deviceCount,hleft]
      exact if_neg (not_le.mpr hpos)
    rw [heffects]
    refine ⟨trivial,hs.keep rfl rfl rfl rfl (fun d' => ?_) fun d' => ?_⟩
    · by_cases hd : d = d'
      · subst hd
        simp [Session.next,ClientCall.deviceWeight,sub_eq_add_neg]
      · rw [← hs.device_recount (c := .deviceUnref d) (if_neg hd)]
        simp [Session.next,Function.update_of_ne (Ne.symm hd)]
    · have hold := hs.deviceNonneg d'
      simp only [ClientCall.deviceWeight]
      split_ifs with hd
      · subst hd
        omega
      · omega
  | deviceGet d => exact ⟨trivial,hs.keep rfl rfl rfl rfl (fun _ => hs.device_recount rfl) hnonneg⟩
  | deviceSetSeatLogicalName d name =>
    obtain ⟨ctx,hctx,hpos⟩ := hheld _ List.mem_cons_self (by simp)
    refine ⟨trivial,hs.change (s.next (.deviceSetSeatLogicalName d name))
      { ctx with seat := { ctx.seat with logicalName := name } } hctx ?_ (hs.recount hctx rfl) ?_
      (hs.wellFormed ctx hctx) rfl (fun _ => rfl) rfl le_rfl (hs.heap_eq hctx) rfl⟩
    · simp only [Session.next,hctx]
      rfl
    · simpa [ClientCall.contextWeight] using hpos
  | seatRef => exact ⟨trivial,hs.keep rfl rfl rfl rfl (fun _ => hs.device_recount rfl) hnonneg⟩
  | seatUnref => exact ⟨trivial,hs.keep rfl rfl rfl rfl (fun _ => hs.device_recount rfl) hnonneg⟩
  | seatGet => exact ⟨trivial,hs.keep rfl rfl rfl rfl (fun _ => hs.device_recount rfl) hnonneg⟩
  | eventGet n => exact ⟨trivial,hs.keep rfl rfl rfl rfl (fun _ => hs.device_recount rfl) hnonneg⟩
  | eventDestroy n =>
    have hn := (hc.1 _ List.mem_cons_self).1
    obtain ⟨m,hheap,hm⟩ := hs.heap
    have hfree : h.Safe [.free (.event n)] := ⟨hlive _ List.mem_cons_self,trivial⟩
    have hholds : contextHolds (before ++ [.eventDestroy n]) = contextHolds before := by
      simp [ClientCall.contextWeight]
    refine ⟨hfree,?_,hholds ▸ hs.nonneg,?_,hs.wellFormed,fun d => ?_,fun d => ?_,?_,m,?_,hm⟩
    · rw [hholds]
      exact hs.alive
    · rw [hholds]
      exact hs.count
    · exact (hs.deviceCount d).trans (by simp [ClientCall.deviceWeight])
    · simpa [ClientCall.deviceWeight] using hs.deviceNonneg d
    · refine List.forall_mem_append.mpr ⟨hs.destroyed,List.forall_mem_singleton.mpr ?_⟩
      rintro _ ⟨⟩
      exact hn
    · rw [hheap]
      exact heapOf_destroyed _ _ hn _

end Owned

/-- No call takes devices away but the one that drops the context. -/
theorem Session.devices_next (s : Session F D) (c : ClientCall D) :
    s.devices ≤ (s.next c).devices ∨
      ∃ ctx, s.context = some ctx ∧ s.effects c = ctx.freed.map .free := by
  cases hctx : s.context with
  | none => exact .inl (by simp [devices,hctx])
  | some ctx =>
    cases c with
    | call c => exact .inl (by simpa [devices,next,hctx] using (ctx.call_keeps c).2)
    | ref => exact .inl (by simp [devices,next,hctx,LibinputContext.libinputRef])
    | unref =>
      by_cases hlast : i32Wrap (ctx.refcount - 1) = 0
      · exact .inr ⟨ctx,rfl,by simp [effects,hctx,LibinputContext.libinputUnref,hlast]⟩
      · exact .inl (by simp [devices,next,hctx,LibinputContext.libinputUnref,hlast])
    | deviceSetSeatLogicalName d name => exact .inl (by simp [devices,next,hctx])
    | _ => exact .inl le_rfl

omit [F32 F] [F64 D] [FloatCast F D] in
/-- At its end a context is gone with all it made, and only events can be left. -/
theorem Owned.after_finish {before : List (ClientCall D)} {s : Session F D} {h : Heap Object}
    (hs : Owned before s h) : h.Safe s.finish ∧
      ∃ n, h.after s.finish = heapOf false n s.obtained before := by
  unfold Session.finish
  cases hctx : s.context with
  | none =>
    obtain ⟨n,rfl,_⟩ := hs.heap
    exact ⟨trivial,n,by rw [hctx]; rfl⟩
  | some ctx =>
    rw [hs.heap_eq hctx,Heap.safe_cons,Heap.after_cons,Heap.act_access rfl]
    exact ⟨⟨rfl,safe_freed ctx _ _⟩,ctx.devices.length,heapOf_freed ctx _ _⟩

/-- A device that was freed while the context lives. The context will free it again. -/
theorem doomed {s : Session F D} {h : Heap Object} {d : DevicePtr} (hd : d < s.devices)
    (hfreed : h (.device d) = .freed) (calls : List (ClientCall D)) :
    ¬ h.Safe ((run Session.step s calls).2 ++ (run Session.step s calls).1.finish) := by
  have hfinal : ∀ {s : Session F D} {ctx : LibinputContext F D}, s.context = some ctx →
      d < s.devices → .free (.device d) ∈ ctx.freed.map MemAction.free := by
    intro s ctx hctx hd
    simp only [Session.devices,hctx,Option.map_some,Option.getD_some] at hd
    exact List.mem_map.mpr ⟨_,ctx.mem_freed.mpr (.inr (.inl ⟨d,hd,rfl⟩)),rfl⟩
  induction calls generalizing s h with
  | nil =>
    intro hsafe
    cases hctx : s.context with
    | none => simp [Session.devices,hctx] at hd
    | some ctx =>
      have hmem : .free (.device d) ∈ s.finish := by
        rw [Session.finish,hctx]
        exact List.mem_cons_of_mem _ (hfinal hctx hd)
      exact (hsafe.freed hfreed).1 _ hmem rfl
  | cons c calls ih =>
    intro hsafe
    rw [run_cons,List.append_assoc,Heap.safe_append] at hsafe
    obtain ⟨hfirst,hrest⟩ := hsafe
    obtain ⟨hne,hstill⟩ := hfirst.freed hfreed
    rcases s.devices_next c with hle | ⟨ctx,hctx,heffects⟩
    · exact ih (hd.trans_le hle) hstill hrest
    · have hmem : .free (.device d) ∈ (s.step c).2 := by
        rw [Session.step,heffects]
        exact List.mem_append_right _ (hfinal hctx hd)
      exact hne _ hmem rfl

/-- A call that is not permitted is unsafe at once, or it frees a device of the context. -/
theorem Owned.fault {before : List (ClientCall D)} {s : Session F D} {h : Heap Object}
    (hs : Owned before s h) {c : ClientCall D} (hfew : ∀ d, deviceHolds d before < 2^31)
    (hc : ¬ Permitted before s c)
    (hsafe : h.Safe (s.step c).2) :
    ∃ d, d < (s.next c).devices ∧ h.after (s.step c).2 (.device d) = .freed := by
  rw [Session.step,Heap.safe_append,Heap.safe_accesses] at hsafe
  have husable : ∀ o ∈ c.touches, Usable before s o :=
    fun o ho => (hs.live_iff o).mp (hsafe.1 o ho)
  have hover : ∃ d ∈ c.unreffed, ¬ 0 < deviceHolds d before := by
    by_contra hnone
    push Not at hnone
    exact hc ⟨husable,fun d hd => hnone d hd⟩
  obtain ⟨d,hd,hnot⟩ := hover
  cases c with
  | deviceUnref d' =>
    obtain rfl := Option.some.inj hd
    have hleft := deviceCount_after ⟨hs.deviceNonneg d',hfew d'⟩
    have heffects : s.effects (.deviceUnref d') = [.free (.device d')] := by
      simp only [Session.effects,hs.deviceCount,hleft]
      exact if_pos (not_lt.mp hnot)
    refine ⟨d',husable _ List.mem_cons_self,?_⟩
    rw [Session.step,Heap.after_append,Heap.after_accesses hsafe.1,heffects]
    simp [Heap.act,MemAction.object,MemAction.leaves]
  | _ => cases hd

/-- What is left of a lifetime is safe exactly when every call to come is permitted. -/
theorem Owned.safe_iff {before : List (ClientCall D)} {s : Session F D} {h : Heap Object}
    (hs : Owned before s h) {calls : List (ClientCall D)} (hfew : AtEach (fun front _ =>
      contextHolds (before ++ front) < 2^31 ∧ ∀ d, deviceHolds d (before ++ front) < 2^31) calls) :
    h.Safe ((run Session.step s calls).2 ++ (run Session.step s calls).1.finish) ↔
      AtEach (fun front c => Permitted (before ++ front) (run Session.step s front).1 c) calls := by
  induction calls generalizing before s h with
  | nil =>
    rw [run_nil,List.nil_append]
    exact iff_of_true hs.after_finish.1 atEach_nil
  | cons c calls ih =>
    obtain ⟨hnow,hlater⟩ := atEach_cons.mp hfew
    rw [List.append_nil] at hnow
    rw [run_cons,List.append_assoc,Heap.safe_append,atEach_cons]
    simp only [List.append_nil,run_nil]
    by_cases hc : Permitted before s c
    · obtain ⟨hsafe,hnext⟩ := hs.step hc hnow
      rw [and_iff_right hsafe,and_iff_right hc]
      refine (ih hnext (by simpa using hlater)).trans ?_
      simp only [List.append_assoc,List.singleton_append,run_cons]
      rfl
    · refine iff_of_false (fun hboth => ?_) fun hboth => hc hboth.1
      obtain ⟨d,hd,hfreed⟩ := hs.fault hnow.2 hc hboth.1
      exact doomed hd hfreed calls hboth.2

/-- The state and the heap a disciplined client comes to. -/
theorem Owned.run {before : List (ClientCall D)} {s : Session F D} {h : Heap Object}
    (hs : Owned before s h) {calls : List (ClientCall D)} (hfew : AtEach (fun front _ =>
      contextHolds (before ++ front) < 2^31 ∧ ∀ d, deviceHolds d (before ++ front) < 2^31) calls)
    (hcalls : AtEach (fun front c =>
      Permitted (before ++ front) (Automata.run Session.step s front).1 c) calls) :
    Owned (before ++ calls) (Automata.run Session.step s calls).1
      (h.after (Automata.run Session.step s calls).2) := by
  induction calls generalizing before s h with
  | nil => simpa using hs
  | cons c calls ih =>
    obtain ⟨hnow,hlater⟩ := atEach_cons.mp hfew
    obtain ⟨hc,hrest⟩ := atEach_cons.mp hcalls
    obtain ⟨_,hnext⟩ := hs.step (by simpa using hc) (by simpa using hnow)
    have hend := ih hnext (by simpa using hlater) (by simpa [run_cons,Session.step] using hrest)
    rw [run_cons,Heap.after_append]
    rw [List.append_assoc,List.singleton_append] at hend
    exact hend

end Heap

/-- A lifetime begins with what every context begins with. -/
theorem safe_lifetime_iff (interface : LibinputInterface) (inotify : Bool)
    (calls : List (ClientCall D)) : Heap.empty.Safe (lifetime F interface inotify calls) ↔
      (Heap.empty.after [.alloc .seat,.alloc .context]).Safe
        ((run Session.step (.start (F := F) interface inotify) calls).2 ++
          (sessionAfter (F := F) interface inotify calls).finish) := by
  rw [lifetime,List.cons_append,List.cons_append,Heap.safe_cons,Heap.safe_cons]
  exact (and_iff_right rfl).trans (and_iff_right rfl)

/-- From its creation to its end nothing of a context is used or freed when it is not there,
exactly when the client uses only what it may use and gives no reference to a device back that it
did not take. Its references to the seat do not matter, and those to devices keep nothing alive. -/
theorem lifetime_safe_iff (interface : LibinputInterface) (inotify : Bool)
    {calls : List (ClientCall D)} (hfew : FewReferences calls) :
    Heap.empty.Safe (lifetime F interface inotify calls) ↔ Disciplined F interface inotify calls :=
  (safe_lifetime_iff interface inotify calls).trans ((owned_start interface inotify).safe_iff hfew)

/-- The events a client took and did not destroy. -/
def Leaked (calls : List (ClientCall D)) (s : Session F D) (o : Object) : Prop :=
  ∃ n, o = .event n ∧ n < s.obtained ∧ ∀ c ∈ calls, c.destroyed ≠ some n

omit [F32 F] [F64 D] [FloatCast F D] in
/-- What is left when the context is gone. -/
theorem heapOf_live_iff (n : ℕ) (calls : List (ClientCall D)) (s : Session F D) (o : Object) :
    heapOf false n s.obtained calls o = .live ↔ Leaked calls s o := by
  cases o with
  | event m =>
    refine heapOf_event_live.trans ⟨fun h => ⟨m,rfl,h⟩,?_⟩
    rintro ⟨_,⟨⟩,h⟩
    exact h
  | device d =>
    refine iff_of_false ?_ fun ⟨_,heq,_⟩ => by cases heq
    by_cases hd : d < n <;> simp [heapOf,hd]
  | _ => exact iff_of_false (by simp [heapOf]) fun ⟨_,heq,_⟩ => by cases heq

/-- With a disciplined client every object is made at most once and freed as often as it is made,
but for the events that the client keeps: the end of the context frees every device it ever made,
also those that went away long before and those that the client holds references to. -/
theorem objects_freed_once (interface : LibinputInterface) (inotify : Bool)
    {calls : List (ClientCall D)} (hfew : FewReferences calls)
    (hcalls : Disciplined F interface inotify calls) (o : Object) :
    (lifetime F interface inotify calls).count (.alloc o) ≤ 1 ∧
      ((lifetime F interface inotify calls).count (.free o) =
          (lifetime F interface inotify calls).count (.alloc o) ↔
        ¬ Leaked calls (sessionAfter (F := F) interface inotify calls) o) := by
  have hstart := owned_start (F := F) (D := D) interface inotify
  have hsafe := (safe_lifetime_iff interface inotify calls).mpr ((hstart.safe_iff hfew).mpr hcalls)
  obtain ⟨n,hend⟩ := (hstart.run hfew hcalls).after_finish.2
  have hafter : Heap.empty.after (lifetime F interface inotify calls) =
      heapOf false n (sessionAfter (F := F) interface inotify calls).obtained calls := by
    rw [lifetime,List.cons_append,List.cons_append,Heap.after_cons,Heap.after_cons,
      Heap.after_append]
    exact hend
  obtain ⟨hallocs,hfrees⟩ := hsafe.counts o
  rw [hafter] at hallocs hfrees
  have hallocs : (lifetime F interface inotify calls).count (.alloc o) = _ := hallocs
  have hfrees : (lifetime F interface inotify calls).count (.free o) = _ := hfrees
  rw [hallocs,hfrees]
  exact ⟨Life.allocs_le _,(Life.frees_eq_allocs_iff _).trans (not_congr (heapOf_live_iff n calls _ o))⟩

omit [F32 F] [F64 D] [FloatCast F D] in
/-- A client of fewer than 2^31 calls does not hold that many references. -/
theorem fewReferences_of_length {calls : List (ClientCall D)} (h : calls.length < 2^31) :
    FewReferences calls := by
  have hbound : ∀ weight : ClientCall D → ℤ, (∀ c, weight c ≤ 1) →
      ∀ before : List (ClientCall D), (before.map weight).sum ≤ before.length := by
    intro weight hweight before
    induction before with
    | nil => exact le_rfl
    | cons c before ih =>
      have hc := hweight c
      simp only [List.map_cons,List.sum_cons,List.length_cons,Nat.cast_add,Nat.cast_one]
      omega
  rintro before c back rfl
  simp only [List.length_append,List.length_cons] at h
  refine ⟨?_,fun d => ?_⟩
  · have hle := hbound ClientCall.contextWeight ClientCall.contextWeight_le before
    simp only [contextHolds]
    omega
  · have hle := hbound (ClientCall.deviceWeight d) (ClientCall.deviceWeight_le d) before
    simp only [deviceHolds]
    omega

/-- A keyboard is opened, its event taken, and both are used and given back as they should. -/
def oneKeyboardSession : List (ClientCall ℚ) :=
  [.call (.addDevice "/dev/input/event3" ⟨5,some plainKeyboard⟩),.call .getEvent,.deviceRef 0,
    .eventGet 0,.eventDestroy 0,.deviceUnref 0,.deviceGet 0,.unref]

theorem oneKeyboardSession_disciplined : Disciplined ℚ ⟨true,true⟩ false oneKeyboardSession := by
  unfold Disciplined
  decide +kernel

theorem keyboard_session_safe :
    Heap.empty.Safe (lifetime ℚ ⟨true,true⟩ false oneKeyboardSession) ↔
      Disciplined ℚ ⟨true,true⟩ false oneKeyboardSession :=
  lifetime_safe_iff ⟨true,true⟩ false (fewReferences_of_length (by decide))

theorem keyboard_session_freed : Disciplined ℚ ⟨true,true⟩ false oneKeyboardSession ∧
    (lifetime ℚ ⟨true,true⟩ false oneKeyboardSession).count (.alloc (.device 0)) ≤ 1 :=
  ⟨oneKeyboardSession_disciplined,
    (objects_freed_once ⟨true,true⟩ false (fewReferences_of_length (by decide))
      oneKeyboardSession_disciplined (.device 0)).1⟩

end LibinputRs
