import LibinputRs.Library.Lifecycle

/-! Each device by itself. Whatever else the context does between them, the records of what was read
from a device determine the events queued for it, but for the repeats of held keys: the epoll set,
the map of the devices, the order and the number of the dispatches, the other devices and the client
are not in them. -/
namespace LibinputRs
open Automata

variable {F D : Type}

def Obs.recordOf (d : DevicePtr) : Obs F D → Option (Processed F D)
  | .processed p => if p.device = d then some p else none
  | _ => none

/-- The records of what was read from a device, in order. -/
def records (d : DevicePtr) (l : List (Obs F D)) : List (Processed F D) :=
  l.filterMap (Obs.recordOf d)

@[simp] theorem records_nil (d : DevicePtr) : records d ([] : List (Obs F D)) = [] := rfl

@[simp] theorem records_append (d : DevicePtr) (l m : List (Obs F D)) :
    records d (l ++ m) = records d l ++ records d m := List.filterMap_append

theorem records_of_silent {d : DevicePtr} {o : List (Obs F D)} (h : ∀ x ∈ o, x.Silent) :
    records d o = [] := by
  refine List.filterMap_eq_nil_iff.mpr fun x hx => ?_
  have hsilent := h x hx
  cases x with
  | fd a => rfl
  | processed p => exact hsilent.elim
  | queued e => rfl
  | delivered e => rfl

theorem records_queued (d : DevicePtr) (l : List (LibinputEvent D)) :
    records d (l.map (Obs.queued (F := F))) = [] :=
  List.filterMap_eq_nil_iff.mpr (by simp [Obs.recordOf])

/-- The repeat of a held key. -/
def LibinputEvent.isRepeat (e : LibinputEvent D) : Bool :=
  match e.eventType,e.payload with
  | .keyboardKey,.keyboardKey k => k.state = 2
  | _,_ => false

/-- The events that answer something read. -/
def answersTo (l : List (LibinputEvent D)) : List (LibinputEvent D) :=
  l.filter fun e => !e.isRepeat

@[simp] theorem answersTo_append (l m : List (LibinputEvent D)) :
    answersTo (l ++ m) = answersTo l ++ answersTo m := List.filter_append ..

/-- A held key without the times of its repeats. -/
def HeldKey.untimed (hk : HeldKey) : HeldKey := { hk with lastFire := 0, initialFired := false }

namespace TrackedDevice

/-- The state of a device without the times of the repeats. -/
def untimed (td : TrackedDevice F D) : TrackedDevice F D :=
  { td with heldKeys := td.heldKeys.map HeldKey.untimed }

variable [F32 F] [F64 D] [FloatCast F D]

/-- A device alone, given one record to read; the typing time that a press sets is not kept. -/
def interpret (td : TrackedDevice F D) (p : Processed F D) :
    TrackedDevice F D × List (LibinputEvent D) :=
  match processEvent p.cfg p.typing (td,none) p.event with
  | ((td,_),out) => (td,out)

section Step

omit [F32 F] [F64 D] [FloatCast F D]

/-- The repeat pass changes the times of the repeats alone, and queues repeats alone. -/
theorem emitKeyRepeats_untimed (now : Instant) (td : TrackedDevice F D) :
    (td.emitKeyRepeats (D := D) now).1.untimed = td.untimed := by
  unfold emitKeyRepeats
  split_ifs
  · rfl
  · have hkeys : (td.heldKeys.map fun hk => (hk.fire (D := D) td.libDevice now).1).map
        HeldKey.untimed = td.heldKeys.map HeldKey.untimed := by
      rw [List.map_map]
      refine List.map_congr_left fun hk _ => ?_
      simp only [Function.comp_apply,HeldKey.fire]
      split_ifs <;> rfl
    simp only [untimed,hkeys]

theorem answersTo_emitKeyRepeats (now : Instant) (td : TrackedDevice F D) (d : DevicePtr) :
    answersTo (eventsOf d (td.emitKeyRepeats (D := D) now).2) = [] := by
  refine List.filter_eq_nil_iff.mpr fun e he => ?_
  obtain ⟨hk,_,rfl⟩ := td.emitKeyRepeats_out now e (List.mem_filter.mp he).1
  simp [LibinputEvent.isRepeat,LibinputEvent.key]

theorem untimed_congr {α : Type} (read : TrackedDevice F D → α)
    (hread : ∀ td, read td.untimed = read td) {td td' : TrackedDevice F D}
    (h : td.untimed = td'.untimed) : read td = read td' := by
  rw [← hread td,h,hread]

theorem untimed_eq_of_noKeys {td td' : TrackedDevice F D} (h : td.untimed = td'.untimed)
    (hkeys : td.heldKeys = []) : td = td' := by
  have hkeys' : td'.heldKeys = [] := by
    have := congrArg TrackedDevice.heldKeys h
    simpa [untimed,hkeys] using this.symm
  cases td
  cases td'
  simp only [untimed] at h hkeys hkeys'
  simpa [hkeys,hkeys'] using h

end Step

/-- Nothing that reading a record queues is a repeat. -/
theorem answersTo_processEvent (cfg : Settings F) (typing : Option Instant)
    (s : TrackedDevice F D × Option Instant) (te : TimedEvent) :
    answersTo (processEvent cfg typing s te).2 = (processEvent cfg typing s te).2 := by
  have hpointer : ∀ e : LibinputEvent D, e.eventType.isPointerOrGesture = true →
      e.isRepeat = false := by
    rintro ⟨t,p,d⟩ ht
    cases t <;> first | rfl | cases ht
  refine List.filter_eq_self.mpr fun e he => ?_
  rw [Bool.not_eq_true']
  rcases processEvent_cases cfg typing s te with ⟨_,_,h⟩ | ⟨_,_,_,h⟩ | ⟨_,_,_,h⟩ | ⟨_,_,_,h⟩ <;>
    rw [h] at he
  · rcases s.1.processKeyboardEvent_cases te s.2 with ⟨_,_,hk⟩ | ⟨_,_,hk⟩ | ⟨_,hk⟩ <;>
      rw [hk] at he
    · rw [List.mem_singleton.mp he]
      rfl
    · rw [List.mem_singleton.mp he]
      rfl
    · cases he
  · exact hpointer e (processRelativeEvent_out te s.1 e he).2
  · exact hpointer e ((processAbsoluteEvent_step te _ _ _ _ s.1).out e he).2
  · cases he

omit [F32 F] [FloatCast F D] in
theorem processRelativeEvent_congr {td td' : TrackedDevice F D} (h : td.libDevice = td'.libDevice)
    (te : TimedEvent) : td.processRelativeEvent te = td'.processRelativeEvent te := by
  unfold processRelativeEvent
  rw [h]

omit [F32 F] [F64 D] [FloatCast F D] in
/-- A keyboard reads alike whenever its keys last fired. -/
theorem processKeyboardEvent_untimed {td td' : TrackedDevice F D} (h : td.untimed = td'.untimed)
    (te : TimedEvent) (t t' : Option Instant) :
    (td.processKeyboardEvent te t).2.2 = (td'.processKeyboardEvent te t').2.2 ∧
      (td.processKeyboardEvent te t).1.untimed = (td'.processKeyboardEvent te t').1.untimed := by
  have hdevice : td.libDevice = td'.libDevice := untimed_congr libDevice (fun _ => rfl) h
  have hpress : ∀ (td : TrackedDevice F D) (hk : HeldKey),
      untimed { td with lastTypingTime := some te.now, heldKeys := td.heldKeys ++ [hk] } =
        { td.untimed with
          lastTypingTime := some te.now
          heldKeys := td.untimed.heldKeys ++ [hk.untimed] } :=
    fun td hk => by simp only [untimed,List.map_append,List.map_cons,List.map_nil]
  have hrelease : ∀ td : TrackedDevice F D,
      untimed { td with heldKeys := td.heldKeys.filter fun k => k.code ≠ te.ev.code } =
        { td.untimed with
          heldKeys := td.untimed.heldKeys.filter fun k => k.code ≠ te.ev.code } := by
    intro td
    simp only [untimed,List.filter_map]
    rfl
  -- the three cases of the handler are told apart by the event, not by the device
  rcases td.processKeyboardEvent_cases te t with ⟨hk,hv,h₁⟩ | ⟨hk,hv,h₁⟩ | ⟨hn,h₁⟩ <;>
    rcases td'.processKeyboardEvent_cases te t' with ⟨hk',hv',h₂⟩ | ⟨hk',hv',h₂⟩ | ⟨hn',h₂⟩
  case inl.inl =>
    refine ⟨by rw [h₁,h₂,hdevice],?_⟩
    rw [h₁,h₂]
    dsimp only
    rw [hpress,hpress,h]
  case inr.inl.inr.inl =>
    refine ⟨by rw [h₁,h₂,hdevice],?_⟩
    rw [h₁,h₂]
    dsimp only
    rw [hrelease,hrelease,h]
  case inr.inr.inr.inr =>
    rw [h₁,h₂]
    exact ⟨rfl,h⟩
  all_goals exfalso
  all_goals first
    | exact hn ⟨hk',.inl hv'⟩
    | exact hn ⟨hk',.inr hv'⟩
    | exact hn' ⟨hk,.inl hv⟩
    | exact hn' ⟨hk,.inr hv⟩
    | omega

/-- Devices alike but for the times of the repeats read a record alike. -/
theorem processEvent_untimed (cfg : Settings F) (typing live : Option Instant)
    {td td' : TrackedDevice F D} (h : td.untimed = td'.untimed)
    (hkeys : td.isAbsolute = true → td.heldKeys = []) (te : TimedEvent) :
    (processEvent cfg typing (td,live) te).2 = (processEvent cfg typing (td',none) te).2 ∧
      (processEvent cfg typing (td,live) te).1.1.untimed =
        (processEvent cfg typing (td',none) te).1.1.untimed := by
  have hk : td'.isKeyboard = td.isKeyboard := untimed_congr isKeyboard (fun _ => rfl) h.symm
  have ha : td'.isAbsolute = td.isAbsolute := untimed_congr isAbsolute (fun _ => rfl) h.symm
  have hp : td'.isPointer = td.isPointer := untimed_congr isPointer (fun _ => rfl) h.symm
  simp only [processEvent,hk,ha,hp]
  split_ifs with hkeyboard hpointer habs
  · exact processKeyboardEvent_untimed h te live none
  · exact ⟨processRelativeEvent_congr (untimed_congr libDevice (fun _ => rfl) h) te,h⟩
  · obtain rfl := untimed_eq_of_noKeys h (hkeys habs)
    exact ⟨rfl,rfl⟩
  · exact ⟨rfl,h⟩

end TrackedDevice

section Runs
variable [F32 F] [F64 D] [FloatCast F D]

/-- What was queued for a device, but for the repeats: its addition, what the device by itself makes
of the records of it, and the given end. -/
def Interprets (d : DevicePtr) (device : EvdevDevice) (path : PathBuf) (out : List (Obs F D))
    (close : List (LibinputEvent D)) : Prop :=
  answersTo (eventsOf d (produced out)) =
    .added d :: (run TrackedDevice.interpret (.new device path d) (records d out)).2 ++ close

/-- Where a device is in its life, and in which state, by the records of it. -/
structure Translated (d : DevicePtr) (out : List (Obs F D)) (w : World F D) : Prop where
  unallocated : w.devices ≤ d → eventsOf d (produced out) = [] ∧ records d out = []
  present : ∀ fd td, w.tracked fd = some td → td.libDevice = d →
    Interprets d td.device td.path out [] ∧ td.untimed =
      (run TrackedDevice.interpret (.new td.device td.path d) (records d out)).1.untimed
  absent : ¬ w.Tracks d → (eventsOf d (produced out) = [] ∧ records d out = []) ∨
    ∃ device path, Interprets d device path out [.removed d]

/-- Outputs that neither record nor answer anything for the device. -/
theorem Interprets.quiet {d : DevicePtr} {device : EvdevDevice} {path : PathBuf}
    {out o : List (Obs F D)} {close : List (LibinputEvent D)}
    (h : Interprets d device path out close) (hrecords : records d o = [])
    (hanswers : answersTo (eventsOf d (produced o)) = []) :
    Interprets d device path (out ++ o) close := by
  unfold Interprets at *
  rw [produced_append,eventsOf_append,answersTo_append,hanswers,records_append,hrecords,
    List.append_nil,List.append_nil,h]

namespace Translated
variable {d : DevicePtr} {out o : List (Obs F D)} {w w' : World F D}

/-- What happens to others, and the repeats of the device, leave it where it is. -/
theorem keep (h : Translated d out w) (hrecords : records d o = [])
    (hanswers : answersTo (eventsOf d (produced o)) = [])
    (hevents : ¬ w.Tracks d → eventsOf d (produced o) = []) (hdevices : w.devices ≤ w'.devices)
    (halloc : w.Tracks d → d < w.devices) (htracks : w.Tracks d → w'.Tracks d)
    (hback : ∀ fd' td', w'.tracked fd' = some td' → td'.libDevice = d → ∃ fd td,
      w.tracked fd = some td ∧ td.libDevice = d ∧ td'.device = td.device ∧ td'.path = td.path ∧
        td'.untimed = td.untimed) : Translated d (out ++ o) w' := by
  have hnone : ¬ w.Tracks d → eventsOf d (produced out) = [] ∧ records d out = [] →
      eventsOf d (produced (out ++ o)) = [] ∧ records d (out ++ o) = [] := by
    rintro hnot ⟨hev,hrec⟩
    rw [produced_append,eventsOf_append,hev,hevents hnot,records_append,hrec,hrecords]
    exact ⟨rfl,rfl⟩
  refine ⟨fun hd => ?_,fun fd' td' ht' hd => ?_,fun hnot => ?_⟩
  · refine hnone (fun htr => ?_) (h.unallocated (hdevices.trans hd))
    exact Nat.not_lt.mpr (hdevices.trans hd) (halloc htr)
  · obtain ⟨fd,td,ht,hd,hdevice,hpath,huntimed⟩ := hback fd' td' ht' hd
    obtain ⟨hint,hstate⟩ := h.present fd td ht hd
    rw [hdevice,hpath,huntimed,records_append,hrecords,List.append_nil]
    exact ⟨hint.quiet hrecords hanswers,hstate⟩
  · have hnot' : ¬ w.Tracks d := fun htr => hnot (htracks htr)
    rcases h.absent hnot' with hnil | ⟨device,path,hint⟩
    · exact .inl (hnone hnot' hnil)
    · exact .inr ⟨device,path,hint.quiet hrecords hanswers⟩

/-- The device is added. -/
theorem added (h : Translated d out w) (hd : d = w.devices) (hevents : produced o = [.added d])
    (hrecords : records d o = []) (hdevices : w'.devices = w.devices + 1)
    (htracked : ∀ fd td, w'.tracked fd = some td → td.libDevice = d → ∃ device path,
      td = .new device path d) (htracks : w'.Tracks d) : Translated d (out ++ o) w' := by
  obtain ⟨hev,hrec⟩ := h.unallocated hd.ge
  have hself : eventsOf d [(.added d : LibinputEvent D)] = [.added d] := eventsOf_singleton_self rfl
  refine ⟨fun hle => ?_,fun fd td ht htd => ?_,fun hnot => absurd htracks hnot⟩
  · rw [hdevices,hd] at hle
    exact absurd hle (Nat.not_succ_le_self _)
  · obtain ⟨device,path,rfl⟩ := htracked fd td ht htd
    rw [Interprets,produced_append,eventsOf_append,hev,hevents,records_append,hrec,hrecords,hself]
    exact ⟨rfl,rfl⟩

/-- The device is removed. -/
theorem removed (h : Translated d out w) {fd : RawFd} {td : TrackedDevice F D}
    (ht : w.tracked fd = some td) (hd : td.libDevice = d) (hevents : produced o = [.removed d])
    (hrecords : records d o = []) (halloc : d < w'.devices) (hnot : ¬ w'.Tracks d) :
    Translated d (out ++ o) w' := by
  refine ⟨fun hle => absurd halloc (Nat.not_lt.mpr hle),
    fun fd' td' ht' hd' => absurd ⟨fd',td',ht',hd'⟩ hnot,fun _ => .inr ⟨td.device,td.path,?_⟩⟩
  have hint := (h.present fd td ht hd).1
  have hself : eventsOf d [(.removed d : LibinputEvent D)] = [.removed d] :=
    eventsOf_singleton_self rfl
  unfold Interprets at *
  rw [produced_append,eventsOf_append,answersTo_append,hint,hevents,hself,
    records_append,hrecords,List.append_nil,List.append_nil]
  rfl

/-- The device reads an event. -/
theorem event (h : Translated d out w) (hw : w.WellFormed) {fd : RawFd} {td : TrackedDevice F D}
    (ht : w.tracked fd = some td) (hd : td.libDevice = d) (cfg : Settings F)
    (typing live : Option Instant) (te : TimedEvent) :
    Translated d (out ++ (TrackedDevice.observeEvent cfg typing (td,live) te).2)
      (w.set fd (some (TrackedDevice.observeEvent cfg typing (td,live) te).1.1)) := by
  subst hd
  obtain ⟨hint,hstate⟩ := h.present fd td ht rfl
  have hid := TrackedDevice.processEvent_identity cfg typing (td,live) te
  have hin := TrackedDevice.processEvent_out cfg typing (td,live) te
  have hread := TrackedDevice.processEvent_untimed cfg typing live hstate (hw.noKeys fd td ht) te
  have hrecords : records td.libDevice (TrackedDevice.observeEvent cfg typing (td,live) te).2 =
      [⟨td.libDevice,te,cfg,typing,(TrackedDevice.processEvent cfg typing (td,live) te).2⟩] := by
    simp [records,TrackedDevice.observeEvent,Obs.recordOf]
  have hself : eventsOf td.libDevice (TrackedDevice.processEvent cfg typing (td,live) te).2 =
      (TrackedDevice.processEvent cfg typing (td,live) te).2 :=
    List.filter_eq_self.mpr fun e he => decide_eq_true (hin e he).1
  have htracks : (w.set fd (some (TrackedDevice.processEvent cfg typing (td,live) te).1.1)).Tracks
      td.libDevice ↔ w.Tracks td.libDevice :=
    World.tracks_set_iff ht (TrackedDevice.libDevice_of_identity hid) td.libDevice
  refine ⟨fun hle => absurd (hw.allocated fd td ht) (Nat.not_lt.mpr hle),fun fd' td' ht' hd' => ?_,
    fun hnot => absurd (htracks.mpr ⟨fd,td,ht,rfl⟩) hnot⟩
  -- the entry that was read is the only one of the device
  rcases World.tracked_set ht' with ⟨_,heq⟩ | ⟨hne,ht'⟩
  · obtain rfl := Option.some.inj heq
    have hdevice : (TrackedDevice.processEvent cfg typing (td,live) te).1.1.device = td.device :=
      congrArg (·.1) hid
    have hpath := TrackedDevice.path_of_identity hid
    have hobserve : (TrackedDevice.observeEvent cfg typing (td,live) te).1.1 =
        (TrackedDevice.processEvent cfg typing (td,live) te).1.1 := rfl
    rw [hobserve,hdevice,hpath]
    unfold Interprets at *
    rw [produced_append,eventsOf_append,answersTo_append,TrackedDevice.produced_observeEvent,hself,
      TrackedDevice.answersTo_processEvent,records_append,hrecords,run_append,run_singleton,hint]
    exact ⟨by simp [TrackedDevice.interpret,hread.1],hread.2⟩
  · exact absurd hd' (hw.libDevice_ne ht ht' hne)

/-- An entry that changes neither its device nor more than the times of its repeats. -/
theorem keep_set {td td' : TrackedDevice F D} (h : Translated d out w) (hw : w.WellFormed)
    {fd : RawFd} (ht : w.tracked fd = some td) (hid : td'.identity = td.identity)
    (huntimed : td.libDevice = d → td'.untimed = td.untimed) (hrecords : records d o = [])
    (hanswers : answersTo (eventsOf d (produced o)) = [])
    (hevents : td.libDevice ≠ d → eventsOf d (produced o) = []) :
    Translated d (out ++ o) (w.set fd (some td')) := by
  have htracks : (w.set fd (some td')).Tracks d ↔ w.Tracks d :=
    World.tracks_set_iff ht (TrackedDevice.libDevice_of_identity hid) d
  refine h.keep hrecords hanswers (fun hnot => hevents fun hd => hnot ⟨fd,td,ht,hd⟩) le_rfl ?_
    htracks.mpr fun fd' td₁ ht' hd => ?_
  · rintro ⟨fd₁,td₁,h₁,rfl⟩
    exact hw.allocated fd₁ td₁ h₁
  · rcases World.tracked_set ht' with ⟨_,heq⟩ | ⟨_,ht'⟩
    · obtain rfl := Option.some.inj heq
      have hd' : td.libDevice = d := (TrackedDevice.libDevice_of_identity hid).symm.trans hd
      exact ⟨fd,td,ht,hd',congrArg (·.1) hid,TrackedDevice.path_of_identity hid,huntimed hd'⟩
    · exact ⟨fd',td₁,ht',hd,rfl,rfl,rfl⟩

/-- Every tick keeps every device translated. -/
theorem tick (h : Translated d out w) (hw : w.WellFormed) (ht : Tick w o w') :
    Translated d (out ++ o) w' := by
  have halloc : w.Tracks d → d < w.devices := by
    rintro ⟨fd,td,htd,rfl⟩
    exact hw.allocated fd td htd
  cases ht.kind with
  | silent o w' hsilent htracked hdevices =>
    have hnil : eventsOf d (produced o) = [] := by rw [produced_of_silent hsilent]; rfl
    refine h.keep (records_of_silent hsilent) (by rw [hnil]; rfl) (fun _ => hnil) hdevices halloc
      (fun htr => by unfold World.Tracks; rwa [htracked]) fun fd td htd hd => ?_
    exact ⟨fd,td,htracked ▸ htd,hd,rfl,rfl,rfl⟩
  | admitted fd device path hnone =>
    have hrecords : records d (w.opened fd ++
        [.fd (.epollAdd fd),.queued (.added w.devices)]) = [] := by
      rw [records_append,records_of_silent (opened_silent w fd)]
      rfl
    by_cases hd : d = w.devices
    · refine h.added hd (by rw [produced_admission,hd]) hrecords rfl (fun fd' td htd hlib => ?_)
        ⟨fd,_,World.set_self ..,hd.symm⟩
      rcases World.tracked_set htd with ⟨_,heq⟩ | ⟨_,htd⟩
      · obtain rfl := Option.some.inj heq
        exact ⟨device,path,by rw [hd]⟩
      · exact absurd (hlib.trans hd) (hw.allocated fd' td htd).ne
    · have hnil : eventsOf d (produced (w.opened fd ++
          [.fd (.epollAdd fd),.queued (.added w.devices)])) = [] := by
        rw [produced_admission]
        exact eventsOf_eq_nil (c := w.devices) (by simp [LibinputEvent.added]) (Ne.symm hd)
      have hnew : ∀ td, some (TrackedDevice.new device path w.devices) = some td →
          (td : TrackedDevice F D).libDevice ≠ d := by
        intro td heq
        obtain rfl := Option.some.inj heq
        exact Ne.symm hd
      refine h.keep hrecords (by rw [hnil]; rfl) (fun _ => hnil) (Nat.le_succ _) halloc
        (World.tracks_set_of_ne (by simp [hnone]) hnew).mpr fun fd' td htd hlib => ?_
      rcases World.tracked_set htd with ⟨_,heq⟩ | ⟨_,htd⟩
      · exact absurd hlib (hnew td heq)
      · exact ⟨fd',td,htd,hlib,rfl,rfl,rfl⟩
  | repeats fd td now htd =>
    refine h.keep_set hw htd (td.emitKeyRepeats_identity now)
      (fun _ => td.emitKeyRepeats_untimed now) (records_queued d _) ?_ fun hd => ?_
    · rw [produced_map_queued]
      exact td.answersTo_emitKeyRepeats now d
    · rw [produced_map_queued]
      refine eventsOf_eq_nil (fun e he => ?_) hd
      obtain ⟨hk,_,rfl⟩ := td.emitKeyRepeats_out now e he
      rfl
  | event fd td cfg typing live te htd =>
    by_cases hd : td.libDevice = d
    · exact h.event hw htd hd cfg typing live te
    · have hnil : eventsOf d (produced (TrackedDevice.observeEvent cfg typing (td,live) te).2) =
          [] := by
        rw [TrackedDevice.produced_observeEvent]
        exact eventsOf_eq_nil
          (fun e he => (TrackedDevice.processEvent_out cfg typing (td,live) te e he).1) hd
      refine h.keep_set hw htd (TrackedDevice.processEvent_identity cfg typing (td,live) te)
        (fun hd' => absurd hd' hd) ?_ (by rw [hnil]; rfl) fun _ => hnil
      simp [records,TrackedDevice.observeEvent,Obs.recordOf,hd]
  | removed fd td htd =>
    have hrecords : records d (.fd (.epollDel fd) :: w.closed fd ++
        [.queued (.removed td.libDevice),.fd (.dropped fd)]) = [] := by
      rw [List.cons_append,← List.singleton_append,records_append,records_append,
        records_of_silent (closed_silent w fd)]
      rfl
    by_cases hd : td.libDevice = d
    · subst hd
      exact h.removed htd rfl (produced_removal w fd _) hrecords (hw.allocated fd td htd)
        (hw.not_tracks_erase htd)
    · have hnil : eventsOf d (produced (.fd (.epollDel fd) :: w.closed fd ++
          [.queued (.removed td.libDevice),.fd (.dropped fd)])) = [] := by
        rw [produced_removal]
        exact eventsOf_eq_nil (c := td.libDevice) (by simp [LibinputEvent.removed]) hd
      refine h.keep hrecords (by rw [hnil]; rfl) (fun _ => hnil) le_rfl halloc
        (World.tracks_set_of_ne (by simpa [htd] using hd) (by simp)).mpr fun fd' td' htd' hlib => ?_
      rcases World.tracked_set htd' with ⟨_,heq⟩ | ⟨_,htd'⟩
      · cases heq
      · exact ⟨fd',td',htd',hlib,rfl,rfl,rfl⟩

end Translated

theorem LibinputContext.runCalls_translated (interface : LibinputInterface) (inotify : Bool)
    (calls : List (Call D)) (d : DevicePtr) :
    Translated d ((new (F := F) interface inotify).runCalls calls).2
      ((new (F := F) interface inotify).runCalls calls).1.view := by
  have hnone : ¬ (new (F := F) (D := D) interface inotify).view.Tracks d := by
    rintro ⟨fd,td,h,_⟩
    cases h
  exact runCalls_history (Translated d) interface inotify
    ⟨fun _ => ⟨rfl,rfl⟩,fun fd td ht hd => absurd ⟨fd,td,ht,hd⟩ hnone,fun _ => .inl ⟨rfl,rfl⟩⟩
    (fun out w o w' hw hI ht => hI.tick hw ht) calls

/-- What the client obtained from a context and has still to obtain. -/
def obtainable (r : LibinputContext F D × List (Obs F D)) : List (LibinputEvent D) :=
  delivered r.2 ++ r.1.eventQueue

/-- A device after a run: never added, tracked in the state that its records lead to, or removed;
and its events are those that its records lead to. -/
inductive ByItself (d : DevicePtr) (r : LibinputContext F D × List (Obs F D)) : Prop
  | absent (hevents : eventsOf d (obtainable r) = []) (hrecords : records d r.2 = [])
  | tracked (fd : RawFd) (td : TrackedDevice F D) (ht : r.1.tracked fd = some td)
      (hd : td.libDevice = d)
      (hevents : answersTo (eventsOf d (obtainable r)) = .added d ::
        (run TrackedDevice.interpret (.new td.device td.path d) (records d r.2)).2)
      (hstate : td.untimed =
        (run TrackedDevice.interpret (.new td.device td.path d) (records d r.2)).1.untimed)
  | removed (device : EvdevDevice) (path : PathBuf)
      (hnone : ∀ fd td, r.1.tracked fd = some td → td.libDevice ≠ d)
      (hevents : answersTo (eventsOf d (obtainable r)) = .added d ::
        (run TrackedDevice.interpret (.new device path d) (records d r.2)).2 ++ [.removed d])

/-- A device that the observations translate goes by itself. -/
theorem Translated.byItself {d : DevicePtr} {r : LibinputContext F D × List (Obs F D)}
    (h : Translated d r.2 r.1.view) (hqueue : obtainable r = produced r.2) : ByItself d r := by
  by_cases htracks : r.1.view.Tracks d
  · obtain ⟨fd,td,ht,hd⟩ := htracks
    obtain ⟨hint,hstate⟩ := h.present fd td ht hd
    exact .tracked fd td ht hd (by rw [hqueue,hint,List.append_nil]) hstate
  · rcases h.absent htracks with ⟨hev,hrec⟩ | ⟨device,path,hint⟩
    · exact .absent (by rw [hqueue,hev]) hrec
    · exact .removed device path (fun fd td ht hd => htracks ⟨fd,td,ht,hd⟩) (by rw [hqueue,hint])

/-- In every run every device goes by itself: its events, but for the repeats of held keys, and its
state, but for the times of these, are those of a device opened from the node that is given its
records and nothing else. -/
theorem LibinputContext.runCalls_byItself (interface : LibinputInterface) (inotify : Bool)
    (calls : List (Call D)) (d : DevicePtr) :
    ByItself d ((new (F := F) interface inotify).runCalls calls) :=
  (runCalls_translated interface inotify calls d).byItself
    (delivered_append_queue interface inotify calls)

end Runs
end LibinputRs
