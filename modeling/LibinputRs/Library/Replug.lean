import LibinputRs.Library.DrainLoops

/-! What a notification of the watch comes to. The hotplug pass skips a path that is tracked,
also when the device tracked under it is gone and about to be removed, and the notification is
consumed. -/
namespace LibinputRs
open Automata

variable {F D : Type}

namespace LibinputContext

/-- Some tracked device was opened from the node that is now at the path; which descriptors
refer to the nodes that are there now is for the kernel to say. -/
def TracksNode (ctx : LibinputContext F D) (current : RawFd → Prop) (path : PathBuf) : Prop :=
  ∃ fd td, ctx.tracked fd = some td ∧ td.path = path ∧ current fd

theorem tracksNode_of_tracked_eq {ctx ctx' : LibinputContext F D} {current : RawFd → Prop}
    {path : PathBuf} (h : ctx'.tracked = ctx.tracked) :
    ctx'.TracksNode current path ↔ ctx.TracksNode current path := by
  simp only [TracksNode,h]

/-- A new entry tracks the node at its own path. -/
theorem tracksNode_of_update {ctx ctx' : LibinputContext F D} {current : RawFd → Prop}
    {path : PathBuf} {fd : RawFd} {td : TrackedDevice F D} (hnew : ctx.tracked fd = none)
    (h : ctx'.tracked = Function.update ctx.tracked fd (some td))
    (hcurrent : td.path = path → current fd) :
    ctx'.TracksNode current path ↔ td.path = path ∨ ctx.TracksNode current path := by
  constructor
  · rintro ⟨fd₁,td₁,h₁,hpath,hcur⟩
    rw [h] at h₁
    rcases DeviceTable.update_cases h₁ with ⟨_,heq⟩ | ⟨_,h₁⟩
    · obtain rfl := Option.some.inj heq
      exact .inl hpath
    · exact .inr ⟨fd₁,td₁,h₁,hpath,hcur⟩
  · rintro (hpath | ⟨fd₁,td₁,h₁,hpath,hcur⟩)
    · exact ⟨fd,td,by rw [h,Function.update_self],hpath,hcurrent hpath⟩
    · refine ⟨fd₁,td₁,?_,hpath,hcur⟩
      have hne : fd₁ ≠ fd := by
        rintro rfl
        simp [hnew] at h₁
      rw [h,Function.update_of_ne hne,h₁]

variable [F32 F] [F64 D] [FloatCast F D]

/-- After a list of nodes is opened, the node at a path is tracked when it was before or when
the list admits the path. -/
theorem tracksNode_openAll (nodes : List (PathBuf × OpenResult)) (ctx : LibinputContext F D)
    (fds : List RawFd) (hfds : ∀ fd, ctx.tracked fd = none ↔ fd ∉ fds) {current : RawFd → Prop}
    {path : PathBuf} (hopened : ∀ node ∈ nodes, node.1 = path → current node.2.rawFd) :
    (ctx.openAll nodes).1.TracksNode current path ↔
      ctx.TracksNode current path ∨ path ∈ admittedPaths ctx.interface fds nodes := by
  induction nodes generalizing ctx fds with
  | nil => simp [openAll,admittedPaths]
  | cons node nodes ih =>
    obtain ⟨p,r⟩ := node
    have hinterface := tryOpen_interface ctx p r
    have hrest : ∀ node ∈ nodes, node.1 = path → current node.2.rawFd :=
      fun node hnode => hopened node (List.mem_cons_of_mem _ hnode)
    change ((ctx.tryOpen p r).1.openAll nodes).1.TracksNode current path ↔ _
    rcases tryOpen_tracked ctx p r with ⟨hnot,htracked⟩ | ⟨hopens,td,hpath,_,htracked⟩
    · have hskip : ¬ (OpensNode ctx.interface (p,r) ∧ r.rawFd ∉ fds) :=
        fun h => hnot ⟨h.1,(hfds _).mpr h.2⟩
      rw [admittedPaths,if_neg hskip,ih (ctx.tryOpen p r).1 fds (by simpa [htracked] using hfds) hrest,
        tracksNode_of_tracked_eq htracked,hinterface]
    · have hfds' : ∀ fd, (ctx.tryOpen p r).1.tracked fd = none ↔ fd ∉ r.rawFd :: fds :=
        htracked ▸ DeviceTable.update_none_iff hfds r.rawFd td
      have hcurrent : td.path = path → current r.rawFd := fun heq =>
        hopened (p,r) List.mem_cons_self (hpath.symm.trans heq)
      rw [admittedPaths,if_pos ⟨hopens.1,(hfds _).mp hopens.2⟩,List.mem_cons,
        ih (ctx.tryOpen p r).1 (r.rawFd :: fds) hfds' hrest,
        tracksNode_of_update hopens.2 htracked hcurrent,hinterface,hpath,eq_comm]
      tauto

/-- A device that is still there survives the dispatch that follows its opening. -/
theorem tracksNode_drain (ctx : LibinputContext F D) (inp : Dispatch) {current : RawFd → Prop}
    {path : PathBuf} (halive : ∀ fd, current fd → inp.fetch fd ≠ .gone) :
    (ctx.drainIntoQueue inp).1.TracksNode current path ↔
      (ctx.handleHotplug inp.inotify).1.TracksNode current path := by
  have hshrinks := drainIntoQueue_shrinks ctx inp
  constructor
  · rintro ⟨fd,td',h,hpath,hcur⟩
    obtain ⟨td,ht,hid⟩ := hshrinks fd td' h
    exact ⟨fd,td,ht,(TrackedDevice.path_of_identity hid).symm.trans hpath,hcur⟩
  · rintro ⟨fd,td,ht,hpath,hcur⟩
    have hkept := (drainIntoQueue_isSome ctx inp fd).mpr ⟨by simp [ht],halive fd hcur⟩
    obtain ⟨td',h⟩ := Option.isSome_iff_exists.mp hkept
    obtain ⟨td₀,h₀,hid⟩ := hshrinks fd td' h
    obtain rfl := Option.some.inj (ht.symm.trans h₀)
    exact ⟨fd,td',h,(TrackedDevice.path_of_identity hid).trans hpath,hcur⟩

/-- After a dispatch the node now at a path is tracked exactly when it was tracked before, or the
hotplug pass admits the path. -/
theorem tracksNode_dispatch_iff (ctx : LibinputContext F D) (inp : Dispatch) {path : PathBuf}
    {current : RawFd → Prop}
    (hopened : ∀ node ∈ ctx.callNodes (.dispatch inp), node.1 = path → current node.2.rawFd)
    (halive : ∀ fd, current fd → inp.fetch fd ≠ .gone) :
    (ctx.drainIntoQueue inp).1.TracksNode current path ↔
      ctx.TracksNode current path ∨ path ∈ admittedPaths ctx.interface ctx.backend.devices.keys
        (ctx.callNodes (.dispatch inp)) := by
  rw [tracksNode_drain ctx inp halive]
  change ∀ node ∈ (if ctx.backend.inotify then ctx.newPaths (inp.inotify.getD []) else []), _
    at hopened
  change _ ↔ _ ∨ _ ∈ admittedPaths _ _
    (if ctx.backend.inotify then ctx.newPaths (inp.inotify.getD []) else [])
  unfold handleHotplug
  split_ifs at hopened ⊢
  · cases hinp : inp.inotify with
    | none => simp [newPaths,admittedPaths]
    | some ievents =>
      rw [hinp] at hopened
      exact tracksNode_openAll _ ctx _ (tracked_none_iff ctx) hopened
  · simp [admittedPaths]

omit [F32 F] [F64 D] [FloatCast F D] in
/-- With fresh descriptors, every node that opens is admitted. -/
theorem admittedPaths_of_fresh {interface : LibinputInterface}
    {nodes : List (PathBuf × OpenResult)} {fds : List RawFd}
    (h : ((nodes.filter fun node => OpensNode interface node).map (·.2.rawFd) ++ fds).Nodup) :
    admittedPaths interface fds nodes =
      (nodes.filter fun node => OpensNode interface node).map (·.1) := by
  induction nodes generalizing fds with
  | nil => rfl
  | cons node nodes ih =>
    by_cases hopens : OpensNode interface node
    · rw [List.filter_cons,if_pos (decide_eq_true hopens),List.map_cons] at h ⊢
      have hfd : node.2.rawFd ∉ fds :=
        fun hmem => (List.nodup_cons.mp h).1 (List.mem_append_right _ hmem)
      rw [admittedPaths,if_pos ⟨hopens,hfd⟩,ih (List.nodup_middle.mpr h)]
    · rw [List.filter_cons,if_neg (by simpa using hopens)] at h ⊢
      rw [admittedPaths,if_neg fun hboth => hopens hboth.1,ih h]

omit [F32 F] [F64 D] [FloatCast F D] in
/-- A hotplug pass opens no path that is tracked. -/
theorem not_mem_paths_of_newPaths {ctx : LibinputContext F D} {ievents : List InotifyEvent}
    {node : PathBuf × OpenResult} (h : node ∈ ctx.newPaths ievents) : node.1 ∉ ctx.paths := by
  obtain ⟨iev,_,hnode⟩ := List.mem_filterMap.mp h
  obtain ⟨name,_,hnode⟩ := Option.bind_eq_some_iff.mp hnode
  split_ifs at hnode with htracked
  obtain rfl := Option.some.inj hnode
  intro hpath
  apply htracked
  obtain ⟨e,he,heq⟩ := List.mem_map.mp hpath
  exact List.any_eq_true.mpr ⟨e,he,decide_eq_true heq⟩

omit [F32 F] [F64 D] [FloatCast F D] in
/-- A hotplug pass opens what is reported at a path that is not tracked. -/
theorem mem_newPaths {ctx : LibinputContext F D} {ievents : List InotifyEvent} {name : FileName}
    {r : OpenResult} (hmem : ⟨some name,r⟩ ∈ ievents) (hpath : devInput name ∉ ctx.paths) :
    (devInput name,r) ∈ ctx.newPaths ievents := by
  refine List.mem_filterMap.mpr ⟨_,hmem,Option.bind_eq_some_iff.mpr ⟨name,rfl,if_neg ?_⟩⟩
  intro htracked
  obtain ⟨e,he,heq⟩ := List.any_eq_true.mp htracked
  exact hpath (List.mem_map.mpr ⟨e,he,of_decide_eq_true heq⟩)

/-- The descriptors of the nodes that open are not taken, and no two of them are the same. -/
def FreshDescriptors (ctx : LibinputContext F D) (inp : Dispatch) : Prop :=
  (((ctx.callNodes (.dispatch inp)).filter fun node => OpensNode ctx.interface node).map
    (·.2.rawFd) ++ ctx.backend.devices.keys).Nodup

/-- When the watch reports a path at which a node opens that passes the filters, the dispatch
leaves the node now at that path tracked exactly when it was tracked before, or no device was
tracked under the path, dead ones included. -/
theorem replug_tracked_iff (ctx : LibinputContext F D) (inp : Dispatch) (name : FileName)
    (r : OpenResult) (current : RawFd → Prop) (hwatch : ctx.backend.inotify = true)
    (hreported : ⟨some name,r⟩ ∈ inp.inotify.getD [])
    (hopens : OpensNode ctx.interface (devInput name,r))
    (hfresh : ctx.FreshDescriptors inp)
    (hopened : ∀ node ∈ ctx.callNodes (.dispatch inp), node.1 = devInput name →
      current node.2.rawFd)
    (halive : ∀ fd, current fd → inp.fetch fd ≠ .gone) :
    (ctx.drainIntoQueue inp).1.TracksNode current (devInput name) ↔
      ctx.TracksNode current (devInput name) ∨ devInput name ∉ ctx.paths := by
  rw [tracksNode_dispatch_iff ctx inp hopened halive,admittedPaths_of_fresh hfresh]
  have hnodes : ctx.callNodes (.dispatch inp) = ctx.newPaths (inp.inotify.getD []) := if_pos hwatch
  rw [hnodes,List.mem_map]
  apply or_congr_right
  constructor
  · rintro ⟨node,hnode,hpath⟩
    rw [← hpath]
    exact not_mem_paths_of_newPaths (List.mem_filter.mp hnode).1
  · intro hpath
    exact ⟨_,List.mem_filter.mpr ⟨mem_newPaths hreported hpath,decide_eq_true hopens⟩,rfl⟩

/-- A keyboard appears, and is tracked. -/
theorem plugged_keyboard_tracked :
    ((new (F := ℚ) (D := ℚ) ⟨true,true⟩ true).drainIntoQueue
      ⟨some [⟨some .event3,⟨5,some plainKeyboard⟩⟩],0,[],fun _ => .wouldBlock⟩).1.TracksNode
        (· = 5) (devInput .event3) :=
  (replug_tracked_iff (new ⟨true,true⟩ true) _ .event3 ⟨5,some plainKeyboard⟩ (· = 5) rfl
    (by decide +kernel) (by decide +kernel) (show List.Nodup _ by decide +kernel)
    (by decide +kernel) (by simp)).mpr (.inr (by decide +kernel))

/-- A keyboard is unplugged and another appears at its path before the next dispatch: the
notification is spent on the path that is still tracked, and nothing is tracked afterwards. -/
theorem replugged_keyboard_lost :
    let ctx := ((new (F := ℚ) (D := ℚ) ⟨true,true⟩ true).runCalls
      [.addDevice "/dev/input/event3" ⟨5,some plainKeyboard⟩]).1
    let inp : Dispatch := ⟨some [⟨some .event3,⟨6,some plainKeyboard⟩⟩],0,[],
      fun fd => if fd = 5 then .gone else .wouldBlock⟩
    ctx.backend.inotify = true ∧ OpensNode ctx.interface (devInput .event3,⟨6,some plainKeyboard⟩) ∧
      (ctx.drainIntoQueue inp).1.backend.devices.keys = [] ∧
      ¬ (ctx.drainIntoQueue inp).1.TracksNode (· = 6) (devInput .event3) := by
  intro ctx inp
  have hempty : (ctx.drainIntoQueue inp).1.backend.devices.keys = [] := by decide +kernel
  refine ⟨by decide +kernel,by decide +kernel,hempty,?_⟩
  rintro ⟨fd,td,h,_⟩
  have hkey : fd ∈ (ctx.drainIntoQueue inp).1.backend.devices.keys :=
    (mem_keys_iff _ fd).mpr (by simp [h])
  rw [hempty] at hkey
  cases hkey

end LibinputContext
end LibinputRs
