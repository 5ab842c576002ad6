import LibinputRs.Daemon.Table
import LibinputRs.Pipeline.ClickPairs

/-! The buttons of the virtual device. A button that was last written with a value other than zero
is owed a release by a wrapper that is still tracked, as long as no device goes away with a button
down and no click is pressed over another. -/
namespace LibinputRs
open Automata

variable {F : Type}

/-- The last value reported for the button, if any, is not zero. -/
def HeldDown (code : ℕ) (evs : List InputEvent) : Prop :=
  ∃ v ∈ (keyValues code evs).getLast?, v ≠ 0

instance (code : ℕ) (evs : List InputEvent) : Decidable (HeldDown code evs) :=
  inferInstanceAs (Decidable (∃ v ∈ (keyValues code evs).getLast?, v ≠ 0))

section Values

theorem heldDown_append {code : ℕ} {evs evs' : List InputEvent} :
    HeldDown code (evs ++ evs') ↔
      HeldDown code evs' ∨ keyValues code evs' = [] ∧ HeldDown code evs := by
  rw [HeldDown,keyValues_append,List.getLast?_append]
  cases hlast : (keyValues code evs').getLast? with
  | none =>
    have hnil := List.getLast?_eq_none_iff.mp hlast
    simp [HeldDown,hnil]
  | some v =>
    have hne : keyValues code evs' ≠ [] := by
      rintro hnil
      rw [hnil] at hlast
      cases hlast
    simp [HeldDown,hlast,hne]

theorem heldDown_concat {code : ℕ} {evs : List InputEvent} {ev : InputEvent} :
    HeldDown code (evs ++ [ev]) ↔ if ev.KeyWith code then ev.value ≠ 0 else HeldDown code evs := by
  rw [heldDown_append]
  by_cases hev : ev.KeyWith code <;> simp [HeldDown,keyValues,hev]

theorem heldDown_concat_of_not {code : ℕ} {evs : List InputEvent} {ev : InputEvent}
    (hev : ¬ ev.KeyWith code) : HeldDown code (evs ++ [ev]) ↔ HeldDown code evs := by
  rw [heldDown_concat,if_neg hev]

end Values

/-- The events the loop has handled under a token. -/
def tokenEvents (token : ℕ) (l : List (LoopObs F)) : List InputEvent :=
  ((handledEvents l).filter fun h => h.token = token).map (·.event.ev)

/-- All that the loop has written to the virtual device. -/
def written (l : List (LoopObs F)) : List InputEvent :=
  (handledEvents l).flatMap fun h => h.writes.map (·.ev)

@[simp] theorem handledEvents_append (l m : List (LoopObs F)) :
    handledEvents (l ++ m) = handledEvents l ++ handledEvents m := List.filterMap_append

@[simp] theorem written_append (l m : List (LoopObs F)) :
    written (l ++ m) = written l ++ written m := by
  simp [written]

@[simp] theorem tokenEvents_append (token : ℕ) (l m : List (LoopObs F)) :
    tokenEvents token (l ++ m) = tokenEvents token l ++ tokenEvents token m := by
  simp [tokenEvents]

namespace DeviceWrapper

/-- The wrapper holds the button of the virtual device down: it will write a zero for it when its
own button is released, which for a click is the left one. -/
def Owes (w : DeviceWrapper F) (code : ℕ) (evs : List InputEvent) : Prop :=
  (HeldDown code evs ∧ (w.isAbsolute = true → code ≠ KeyCode.btnLeft)) ∨
    (w.isAbsolute = true ∧ HeldDown KeyCode.btnLeft evs ∧ w.activeClickButton = some code)

instance (w : DeviceWrapper F) (code : ℕ) (evs : List InputEvent) : Decidable (w.Owes code evs) :=
  inferInstanceAs (Decidable (_ ∨ _))

/-- What is owed is held down by a finger. -/
theorem Owes.held {w : DeviceWrapper F} {code : ℕ} {evs : List InputEvent} (h : w.Owes code evs)
    (hcode : code ∈ touchpadButtons) : ∃ c ∈ touchpadButtons, HeldDown c evs := by
  rcases h with ⟨hheld,_⟩ | ⟨_,hheld,_⟩
  · exact ⟨code,hcode,hheld⟩
  · exact ⟨KeyCode.btnLeft,by decide,hheld⟩

/-- At most three fingers are counted, and a click is under one of the three buttons. -/
def Clicking (w : DeviceWrapper F) : Prop :=
  w.touchFingers ≤ 3 ∧ ∀ m ∈ w.activeClickButton, m ∈ touchpadButtons

/-- What one event writes for the three buttons: itself, a tap, a click, or the release of one. -/
inductive ButtonWrites (w : DeviceWrapper F) (ev : InputEvent)
    (r : DeviceWrapper F × List InputEvent) : Prop
  | plain (hleft : w.isAbsolute = true → ¬ ev.KeyWith KeyCode.btnLeft)
      (hactive : r.1.activeClickButton = w.activeClickButton)
      (hout : ∀ c ∈ touchpadButtons, keyValues c r.2 = if ev.KeyWith c then [ev.value] else [])
  | tap (hev : ev.KeyWith KeyCode.btnTouch)
      (hactive : r.1.activeClickButton = w.activeClickButton)
      (hout : ∀ c ∈ touchpadButtons, keyValues c r.2 = if c = KeyCode.btnLeft then [1,0] else [])
  | press (habs : w.isAbsolute = true) (hev : ev.Presses KeyCode.btnLeft)
      (hactive : r.1.activeClickButton = some (clickCode w.touchFingers))
      (hout : ∀ c ∈ touchpadButtons,
        keyValues c r.2 = if c = clickCode w.touchFingers then [ev.value] else [])
  | release (habs : w.isAbsolute = true) (hev : ev.Releases KeyCode.btnLeft)
      (hactive : r.1.activeClickButton = none)
      (hout : ∀ c ∈ touchpadButtons,
        keyValues c r.2 = if c = w.activeClickButton.getD KeyCode.btnLeft then [0] else [])

/-- A press of the left button that does not come over a click under another button. -/
def KeepsClick (w : DeviceWrapper F) (ev : InputEvent) : Prop :=
  w.isAbsolute = true → ev.Presses KeyCode.btnLeft →
    ∀ m ∈ w.activeClickButton, clickCode w.touchFingers = m

instance (w : DeviceWrapper F) (ev : InputEvent) : Decidable (w.KeepsClick ev) :=
  inferInstanceAs (Decidable (_ → _))

/-- What an event does not touch stays owed. -/
theorem Owes.keep {w w' : DeviceWrapper F} {c : ℕ} {evs : List InputEvent} {ev : InputEvent}
    (h : w.Owes c evs) (habs : w'.isAbsolute = w.isAbsolute) (hev : ¬ ev.KeyWith c)
    (hclick : w.isAbsolute = true → w.activeClickButton = some c →
      w'.activeClickButton = some c ∧ ¬ ev.KeyWith KeyCode.btnLeft) : w'.Owes c (evs ++ [ev]) := by
  rw [Owes,habs,heldDown_concat_of_not hev]
  rcases h with hheld | ⟨ha,hheld,hactive⟩
  · exact .inl hheld
  · obtain ⟨hactive',hleft⟩ := hclick ha hactive
    exact .inr ⟨ha,(heldDown_concat_of_not hleft).mpr hheld,hactive'⟩

theorem heldDown_ite {c : ℕ} {evs : List InputEvent} {p : Prop} {_ : Decidable p} {l : List ℤ}
    (hout : keyValues c evs = if p then l else []) (h : HeldDown c evs) :
    p ∧ ∃ v ∈ l.getLast?, v ≠ 0 := by
  obtain ⟨v,hv,hne⟩ := h
  rw [hout] at hv
  split_ifs at hv with hp
  · exact ⟨hp,v,hv,hne⟩
  · cases hv

/-- What an event leaves held down is owed after it, and what it does not write stays owed. -/
theorem ButtonWrites.owes {w : DeviceWrapper F} {ev : InputEvent}
    {r : DeviceWrapper F × List InputEvent} (h : ButtonWrites w ev r)
    (habs : r.1.isAbsolute = w.isAbsolute) (hkeeps : w.KeepsClick ev) (evs : List InputEvent) {c : ℕ}
    (hc : c ∈ touchpadButtons) : (HeldDown c r.2 → r.1.Owes c (evs ++ [ev])) ∧
      (keyValues c r.2 = [] → w.Owes c evs → r.1.Owes c (evs ++ [ev])) := by
  cases h with
  | plain hleft hactive hout =>
    refine ⟨fun hheld => ?_,fun hnil howes => ?_⟩
    · obtain ⟨hev,v,hv,hne⟩ := heldDown_ite (hout c hc) hheld
      obtain rfl := Option.some.inj hv
      refine .inl ⟨heldDown_concat.mpr (by rwa [if_pos hev]),fun ha heq => ?_⟩
      exact hleft (habs.symm.trans ha) (heq ▸ hev)
    · have hev : ¬ ev.KeyWith c := fun hev => by simp [hout c hc,hev] at hnil
      exact howes.keep habs hev fun ha hclick => ⟨hactive.trans hclick,hleft ha⟩
  | tap hev hactive hout =>
    have hother : ∀ c ∈ touchpadButtons, ¬ ev.KeyWith c := by
      rintro c hc hkey
      rw [← hkey.2,hev.2] at hc
      exact absurd hc (by decide)
    refine ⟨fun hheld => ?_,fun _ howes => ?_⟩
    · obtain ⟨_,v,hv,hne⟩ := heldDown_ite (hout c hc) hheld
      obtain rfl := Option.some.inj hv
      exact absurd rfl hne
    · exact howes.keep habs (hother c hc) fun _ hclick =>
        ⟨hactive.trans hclick,hother _ (by decide)⟩
  | press ha hev hactive hout =>
    refine ⟨fun hheld => ?_,fun hnil howes => ?_⟩
    · obtain ⟨rfl,_⟩ := heldDown_ite (hout c hc) hheld
      exact .inr ⟨habs.trans ha,heldDown_concat.mpr (by rw [if_pos hev.1]; exact hev.2),hactive⟩
    · have hne : c ≠ clickCode w.touchFingers := fun heq => by
        rw [hout c hc,if_pos heq] at hnil
        cases hnil
      rcases howes with ⟨hheld,hleft⟩ | ⟨_,_,hclick⟩
      · have hevc : ¬ ev.KeyWith c := fun hevc => hleft ha (hevc.2.symm.trans hev.1.2)
        exact .inl ⟨(heldDown_concat_of_not hevc).mpr hheld,fun _ => hleft ha⟩
      · exact absurd (hkeeps ha hev c hclick).symm hne
  | release ha hev hactive hout =>
    refine ⟨fun hheld => ?_,fun hnil howes => ?_⟩
    · obtain ⟨_,v,hv,hne⟩ := heldDown_ite (hout c hc) hheld
      obtain rfl := Option.some.inj hv
      exact absurd rfl hne
    · have hne : c ≠ w.activeClickButton.getD KeyCode.btnLeft := fun heq => by
        rw [hout c hc,if_pos heq] at hnil
        cases hnil
      rcases howes with ⟨hheld,hleft⟩ | ⟨_,_,hclick⟩
      · have hevc : ¬ ev.KeyWith c := fun hevc => hleft ha (hevc.2.symm.trans hev.1.2)
        exact .inl ⟨(heldDown_concat_of_not hevc).mpr hheld,fun _ => hleft ha⟩
      · rw [hclick] at hne
        exact absurd rfl hne

section Events

theorem keyValues_accepted (c : ℕ) (ev : InputEvent) :
    keyValues c ((accepted ev).map Write.ev) = if ev.KeyWith c then [ev.value] else [] := by
  have hsyn : ¬ InputEvent.synReport.KeyWith c := fun h => by cases h.1
  by_cases hev : ev.KeyWith c <;> simp [accepted,keyValues,hev,hsyn]

/-- A key event of one code has values for that code alone. -/
theorem keyValues_accepted_key (c code : ℕ) (value : ℤ) :
    keyValues c ((accepted (.new .key code value)).map Write.ev) =
      if c = code then [value] else [] := by
  rw [keyValues_accepted]
  exact if_congr ⟨fun h => h.2.symm,fun h => ⟨rfl,h.symm⟩⟩ rfl rfl

/-- What the fingers write for the buttons: a tap, or nothing. -/
theorem processTouchKey_buttons (te : TimedEvent) (cfg : InputConfig F) (dwt : Bool)
    (w : DeviceWrapper F) : ((reliably (processTouchKey te cfg dwt) w).2 = [] ∨
      te.ev.code = KeyCode.btnTouch ∧ (reliably (processTouchKey te cfg dwt) w).2 = tapWrites) := by
  rw [reliably_processTouchKey,reliably_touchUp]
  split_ifs with htouch
  · exact .inl rfl
  · exact .inr ⟨htouch,rfl⟩
  all_goals exact .inl rfl

variable [F32 F]

/-- A frame writes no key. -/
theorem processSyn_keyless (te : TimedEvent) (cfg : InputConfig F) (dwt : Bool)
    (w : DeviceWrapper F) (hsyn : te.ev.eventType = .synchronization) :
    ∀ x ∈ (reliably (processSyn te cfg dwt) w).2, x.ev.eventType ≠ .key := by
  have haccepted : ∀ ev : InputEvent, ev.eventType ≠ .key →
      ∀ x ∈ accepted ev, x.ev.eventType ≠ .key := by
    intro ev hev x hx
    rcases List.mem_pair.mp hx with rfl | rfl
    · exact hev
    · decide
  have hforward := haccepted te.ev (by rw [hsyn]; decide)
  have hrelative : EventType.relative ≠ .key := by decide
  have hrel : ∀ code value, ∀ x ∈ relAccepted code value, x.ev.eventType ≠ .key := by
    intro code value
    unfold relAccepted
    split_ifs
    · exact haccepted _ hrelative
    · exact List.forall_mem_nil _
  by_cases hcode : te.ev.code = 0
  · rw [reliably_processSyn te cfg dwt w hcode]
    refine List.forall_mem_append.mpr ⟨?_,?_⟩
    · split_ifs
      · exact List.forall_mem_nil _
      · rw [reliably_movementFrame]
        dsimp only
        split_ifs
        · rw [reliably_motionFrame]
          exact List.forall_mem_append.mpr ⟨hrel _ _,hrel _ _⟩
        · rw [reliably_scrollFrame]
          dsimp only
          split_ifs
          · exact haccepted _ hrelative
          · exact haccepted _ hrelative
          · exact List.forall_mem_nil _
        · exact List.forall_mem_nil _
      · exact List.forall_mem_nil _
    · split_ifs
      · exact hforward
      · exact List.forall_mem_nil _
  · rw [reliably_processSyn_other te cfg dwt w hcode]
    exact hforward

/-- The events of a touchpad other than keys write no key. -/
theorem eventStep_keyless (cfg : InputConfig F) {w : DeviceWrapper F} (i : WrapperInput)
    (habs : w.isAbsolute = true) (hkey : i.te.ev.eventType ≠ .key) (c : ℕ) :
    keyValues c ((w.eventStep cfg i).2.map Write.ev) = [] := by
  have hkeyless : ∀ x ∈ (w.eventStep cfg i).2, x.ev.eventType ≠ .key := by
    rw [eventStep,reliably_processEvent_absolute cfg _ _ habs]
    by_cases hsyn : i.te.ev.eventType = .synchronization
    · rw [reliably_processAbsolute_syn _ _ _ _ hsyn]
      exact processSyn_keyless _ _ _ _ hsyn
    · by_cases haxis : i.te.ev.eventType = .absolute
      · rw [reliably_processAbsolute_axis _ _ _ _ haxis]
        exact List.forall_mem_nil _
      · rw [reliably_processAbsolute_other _ _ _ _ hkey hsyn haxis]
        exact List.forall_mem_nil _
  refine List.filterMap_eq_nil_iff.mpr fun ev hev => if_neg fun h => ?_
  obtain ⟨x,hx,rfl⟩ := List.mem_map.mp hev
  exact hkeyless x hx h.1

/-- The keys of a touchpad other than the left button write a tap, themselves or nothing. -/
theorem eventStep_otherKey (cfg : InputConfig F) {w : DeviceWrapper F} (i : WrapperInput)
    (habs : w.isAbsolute = true) (hkey : i.te.ev.eventType = .key)
    (hleft : i.te.ev.code ≠ KeyCode.btnLeft) :
    (i.te.ev.code = KeyCode.btnTouch ∧ (w.eventStep cfg i).2 = tapWrites) ∨
      (w.eventStep cfg i).2 = if isTouchpadButton i.te.ev.code then
        accepted (.new .key i.te.ev.code i.te.ev.value) else [] := by
  rw [eventStep,reliably_processEvent_absolute cfg _ _ habs,
    reliably_processAbsolute_key _ _ _ _ hkey,reliably_andThen (processTouchKey_completes _ _ _),
    reliably_forwardButton,mapClick_other hleft]
  rcases processTouchKey_buttons i.te cfg (dwtActive cfg i.typing i.te.now)
    ((w.trackKey i.te).guarded (dwtActive cfg i.typing i.te.now)) with hnone | ⟨htouch,htap⟩
  · exact .inr (by rw [hnone,List.nil_append])
  · refine .inl ⟨htouch,?_⟩
    rw [htap,htouch]
    rfl

omit [F32 F] in
theorem mapClick_release {value : ℤ} (hvalue : value = 0) (w : DeviceWrapper F) :
    w.mapClick KeyCode.btnLeft value = ({ w with activeClickButton := none },
      w.activeClickButton.getD KeyCode.btnLeft) := by
  unfold mapClick
  rw [if_pos rfl,if_neg (not_not.mpr hvalue)]

theorem keyValues_tapWrites (c : ℕ) :
    keyValues c (tapWrites.map Write.ev) = if c = KeyCode.btnLeft then [1,0] else [] := by
  have hsyn : keyValues c ((accepted .synReport).map Write.ev) = [] := by
    rw [keyValues_accepted,if_neg fun h => by cases h.1]
  rw [tapWrites,List.map_append,List.map_append,keyValues_append,keyValues_append,hsyn,
    keyValues_accepted_key,keyValues_accepted_key]
  split_ifs <;> rfl

/-- What an event of a wrapper writes for the three buttons. -/
theorem eventStep_buttonWrites (cfg : InputConfig F) {w : DeviceWrapper F} (i : WrapperInput)
    (hw : w.Clicking) :
    ButtonWrites w i.te.ev ((w.eventStep cfg i).1,(w.eventStep cfg i).2.map Write.ev) := by
  obtain ⟨hfew,hclicks⟩ := hw
  by_cases habs : w.isAbsolute = true
  · by_cases hev : i.te.ev.KeyWith KeyCode.btnLeft
    · obtain ⟨w',hstate,hstep⟩ := eventStep_left cfg i habs hev
      simp only [clickState,Prod.mk.injEq] at hstate
      rw [hstep,reliably_forwardButton,hev.2]
      by_cases hvalue : i.te.ev.value = 0
      · rw [mapClick_release hvalue,hstate.2]
        refine .release habs ⟨hev,hvalue⟩ rfl fun c _ => ?_
        have hbutton : isTouchpadButton (w.activeClickButton.getD KeyCode.btnLeft) = true := by
          cases hactive : w.activeClickButton with
          | none => rfl
          | some m => exact mem_touchpadButtons.mp (hclicks m hactive)
        dsimp only
        rw [if_pos hbutton,keyValues_accepted_key,hvalue]
      · rw [mapClick_press hvalue (hstate.1 ▸ hfew),hstate.1]
        refine .press habs ⟨hev,hvalue⟩ rfl fun c _ => ?_
        dsimp only
        rw [if_pos (clickCode_mem _),keyValues_accepted_key]
    · have hactive := (eventStep_clickState cfg i ⟨habs,hfew⟩).2 hev
      by_cases hkey : i.te.ev.eventType = .key
      · rcases eventStep_otherKey cfg i habs hkey (fun h => hev ⟨hkey,h⟩) with ⟨htouch,htap⟩ | hself
        · refine .tap ⟨hkey,htouch⟩ hactive fun c _ => ?_
          rw [htap,keyValues_tapWrites]
        · refine .plain (fun _ => hev) hactive fun c hc => ?_
          have hsame : i.te.ev.KeyWith c ↔ c = i.te.ev.code :=
            ⟨fun h => h.2.symm,fun h => ⟨hkey,h.symm⟩⟩
          rw [hself,if_congr hsame rfl rfl]
          by_cases hcode : c = i.te.ev.code
          · rw [← hcode,if_pos (mem_touchpadButtons.mp hc),keyValues_accepted_key]
          · rw [if_neg hcode]
            split_ifs
            · rw [keyValues_accepted_key,if_neg hcode]
            · rfl
      · refine .plain (fun _ => hev) hactive fun c _ => ?_
        rw [eventStep_keyless cfg i habs hkey,if_neg fun h => hkey h.1]
  · rw [eventStep,reliably_processEvent_relative cfg _ _ (Bool.not_eq_true _ ▸ habs)]
    refine .plain (fun h => absurd h habs) ?_ fun c _ => keyValues_accepted c i.te.ev
    exact congrArg Prod.snd (trackKey_clickState i.te w)

theorem eventStep_clicking (cfg : InputConfig F) {w : DeviceWrapper F} (i : WrapperInput)
    (hw : w.Clicking) : (w.eventStep cfg i).1.Clicking := by
  constructor
  · by_cases habs : w.isAbsolute = true
    · exact (eventStep_clickState cfg i ⟨habs,hw.1⟩).1
    · rw [eventStep,reliably_processEvent_relative cfg _ _ (Bool.not_eq_true _ ▸ habs)]
      exact (congrArg Prod.fst (trackKey_clickState i.te w)).trans_le hw.1
  · intro m hm
    cases eventStep_buttonWrites cfg i hw with
    | plain hleft hactive hout => exact hw.2 m (hactive ▸ hm)
    | tap hev hactive hout => exact hw.2 m (hactive ▸ hm)
    | press habs hev hactive hout =>
      obtain rfl := Option.some.inj (hactive.symm.trans hm)
      exact mem_touchpadButtons.mpr (clickCode_mem _)
    | release habs hev hactive hout => cases hactive.symm.trans hm

end Events
end DeviceWrapper

/-- The invariant of the loop: every write is accepted, and every button that was last written with
a value other than zero is owed by a tracked wrapper. -/
structure Covered (l : EventLoop F) (out : List (LoopObs F)) : Prop where
  reliable : l.vDevice = .reliable
  below : ∀ t w, l.wrapper t = some w → t < l.nextToken
  clicking : ∀ t w, l.wrapper t = some w → w.Clicking
  owed : ∀ c ∈ touchpadButtons, HeldDown c (written out) →
    ∃ t w, l.wrapper t = some w ∧ w.Owes c (tokenEvents t out)

section Steps
variable [F32 F]

/-- The loop in the middle of a batch. -/
def Batch.during (b : Batch F) (l : EventLoop F) (token : ℕ) : EventLoop F :=
  { l.insert token b.wrapper with vDevice := b.vDevice }

omit [F32 F] in
theorem Batch.during_wrapper (b : Batch F) (l : EventLoop F) (token t : ℕ) :
    (b.during l token).wrapper t = if t = token then some b.wrapper else l.wrapper t :=
  EventLoop.wrapper_insert l token t b.wrapper

theorem Batch.handle_covered (cfg : InputConfig F) {l : EventLoop F} {token : ℕ} {b : Batch F}
    {out : List (LoopObs F)} (h : Covered (b.during l token) out) (te : TimedEvent)
    (hkeeps : b.wrapper.KeepsClick te.ev) :
    Covered ((b.handle cfg token te).1.during l token) (out ++ (b.handle cfg token te).2) := by
  obtain ⟨hwrapper,hv,hout⟩ := handle_reliable cfg token b te h.reliable
  have hself : (b.during l token).wrapper token = some b.wrapper :=
    (during_wrapper b l token token).trans (if_pos rfl)
  have hother : ∀ {t}, t ≠ token → (b.during l token).wrapper t = l.wrapper t :=
    fun ht => (during_wrapper b l token _).trans (if_neg ht)
  have habs := DeviceWrapper.eventStep_isAbsolute cfg b.wrapper ⟨te,b.typing⟩
  rw [hout]
  refine ⟨hv,fun t w hw => ?_,fun t w hw => ?_,fun c hc hheld => ?_⟩
  · rw [during_wrapper] at hw
    split_ifs at hw with ht
    · exact ht ▸ h.below token b.wrapper hself
    · exact h.below t w ((hother ht).trans hw)
  · rw [during_wrapper] at hw
    split_ifs at hw with ht
    · obtain rfl := Option.some.inj hw
      rw [hwrapper]
      exact DeviceWrapper.eventStep_clicking cfg _ (h.clicking token b.wrapper hself)
    · exact h.clicking t w ((hother ht).trans hw)
  · obtain ⟨hleaves,hstays⟩ := (DeviceWrapper.eventStep_buttonWrites cfg ⟨te,b.typing⟩
      (h.clicking token b.wrapper hself)).owes habs hkeeps (tokenEvents token out) hc
    rw [written_append,heldDown_append] at hheld
    have hmine : (b.wrapper.eventStep cfg ⟨te,b.typing⟩).1.Owes c (tokenEvents token out ++ [te.ev]) →
        ∃ t w, ((b.handle cfg token te).1.during l token).wrapper t = some w ∧
          w.Owes c (tokenEvents t (out ++ [.handled ⟨token,b.wrapper,b.typing,te,
            (b.wrapper.eventStep cfg ⟨te,b.typing⟩).2⟩])) := by
      intro howes
      refine ⟨token,_,(during_wrapper _ l token token).trans (if_pos rfl),?_⟩
      rw [hwrapper,tokenEvents_append]
      simpa [tokenEvents,handledEvents,LoopObs.handledEvent] using howes
    have hwritten : written [LoopObs.handled ⟨token,b.wrapper,b.typing,te,
        (b.wrapper.eventStep cfg ⟨te,b.typing⟩).2⟩] =
          (b.wrapper.eventStep cfg ⟨te,b.typing⟩).2.map Write.ev := List.append_nil _
    rw [hwritten] at hheld
    rcases hheld with hnow | ⟨hnil,hbefore⟩
    · exact hmine (hleaves hnow)
    · obtain ⟨t,w,hw,howes⟩ := h.owed c hc hbefore
      by_cases ht : t = token
      · subst ht
        obtain rfl := Option.some.inj (hself.symm.trans hw)
        exact hmine (hstays hnil howes)
      · refine ⟨t,w,(during_wrapper _ l token t).trans ((if_neg ht).trans ?_),?_⟩
        · exact (hother ht).symm.trans hw
        · simpa [tokenEvents,handledEvents,LoopObs.handledEvent,Ne.symm ht] using howes

omit [F32 F] in
/-- The invariant is about the events handled, whatever else was output, and the counter may grow. -/
theorem Covered.congr {l l' : EventLoop F} {out out' : List (LoopObs F)} (h : Covered l out)
    (ho : handledEvents out' = handledEvents out) (hv : l'.vDevice = l.vDevice)
    (hw : ∀ t, l'.wrapper t = l.wrapper t) (hnext : l.nextToken ≤ l'.nextToken) : Covered l' out' := by
  refine ⟨hv.trans h.reliable,fun t w hw' => ?_,fun t w hw' => ?_,fun c hc hheld => ?_⟩
  · exact (h.below t w ((hw t).symm.trans hw')).trans_le hnext
  · exact h.clicking t w ((hw t).symm.trans hw')
  · rw [written,ho] at hheld
    obtain ⟨t,w,hw',howes⟩ := h.owed c hc hheld
    refine ⟨t,w,(hw t).trans hw',?_⟩
    rwa [tokenEvents,ho]

omit [F32 F] in
theorem Covered.quiet {l : EventLoop F} {out o : List (LoopObs F)} (h : Covered l out)
    (ho : handledEvents o = []) : Covered l (out ++ o) :=
  h.congr (by rw [handledEvents_append,ho,List.append_nil]) rfl (fun _ => rfl) le_rfl

namespace EventLoop

omit [F32 F] in
theorem register_covered {l : EventLoop F} {out : List (LoopObs F)} (h : Covered l out)
    (registers : Bool) {w : DeviceWrapper F} (hw : w.Clicking) :
    Covered (l.register registers w).1 (out ++ (l.register registers w).2) := by
  cases registers with
  | false => exact (h.quiet rfl).congr rfl rfl (fun _ => rfl) (Nat.le_succ _)
  | true =>
    have hquiet : Covered l (out ++ [.registered l.nextToken w.device.rawFd]) := h.quiet rfl
    refine ⟨h.reliable,fun t w' hw' => ?_,fun t w' hw' => ?_,fun c hc hheld => ?_⟩
    · rw [register_wrapper] at hw'
      split_ifs at hw' with ht
      · exact ht ▸ Nat.lt_succ_self _
      · exact Nat.lt_succ_of_lt (h.below t w' hw')
    · rw [register_wrapper] at hw'
      split_ifs at hw' with ht
      · exact Option.some.inj hw' ▸ hw
      · exact h.clicking t w' hw'
    · obtain ⟨t,w',hw',howes⟩ := hquiet.owed c hc hheld
      refine ⟨t,w',?_,howes⟩
      rw [register_wrapper,if_neg (h.below t w' hw').ne]
      exact hw'

theorem new_clicking (device : Device) (path : PathBuf) :
    (DeviceWrapper.new (F := F) device path).Clicking :=
  ⟨Nat.zero_le _,fun _ hm => by cases hm⟩

theorem tryOpenDevice_clicking {path : PathBuf} {node : NodeOpen} {w : DeviceWrapper F}
    (h : tryOpenDevice path node = some w) : w.Clicking := by
  obtain ⟨probe,_,hw⟩ := Option.bind_eq_some_iff.mp h
  dsimp only at hw
  split_ifs at hw <;> obtain rfl := Option.some.inj hw <;> exact new_clicking _ _

theorem hotplug_covered {l : EventLoop F} {out : List (LoopObs F)} (h : Covered l out)
    (iev : HotplugEvent) : Covered (l.hotplug iev).1 (out ++ (l.hotplug iev).2) := by
  rcases l.hotplug_cases iev with heq | ⟨_,w,_,_,hopen,heq⟩ <;> rw [heq]
  · rwa [List.append_nil]
  · exact register_covered h iev.registers (tryOpenDevice_clicking hopen)

/-- A device that goes away leaves no button of the virtual device held down that no other tracked
wrapper owes. -/
def GoneReleased (l : EventLoop F) (out : List (LoopObs F)) : LoopInput → Prop
  | .ready token .gone => ∀ c ∈ touchpadButtons, HeldDown c (written out) →
      ∃ e ∈ l.devicesMap.entries, e.1 ≠ token ∧ e.2.Owes c (tokenEvents e.1 out)
  | _ => True

instance (l : EventLoop F) (out : List (LoopObs F)) : DecidablePred (l.GoneReleased out)
  | .ready token .gone => inferInstanceAs (Decidable (∀ c ∈ touchpadButtons,
      HeldDown c (written out) →
        ∃ e ∈ l.devicesMap.entries, e.1 ≠ token ∧ e.2.Owes c (tokenEvents e.1 out)))
  | .ready _ (.batch _) => .isTrue trivial
  | .ready _ .wouldBlock => .isTrue trivial
  | .ready _ .failed => .isTrue trivial
  | .inotify _ => .isTrue trivial
  | .resetDone => .isTrue trivial

/-- The initial wrappers are those of `scan_input_devices`, just opened. -/
def JustOpened (devices : List (DeviceWrapper F)) : Prop :=
  ∀ w ∈ devices, w = .new w.device w.path

instance [DecidableEq F] (devices : List (DeviceWrapper F)) : Decidable (JustOpened devices) :=
  inferInstanceAs (Decidable (∀ w ∈ devices, w = .new w.device w.path))

theorem start_covered {devices : List (DeviceWrapper F)} (hopened : JustOpened devices) :
    Covered (start .reliable devices).1 [] := by
  induction devices using List.reverseRecOn with
  | nil =>
    refine ⟨rfl,fun _ _ hw => ?_,fun _ _ hw => ?_,fun c _ hheld => ?_⟩
    · cases hw
    · cases hw
    · obtain ⟨v,hv,_⟩ := hheld
      cases hv
  | append_singleton devices last ih =>
    have hlast := hopened last (List.mem_append_right _ (List.mem_singleton_self _))
    have hclicking : last.Clicking := hlast ▸ new_clicking _ _
    rw [start,run_append,run_singleton]
    exact (register_covered (ih fun w hw => hopened w (List.mem_append_left _ hw)) true
      hclicking).congr rfl rfl (fun _ => rfl) le_rfl

theorem batch_covered (cfg : InputConfig F) {l : EventLoop F} {out : List (LoopObs F)}
    (h : Covered l out) {token : ℕ} {w : DeviceWrapper F} (hw : l.wrapper token = some w)
    (events : List TimedEvent)
    (hkeeps : ∀ x ∈ handledEvents (l.processBatch cfg token w events).2,
      x.wrapper.KeepsClick x.event.ev) :
    Covered (l.processBatch cfg token w events).1 (out ++ (l.processBatch cfg token w events).2) := by
  let b : Batch F := ⟨w,l.vDevice,l.lastGlobalTypingTime,false⟩
  have hb : Covered (b.during l token) out := by
    have hsame : ∀ t, (b.during l token).wrapper t = l.wrapper t := by
      intro t
      rw [Batch.during_wrapper]
      split_ifs with ht
      · exact ht ▸ hw.symm
      · rfl
    exact h.congr rfl rfl hsame le_rfl
  have hrun : ∀ events, (∀ x ∈ handledEvents (run (Batch.handle cfg token) b events).2,
      x.wrapper.KeepsClick x.event.ev) →
        Covered ((run (Batch.handle cfg token) b events).1.during l token)
          (out ++ (run (Batch.handle cfg token) b events).2) := by
    intro events
    induction events using List.reverseRecOn with
    | nil => exact fun _ => (List.append_nil out).symm ▸ hb
    | append_singleton events te ih =>
      intro hkeeps
      rw [run_append,run_singleton] at hkeeps ⊢
      rw [handledEvents_append,List.forall_mem_append] at hkeeps
      rw [← List.append_assoc]
      exact Batch.handle_covered cfg (ih hkeeps.1) te
        (hkeeps.2 ⟨token,_,_,te,_⟩ (List.mem_singleton_self _))
  have hsplit : (l.processBatch cfg token w events).2 =
      (run (Batch.handle cfg token) b events).2 ++
        if (run (Batch.handle cfg token) b events).1.triggerReset && !l.resetting then
          [.resetRequested] else [] := rfl
  rw [hsplit,handledEvents_append,List.forall_mem_append] at hkeeps
  rw [hsplit,← List.append_assoc]
  refine ((hrun events hkeeps.1).quiet ?_).congr rfl rfl (fun _ => rfl) le_rfl
  split_ifs <;> rfl

omit [F32 F] in
theorem gone_covered {l : EventLoop F} {out : List (LoopObs F)} (h : Covered l out) (token : ℕ)
    (w : DeviceWrapper F) (hgone : l.GoneReleased out (.ready token .gone)) :
    Covered (l.erase token) (out ++ [.released w]) := by
  have hkept : ∀ {t w'}, (l.erase token).wrapper t = some w' → l.wrapper t = some w' := by
    intro t w' hw'
    rw [wrapper_erase] at hw'
    split_ifs at hw'
    exact hw'
  refine ⟨h.reliable,fun t w' hw' => h.below t w' (hkept hw'),
    fun t w' hw' => h.clicking t w' (hkept hw'),fun c hc hheld => ?_⟩
  have hsame : written (out ++ [.released w]) = written out ∧
      ∀ t, tokenEvents t (out ++ [.released w]) = tokenEvents t out := by
    simp [written,tokenEvents,handledEvents,LoopObs.handledEvent]
  rw [hsame.1] at hheld
  obtain ⟨⟨t,w'⟩,he,ht,howes⟩ := hgone c hc hheld
  refine ⟨t,w',?_,(hsame.2 t).symm ▸ howes⟩
  rw [wrapper_erase,if_neg ht]
  exact mem_entries.mp he

/-- The invariant along a run. -/
theorem runLoop_covered (cfg : InputConfig F) {devices : List (DeviceWrapper F)}
    (hopened : JustOpened devices) {inputs : List LoopInput}
    (hgone : AtEach (fun before i => (runLoop cfg .reliable devices before).1.GoneReleased
      (runLoop cfg .reliable devices before).2 i) inputs)
    (hkeeps : ∀ h ∈ handledEvents (runLoop cfg .reliable devices inputs).2,
      h.wrapper.KeepsClick h.event.ev) :
    Covered (runLoop cfg .reliable devices inputs).1 (runLoop cfg .reliable devices inputs).2 := by
  induction inputs using List.reverseRecOn with
  | nil => exact start_covered hopened
  | append_singleton inputs i ih =>
    obtain ⟨hfront,hlast⟩ := atEach_append.mp hgone
    rw [atEach_singleton,List.append_nil] at hlast
    rw [runLoop_concat] at hkeeps ⊢
    rw [handledEvents_append,List.forall_mem_append] at hkeeps
    have hbefore := ih hfront hkeeps.1
    generalize (runLoop cfg .reliable devices inputs).1 = l at *
    generalize (runLoop cfg .reliable devices inputs).2 = out at *
    rcases l.step_cases cfg i with ⟨ievents,rfl,h⟩ | ⟨token,events,w,rfl,hw,h⟩ | ⟨token,w,rfl,hw,h⟩ |
      ⟨rfl,h⟩ | h <;> rw [h] at hkeeps ⊢
    · exact run_history hotplug (fun _ o l' => Covered l' (out ++ o))
        (fun _ _ _ iev hl => List.append_assoc _ _ _ ▸ hotplug_covered hl iev)
        ((List.append_nil out).symm ▸ hbefore) ievents
    · exact batch_covered cfg hbefore hw events hkeeps.2
    · exact gone_covered hbefore token w hlast
    · exact (hbefore.quiet rfl).congr rfl rfl (fun _ => rfl) le_rfl
    · exact hbefore.quiet rfl

/-- Whenever no tracked device has one of the three buttons down, none of them is down on the
virtual device. -/
def NoStuckButton (cfg : InputConfig F) (devices : List (DeviceWrapper F))
    (inputs : List LoopInput) : Prop :=
  ∀ before, before <+: inputs →
    (∀ e ∈ (runLoop cfg .reliable devices before).1.devicesMap.entries, ∀ c ∈ touchpadButtons,
      ¬ HeldDown c (tokenEvents e.1 (runLoop cfg .reliable devices before).2)) →
    ∀ c ∈ touchpadButtons,
      ∀ v ∈ (keyValues c (written (runLoop cfg .reliable devices before).2)).getLast?, v = 0

/-- In every run in which each device that goes away leaves no button down that no other owes, and
no click is pressed over one under another button, no virtual button is stuck. -/
theorem no_stuck_button (cfg : InputConfig F) (devices : List (DeviceWrapper F))
    (inputs : List LoopInput) (hopened : JustOpened devices)
    (hgone : AtEach (fun before i => (runLoop cfg .reliable devices before).1.GoneReleased
      (runLoop cfg .reliable devices before).2 i) inputs)
    (hkeeps : ∀ h ∈ handledEvents (runLoop cfg .reliable devices inputs).2,
      h.wrapper.KeepsClick h.event.ev) : NoStuckButton cfg devices inputs := by
  rintro before ⟨rest,rfl⟩ hup c hc v hv
  have hkeeps' : ∀ h ∈ handledEvents (runLoop cfg .reliable devices before).2,
      h.wrapper.KeepsClick h.event.ev := by
    intro h hh
    apply hkeeps h
    rw [runLoop,run_append,handledEvents_append]
    exact List.mem_append_left _ hh
  have hcovered := runLoop_covered cfg hopened (atEach_append.mp hgone).1 hkeeps'
  by_contra hne
  obtain ⟨t,w,hw,howes⟩ := hcovered.owed c hc ⟨v,hv,hne⟩
  obtain ⟨c',hc',hheld⟩ := howes.held hc
  exact hup ⟨t,w⟩ (mem_entries.mpr hw) c' hc' hheld

/-- A key event of the device under a token. -/
def keyOf (token code : ℕ) (value : ℤ) : LoopInput :=
  .ready token (.batch [⟨⟨0,.key,code,value⟩,0⟩])

/-- A mouse is unplugged while two fingers hold a right click on the touchpad. -/
theorem no_stuck_button_after_unplug : NoStuckButton (F := ℚ) .default
    [.new ⟨plainMouse,5,true⟩ "/dev/input/event3",.new ⟨plainTouchpad,6,true⟩ "/dev/input/event4"]
    [keyOf 1 KeyCode.btnTouch 1,keyOf 1 KeyCode.btnToolDoubletap 1,keyOf 1 KeyCode.btnLeft 1,
      keyOf 0 KeyCode.btnLeft 1,keyOf 0 KeyCode.btnLeft 0,.ready 0 .gone,keyOf 1 KeyCode.btnTouch 0,
      keyOf 1 KeyCode.btnLeft 0] :=
  no_stuck_button _ _ _ (by decide +kernel) (by decide +kernel) (by decide +kernel)

/-- A mouse is unplugged with its left button down: nothing writes the release. -/
theorem unplugged_mouse_sticks : ¬ NoStuckButton (F := ℚ) .default
    [.new ⟨plainMouse,5,true⟩ "/dev/input/event3"] [keyOf 0 KeyCode.btnLeft 1,.ready 0 .gone] := by
  intro h
  have hlast := h _ List.prefix_rfl (by decide +kernel) KeyCode.btnLeft (by decide) 1
    (by decide +kernel)
  cases hlast

end EventLoop
end Steps
end LibinputRs
