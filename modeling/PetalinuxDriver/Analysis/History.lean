import PetalinuxDriver.Analysis.Ownership

/-!
# What the events tell

The log of a channel holds, among the register writes, four histories of its descriptors: which of
them were given a cookie, and which one, which had their cookies completed, which were called back,
and which were freed off a list. Everything else in the log is quiet.

Most sections of a call leave the queues, the cookie fields and the four histories alone
(`Section.sameHistory`). The others are the locked section of a submit, the two that start a batch,
and the two that free the lists.
-/

set_option autoImplicit false

namespace PetalinuxDriver

open Library

variable {cfg : PhysAddrConfig}

/-! ## The histories -/

/-- The descriptor that is given a cookie, with the cookie. -/
def Event.assigned : Event → Option (Nat × Int)
  | .cookieAssign desc cookie => some (desc, cookie)
  | _ => none

/-- The descriptor whose cookie is completed. -/
def Event.completed : Event → Option Nat
  | .cookieComplete desc => some desc
  | _ => none

/-- The descriptor that is called back. -/
def Event.called : Event → Option Nat
  | .callback desc => some desc
  | _ => none

/-- The descriptor that is freed off a list. -/
def Event.freed : Event → Option Nat
  | .freeDescList desc => some desc
  | _ => none

/-- The event is in none of the histories. -/
def Event.Quiet (e : Event) : Prop :=
  e.assigned = none ∧ e.completed = none ∧ e.called = none ∧ e.freed = none

/-- A bus write is about no descriptor. -/
theorem quiet_of_isBusWrite {e : Event} (h : e.isBusWrite = true) : e.Quiet := by
  cases e <;> first | exact ⟨rfl, rfl, rfl, rfl⟩ | cases h

/-- A write to the control register is about no descriptor. -/
theorem quiet_of_isControlWrite {ctrlOffset : Nat} {e : Event}
    (h : e.isControlWrite ctrlOffset = true) : e.Quiet := by
  cases e <;> first | exact ⟨rfl, rfl, rfl, rfl⟩ | cases h

/-- The accepted descriptors with their cookies, in the order of submission. -/
def assigned (s : XilinxDmaChan cfg) : List (Nat × Int) := s.log.filterMap Event.assigned

/-- The accepted descriptors, in the order of submission. -/
def submittedIds (s : XilinxDmaChan cfg) : List Nat := (assigned s).map Prod.fst

/-- The descriptors whose cookies were completed, in order. -/
def completedIds (s : XilinxDmaChan cfg) : List Nat := s.log.filterMap Event.completed

/-- The descriptors that were called back, in order. -/
def calledIds (s : XilinxDmaChan cfg) : List Nat := s.log.filterMap Event.called

/-- The descriptors that were freed off a list, in order. -/
def freedIds (s : XilinxDmaChan cfg) : List Nat := s.log.filterMap Event.freed

/-- A longer log has more submits. -/
theorem submittedIds_sublist {s s' : XilinxDmaChan cfg} (h : s.log <+: s'.log) :
    (submittedIds s).Sublist (submittedIds s') :=
  (h.sublist.filterMap Event.assigned).map Prod.fst

/-- The queues, the cookie fields, the number of descriptors allocated so far and the histories are
the same. -/
structure SameHistory (s s' : XilinxDmaChan cfg) : Prop where
  pendingList : s'.pendingList = s.pendingList
  activeList : s'.activeList = s.activeList
  doneList : s'.doneList = s.doneList
  common : s'.common = s.common
  kzallocs : s'.kzallocs = s.kzallocs
  log : ∃ w, s'.log = s.log ++ w ∧ ∀ e ∈ w, e.Quiet

namespace SameHistory

/-- Nothing happens when nothing is done. -/
theorem refl (s : XilinxDmaChan cfg) : SameHistory s s := ⟨rfl, rfl, rfl, rfl, rfl, [], by simp, by simp⟩

/-- Two quiet steps are one. -/
theorem trans {s₁ s₂ s₃ : XilinxDmaChan cfg} (h : SameHistory s₁ s₂) (h' : SameHistory s₂ s₃) :
    SameHistory s₁ s₃ := by
  obtain ⟨w, hlog, hw⟩ := h.log
  obtain ⟨w', hlog', hw'⟩ := h'.log
  refine ⟨h'.pendingList.trans h.pendingList, h'.activeList.trans h.activeList,
    h'.doneList.trans h.doneList, h'.common.trans h.common, h'.kzallocs.trans h.kzallocs, w ++ w',
    ?_, fun e he => ?_⟩
  · rw [hlog', hlog, List.append_assoc]
  · rcases List.mem_append.mp he with he | he
    · exact hw e he
    · exact hw' e he

/-- Quiet events do not show in a history. -/
theorem filterMap_log {s s' : XilinxDmaChan cfg} (h : SameHistory s s') :
    assigned s' = assigned s ∧ completedIds s' = completedIds s ∧ calledIds s' = calledIds s ∧
      freedIds s' = freedIds s := by
  obtain ⟨w, hlog, hw⟩ := h.log
  have hnone : ∀ {β : Type} (f : Event → Option β), (∀ e ∈ w, f e = none) →
      s'.log.filterMap f = s.log.filterMap f := fun f hf => by
    rw [hlog, List.filterMap_append, List.filterMap_eq_nil_iff.mpr hf, List.append_nil]
  exact ⟨hnone _ fun e he => (hw e he).1, hnone _ fun e he => (hw e he).2.1,
    hnone _ fun e he => (hw e he).2.2.1, hnone _ fun e he => (hw e he).2.2.2⟩

end SameHistory

/-! ## The functions that leave the histories alone -/

/-- A freed descriptor leaves no trace in queues and log. -/
theorem freeTxDescriptor_sameHistory (s : XilinxDmaChan cfg) (segments : List SegPtr) :
    SameHistory s (xilinxDmaFreeTxDescriptor s segments) := by
  rw [freeTxDescriptor_eq]
  exact ⟨rfl, rfl, rfl, rfl, rfl, [], by simp, by simp⟩

/-- The acknowledgement leaves no trace. -/
theorem irqAck_sameHistory (status : BitVec 32) (s : XilinxDmaChan cfg) :
    SameHistory s (irqAck status s) := by
  rw [irqAck_eq]
  refine ⟨rfl, rfl, rfl, rfl, rfl, _, rfl, fun e he => ?_⟩
  rw [List.mem_singleton.mp he]
  exact quiet_of_isBusWrite rfl

/-- A halt leaves no trace. -/
theorem halt_sameHistory (haltOk : Bool) (s : XilinxDmaChan cfg) :
    SameHistory s (xilinxDmaHalt haltOk s) := by
  rw [halt_eq]
  refine ⟨rfl, rfl, rfl, rfl, rfl, _, rfl, fun e he => ?_⟩
  rw [List.mem_singleton.mp he]
  exact quiet_of_isBusWrite rfl

/-- Leaving the cyclic mode leaves no trace. -/
theorem clearCyclic_sameHistory (s : XilinxDmaChan cfg) : SameHistory s (clearCyclic s) := by
  rw [clearCyclic_eq]
  refine ⟨rfl, rfl, rfl, rfl, rfl, _, rfl, fun e he => ?_⟩
  rw [List.mem_singleton.mp he]
  exact quiet_of_isBusWrite rfl

/-- The call has reached a section that changes the queues. -/
def Call.changesQueues : Call cfg → Bool
  | .submitLock _ => true
  | .issue => true
  | .irqLock => true
  | .terminateFree => true
  | .freeChan => true
  | _ => false

/-- The call frees the lists, now or later. -/
def Call.dropsLists : Call cfg → Bool
  | .terminate => true
  | .terminateFree => true
  | .freeChan => true
  | _ => false

/-- A call that does not free the lists does not come to do so. -/
theorem VxdmaSys.Section.keepsLists {env : CallEnv} {s t : XilinxDmaChan cfg} {c c' : Call cfg}
    (h : VxdmaSys.Section env s c t (.goesOn c')) (hc : c.dropsLists = false) :
    c'.dropsLists = false := by
  cases h <;> first | rfl | cases hc

/-- As long as nothing is terminated or released, no call in flight drops the lists. -/
theorem VxdmaSys.sectionStep_keepsLists {s s' : VxdmaSys cfg} {a : Act cfg}
    (h : s.sectionStep a = some s') (ha : a ≠ .terminateAll ∧ a ≠ .freeChanResources)
    (hs : ∀ c ∈ s.calls, c.dropsLists = false) : ∀ c ∈ s'.calls, c.dropsLists = false := by
  intro e he
  rcases VxdmaSys.sectionStep_mem_calls h he with hold | hmakes | ⟨i, env, c, -, hc, hsection⟩
  · exact hs e hold
  · cases hmakes with
    | terminateAll => exact absurd rfl ha.1
    | freeChanResources => exact absurd rfl ha.2
    | _ => rfl
  · exact hsection.keepsLists (hs c (List.mem_of_getElem? hc))

/-- The sections of which `changesQueues` is false leave the queues, the cookies and the histories
alone. -/
theorem VxdmaSys.Section.sameHistory {env : CallEnv} {s t : XilinxDmaChan cfg} {c : Call cfg}
    {after : After cfg} (h : VxdmaSys.Section env s c t after) (hc : c.changesQueues = false) :
    SameHistory s t := by
  have hlog : ∀ {t : XilinxDmaChan cfg} {w : List Event}, t.pendingList = s.pendingList →
      t.activeList = s.activeList → t.doneList = s.doneList → t.common = s.common →
      t.kzallocs = s.kzallocs → t.log = s.log ++ w →
      (∀ e ∈ w, e.isControlWrite s.ctrlOffset = true) → SameHistory s t :=
    fun hp ha hd hcommon hk hlog hw =>
      ⟨hp, ha, hd, hcommon, hk, _, hlog, fun e he => quiet_of_isControlWrite (hw e he)⟩
  cases h with
  | buildDone b => exact hlog rfl rfl rfl rfl rfl rfl (builtEvents_isControlWrite b s)
  | buildRound => exact ⟨rfl, rfl, rfl, rfl, rfl, [], by simp, by simp⟩
  | buildError => exact freeTxDescriptor_sameHistory _ _
  | submitRefused => exact freeTxDescriptor_sameHistory _ _
  | resetOk d w hok hw => exact hlog rfl rfl rfl rfl rfl rfl hw
  | resetFailed d w hok hw => exact hlog rfl rfl rfl rfl rfl rfl hw
  | queued => cases hc
  | queuedBug => cases hc
  | issue => cases hc
  | irqIoc => exact irqAck_sameHistory _ _
  | irqOther => exact irqAck_sameHistory _ _
  | irqLock => cases hc
  | irqSchedule => exact ⟨rfl, rfl, rfl, rfl, rfl, [], by simp [taskletSchedule], by simp⟩
  | terminate => exact halt_sameHistory _ _
  | terminateFree => cases hc
  | terminateClear => exact clearCyclic_sameHistory _
  | freeChan => cases hc
  | freeChanInit => exact ⟨rfl, rfl, rfl, rfl, rfl, [], by simp [initFreeSegList], by simp⟩
  | freeChanCoherent => exact ⟨rfl, rfl, rfl, rfl, rfl, [], by simp [dmaFreeCoherent], by simp⟩
  | _ => exact SameHistory.refl s

/-! ## The names of the descriptors -/

/-- The descriptors that a call in flight has in its hands. -/
def Call.ids : Call cfg → List Nat
  | .build _ b => [b.id]
  | .buildError b => [b.id]
  | .submit d => [d.id]
  | .submitRefused d => [d.id]
  | .submitErr d => [d.id]
  | .submitReset d => [d.id]
  | .submitLock d => [d.id]
  | _ => []

/-- The descriptor that a call is submitting. -/
def Call.submitting : Call cfg → List (XilinxDmaTxDescriptor cfg)
  | .submit d => [d]
  | .submitRefused d => [d]
  | .submitErr d => [d]
  | .submitReset d => [d]
  | .submitLock d => [d]
  | _ => []

/-- The descriptors that are with the call or its client after a section. -/
def After.ids : After cfg → List Nat
  | .goesOn c => c.ids
  | .prepared d => [d.id]
  | _ => []

/-- What the end of a section names is what it keeps and what goes on. -/
theorem After.ids_eq (after : After cfg) :
    after.ids = after.kept.map XilinxDmaTxDescriptor.id ++ after.calls.flatMap Call.ids := by
  cases after <;> simp [After.ids, After.kept, After.calls]

/-- A start names and assigns nothing. -/
theorem startTransfer_sameNames (startOk : Bool) (s : XilinxDmaChan cfg) :
    (xilinxDmaStartTransfer startOk s).kzallocs = s.kzallocs ∧
      assigned (xilinxDmaStartTransfer startOk s) = assigned s := by
  have hquiet : ∀ w : List Event, (∀ e ∈ w, e.isBusWrite = true) →
      (s.log ++ w).filterMap Event.assigned = s.log.filterMap Event.assigned := fun w hw => by
    rw [List.filterMap_append,
      List.filterMap_eq_nil_iff.mpr fun e he => (quiet_of_isBusWrite (hw e he)).1, List.append_nil]
  rcases startTransfer_cases startOk s with ⟨-, h⟩ | ⟨-, -, c, w, hw, h⟩ | ⟨-, -, c, w, hw, h⟩ <;>
    rw [h]
  · exact ⟨rfl, rfl⟩
  · exact ⟨rfl, hquiet w hw⟩
  · exact ⟨rfl, hquiet w hw⟩

/-- The completion names and assigns nothing. -/
theorem irqComplete_sameNames (s : XilinxDmaChan cfg) :
    (irqComplete s).kzallocs = s.kzallocs ∧ assigned (irqComplete s) = assigned s := by
  rw [irqComplete_eq]
  refine ⟨rfl, ?_⟩
  have hnone : (s.activeList.flatMap completeEvents).filterMap Event.assigned = [] := by
    refine List.filterMap_eq_nil_iff.mpr fun e he => ?_
    rcases mem_completeEvents he with rfl | ⟨d, -, rfl⟩
    · rfl
    · rfl
  simp only [assigned, List.filterMap_append, hnone, List.append_nil]

/-- Freed lists name and assign nothing. -/
theorem freeDescriptors_sameNames (s : XilinxDmaChan cfg) :
    (xilinxDmaFreeDescriptors s).kzallocs = s.kzallocs ∧
      assigned (xilinxDmaFreeDescriptors s) = assigned s := by
  rw [freeDescriptors_eq]
  refine ⟨rfl, ?_⟩
  have hnone : ((s.pendingList ++ s.doneList ++ s.activeList).map
      fun d => Event.freeDescList d.id).filterMap Event.assigned = [] := by
    refine List.filterMap_eq_nil_iff.mpr fun e he => ?_
    obtain ⟨d, -, rfl⟩ := List.mem_map.mp he
    rfl
  simp only [assigned, List.filterMap_append, hnone, List.append_nil]

/-- A cleanup names and assigns nothing. -/
theorem cleanup_sameNames (s : XilinxDmaChan cfg) :
    (xilinxDmaChanDescCleanup s).1.kzallocs = s.kzallocs ∧
      assigned (xilinxDmaChanDescCleanup s).1 = assigned s := by
  obtain ⟨freed, rest, -, -, hcases⟩ := cleanupLoop_cases s.doneList s rfl
  unfold xilinxDmaChanDescCleanup
  rcases hcases with ⟨-, h⟩ | ⟨d, tl, -, -, -, h⟩ | ⟨d, tl, -, -, h⟩ | ⟨d, tl, -, -, h⟩ <;> rw [h]
  · exact ⟨rfl, rfl⟩
  · exact ⟨rfl, rfl⟩
  · exact ⟨rfl, by simp [assigned, XilinxDmaChan.emit, Event.assigned]⟩
  · exact ⟨rfl, by simp [assigned, XilinxDmaChan.emit, Event.assigned]⟩

/-- The rest of a cleanup names and assigns nothing. -/
theorem cleanupResume_sameNames (pc : CleanupPc cfg) (s : XilinxDmaChan cfg) :
    (cleanupResume pc s).1.kzallocs = s.kzallocs ∧ assigned (cleanupResume pc s).1 = assigned s := by
  cases pc with
  | idle => exact ⟨rfl, rfl⟩
  | cyclicCallback => exact ⟨rfl, rfl⟩
  | callback d =>
    have hfree := freeTxDescriptor_sameHistory s d.segments
    obtain ⟨hk, hassigned⟩ := cleanup_sameNames (xilinxDmaFreeTxDescriptor s d.segments)
    exact ⟨hk.trans hfree.kzallocs, hassigned.trans hfree.filterMap_log.1⟩

/-- The balance of the names over one section: a submit that is accepted moves its descriptor to
the history, and no section makes a new name. -/
theorem VxdmaSys.Section.names {env : CallEnv} {s t : XilinxDmaChan cfg} {c : Call cfg}
    {after : After cfg} (h : VxdmaSys.Section env s c t after) :
    t.kzallocs = s.kzallocs ∧
      (↑after.ids + ↑(submittedIds t) : Multiset Nat) ≤ ↑c.ids + ↑(submittedIds s) := by
  have hsame : ∀ {t : XilinxDmaChan cfg}, assigned t = assigned s → submittedIds t = submittedIds s :=
    fun h => by rw [submittedIds, submittedIds, h]
  have hle : ∀ {t : XilinxDmaChan cfg}, assigned t = assigned s → ∀ {l l' : List Nat},
      (↑l : Multiset Nat) ≤ ↑l' →
      (↑l + ↑(submittedIds t) : Multiset Nat) ≤ ↑l' + ↑(submittedIds s) := fun ht l l' hl => by
    rw [hsame ht]
    exact add_le_add_left hl _
  by_cases hc : c.changesQueues = false
  · have hhistory := h.sameHistory hc
    refine ⟨hhistory.kzallocs, hle hhistory.filterMap_log.1 ?_⟩
    cases h with
    | buildDone b d mem hne hbuilt => simp [After.ids, Call.ids, hbuilt.id]
    | _ => simp [After.ids, Call.ids]
  · cases h with
    | queued d =>
      refine ⟨rfl, le_of_eq ?_⟩
      simp [After.ids, Call.ids, submittedIds, assigned, Event.assigned]
    | queuedBug d =>
      refine ⟨rfl, le_of_eq ?_⟩
      simp [After.ids, Call.ids, submittedIds, assigned, Event.assigned, List.filterMap_cons]
    | issue =>
      obtain ⟨hk, hassigned⟩ := startTransfer_sameNames env.startOk s
      exact ⟨hk, hle hassigned le_rfl⟩
    | irqLock =>
      obtain ⟨hk, hassigned⟩ := startTransfer_sameNames env.startOk (irqComplete s)
      obtain ⟨hk', hassigned'⟩ := irqComplete_sameNames s
      exact ⟨hk.trans hk', hle (hassigned.trans hassigned') le_rfl⟩
    | terminateFree =>
      obtain ⟨hk, hassigned⟩ := freeDescriptors_sameNames s
      exact ⟨hk, hle hassigned le_rfl⟩
    | freeChan =>
      obtain ⟨hk, hassigned⟩ := freeDescriptors_sameNames s
      exact ⟨hk, hle hassigned le_rfl⟩
    | _ => exact absurd rfl hc

namespace VxdmaSys

/-- The names of all descriptors that are being built, prepared, being submitted, or accepted. -/
def names (s : VxdmaSys cfg) : Multiset Nat :=
  ↑(s.prepared.map XilinxDmaTxDescriptor.id) + ↑(s.calls.flatMap Call.ids) +
    ↑(submittedIds s.chan)

/-- One action makes no new name, or the next one. -/
theorem sectionStep_names {s s' : VxdmaSys cfg} {a : Act cfg} (h : s.sectionStep a = some s') :
    (s'.names ≤ s.names ∧ s'.chan.kzallocs = s.chan.kzallocs) ∨
      (s'.names = {s.chan.kzallocs} + s.names ∧ s'.chan.kzallocs = s.chan.kzallocs + 1) := by
  obtain ⟨hbug, h⟩ := sectionStep_inv h
  have henter : ∀ c : Call cfg, c.ids = [] → (s.enter c).names = s.names := fun c hc => by
    simp [names, enter, hc]
  have hchan : ∀ {chan : XilinxDmaChan cfg} {pc : CleanupPc cfg}, assigned chan = assigned s.chan →
      ({ s with chan := chan, cleanup := pc } : VxdmaSys cfg).names = s.names := fun hassigned => by
    simp only [names, submittedIds, hassigned]
  cases h with
  | prepNull => exact Or.inl ⟨le_rfl, rfl⟩
  | prepBuild _ chunks b he =>
    refine Or.inr ⟨?_, rfl⟩
    have hid : b.id = s.chan.kzallocs := (Act.entry_fresh he).2
    simp only [names, enter, List.flatMap_cons, Call.ids, hid, ← Multiset.coe_add,
      Multiset.coe_singleton]
    have hsame : submittedIds (kzallocDesc s.chan) = submittedIds s.chan := rfl
    rw [hsame]
    abel
  | txSubmit i callback d hd =>
    refine Or.inl ⟨le_of_eq ?_, rfl⟩
    have hbal := coe_flatMap_eraseIdx (fun d : XilinxDmaTxDescriptor cfg => [d.id]) hd
    have hmap : ∀ l : List (XilinxDmaTxDescriptor cfg),
        l.flatMap (fun d => [d.id]) = l.map XilinxDmaTxDescriptor.id := fun l => by
      rw [List.map_eq_flatMap]
    rw [hmap, hmap] at hbal
    simp only [names, enter, List.flatMap_cons, Call.ids, hbal, ← Multiset.coe_add]
    abel
  | issuePending => exact Or.inl ⟨le_of_eq (henter _ rfl), rfl⟩
  | interrupt => exact Or.inl ⟨le_of_eq (henter _ rfl), rfl⟩
  | terminateAll => exact Or.inl ⟨le_of_eq (henter _ rfl), rfl⟩
  | freeChanResources => exact Or.inl ⟨le_of_eq (henter _ rfl), rfl⟩
  | allocChanResources zalloc =>
    refine Or.inl ⟨le_of_eq (hchan ?_), by cases zalloc <;> rfl⟩
    cases zalloc with
    | none => rfl
    | some segP =>
      simp [xilinxDmaAllocChanResources, assigned, XilinxDmaChan.dmaCtrlWrite, XilinxDmaChan.emit,
        Event.assigned]
  | run i env c s' hc hleave =>
    obtain ⟨hk, hle⟩ := (run_inv env hbug c).names
    refine Or.inl ⟨?_, by rw [leave_chan hleave]; exact hk⟩
    have hcalls := coe_flatMap_eraseIdx Call.ids hc
    have hafter : s'.names = ↑(s.prepared.map XilinxDmaTxDescriptor.id) +
        ↑((s.calls.eraseIdx i).flatMap Call.ids) +
        (↑(c.run env s.chan).2.ids + ↑(submittedIds (c.run env s.chan).1)) := by
      rw [leave_eq hleave, After.ids_eq]
      simp only [names, List.map_append, List.flatMap_append, ← Multiset.coe_add]
      abel
    rw [hafter]
    refine (add_le_add_right hle _).trans (le_of_eq ?_)
    simp only [names, hcalls]
    abel
  | tasklet =>
    obtain ⟨hk, hassigned⟩ := cleanup_sameNames { s.chan with tasklet := false }
    exact Or.inl ⟨le_of_eq (hchan hassigned), hk⟩
  | callbackReturn =>
    obtain ⟨hk, hassigned⟩ := cleanupResume_sameNames s.cleanup s.chan
    exact Or.inl ⟨le_of_eq (hchan hassigned), hk⟩
  | device => exact Or.inl ⟨le_rfl, rfl⟩

/-- No two descriptors have one name, and the next name is free. -/
structure NamesOnce (s : VxdmaSys cfg) : Prop where
  nodup : s.names.Nodup
  lt : ∀ n ∈ s.names, n < s.chan.kzallocs

/-- No action gives a name twice. -/
theorem sectionStep_namesOnce {s s' : VxdmaSys cfg} {a : Act cfg} (hs : NamesOnce s)
    (h : s.sectionStep a = some s') : NamesOnce s' := by
  rcases sectionStep_names h with ⟨hle, hk⟩ | ⟨hnames, hk⟩
  · refine ⟨Multiset.nodup_of_le hle hs.nodup, fun n hn => ?_⟩
    rw [hk]
    exact hs.lt n (Multiset.mem_of_le hle hn)
  · have hnew : s.chan.kzallocs ∉ s.names := fun hmem => by
      have := hs.lt _ hmem
      omega
    refine ⟨?_, fun n hn => ?_⟩
    · rw [hnames, Multiset.singleton_add]
      exact Multiset.nodup_cons.mpr ⟨hnew, hs.nodup⟩
    · rw [hnames, Multiset.singleton_add, Multiset.mem_cons] at hn
      rcases hn with rfl | hn
      · omega
      · have := hs.lt n hn
        omega

/-- After the probe no name is given. -/
theorem probed_namesOnce (hasSg : Bool) (ctrlOffset : Nat) (dmacr : BitVec 32) :
    NamesOnce (probed hasSg ctrlOffset dmacr : VxdmaSys cfg) := by
  have hnames : (probed hasSg ctrlOffset dmacr : VxdmaSys cfg).names = 0 := rfl
  exact ⟨by simp [hnames], by simp [hnames]⟩

/-- Whatever the callers do, no descriptor is named twice. -/
theorem namesOnce_of_reachable {hasSg : Bool} {ctrlOffset : Nat} {dmacr : BitVec 32}
    {s : VxdmaSys cfg} (h : Reachable sectionStep always (probed hasSg ctrlOffset dmacr) s) :
    NamesOnce s :=
  h.invariant (probed_namesOnce _ _ _) fun _ _ _ hs _ hstep => sectionStep_namesOnce hs hstep

/-- A descriptor is accepted once. -/
theorem NamesOnce.submittedIds_nodup {s : VxdmaSys cfg} (hs : NamesOnce s) :
    (submittedIds s.chan).Nodup :=
  Multiset.coe_nodup.mp (Multiset.nodup_of_le (Multiset.le_add_left _ _) hs.nodup)

/-- After the first allocation no name is given. -/
theorem allocated_namesOnce (hasSg : Bool) (ctrlOffset : Nat) (dmacr : BitVec 32)
    (segP : DmaAddr cfg) : NamesOnce (allocated hasSg ctrlOffset dmacr segP) := by
  have hnames : (allocated hasSg ctrlOffset dmacr segP : VxdmaSys cfg).names = 0 := rfl
  exact ⟨by simp [hnames], by simp [hnames]⟩

end VxdmaSys

end PetalinuxDriver
