import PetalinuxDriver.Analysis.ClientBuffers
import PetalinuxDriver.Analysis.CookieStatus
import PetalinuxDriver.Analysis.RegisterWindows
import PetalinuxDriver.Analysis.StartOutcome

/-!
# How long a descriptor waits

The interrupt handler completes the active batch and then starts everything that waits. So a
descriptor that waits is given to the engine by the next locked section of a handler, if not by an
`xilinx_dma_issue_pending` before it, and is complete after the one that follows, however many
descriptors are submitted in the meantime and wherever the handlers are interrupted
(`completes_within_two_rounds`). What can come between is a channel in error, and a start that times
out.
-/

set_option autoImplicit false

namespace PetalinuxDriver

open Library

variable {cfg : PhysAddrConfig}

/-- **One round of the handler**: what is active is complete, and nothing waits any more. -/
theorem irqLock_round {s : XilinxDmaChan cfg} (herr : s.err = false) :
    (xilinxDmaStartTransfer true (irqComplete s)).pendingList = [] ∧
      ∀ d ∈ s.activeList, d.cyclic = false →
        d.id ∈ completedIds (xilinxDmaStartTransfer true (irqComplete s)) := by
  refine ⟨?_, ?_⟩
  · rcases startTransfer_cases true (irqComplete s) with
      ⟨hblocked, h⟩ | ⟨-, hfalse, -⟩ | ⟨-, -, c, w, -, h⟩
    · rw [h]
      -- the only thing in the way is an empty queue
      by_contra hne
      have hstart : canStart (irqComplete s) = true := by
        refine (canStart_iff _).mpr ⟨?_, hne, ?_⟩
        · rw [irqComplete_eq]
          exact herr
        · rw [irqComplete_eq]
      rw [hstart] at hblocked
      cases hblocked
    · cases hfalse
    · rw [h]
  · intro d hd hcyc
    rw [startTransfer_completedIds, irqComplete_eq]
    refine mem_completedIds.mpr (List.mem_append_right _ (List.mem_flatMap.mpr ⟨d, hd, ?_⟩))
    simp [completeEvents, hcyc]

namespace VxdmaSys

/-! ## Complete, or on a list -/

/-- The completion completes no descriptor twice. -/
theorem completeEvents_ids (ds : List (XilinxDmaTxDescriptor cfg)) :
    ((ds.flatMap completeEvents).filterMap Event.completed).Sublist
      (ds.map XilinxDmaTxDescriptor.id) := by
  induction ds with
  | nil => exact List.Sublist.refl []
  | cons d ds ih =>
    rw [List.flatMap_cons, List.filterMap_append, List.map_cons]
    cases hcyc : d.cyclic with
    | true =>
      have hevents : completeEvents d = [] := if_pos hcyc
      rw [hevents]
      exact List.Sublist.cons d.id ih
    | false =>
      rw [completeEvents_completed hcyc]
      exact ih.cons_cons d.id

/-- A section completes what was on `active_list`, and lists what it accepts. -/
theorem Section.completes {env : CallEnv} {s t : XilinxDmaChan cfg} {c : Call cfg}
    {after : After cfg} (h : Section env s c t after) :
    idsOf t.listed + ↑(completedIds t) + ↑(submittedIds s) ≤
      idsOf s.listed + ↑(completedIds s) + ↑(submittedIds t) := by
  have hle : submittedIds t = submittedIds s → completedIds t = completedIds s →
      idsOf t.listed ≤ idsOf s.listed →
      idsOf t.listed + ↑(completedIds t) + ↑(submittedIds s) ≤
        idsOf s.listed + ↑(completedIds s) + ↑(submittedIds t) := by
    intro hsubmitted hcompleted hlisted
    rw [hsubmitted, hcompleted]
    exact add_le_add_left (add_le_add_left hlisted _) _
  by_cases hchanges : c.changesQueues = false
  · have hhistory := h.sameHistory hchanges
    refine hle ?_ hhistory.filterMap_log.2.1 (le_of_eq ?_)
    · rw [submittedIds, submittedIds, hhistory.filterMap_log.1]
    · rw [XilinxDmaChan.listed, XilinxDmaChan.listed, hhistory.activeList, hhistory.pendingList]
  · have hfreed : submittedIds (xilinxDmaFreeDescriptors s) = submittedIds s ∧
        completedIds (xilinxDmaFreeDescriptors s) = completedIds s ∧
          idsOf (xilinxDmaFreeDescriptors s).listed ≤ idsOf s.listed := by
      refine ⟨?_, ?_, ?_⟩
      · rw [submittedIds, submittedIds, (freeDescriptors_sameNames s).2]
      · exact freeDescriptors_completedIds s
      · rw [freeDescriptors_eq]
        exact Multiset.zero_le _
    cases h with
    | queued d =>
      apply le_of_eq
      simp only [XilinxDmaChan.listed, submittedIds, assigned, completedIds, idsOf,
        List.filterMap_append, List.map_append, List.filterMap_cons, Event.assigned,
        Event.completed, List.filterMap_nil, List.map_cons, List.map_nil, List.append_nil,
        ← Multiset.coe_add, Multiset.coe_singleton]
      abel
    | queuedBug d =>
      apply le_of_eq
      simp only [XilinxDmaChan.listed, submittedIds, assigned, completedIds, idsOf,
        List.filterMap_append, List.map_append, List.filterMap_cons, Event.assigned,
        Event.completed, List.filterMap_nil, List.map_cons, List.map_nil, List.append_nil,
        ← Multiset.coe_add, Multiset.coe_singleton]
      abel
    | issue =>
      refine hle ?_ (startTransfer_completedIds _ _) (le_of_eq ?_)
      · rw [submittedIds, submittedIds, (startTransfer_sameNames env.startOk s).2]
      · rw [startTransfer_listed]
    | irqLock =>
      have hsubmitted : submittedIds (xilinxDmaStartTransfer env.startOk (irqComplete s)) =
          submittedIds s := by
        rw [submittedIds, submittedIds, (startTransfer_sameNames env.startOk (irqComplete s)).2,
          (irqComplete_sameNames s).2]
      have hids : (↑((s.activeList.flatMap completeEvents).filterMap Event.completed) :
          Multiset Nat) ≤ idsOf s.activeList :=
        Multiset.coe_le.mpr (completeEvents_ids s.activeList).subperm
      rw [hsubmitted, startTransfer_listed, startTransfer_completedIds, irqComplete_eq]
      simp only [XilinxDmaChan.listed, completedIds, List.nil_append, idsOf_append,
        List.filterMap_append, ← Multiset.coe_add]
      refine add_le_add_left ?_ _
      calc idsOf s.pendingList + (↑(s.log.filterMap Event.completed) +
            ↑((s.activeList.flatMap completeEvents).filterMap Event.completed))
          ≤ idsOf s.pendingList + (↑(s.log.filterMap Event.completed) + idsOf s.activeList) :=
            add_le_add_right (add_le_add_right hids _) _
        _ = idsOf s.activeList + idsOf s.pendingList + ↑(s.log.filterMap Event.completed) := by
            abel
    | terminateFree => exact hle hfreed.1 hfreed.2.1 hfreed.2.2
    | freeChan => exact hle hfreed.1 hfreed.2.1 hfreed.2.2
    | _ => exact absurd rfl hchanges

/-- Nothing is accepted or completed but in a section of a call. -/
theorem sectionStep_quiet {s s' : VxdmaSys cfg} {a : Act cfg} (h : s.sectionStep a = some s')
    (ha : ∀ i env, a ≠ .run i env) :
    submittedIds s'.chan = submittedIds s.chan ∧ completedIds s'.chan = completedIds s.chan := by
  have hcallbacks : ∀ {t : XilinxDmaChan cfg} {w : List Event}, t.log = s.chan.log ++ w →
      (∀ e ∈ w, ∃ id, e = .callback id) →
      submittedIds t = submittedIds s.chan ∧ completedIds t = completedIds s.chan := by
    intro t w hlog hw
    have hassigned : w.filterMap Event.assigned = [] := by
      apply List.filterMap_eq_nil_iff.mpr
      intro e he
      obtain ⟨id, rfl⟩ := hw e he
      rfl
    have hcompleted : w.filterMap Event.completed = [] := by
      apply List.filterMap_eq_nil_iff.mpr
      intro e he
      obtain ⟨id, rfl⟩ := hw e he
      rfl
    constructor
    · rw [submittedIds, submittedIds, assigned, assigned, hlog, List.filterMap_append, hassigned,
        List.append_nil]
    · rw [completedIds, completedIds, hlog, List.filterMap_append, hcompleted, List.append_nil]
  obtain ⟨hbug, hstep⟩ := sectionStep_inv h
  cases hstep with
  | allocChanResources zalloc =>
    obtain ⟨-, hassigned, hcompleted⟩ := alloc_sameQueues zalloc s.chan
    exact ⟨by rw [submittedIds, submittedIds, hassigned], hcompleted⟩
  | run i env => exact absurd rfl (ha i env)
  | tasklet =>
    obtain ⟨w, hlog, hw⟩ := cleanup_events { s.chan with tasklet := false }
    exact hcallbacks hlog hw
  | callbackReturn =>
    cases hpc : s.cleanup with
    | idle => exact hcallbacks (w := []) (List.append_nil _).symm (by simp)
    | cyclicCallback => exact hcallbacks (w := []) (List.append_nil _).symm (by simp)
    | callback d =>
      obtain ⟨w, hlog, hw⟩ := cleanup_events (xilinxDmaFreeTxDescriptor s.chan d.segments)
      rw [freeTxDescriptor_eq] at hlog
      refine hcallbacks (w := w) ?_ hw
      rw [cleanupResume, freeTxDescriptor_eq]
      exact hlog
  | _ => exact ⟨rfl, rfl⟩

/-- What is on the lists or complete was accepted, and is in one place only. -/
theorem sectionStep_completes {s s' : VxdmaSys cfg} {a : Act cfg}
    (hs : idsOf s.chan.listed + ↑(completedIds s.chan) ≤ ↑(submittedIds s.chan))
    (h : s.sectionStep a = some s') :
    idsOf s'.chan.listed + ↑(completedIds s'.chan) ≤ ↑(submittedIds s'.chan) := by
  by_cases ha : ∃ i env, a = .run i env
  · obtain ⟨i, env, rfl⟩ := ha
    obtain ⟨c, -, hsection, rfl⟩ := sectionStep_run h
    apply le_of_add_le_add_right (a := (↑(submittedIds s.chan) : Multiset Nat))
    refine hsection.completes.trans ?_
    rw [add_comm (↑(submittedIds (c.run env s.chan).1) : Multiset Nat)]
    exact add_le_add_left hs _
  · have hother : ∀ i env, a ≠ .run i env := fun i env heq => ha ⟨i, env, heq⟩
    obtain ⟨hsubmitted, hcompleted⟩ := sectionStep_quiet h hother
    rw [hsubmitted, hcompleted, (sectionStep_listed h hother).1]
    exact hs

/-- What is listed or complete was accepted, once. -/
theorem completed_of_reachable {hasSg : Bool} {ctrlOffset : Nat} {dmacr : BitVec 32}
    {s : VxdmaSys cfg} (h : Reachable sectionStep always (probed hasSg ctrlOffset dmacr) s) :
    idsOf s.chan.listed + ↑(completedIds s.chan) ≤ ↑(submittedIds s.chan) := by
  let Inv : VxdmaSys cfg → Prop := fun s =>
    idsOf s.chan.listed + ↑(completedIds s.chan) ≤ ↑(submittedIds s.chan)
  have hinv : Inv s := by
    refine h.invariant (Multiset.zero_le _) ?_
    intro s a s' hs _ hstep
    exact sectionStep_completes hs hstep
  exact hinv

/-- What is complete waits no more. -/
theorem notMem_pending_of_reachable {hasSg : Bool} {ctrlOffset : Nat} {dmacr : BitVec 32}
    {s : VxdmaSys cfg} (h : Reachable sectionStep always (probed hasSg ctrlOffset dmacr) s)
    {id : Nat} (hid : id ∈ completedIds s.chan) :
    id ∉ s.chan.pendingList.map XilinxDmaTxDescriptor.id := by
  have hnodup : (↑(submittedIds s.chan) : Multiset Nat).Nodup :=
    Multiset.coe_nodup.mpr (namesOnce_of_reachable h).submittedIds_nodup
  obtain ⟨-, -, hapart⟩ := Multiset.nodup_add.mp
    (Multiset.nodup_of_le (completed_of_reachable h) hnodup)
  intro hwaits
  refine Multiset.disjoint_left.mp hapart ?_ (Multiset.mem_coe.mpr hid)
  rw [XilinxDmaChan.listed, idsOf_append]
  exact Multiset.mem_add.mpr (Or.inr (Multiset.mem_coe.mpr hwaits))

/-! ## Runs of a healthy channel -/

/-- The action is the locked section of an interrupt handler. -/
def locksIrq (s : VxdmaSys cfg) : Act cfg → Bool
  | .run i _ =>
    match s.calls[i]? with
    | some .irqLock => true
    | _ => false
  | _ => false

/-- The number of such sections so far. -/
def rounds (n : Nat) (s : VxdmaSys cfg) (a : Act cfg) (_ : VxdmaSys cfg) : Nat :=
  if s.locksIrq a then n + 1 else n

/-- Nothing is terminated, released or cyclic, and in a round of the handler the channel is not in
error and its start succeeds. -/
def Healthy (s : VxdmaSys cfg) : Act cfg → Prop
  | .prepDmaCyclic _ => False
  | .terminateAll => False
  | .freeChanResources => False
  | .run i env => s.locksIrq (.run i env) = true → env.startOk = true ∧ s.chan.err = false
  | _ => True

instance (s : VxdmaSys cfg) : (a : Act cfg) → Decidable (s.Healthy a)
  | .prepSlaveSg _ => isTrue trivial
  | .prepDmaCyclic _ => isFalse id
  | .txSubmit _ _ => isTrue trivial
  | .issuePending => isTrue trivial
  | .interrupt => isTrue trivial
  | .terminateAll => isFalse id
  | .freeChanResources => isFalse id
  | .allocChanResources _ => isTrue trivial
  | .run i env => inferInstanceAs (Decidable
      (s.locksIrq (.run i env) = true → env.startOk = true ∧ s.chan.err = false))
  | .tasklet => isTrue trivial
  | .callbackReturn => isTrue trivial
  | .device _ _ _ => isTrue trivial

/-- A healthy action drops nothing. -/
theorem Healthy.noDrop {s : VxdmaSys cfg} {a : Act cfg} (h : s.Healthy a) : s.NoDrop a := by
  cases a with
  | terminateAll => exact h.elim
  | freeChanResources => exact h.elim
  | _ => rfl

/-- A healthy action asks for nothing cyclic. -/
theorem Healthy.noCyclic {s : VxdmaSys cfg} {a : Act cfg} (h : s.Healthy a) :
    ∀ args, a ≠ .prepDmaCyclic args := by
  rintro args rfl
  exact h

/-- What a section puts on `pending_list` was submitted by it. -/
theorem Section.pending_mem {env : CallEnv} {s t : XilinxDmaChan cfg} {c : Call cfg}
    {after : After cfg} (h : Section env s c t after) :
    ∀ d ∈ t.pendingList, d ∈ s.pendingList ∨ d.id ∈ c.ids := by
  have hstart : ∀ (startOk : Bool) (u : XilinxDmaChan cfg),
      ∀ d ∈ (xilinxDmaStartTransfer startOk u).pendingList, d ∈ u.pendingList := by
    intro startOk u d hd
    rw [(startTransfer_lists startOk u).2.1]
    exact List.mem_append_right _ hd
  intro d hd
  cases h with
  | queued e =>
    rcases List.mem_append.mp hd with hd | hd
    · exact Or.inl hd
    · rw [List.mem_singleton.mp hd]
      exact Or.inr (by simp [Call.ids])
  | queuedBug e =>
    rcases List.mem_append.mp hd with hd | hd
    · exact Or.inl hd
    · rw [List.mem_singleton.mp hd]
      exact Or.inr (by simp [Call.ids])
  | issue => exact Or.inl (hstart env.startOk s d hd)
  | irqLock =>
    have hold := hstart env.startOk _ d hd
    rw [irqComplete_eq] at hold
    exact Or.inl hold
  | buildError =>
    rw [freeTxDescriptor_eq] at hd
    exact Or.inl hd
  | submitRefused =>
    rw [freeTxDescriptor_eq] at hd
    exact Or.inl hd
  | irqIoc =>
    rw [irqAck_eq] at hd
    exact Or.inl hd
  | irqOther =>
    rw [irqAck_eq] at hd
    exact Or.inl hd
  | terminate =>
    rw [halt_eq] at hd
    exact Or.inl hd
  | terminateFree =>
    rw [freeDescriptors_eq] at hd
    cases hd
  | freeChan =>
    rw [freeDescriptors_eq] at hd
    cases hd
  | terminateClear =>
    rw [clearCyclic_eq] at hd
    exact Or.inl hd
  | _ => exact Or.inl hd

/-- What was accepted before does not come onto `pending_list` again. -/
theorem sectionStep_notMem_pending {s s' : VxdmaSys cfg} {a : Act cfg} {id : Nat}
    (hnames : NamesOnce s) (h : s.sectionStep a = some s') (haccepted : id ∈ submittedIds s.chan)
    (hid : id ∉ s.chan.pendingList.map XilinxDmaTxDescriptor.id) :
    id ∉ s'.chan.pendingList.map XilinxDmaTxDescriptor.id := by
  obtain ⟨hbug, hstep⟩ := sectionStep_inv h
  cases hstep with
  | run i env c s' hc hleave =>
    rw [leave_chan hleave]
    intro hmem
    obtain ⟨d, hd, rfl⟩ := List.mem_map.mp hmem
    rcases (run_inv env hbug c).pending_mem d hd with hold | hnew
    · exact hid (List.mem_map_of_mem hold)
    · exact hnames.notMem_submittedIds (List.mem_of_getElem? hc) hnew haccepted
  | tasklet =>
    change id ∉ (xilinxDmaChanDescCleanup _).1.pendingList.map _
    rw [(cleanup_sameQueues _).pendingList]
    exact hid
  | callbackReturn =>
    change id ∉ (cleanupResume _ _).1.pendingList.map _
    rw [(cleanupResume_sameQueues s.cleanup s.chan).pendingList]
    exact hid
  | allocChanResources zalloc => cases zalloc <;> exact hid
  | _ => exact hid

/-- The history of what was accepted and completed only grows. -/
theorem sectionStep_history {s s' : VxdmaSys cfg} {a : Act cfg} (h : s.sectionStep a = some s') :
    submittedIds s.chan ⊆ submittedIds s'.chan ∧ completedIds s.chan ⊆ completedIds s'.chan := by
  obtain ⟨w, hlog, -⟩ := (sectionStep_writesOwn h).log
  refine ⟨?_, ?_⟩
  · rw [submittedIds, submittedIds, assigned, assigned, hlog, List.filterMap_append,
      List.map_append]
    exact List.subset_append_left _ _
  · rw [completedIds, completedIds, hlog, List.filterMap_append]
    exact List.subset_append_left _ _

/-! ## Rounds -/

/-- What is known of an accepted descriptor after some rounds of the handler. -/
structure RoundInv (id : Nat) (s : VxdmaSys cfg) (n : Nat) : Prop where
  names : NamesOnce s
  nonCyclic : NonCyclic s
  quiet : ∀ c ∈ s.calls, c.dropsLists = false
  accepted : id ∈ submittedIds s.chan
  accounted : s.chan.Accounted id
  given : 1 ≤ n → id ∉ s.chan.pendingList.map XilinxDmaTxDescriptor.id
  completed : 2 ≤ n → id ∈ completedIds s.chan

/-- After a round the descriptor does not wait: the engine has it, or it is complete. -/
theorem RoundInv.withEngine {id n : Nat} {s : VxdmaSys cfg} (hs : RoundInv id s n) (hn : 1 ≤ n) :
    id ∈ s.chan.activeList.map XilinxDmaTxDescriptor.id ∨ id ∈ completedIds s.chan := by
  rcases hs.accounted with hlisted | hdone
  · rw [XilinxDmaChan.listed, List.map_append] at hlisted
    exact Or.inl ((List.mem_append.mp hlisted).resolve_right (hs.given hn))
  · exact Or.inr hdone

/-- What a round does. -/
theorem sectionStep_round {s s' : VxdmaSys cfg} {a : Act cfg} (hok : s.Healthy a)
    (h : s.sectionStep a = some s') (hround : s.locksIrq a = true) :
    s'.chan.pendingList = [] ∧
      ∀ d ∈ s.chan.activeList, d.cyclic = false → d.id ∈ completedIds s'.chan := by
  cases a with
  | run i env =>
    obtain ⟨hstart, herr⟩ := hok hround
    obtain ⟨c, hc, -, rfl⟩ := sectionStep_run h
    have hlock : c = .irqLock := by
      simp only [locksIrq, hc] at hround
      cases c with
      | irqLock => rfl
      | _ => cases hround
    subst hlock
    simp only [Call.run, hstart]
    exact irqLock_round herr
  | _ => cases hround

/-- **One action keeps the account of the rounds.** -/
theorem sectionStep_roundInv {id n : Nat} {s s' : VxdmaSys cfg} {a : Act cfg}
    (hs : RoundInv id s n) (hok : s.Healthy a) (h : s.sectionStep a = some s') :
    RoundInv id s' (rounds n s a s') := by
  obtain ⟨hsubmitted, hcompleted⟩ := sectionStep_history h
  refine ⟨sectionStep_namesOnce hs.names h, sectionStep_nonCyclic_of_ne hs.nonCyclic hok.noCyclic h,
    sectionStep_keepsLists h hok.noDrop.ne hs.quiet, hsubmitted hs.accepted,
    sectionStep_accounted h hs.nonCyclic (Or.inl hs.quiet) hs.accounted, ?_, ?_⟩
  · intro hn
    cases hround : s.locksIrq a with
    | false =>
      rw [rounds, hround] at hn
      exact sectionStep_notMem_pending hs.names h hs.accepted (hs.given hn)
    | true =>
      rw [(sectionStep_round hok h hround).1]
      exact List.not_mem_nil
  · intro hn
    cases hround : s.locksIrq a with
    | false =>
      rw [rounds, hround] at hn
      exact hcompleted (hs.completed hn)
    | true =>
      rw [rounds, hround, if_pos rfl] at hn
      rcases hs.withEngine (by omega) with hactive | hdone
      · obtain ⟨d, hd, rfl⟩ := List.mem_map.mp hactive
        have hcyc : d.cyclic = false :=
          hs.nonCyclic.queues d (by simp [XilinxDmaChan.queues, hd])
        exact (sectionStep_round hok h hround).2 d hd hcyc
      · exact hcompleted hdone

/-- After the probe nothing is cyclic. -/
theorem probed_nonCyclic (hasSg : Bool) (ctrlOffset : Nat) (dmacr : BitVec 32) :
    NonCyclic (probed hasSg ctrlOffset dmacr : VxdmaSys cfg) := by
  have hqueues : (probed hasSg ctrlOffset dmacr : VxdmaSys cfg).chan.queues = [] := rfl
  have hprepared : (probed hasSg ctrlOffset dmacr : VxdmaSys cfg).prepared = [] := rfl
  have hcalls : (probed hasSg ctrlOffset dmacr : VxdmaSys cfg).calls = [] := rfl
  exact ⟨by simp [hqueues], by simp [hprepared], by simp [hcalls]⟩

/-- What is on a queue, or held by the cleanup, was accepted. -/
theorem underway_of_reachable {hasSg : Bool} {ctrlOffset : Nat} {dmacr : BitVec 32}
    {s : VxdmaSys cfg} (h : Reachable sectionStep always (probed hasSg ctrlOffset dmacr) s) :
    idsOf s.chan.queues + idsOf s.held ≤ ↑(submittedIds s.chan) := by
  let Inv : VxdmaSys cfg → Prop := fun s =>
    idsOf s.chan.queues + idsOf s.held ≤ ↑(submittedIds s.chan)
  have hinv : Inv s := by
    refine h.invariant (Multiset.zero_le _) ?_
    intro s a s' hs _ hstep
    by_cases ha : a = .callbackReturn
    · subst ha
      obtain ⟨hqueues, hsame⟩ := sectionStep_returned hstep
      have hbefore : idsOf s.chan.queues ≤ ↑(submittedIds s.chan) :=
        (Multiset.le_add_right _ _).trans hs
      exact hqueues.trans (hsame ▸ hbefore)
    · have hgrown := (sectionStep_underway hstep ha).1
      have hboth : idsOf s'.chan.queues + idsOf s'.held + ↑(submittedIds s.chan) ≤
          ↑(submittedIds s'.chan) + ↑(submittedIds s.chan) := by
        refine hgrown.trans ?_
        rw [add_comm (↑(submittedIds s'.chan) : Multiset Nat)]
        exact add_le_add hs le_rfl
      exact le_of_add_le_add_right hboth
  exact hinv

/-- **A descriptor is complete after two rounds of the handler.** In every run, when nothing is
terminated, released or cyclic: a descriptor that waits is active or complete after the next locked
section of an interrupt handler, and waits no more, and is complete after the one that follows, if
in these sections the channel is not in error and the start succeeds. -/
theorem completes_within_two_rounds {hasSg : Bool} {ctrlOffset : Nat} {dmacr : BitVec 32}
    {s₀ s : VxdmaSys cfg} {n : Nat} {d : XilinxDmaTxDescriptor cfg}
    (hused : Reachable sectionStep (fun _ a => ∀ args, a ≠ .prepDmaCyclic args)
      (probed hasSg ctrlOffset dmacr) s₀)
    (hquiet : ∀ c ∈ s₀.calls, c.dropsLists = false) (hd : d ∈ s₀.chan.pendingList)
    (h : Reachable (withGhost sectionStep rounds) (fun sn a => sn.1.Healthy a) (s₀, 0) (s, n)) :
    (1 ≤ n → d.id ∉ s.chan.pendingList.map XilinxDmaTxDescriptor.id ∧
        (d.id ∈ s.chan.activeList.map XilinxDmaTxDescriptor.id ∨ d.id ∈ completedIds s.chan)) ∧
      (2 ≤ n → d.id ∈ completedIds s.chan) := by
  have hany : Reachable sectionStep always (probed hasSg ctrlOffset dmacr) s₀ :=
    hused.mono fun _ _ _ => trivial
  have hcyc : NonCyclic s₀ :=
    hused.invariant (probed_nonCyclic hasSg ctrlOffset dmacr) fun _ _ _ hs hok hstep =>
      sectionStep_nonCyclic_of_ne hs hok hstep
  have hwaits : d.id ∈ s₀.chan.listed.map XilinxDmaTxDescriptor.id := by
    rw [XilinxDmaChan.listed, List.map_append]
    exact List.mem_append_right _ (List.mem_map_of_mem hd)
  have haccepted : d.id ∈ submittedIds s₀.chan := by
    have hmem : d.id ∈ idsOf s₀.chan.queues + idsOf s₀.held := by
      refine Multiset.mem_add.mpr (Or.inl ?_)
      simp only [idsOf, XilinxDmaChan.queues, Multiset.mem_coe]
      exact List.mem_map_of_mem (by simp [hd])
    exact Multiset.mem_coe.mp (Multiset.mem_of_le (underway_of_reachable hany) hmem)
  have hinv : RoundInv d.id s n := by
    refine h.ghost_invariant ⟨namesOnce_of_reachable hany, hcyc, hquiet, haccepted,
      Or.inl hwaits, ?_, ?_⟩ fun _ _ _ _ hs hok hstep => sectionStep_roundInv hs hok hstep
    · intro hn
      omega
    · intro hn
      omega
  exact ⟨fun hn => ⟨hinv.given hn, hinv.withEngine hn⟩, hinv.completed⟩

/-- A descriptor is queued while the engine has another one. -/
def queuedBehind : List (Act .addr32) :=
  let env : CallEnv := ⟨⟨0, true⟩, 0, true, true⟩
  [.allocChanResources (some 0), .prepSlaveSg ⟨[⟨0, 4⟩], .memToDev, none, true⟩] ++ sections 2 env ++
  [.txSubmit 0 none] ++ sections 3 env ++ [.issuePending] ++ sections 1 env ++
  [.prepSlaveSg ⟨[⟨64, 4⟩], .memToDev, none, true⟩] ++ sections 2 env ++ [.txSubmit 0 none] ++
  sections 3 env

/-- One interrupt, after which a third descriptor is submitted. -/
def oneInterrupt : List (Act .addr32) :=
  let env : CallEnv := ⟨⟨0, true⟩, xilinxDmaXrIrqIocMask, true, true⟩
  [.interrupt] ++ sections 3 env ++ [.prepSlaveSg ⟨[⟨128, 4⟩], .memToDev, none, true⟩] ++
  sections 2 env ++ [.txSubmit 0 none] ++ sections 3 env

/-- Two interrupts, with a third descriptor submitted between them. -/
def twoInterrupts : List (Act .addr32) :=
  let env : CallEnv := ⟨⟨0, true⟩, xilinxDmaXrIrqIocMask, true, true⟩
  oneInterrupt ++ [.interrupt] ++ sections 3 env

/-- A descriptor queued behind a running batch is active after one interrupt and complete after two.
-/
theorem completes_within_two_rounds_queuedBehind :
    ∃ s₀ s₁ s d, exec sectionStep (probed true 0 0) queuedBehind = some s₀ ∧
      s₀.chan.pendingList = [d] ∧
      exec (withGhost sectionStep rounds) (s₀, 0) oneInterrupt = some (s₁, 1) ∧
      (d.id ∈ s₁.chan.activeList.map XilinxDmaTxDescriptor.id ∨ d.id ∈ completedIds s₁.chan) ∧
      exec (withGhost sectionStep rounds) (s₀, 0) twoInterrupts = some (s, 2) ∧
      d.id ∉ s.chan.pendingList.map XilinxDmaTxDescriptor.id ∧ d.id ∈ completedIds s.chan := by
  have hexec : ((exec sectionStep (probed true 0 0) queuedBehind).bind fun s₀ =>
      (exec (withGhost sectionStep rounds) (s₀, 0) oneInterrupt).bind fun sn₁ =>
        (exec (withGhost sectionStep rounds) (s₀, 0) twoInterrupts).map fun sn =>
          (s₀.chan.pendingList.length, s₀.calls.length, sn₁.2, sn.2)) = some (1, 0, 1, 2) := by
    decide +kernel
  obtain ⟨s₀, hs₀, hrest⟩ := Option.bind_eq_some_iff.mp hexec
  obtain ⟨⟨s₁, n₁⟩, hs₁, hrest⟩ := Option.bind_eq_some_iff.mp hrest
  obtain ⟨⟨s, n⟩, hs, hfacts⟩ := Option.map_eq_some_iff.mp hrest
  obtain ⟨hlength, hnone, rfl, rfl⟩ :
      s₀.chan.pendingList.length = 1 ∧ s₀.calls.length = 0 ∧ n₁ = 1 ∧ n = 2 := by
    simpa using hfacts
  obtain ⟨d, hd⟩ := List.length_eq_one_iff.mp hlength
  have hcalls := List.length_eq_zero_iff.mp hnone
  have hquiet : ∀ c ∈ s₀.calls, c.dropsLists = false := by simp [hcalls]
  have hused : Reachable sectionStep (fun _ a => ∀ args, a ≠ .prepDmaCyclic args)
      (probed true 0 0) s₀ := by
    refine Reachable.of_exec (Reachable.execOk_of_forall ?_) hs₀
    rintro a ha - args rfl
    simp [queuedBehind, sections] at ha
  have hok : ∀ s₀ ∈ exec sectionStep (probed true 0 0) queuedBehind,
      ExecOk (withGhost sectionStep rounds) (fun sn a => sn.1.Healthy a) (s₀, 0) twoInterrupts := by
    decide +kernel
  have hokFirst : ∀ s₀ ∈ exec sectionStep (probed true 0 0) queuedBehind,
      ExecOk (withGhost sectionStep rounds) (fun sn a => sn.1.Healthy a) (s₀, 0) oneInterrupt := by
    decide +kernel
  have hwaits : d ∈ s₀.chan.pendingList := hd ▸ List.mem_singleton_self d
  have hfirst := completes_within_two_rounds hused hquiet hwaits
    (Reachable.of_exec (hokFirst s₀ hs₀) hs₁)
  have hboth := completes_within_two_rounds hused hquiet hwaits
    (Reachable.of_exec (hok s₀ hs₀) hs)
  exact ⟨s₀, s₁, s, d, hs₀, hd, hs₁, (hfirst.1 le_rfl).2, hs, (hboth.1 (by decide)).1,
    hboth.2 le_rfl⟩

end VxdmaSys

end PetalinuxDriver
