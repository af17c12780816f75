import PetalinuxDriver.Analysis.History

/-!
# The memory of the descriptors

`xilinx_dma_alloc_tx_descriptor` gets the memory of a descriptor, and `xilinx_dma_free_tx_descriptor`
gives it back: for a builder that ran out of segments, for a submit that is refused, for the three
lists of a channel that is terminated or released, and for the cleanup, which frees a descriptor
after its callback, with the lock dropped in between. `VxdmaSys.kfrees` says which descriptors an
action frees. Whatever the callers do and however their calls interleave, each descriptor is in one
place, or freed, or dropped by a submit whose reset failed (`descriptors_accounted`): nothing is
freed twice, nothing that is still in use is freed, and nothing else is lost.
-/

set_option autoImplicit false

namespace PetalinuxDriver

open Library

variable {cfg : PhysAddrConfig}

/-! ## What is freed -/

/-- The loop of `xilinx_dma_chan_desc_cleanup`, up to the next place where it drops the lock. -/
def cleanupKfrees : List (XilinxDmaTxDescriptor cfg) → List Nat
  | [] => []
  | desc :: rest =>
    if desc.cyclic then []
    else
      match desc.callback with
      | some _ => []
      | none => desc.id :: cleanupKfrees rest

/-- `xilinx_dma_chan_desc_cleanup` after a callback has returned. -/
def CleanupPc.kfrees (doneList : List (XilinxDmaTxDescriptor cfg)) : CleanupPc cfg → List Nat
  | .callback desc => desc.id :: cleanupKfrees doneList
  | .idle | .cyclicCallback => []

/-- The next section of a call. -/
def Call.kfrees (s : XilinxDmaChan cfg) : Call cfg → List Nat
  | .buildError b => [b.id]
  | .submitRefused d => [d.id]
  | .terminateFree | .freeChan =>
    (s.pendingList ++ s.doneList ++ s.activeList).map XilinxDmaTxDescriptor.id
  | _ => []

/-- The descriptor that a submit returns an error for and does not free. -/
def Call.dropped (env : CallEnv) : Call cfg → List Nat
  | .submitReset d => if env.reset.ok then [] else [d.id]
  | _ => []

namespace VxdmaSys

/-- The descriptors that an action gets memory for. -/
def kzalloced (s : VxdmaSys cfg) (a : Act cfg) : List Nat :=
  match a.entry s.chan with
  | some (.build _ b) => [b.id]
  | _ => []

/-- The descriptors that an action frees. -/
def kfrees (s : VxdmaSys cfg) : Act cfg → List Nat
  | .run i _ =>
    match s.calls[i]? with
    | some c => c.kfrees s.chan
    | none => []
  | .tasklet => cleanupKfrees s.chan.doneList
  | .callbackReturn => s.cleanup.kfrees s.chan.doneList
  | _ => []

/-- The descriptors that an action drops. -/
def dropped (s : VxdmaSys cfg) : Act cfg → List Nat
  | .run i env =>
    match s.calls[i]? with
    | some c => c.dropped env
    | none => []
  | _ => []

end VxdmaSys

/-! ## Where the descriptors are -/

/-- The descriptors on the lists of the channel. -/
def XilinxDmaChan.descIds (s : XilinxDmaChan cfg) : Multiset Nat :=
  ↑(s.pendingList.map XilinxDmaTxDescriptor.id) + ↑(s.activeList.map XilinxDmaTxDescriptor.id) +
    ↑(s.doneList.map XilinxDmaTxDescriptor.id)

/-- All descriptors that are in use: on the lists, with the client, with the cleanup, and with the
calls in flight. -/
def VxdmaSys.descIds (s : VxdmaSys cfg) : Multiset Nat :=
  s.chan.descIds + ↑(s.prepared.map XilinxDmaTxDescriptor.id) +
    ↑(s.cleanup.held.map XilinxDmaTxDescriptor.id) + ↑(s.calls.flatMap Call.ids)

/-- Segments go back, and the descriptors in use stay. -/
theorem freeTxDescriptor_descIds (s : XilinxDmaChan cfg) (segments : List SegPtr) :
    (xilinxDmaFreeTxDescriptor s segments).descIds = s.descIds := by
  rw [freeTxDescriptor_eq]
  rfl

/-- A start moves descriptors. -/
theorem startTransfer_descIds (startOk : Bool) (s : XilinxDmaChan cfg) :
    (xilinxDmaStartTransfer startOk s).descIds = s.descIds := by
  rcases startTransfer_cases startOk s with ⟨-, h⟩ | ⟨-, -, c, w, -, h⟩ | ⟨-, -, c, w, -, h⟩ <;>
    rw [h] <;>
    simp only [XilinxDmaChan.descIds, List.map_append, List.map_nil, Multiset.coe_nil,
      ← Multiset.coe_add]
  abel

/-- The completion moves descriptors. -/
theorem irqComplete_descIds (s : XilinxDmaChan cfg) : (irqComplete s).descIds = s.descIds := by
  have hids : (s.activeList.map completedDesc).map XilinxDmaTxDescriptor.id =
      s.activeList.map XilinxDmaTxDescriptor.id := by
    rw [List.map_map]
    apply List.map_congr_left
    intro d _
    exact completedDesc_id d
  rw [irqComplete_eq]
  simp only [XilinxDmaChan.descIds, List.map_append, List.map_nil, hids, Multiset.coe_nil,
    ← Multiset.coe_add]
  abel

/-- Freed lists are those descriptors less. -/
theorem freeDescriptors_descIds (s : XilinxDmaChan cfg) :
    (xilinxDmaFreeDescriptors s).descIds +
      ↑((s.pendingList ++ s.doneList ++ s.activeList).map XilinxDmaTxDescriptor.id) =
      s.descIds := by
  rw [freeDescriptors_eq]
  simp only [XilinxDmaChan.descIds, List.map_append, List.map_nil, Multiset.coe_nil,
    ← Multiset.coe_add]
  abel

/-- The cleanup frees descriptors off `done_list`, up to the one that it then holds. -/
theorem cleanupLoop_descIds (done : List (XilinxDmaTxDescriptor cfg)) (s : XilinxDmaChan cfg)
    (hs : s.doneList = done) :
    (cleanupLoop done s).1.descIds +
      ↑((cleanupLoop done s).2.held.map XilinxDmaTxDescriptor.id) + ↑(cleanupKfrees done) =
      s.descIds := by
  induction done generalizing s with
  | nil => simp [cleanupLoop, cleanupKfrees, CleanupPc.held]
  | cons d rest ih =>
    have hfirst : s.descIds = ({ s with doneList := rest } : XilinxDmaChan cfg).descIds + {d.id} := by
      simp only [XilinxDmaChan.descIds, hs, List.map_cons, ← Multiset.cons_coe,
        ← Multiset.singleton_add]
      abel
    cases hcyc : d.cyclic with
    | true =>
      cases hcb : d.callback with
      | none => simp [cleanupLoop, cleanupKfrees, hcyc, hcb, CleanupPc.held]
      | some c =>
        simp [cleanupLoop, cleanupKfrees, hcyc, hcb, CleanupPc.held, XilinxDmaChan.emit,
          XilinxDmaChan.descIds]
    | false =>
      cases hcb : d.callback with
      | some c =>
        simp only [cleanupLoop, cleanupKfrees, hcyc, hcb, Bool.false_eq_true, if_false, hfirst,
          CleanupPc.held, List.map_cons, List.map_nil, Multiset.coe_nil, add_zero,
          Multiset.coe_singleton]
        rfl
      | none =>
        have hrest := ih (xilinxDmaFreeTxDescriptor { s with doneList := rest } d.segments)
          (by simp [freeTxDescriptor_eq])
        rw [freeTxDescriptor_descIds] at hrest
        simp only [cleanupLoop, cleanupKfrees, hcyc, hcb, Bool.false_eq_true, if_false]
        rw [hfirst, ← hrest, ← Multiset.cons_coe, ← Multiset.singleton_add]
        abel

/-- A cleanup frees what it has called back, and holds at most one. -/
theorem cleanup_descIds (s : XilinxDmaChan cfg) :
    (xilinxDmaChanDescCleanup s).1.descIds +
      ↑((xilinxDmaChanDescCleanup s).2.held.map XilinxDmaTxDescriptor.id) +
      ↑(cleanupKfrees s.doneList) = s.descIds :=
  cleanupLoop_descIds s.doneList s rfl

/-- After a callback its descriptor is freed before the rest of the list. -/
theorem cleanupResume_descIds (pc : CleanupPc cfg) (s : XilinxDmaChan cfg) :
    (cleanupResume pc s).1.descIds +
      ↑((cleanupResume pc s).2.held.map XilinxDmaTxDescriptor.id) + ↑(pc.kfrees s.doneList) =
      s.descIds + ↑(pc.held.map XilinxDmaTxDescriptor.id) := by
  cases pc with
  | idle | cyclicCallback => simp [cleanupResume, CleanupPc.held, CleanupPc.kfrees]
  | callback d =>
    have hdone : (xilinxDmaFreeTxDescriptor s d.segments).doneList = s.doneList := by
      rw [freeTxDescriptor_eq]
    have hcleanup := cleanup_descIds (xilinxDmaFreeTxDescriptor s d.segments)
    rw [freeTxDescriptor_descIds, hdone] at hcleanup
    rw [cleanupResume, ← hcleanup, CleanupPc.kfrees, ← Multiset.cons_coe,
      ← Multiset.singleton_add]
    simp only [CleanupPc.held, List.map_cons, List.map_nil, Multiset.coe_singleton]
    abel

/-! ## One section of a call -/

/-- The balance of one section. -/
theorem VxdmaSys.Section.descIds {env : CallEnv} {s t : XilinxDmaChan cfg} {c : Call cfg}
    {after : After cfg} (h : VxdmaSys.Section env s c t after) (hwild : after ≠ .wild) :
    t.descIds + ↑after.ids + ↑(c.kfrees s) + ↑(c.dropped env) = s.descIds + ↑c.ids := by
  cases h with
  | buildWild => exact absurd rfl hwild
  | buildDone b d mem hne hbuilt =>
    simp [Call.kfrees, Call.dropped, Call.ids, After.ids, hbuilt.id, XilinxDmaChan.descIds]
  | buildError | submitRefused =>
    simp [Call.kfrees, Call.dropped, Call.ids, After.ids, freeTxDescriptor_descIds]
  | resetOk d w hok =>
    simp [Call.kfrees, Call.dropped, Call.ids, After.ids, XilinxDmaChan.descIds, hok]
  | resetFailed d w hok =>
    simp [Call.kfrees, Call.dropped, Call.ids, After.ids, XilinxDmaChan.descIds, hok]
  | queued d | queuedBug d =>
    simp only [Call.kfrees, Call.dropped, Call.ids, After.ids, XilinxDmaChan.descIds,
      List.map_append, List.map_cons, List.map_nil, Multiset.coe_nil, ← Multiset.coe_add]
    abel
  | issue => simp [Call.kfrees, Call.dropped, Call.ids, After.ids, startTransfer_descIds]
  | irqLock =>
    simp [Call.kfrees, Call.dropped, Call.ids, After.ids, startTransfer_descIds,
      irqComplete_descIds]
  | terminateFree | freeChan =>
    rw [← freeDescriptors_descIds s]
    simp [Call.kfrees, Call.dropped, Call.ids, After.ids]
  | irqIoc | irqOther =>
    simp [Call.kfrees, Call.dropped, Call.ids, After.ids, irqAck_eq, XilinxDmaChan.descIds]
  | terminate =>
    simp [Call.kfrees, Call.dropped, Call.ids, After.ids, halt_eq, XilinxDmaChan.descIds]
  | terminateClear =>
    simp [Call.kfrees, Call.dropped, Call.ids, After.ids, clearCyclic_eq, XilinxDmaChan.descIds]
  | irqSchedule | freeChanInit | freeChanCoherent | buildRound =>
    simp [Call.kfrees, Call.dropped, Call.ids, After.ids, taskletSchedule, initFreeSegList,
      dmaFreeCoherent, XilinxDmaChan.descIds]
  | buildDry | submitCyclic | submitOpen | submitBroken | submitSound | irqNone
  | terminateCyclic | terminateDone => simp [Call.kfrees, Call.dropped, Call.ids, After.ids]

namespace VxdmaSys

variable {s s' : VxdmaSys cfg} {a : Act cfg}

/-! ## One action -/

/-- A call that enters brings its descriptor. -/
theorem enter_descIds (s : VxdmaSys cfg) (c : Call cfg) :
    (s.enter c).descIds = s.descIds + ↑c.ids := by
  simp only [descIds, enter, List.flatMap_cons, ← Multiset.coe_add]
  abel

/-- The end of a section hands on the descriptors of the section. -/
theorem leave_descIds {chan : XilinxDmaChan cfg} {after : After cfg}
    (h : s.leave chan after = some s') :
    s'.descIds + s.chan.descIds = s.descIds + chan.descIds + ↑after.ids := by
  rw [leave_eq h, After.ids_eq]
  simp only [descIds, List.map_append, List.flatMap_append, ← Multiset.coe_add]
  abel

/-- Only a builder gets memory, and it frees and drops nothing when it is entered. -/
theorem kfrees_of_entry {e : PrepEntry cfg} (h : a.entry s.chan = some e) :
    s.kfrees a = [] ∧ s.dropped a = [] := by
  cases a <;> cases h <;> exact ⟨rfl, rfl⟩

/-- When the cleanup moves on, what it held and what is on the lists is shared out anew. -/
theorem descIds_cleanup {chan : XilinxDmaChan cfg} {pc : CleanupPc cfg} {freed : List Nat}
    (h : chan.descIds + ↑(pc.held.map XilinxDmaTxDescriptor.id) + ↑freed =
      s.chan.descIds + ↑(s.cleanup.held.map XilinxDmaTxDescriptor.id)) :
    ({ s with chan := chan, cleanup := pc } : VxdmaSys cfg).descIds + ↑freed = s.descIds := by
  simp only [descIds]
  rw [add_right_comm s.chan.descIds, ← h]
  abel

/-- **The balance of one action.** -/
theorem sectionStep_descIds (h : s.sectionStep a = some s') :
    s'.descIds + ↑(s.kfrees a) + ↑(s.dropped a) = s.descIds + ↑(s.kzalloced a) := by
  obtain ⟨hbug, h⟩ := sectionStep_inv h
  cases h with
  | prepNull _ he => simp [kzalloced, he, kfrees_of_entry he]
  | prepBuild _ chunks b he =>
    rw [(kfrees_of_entry he).1, (kfrees_of_entry he).2, enter_descIds]
    simp only [kzalloced, he, Call.ids, Multiset.coe_nil, add_zero]
    rfl
  | txSubmit i callback d hd =>
    have hbal := coe_flatMap_eraseIdx (fun d : XilinxDmaTxDescriptor cfg => [d.id]) hd
    have hmap : ∀ l : List (XilinxDmaTxDescriptor cfg),
        l.flatMap (fun d => [d.id]) = l.map XilinxDmaTxDescriptor.id := by
      intro l
      rw [List.map_eq_flatMap]
    rw [hmap, hmap] at hbal
    rw [enter_descIds]
    simp only [kzalloced, Act.entry, kfrees, dropped, descIds, Call.ids, hbal, Multiset.coe_nil,
      add_zero]
    abel
  | issuePending | interrupt | terminateAll | freeChanResources =>
    simp [kzalloced, Act.entry, kfrees, dropped, enter_descIds, Call.ids]
  | allocChanResources zalloc =>
    cases zalloc <;>
      simp [kzalloced, Act.entry, kfrees, dropped, xilinxDmaAllocChanResources, descIds,
        XilinxDmaChan.descIds, XilinxDmaChan.dmaCtrlWrite, XilinxDmaChan.emit]
  | run i env c s' hc hleave =>
    have hwild : (c.run env s.chan).2 ≠ .wild := by
      intro hwild
      rw [hwild] at hleave
      cases hleave
    have hrun := (run_inv env hbug c).descIds hwild
    have hsection := leave_descIds hleave
    have hcalls : s.descIds =
        ({ s with calls := s.calls.eraseIdx i } : VxdmaSys cfg).descIds + ↑c.ids := by
      simp only [descIds, coe_flatMap_eraseIdx Call.ids hc]
      abel
    simp only [kzalloced, Act.entry, kfrees, dropped, hc, Multiset.coe_nil, add_zero]
    refine add_right_cancel (b := s.chan.descIds) ?_
    calc s'.descIds + ↑(c.kfrees s.chan) + ↑(c.dropped env) + s.chan.descIds
        = s'.descIds + s.chan.descIds + (↑(c.kfrees s.chan) + ↑(c.dropped env)) := by abel
      _ = ({ s with calls := s.calls.eraseIdx i } : VxdmaSys cfg).descIds +
            ((c.run env s.chan).1.descIds + ↑(c.run env s.chan).2.ids + ↑(c.kfrees s.chan) +
              ↑(c.dropped env)) := by
          rw [hsection]
          abel
      _ = s.descIds + s.chan.descIds := by
          rw [hrun, hcalls]
          abel
  | tasklet hidle =>
    have hcleanup := cleanup_descIds { s.chan with tasklet := false }
    have hbal : ({ s.chan with tasklet := false } : XilinxDmaChan cfg).descIds =
        s.chan.descIds + ↑(s.cleanup.held.map XilinxDmaTxDescriptor.id) := by
      simp [hidle, CleanupPc.held, XilinxDmaChan.descIds]
    have hmoved := descIds_cleanup (hcleanup.trans hbal)
    simpa [kzalloced, Act.entry, kfrees, dropped] using hmoved
  | callbackReturn =>
    have hmoved := descIds_cleanup (cleanupResume_descIds s.cleanup s.chan)
    simpa [kzalloced, Act.entry, kfrees, dropped] using hmoved
  | device p status app =>
    simp [kzalloced, Act.entry, kfrees, dropped, descIds, XilinxDmaChan.descIds,
      XilinxDmaChan.setHw]

/-- A descriptor that gets memory gets the next name. -/
theorem sectionStep_kzallocs (h : s.sectionStep a = some s') :
    (↑(List.range s'.chan.kzallocs) : Multiset Nat) =
      ↑(List.range s.chan.kzallocs) + ↑(s.kzalloced a) := by
  obtain ⟨hbug, h⟩ := sectionStep_inv h
  have hsame : ∀ chan : XilinxDmaChan cfg, chan.kzallocs = s.chan.kzallocs → s.kzalloced a = [] →
      (↑(List.range chan.kzallocs) : Multiset Nat) =
        ↑(List.range s.chan.kzallocs) + ↑(s.kzalloced a) := by
    intro chan hchan hnone
    rw [hchan, hnone, Multiset.coe_nil, add_zero]
  cases h with
  | prepNull _ he => exact hsame _ rfl (by simp [kzalloced, he])
  | prepBuild _ chunks b he =>
    have hid : b.id = s.chan.kzallocs := (Act.entry_fresh he).2
    simp only [kzalloced, he, hid]
    show (↑(List.range (s.chan.kzallocs + 1)) : Multiset Nat) = _
    rw [List.range_succ, ← Multiset.coe_add]
  | txSubmit | issuePending | interrupt | terminateAll | freeChanResources | device =>
    exact hsame _ rfl rfl
  | allocChanResources zalloc =>
    refine hsame _ ?_ rfl
    cases zalloc <;> rfl
  | run i env c s' hc hleave =>
    refine hsame _ ?_ rfl
    rw [leave_chan hleave]
    exact (run_inv env hbug c).names.1
  | tasklet => exact hsame _ (cleanup_sameNames { s.chan with tasklet := false }).1 rfl
  | callbackReturn => exact hsame _ (cleanupResume_sameNames s.cleanup s.chan).1 rfl

/-! ## Runs -/

/-- What was freed and what was dropped in a run. -/
structure DescriptorMemory where
  freed : List Nat
  dropped : List Nat

/-- What an action frees and drops. -/
def noteFrees (g : DescriptorMemory) (s : VxdmaSys cfg) (a : Act cfg) (_ : VxdmaSys cfg) :
    DescriptorMemory :=
  ⟨g.freed ++ s.kfrees a, g.dropped ++ s.dropped a⟩

/-- The descriptors that there have been are the ones that are in use, freed or dropped. -/
def DescAccounted (s : VxdmaSys cfg) (g : DescriptorMemory) : Prop :=
  (↑(List.range s.chan.kzallocs) : Multiset Nat) = s.descIds + ↑g.freed + ↑g.dropped

/-- Every action keeps the account of the descriptors. -/
theorem DescAccounted.step {g : DescriptorMemory} (hs : DescAccounted s g)
    (h : s.sectionStep a = some s') : DescAccounted s' (noteFrees g s a s') := by
  have hbalance := sectionStep_descIds h
  have hnew := sectionStep_kzallocs h
  unfold DescAccounted at hs ⊢
  rw [hnew, hs, noteFrees, ← Multiset.coe_add, ← Multiset.coe_add]
  calc s.descIds + ↑g.freed + ↑g.dropped + ↑(s.kzalloced a)
      = s.descIds + ↑(s.kzalloced a) + (↑g.freed + ↑g.dropped) := by abel
    _ = s'.descIds + ↑(s.kfrees a) + ↑(s.dropped a) + (↑g.freed + ↑g.dropped) := by
        rw [hbalance]
    _ = s'.descIds + (↑g.freed + ↑(s.kfrees a)) + (↑g.dropped + ↑(s.dropped a)) := by abel

/-- **Each descriptor is freed once, and not while it is in use.** In every interleaving of calls,
callbacks, releases and allocations, whatever the device answers: every descriptor that was
allocated is in use in one place, or it was freed, or a submit with a failed reset dropped it; no
descriptor was freed twice, and none that was freed is in use. -/
theorem descriptors_accounted {hasSg : Bool} {ctrlOffset : Nat} {dmacr : BitVec 32}
    {g : DescriptorMemory}
    (h : Reachable (withGhost sectionStep noteFrees) always
      (probed hasSg ctrlOffset dmacr, ⟨[], []⟩) (s, g)) :
    (↑(List.range s.chan.kzallocs) : Multiset Nat) = s.descIds + ↑g.freed + ↑g.dropped ∧
      g.freed.Nodup ∧ ∀ d ∈ g.freed, d ∉ s.descIds := by
  have haccounted : DescAccounted s g := by
    refine h.ghost_invariant rfl ?_
    intro s g a s' hinv _ hs
    exact hinv.step hs
  have hnodup : (s.descIds + ↑g.freed + ↑g.dropped).Nodup := by
    rw [← haccounted]
    exact Multiset.coe_nodup.mpr List.nodup_range
  obtain ⟨hboth, -, -⟩ := Multiset.nodup_add.mp hnodup
  obtain ⟨-, hfreed, hapart⟩ := Multiset.nodup_add.mp hboth
  refine ⟨haccounted, Multiset.coe_nodup.mp hfreed, ?_⟩
  intro d hd hin
  exact Multiset.disjoint_left.mp hapart hin (Multiset.mem_coe.mpr hd)

/-- Of three descriptors the first has no callback, the second is terminated around its callback, and
the third is submitted after an error to a channel that cannot be reset. -/
def freedAroundCallback : List (Act .addr32) :=
  let env : CallEnv := ⟨⟨0, false⟩, xilinxDmaXrIrqIocMask ||| xilinxDmaXrIrqErrorMask, true, true⟩
  let prep : List (Act .addr32) :=
    [.prepSlaveSg ⟨[⟨0, 4⟩], .memToDev, none, true⟩, .run 0 env, .run 0 env]
  .allocChanResources (some 0) :: prep ++ prep ++ prep ++
    .txSubmit 0 none :: sections 3 env ++
    .txSubmit 0 (some 0) :: sections 3 env ++
    [.issuePending, .run 0 env, .interrupt, .run 0 env, .run 0 env, .run 0 env, .tasklet] ++
    .txSubmit 0 none :: sections 3 env ++
    .terminateAll :: sections 3 env ++ [.callbackReturn]

/-- A release frees what waits while a callback runs, and a submit drops a third one. -/
theorem descriptors_accounted_freedAroundCallback :
    ∃ s g, exec (withGhost sectionStep noteFrees) (probed true 0 0, ⟨[], []⟩)
        freedAroundCallback = some (s, g) ∧
      g.freed = [0, 1] ∧ g.dropped = [2] ∧
      (↑(List.range s.chan.kzallocs) : Multiset Nat) = s.descIds + ↑[0, 1] + ↑[2] := by
  have hexec : (exec (withGhost sectionStep noteFrees)
      ((probed true 0 0 : VxdmaSys .addr32), ⟨[], []⟩) freedAroundCallback).map
      (fun sg => (sg.2.freed, sg.2.dropped)) = some ([0, 1], [2]) := by
    decide +kernel
  obtain ⟨⟨s, g⟩, hs, hends⟩ := Option.map_eq_some_iff.mp hexec
  obtain ⟨hfreed, hdropped⟩ := Prod.mk.inj hends
  have hreach : Reachable (withGhost sectionStep noteFrees) always
      (probed true 0 0, ⟨[], []⟩) (s, g) :=
    Reachable.of_exec (Reachable.execOk_of_forall fun _ _ _ => trivial) hs
  have haccounted := (descriptors_accounted hreach).1
  rw [hfreed, hdropped] at haccounted
  exact ⟨s, g, hs, hfreed, hdropped, haccounted⟩

end VxdmaSys

end PetalinuxDriver
