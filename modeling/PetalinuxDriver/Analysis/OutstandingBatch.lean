import PetalinuxDriver.Analysis.IdleFlag

/-!
# The batch that the engine has

From the write of TAILDESC or BTT until the engine is known to be done with them, the segments of
a batch belong to the engine, which reads and writes them. `outstanding` records them next to the
state; the driver keeps no such record. The batch ends with an IOC interrupt that is handled, with
a halt that the engine confirmed, and with a reset that succeeded.

`xilinx_dma_terminate_all` frees the active descriptors also when the halt has timed out, and
`xilinx_dma_free_chan_resources` does not halt at all. In a run where neither happens to an
outstanding batch its segments are not recycled (`outstanding_not_recycled`).
-/

set_option autoImplicit false

namespace PetalinuxDriver

open Library

variable {cfg : PhysAddrConfig}

namespace VxdmaSys

/-- The submit resets the channel, and the reset succeeds. -/
def submitResets (s : VxdmaSys cfg) (i : Nat) (env : ResetEnv) : Bool :=
  s.prepared[i]?.isSome && !s.chan.cyclic && s.chan.err && env.ok

/-- The segments of the outstanding batch after an action. -/
def outstanding (segs : List SegPtr) (s : VxdmaSys cfg) (op : Op cfg) (_ : VxdmaSys cfg) :
    List SegPtr :=
  match op with
  | .issuePending startOk => segs ++ segsOf (startedBatch startOk s.chan)
  | .interrupt status startOk =>
    if hasBits status xilinxDmaXrIrqAllMask && hasBits status xilinxDmaXrIrqIocMask then
      segsOf (startedBatch startOk (irqComplete (irqAck status s.chan)))
    else segs
  | .txSubmit i _ env => if s.submitResets i env then [] else segs
  | .terminateAll haltOk => if haltOk then [] else segs
  | _ => segs

/-- No segment of the outstanding batch is recycled: none is free, none is in a descriptor that a
client got from a prep, and none is in a pool that was given back. -/
def NotRecycled (s : VxdmaSys cfg) (segs : List SegPtr) : Prop :=
  ∀ p ∈ segs, p ∉ s.chan.freeSegList ∧ p ∉ segsOf s.prepared ∧ s.chan.segV = some p.pool

/-- The action drops the lists while the engine is not known to have stopped. -/
def Op.dropsRunning : Op cfg → Bool
  | .terminateAll haltOk => !haltOk
  | .freeChanResources => true
  | _ => false

/-- No batch is outstanding when the halt of `xilinx_dma_terminate_all` times out or the channel is
released, and a batch that is started comes from the live pool. -/
structure BatchGuard (sg : VxdmaSys cfg × List SegPtr) (op : Op cfg) : Prop where
  dropped : op.dropsRunning = true → sg.2 = []
  started : ∀ r ∈ sg.1.startEntry op, sg.1.FromPool (startedBatch r.2 r.1)

instance (sg : VxdmaSys cfg × List SegPtr) (op : Op cfg) : Decidable (BatchGuard sg op) :=
  decidable_of_iff ((op.dropsRunning = true → sg.2 = []) ∧
    ∀ r ∈ sg.1.startEntry op, sg.1.FromPool (startedBatch r.2 r.1))
    ⟨fun h => ⟨h.1, h.2⟩, fun h => ⟨h.dropped, h.started⟩⟩

/-- The invariant: the outstanding batch is on `active_list` and in the live pool. -/
structure BatchInv (s : VxdmaSys cfg) (segs : List SegPtr) : Prop where
  once : OwnedOnce s
  active : ∀ p ∈ segs, p ∈ segsOf s.chan.activeList
  live : ∀ p ∈ segs, s.chan.segV = some p.pool

/-- The invariant keeps the batch away from the free list. -/
theorem BatchInv.notRecycled {s : VxdmaSys cfg} {segs : List SegPtr} (h : BatchInv s segs) :
    NotRecycled s segs := by
  intro p hp
  obtain ⟨hfree, -, -, hprepared⟩ := h.once.active (h.active p hp)
  exact ⟨hfree, hprepared, h.live p hp⟩

/-- Only a start adds to the outstanding batch. -/
theorem outstanding_subset {segs : List SegPtr} {s s' : VxdmaSys cfg} {op : Op cfg}
    (h : s.startEntry op = none) : ∀ p ∈ outstanding segs s op s', p ∈ segs := by
  intro p hp
  cases op with
  | issuePending startOk => cases h
  | interrupt status startOk =>
    simp only [outstanding] at hp
    split at hp
    · rename_i hioc
      simp [startEntry, hioc] at h
    · exact hp
  | txSubmit i callback env =>
    simp only [outstanding] at hp
    split at hp
    · cases hp
    · exact hp
  | terminateAll haltOk =>
    simp only [outstanding] at hp
    split at hp
    · cases hp
    · exact hp
  | _ => exact hp

/-- What a start leaves outstanding: what it hands over, and for an issue also what was
outstanding before. An IOC interrupt has completed that and emptied `active_list`. -/
theorem outstanding_start {segs : List SegPtr} {s s' : VxdmaSys cfg} {op : Op cfg}
    {t : XilinxDmaChan cfg} {startOk : Bool} (h : s.startEntry op = some (t, startOk)) :
    ∀ p ∈ outstanding segs s op s',
      (p ∈ segs ∧ t.activeList = s.chan.activeList) ∨ p ∈ segsOf (startedBatch startOk t) := by
  intro p hp
  cases op with
  | issuePending ok =>
    cases h
    rcases List.mem_append.mp hp with hp | hp
    · exact Or.inl ⟨hp, rfl⟩
    · exact Or.inr hp
  | interrupt status ok =>
    simp only [startEntry] at h
    simp only [outstanding] at hp
    split at h
    · rename_i hioc
      cases h
      rw [if_pos hioc] at hp
      exact Or.inr hp
    · cases h
  | _ => cases h

/-- Nothing is outstanding after the lists were dropped under the guard. -/
theorem outstanding_dropsLists {segs : List SegPtr} {s s' : VxdmaSys cfg} {op : Op cfg}
    (hdrop : op.dropsLists = true) (hok : BatchGuard (s, segs) op) :
    outstanding segs s op s' = [] := by
  cases op with
  | terminateAll haltOk =>
    cases haltOk with
    | true => rfl
    | false => exact hok.dropped rfl
  | freeChanResources => exact hok.dropped rfl
  | _ => cases hdrop

/-- What is outstanding after an action was active before it or is handed over by it, and comes
from the pool that is live before it. -/
theorem outstanding_live {s s' : VxdmaSys cfg} {segs : List SegPtr} {op : Op cfg}
    (hs : BatchInv s segs) (hok : BatchGuard (s, segs) op) :
    ∀ p ∈ outstanding segs s op s', s.chan.segV = some p.pool := by
  intro p hp
  cases hentry : s.startEntry op with
  | none => exact hs.live p (outstanding_subset hentry p hp)
  | some r =>
    rcases outstanding_start hentry p hp with ⟨hold, -⟩ | hnew
    · exact hs.live p hold
    · exact hok.started r (Option.mem_def.mpr hentry) p hnew

/-- What is outstanding after an action is active. -/
theorem outstanding_active {s s' : VxdmaSys cfg} {segs : List SegPtr} {op : Op cfg}
    (hs : BatchInv s segs) (hok : BatchGuard (s, segs) op) (h : s.callStep op = some s') :
    ∀ p ∈ outstanding segs s op s', p ∈ segsOf s'.chan.activeList := by
  intro p hp
  cases hentry : s.startEntry op with
  | some r =>
    obtain ⟨t, startOk⟩ := r
    obtain ⟨tasklet, rfl⟩ := callStep_start hentry h
    simp only [(startTransfer_lists startOk t).1, segsOf_append]
    rcases outstanding_start hentry p hp with ⟨hold, hactive⟩ | hnew
    · rw [hactive]
      exact List.mem_append_left _ (hs.active p hold)
    · exact List.mem_append_right _ hnew
  | none =>
    have hactive := hs.active p (outstanding_subset hentry p hp)
    rcases callStep_queues h with
      hsame | ⟨i, callback, env, d, c, w, -, -, -, -, hchan⟩ | ⟨t, startOk, hstart, -⟩ | ⟨hdrop, -⟩
    · rw [hsame.activeList]
      exact hactive
    · have hkept := (submitLocked_idle { d with callback := callback } (s := resetFor s.chan c w)
        (callStep_inv h).1).1
      rw [hchan, hkept]
      exact hactive
    · rw [hentry] at hstart
      cases hstart
    · rw [outstanding_dropsLists hdrop hok] at hp
      cases hp

/-- One guarded action keeps the invariant. -/
theorem callStep_batchInv {s s' : VxdmaSys cfg} {segs : List SegPtr} {op : Op cfg}
    (hs : BatchInv s segs) (hok : BatchGuard (s, segs) op) (h : s.callStep op = some s') :
    BatchInv s' (outstanding segs s op s') := by
  refine ⟨callStep_ownedOnce hs.once h, outstanding_active hs hok h, fun p hp => ?_⟩
  have hlive := outstanding_live hs hok p hp
  rcases callStep_pool h with ⟨zalloc, rfl⟩ | ⟨rfl, -, -⟩ | hpool
  · -- an allocation finds no pool, so nothing was outstanding
    cases (callStep_inv h).2 with
    | allocChanResources _ hnone =>
      rw [hnone] at hlive
      cases hlive
    | prepNull _ _ _ he => cases he
    | prepDesc _ _ _ _ _ he => cases he
  · rw [outstanding_dropsLists rfl hok] at hp
    cases hp
  · rw [hpool.segV]
    exact hlive

/-- **Segments of the engine are not recycled.** In every run from the probe in which no batch is
outstanding when a halt times out in `xilinx_dma_terminate_all` or the channel is released, and
every batch that is started comes from the live pool: no segment of an outstanding batch is on
`free_seg_list`, in a prepared descriptor, or in a pool given to `dma_free_coherent`. -/
theorem outstanding_not_recycled {hasSg : Bool} {ctrlOffset : Nat} {dmacr : BitVec 32}
    {s : VxdmaSys cfg} {segs : List SegPtr}
    (h : Reachable (withGhost callStep outstanding) BatchGuard
      (probed hasSg ctrlOffset dmacr, []) (s, segs)) : NotRecycled s segs := by
  have hprobed : BatchInv (probed hasSg ctrlOffset dmacr : VxdmaSys cfg) [] :=
    ⟨probed_ownedOnce _ _ _, by simp, by simp⟩
  have hinv : BatchInv s segs := h.ghost_invariant hprobed
    fun _ _ _ _ hs hok hstep => callStep_batchInv hs hok hstep
  exact hinv.notRecycled

/-- The guard on `xilinx_dma_terminate_all` cannot be weakened: after a halt that timed out nothing
is recycled only if nothing was outstanding. -/
theorem terminateAll_recycles {s s' : VxdmaSys cfg} {segs : List SegPtr} (hs : BatchInv s segs)
    (h : s.callStep (.terminateAll false) = some s') :
    NotRecycled s' (outstanding segs s (.terminateAll false) s') ↔ segs = [] := by
  constructor
  · intro hnot
    by_contra hne
    obtain ⟨p, hp⟩ := List.exists_mem_of_ne_nil segs hne
    refine (hnot p hp).1 ?_
    have hactive := hs.active p hp
    have hfree : p ∈ (xilinxDmaTerminateAll false s.chan).freeSegList := by
      unfold xilinxDmaTerminateAll
      simp only [freeDescriptors_eq, halt_eq, clearCyclic_eq]
      split <;> simp [hactive]
    rw [callStep_terminateAll h]
    exact hfree
  · rintro rfl p hp
    cases hp

/-- A transfer is started and terminated. -/
def terminatedRun (haltOk : Bool) : List (Op .addr32) :=
  [.allocChanResources (some 0), .prepSlaveSg ⟨[⟨0, 1⟩], .memToDev, none, true⟩,
    .txSubmit 0 none ⟨0, true⟩, .issuePending true, .terminateAll haltOk]

/-- A terminate that halts the engine, and a release. -/
theorem outstanding_not_recycled_halted :
    ∃ s segs, exec (withGhost callStep outstanding) (probed true 0 0, [])
      (terminatedRun true ++ [.freeChanResources]) = some (s, segs) ∧ NotRecycled s segs := by
  obtain ⟨⟨s, segs⟩, hs⟩ := Option.isSome_iff_exists.mp
    (show (exec (withGhost callStep outstanding) (probed true 0 0, [])
      (terminatedRun true ++ [.freeChanResources])).isSome by decide +kernel)
  have hrun : Reachable (withGhost callStep outstanding) BatchGuard (probed true 0 0, []) (s, segs) :=
    Reachable.of_exec (by decide +kernel) hs
  exact ⟨s, segs, hs, outstanding_not_recycled hrun⟩

/-- When the halt times out, the first segment of the pool is free while the engine has it. -/
theorem outstanding_recycled :
    ¬ ∀ (s : VxdmaSys .addr32) segs, Reachable (withGhost callStep outstanding) always
      (probed true 0 0, []) (s, segs) → NotRecycled s segs := by
  intro hclaim
  have hrun : (exec (withGhost callStep outstanding) (probed true 0 0, []) (terminatedRun false)).map
      (fun sg => (sg.2, decide (⟨0, 0⟩ ∈ sg.1.chan.freeSegList))) = some ([⟨0, 0⟩], true) := by
    decide +kernel
  obtain ⟨⟨s, segs⟩, hs, hboth⟩ := Option.map_eq_some_iff.mp hrun
  simp only [Prod.mk.injEq, decide_eq_true_eq] at hboth
  have hreach : Reachable (withGhost callStep outstanding) always (probed true 0 0, []) (s, segs) :=
    Reachable.of_exec (Reachable.execOk_of_forall fun _ _ _ => trivial) hs
  exact (hclaim s segs hreach ⟨0, 0⟩ (by simp [hboth.1])).1 hboth.2

end VxdmaSys

end PetalinuxDriver
