import Mathlib.Algebra.Order.Group.Multiset
import Mathlib.Data.List.Perm.Basic
import Mathlib.Tactic.Abel
import PetalinuxDriver.Analysis.Steps

/-!
# Where the segments are

Every segment that was ever handed out by a pool is somewhere: on `free_seg_list`, in a descriptor
on one of the three lists, in a descriptor that the cleanup holds or that a client has not
submitted yet, or with a call in flight. `VxdmaSys.owned` is the multiset of all these places, and
`sectionStep_owned` is its balance over one action: a new pool is gained, and segments are lost in
two places only, a submit that gives up because its reset failed, and the second locked section of
`xilinx_dma_free_chan_resources`.

No segment is ever in two places (`owned_nodup`), whatever the callers do.
-/

set_option autoImplicit false

namespace PetalinuxDriver

open Library

variable {cfg : PhysAddrConfig}

/-! ## The functions of the channel -/

/-- The segments on the lists of the channel. -/
def XilinxDmaChan.owned (s : XilinxDmaChan cfg) : Multiset SegPtr :=
  ↑s.freeSegList + ↑(segsOf s.pendingList) + ↑(segsOf s.activeList) + ↑(segsOf s.doneList)

/-- What a freed descriptor had is owned by the free list again. -/
theorem freeTxDescriptor_owned (s : XilinxDmaChan cfg) (segments : List SegPtr) :
    (xilinxDmaFreeTxDescriptor s segments).owned = s.owned + ↑segments := by
  rw [freeTxDescriptor_eq]
  simp only [XilinxDmaChan.owned, ← Multiset.coe_add]
  abel

/-- Freeing all lists moves segments and loses none. -/
theorem freeDescriptors_owned (s : XilinxDmaChan cfg) :
    (xilinxDmaFreeDescriptors s).owned = s.owned := by
  rw [freeDescriptors_eq]
  simp only [XilinxDmaChan.owned, segsOf_append, segsOf_nil, Multiset.coe_nil,
    ← Multiset.coe_add]
  abel

/-- A start moves descriptors from one list to another. -/
theorem startTransfer_owned (startOk : Bool) (s : XilinxDmaChan cfg) :
    (xilinxDmaStartTransfer startOk s).owned = s.owned := by
  rcases startTransfer_cases startOk s with ⟨-, h⟩ | ⟨-, -, c, w, -, h⟩ | ⟨-, -, c, w, -, h⟩ <;>
    rw [h] <;>
    simp only [XilinxDmaChan.owned, segsOf_append, segsOf_nil, Multiset.coe_nil,
      ← Multiset.coe_add]
  abel

/-- The completion moves descriptors from one list to another. -/
theorem irqComplete_owned (s : XilinxDmaChan cfg) : (irqComplete s).owned = s.owned := by
  rw [irqComplete_eq]
  simp only [XilinxDmaChan.owned, segsOf_append, segsOf_map_completedDesc, segsOf_nil,
    Multiset.coe_nil, ← Multiset.coe_add]
  abel

/-- The acknowledgement moves no segment. -/
theorem irqAck_owned (status : BitVec 32) (s : XilinxDmaChan cfg) :
    (irqAck status s).owned = s.owned := by
  rw [irqAck_eq]
  rfl

/-- A halt moves no segment. -/
theorem halt_owned (haltOk : Bool) (s : XilinxDmaChan cfg) :
    (xilinxDmaHalt haltOk s).owned = s.owned := by
  rw [halt_eq]
  rfl

/-- Leaving the cyclic mode moves no segment. -/
theorem clearCyclic_owned (s : XilinxDmaChan cfg) : (clearCyclic s).owned = s.owned := by
  rw [clearCyclic_eq]
  rfl

/-- The locked section of a submit queues the descriptor, also when it then hits `BUG()`. -/
theorem submitLocked_lists (d : XilinxDmaTxDescriptor cfg) {s : XilinxDmaChan cfg}
    (hbug : s.bug = false) :
    (submitLocked d s).1.freeSegList = s.freeSegList ∧
      (submitLocked d s).1.pendingList =
        s.pendingList ++ [{ d with cookie := nextCookie s }] ∧
      (submitLocked d s).1.activeList = s.activeList ∧
      (submitLocked d s).1.doneList = s.doneList := by
  by_cases h : s.descPendingcount < xilinxDmaCoalesceMax
  · rw [submitLocked_queued d hbug h]
    exact ⟨rfl, rfl, rfl, rfl⟩
  · rw [submitLocked_bug d (by omega)]
    exact ⟨rfl, rfl, rfl, rfl⟩

/-- A submit that is not refused puts the segments of the descriptor into a list. -/
theorem submitLocked_owned (d : XilinxDmaTxDescriptor cfg) {s : XilinxDmaChan cfg}
    (hbug : s.bug = false) : (submitLocked d s).1.owned = s.owned + ↑d.segments := by
  obtain ⟨hfree, hpending, hactive, hdone⟩ := submitLocked_lists d hbug
  simp only [XilinxDmaChan.owned, hfree, hpending, hactive, hdone, segsOf_append, segsOf_cons,
    segsOf_nil, List.append_nil, ← Multiset.coe_add]
  abel

/-- The cleanup moves segments from `done_list` to the pool, up to the descriptor that it then
holds. -/
theorem cleanupLoop_owned (done : List (XilinxDmaTxDescriptor cfg)) (s : XilinxDmaChan cfg)
    (hs : s.doneList = done) :
    (cleanupLoop done s).1.owned + ↑(segsOf (cleanupLoop done s).2.held) = s.owned := by
  obtain ⟨freed, rest, hsplit, -, hcases⟩ := cleanupLoop_cases done s hs
  rw [hsplit] at hs
  rcases hcases with ⟨-, h⟩ | ⟨d, tl, -, -, -, h⟩ | ⟨d, tl, -, -, h⟩ | ⟨d, tl, hrest, -, h⟩
  all_goals
    rw [h]
    simp only [XilinxDmaChan.owned, XilinxDmaChan.emit, CleanupPc.held, hs, segsOf_append,
      segsOf_nil, Multiset.coe_nil, add_zero, ← Multiset.coe_add]
  · abel
  · abel
  · abel
  · simp only [hrest, segsOf_cons, segsOf_nil, List.append_nil, ← Multiset.coe_add]
    abel

/-- What a cleanup takes off `done_list` is free, or in the descriptor that it holds. -/
theorem cleanup_owned (s : XilinxDmaChan cfg) :
    (xilinxDmaChanDescCleanup s).1.owned + ↑(segsOf (xilinxDmaChanDescCleanup s).2.held) =
      s.owned :=
  cleanupLoop_owned s.doneList s rfl

/-- What the rest of a cleanup takes off `done_list` or held is free, or in the descriptor that it
holds. -/
theorem cleanupResume_owned (pc : CleanupPc cfg) (s : XilinxDmaChan cfg) :
    (cleanupResume pc s).1.owned + ↑(segsOf (cleanupResume pc s).2.held) =
      s.owned + ↑(segsOf pc.held) := by
  cases pc with
  | idle => rfl
  | cyclicCallback => rfl
  | callback d =>
    rw [cleanupResume, cleanup_owned, freeTxDescriptor_owned]
    simp [CleanupPc.held]

/-! ## One section of a call -/

/-- The segments that a call in flight has in its hands. -/
def Call.segs : Call cfg → List SegPtr
  | .build _ b => b.segments
  | .buildError b => b.segments
  | .submit d => d.segments
  | .submitRefused d => d.segments
  | .submitErr d => d.segments
  | .submitReset d => d.segments
  | .submitLock d => d.segments
  | _ => []

/-- The segments that are with the call or its client after a section. -/
def After.segs : After cfg → List SegPtr
  | .goesOn c => c.segs
  | .prepared d => d.segments
  | _ => []

/-- The segments that nobody has any more after a section: those of a descriptor that a submit
drops because its reset failed, and those of a free list that is initialised. -/
def Call.lost (env : CallEnv) (s : XilinxDmaChan cfg) : Call cfg → List SegPtr
  | .submitReset d => if env.reset.ok then [] else d.segments
  | .freeChanInit => s.freeSegList
  | _ => []

/-- The balance of one section. -/
theorem VxdmaSys.Section.owned {env : CallEnv} {s t : XilinxDmaChan cfg} {c : Call cfg}
    {after : After cfg} (h : VxdmaSys.Section env s c t after) :
    t.owned + ↑after.segs + ↑(c.lost env s) = s.owned + ↑c.segs := by
  cases h with
  | buildDone b d mem hne hbuilt =>
    simp [Call.lost, Call.segs, After.segs, hbuilt.segments, XilinxDmaChan.owned]
  | buildWild b hnil => simp [Call.lost, Call.segs, After.segs, hnil]
  | buildRound c cs b p ps hfree =>
    simp only [After.segs, Call.segs, Call.lost, XilinxDmaChan.owned, hfree, ← Multiset.coe_add,
      ← Multiset.singleton_add, ← Multiset.cons_coe, Multiset.coe_nil]
    abel
  | buildDry => simp [Call.lost, Call.segs, After.segs]
  | buildError => simp [Call.lost, Call.segs, After.segs, freeTxDescriptor_owned]
  | submitCyclic => simp [Call.lost, Call.segs, After.segs]
  | submitOpen => simp [Call.lost, Call.segs, After.segs]
  | submitRefused => simp [Call.lost, Call.segs, After.segs, freeTxDescriptor_owned]
  | submitBroken => simp [Call.lost, Call.segs, After.segs]
  | submitSound => simp [Call.lost, Call.segs, After.segs]
  | resetOk d w hok => simp [Call.lost, Call.segs, After.segs, XilinxDmaChan.owned, hok]
  | resetFailed d w hok => simp [Call.lost, Call.segs, After.segs, XilinxDmaChan.owned, hok]
  | queued d =>
    simp only [Call.lost, Call.segs, After.segs, XilinxDmaChan.owned, segsOf_append, segsOf_cons,
      segsOf_nil, List.append_nil, Multiset.coe_nil, ← Multiset.coe_add]
    abel
  | queuedBug d =>
    simp only [Call.lost, Call.segs, After.segs, XilinxDmaChan.owned, segsOf_append, segsOf_cons,
      segsOf_nil, List.append_nil, Multiset.coe_nil, ← Multiset.coe_add]
    abel
  | issue => simp [Call.lost, Call.segs, After.segs, startTransfer_owned]
  | irqNone => simp [Call.lost, Call.segs, After.segs]
  | irqIoc => simp [Call.lost, Call.segs, After.segs, irqAck_owned]
  | irqOther => simp [Call.lost, Call.segs, After.segs, irqAck_owned]
  | irqLock =>
    simp [Call.lost, Call.segs, After.segs, startTransfer_owned, irqComplete_owned]
  | irqSchedule => simp [Call.lost, Call.segs, After.segs, taskletSchedule, XilinxDmaChan.owned]
  | terminate => simp [Call.lost, Call.segs, After.segs, halt_owned]
  | terminateFree => simp [Call.lost, Call.segs, After.segs, freeDescriptors_owned]
  | terminateCyclic => simp [Call.lost, Call.segs, After.segs]
  | terminateDone => simp [Call.lost, Call.segs, After.segs]
  | terminateClear => simp [Call.lost, Call.segs, After.segs, clearCyclic_owned]
  | freeChan => simp [Call.lost, Call.segs, After.segs, freeDescriptors_owned]
  | freeChanInit =>
    simp only [Call.lost, Call.segs, After.segs, initFreeSegList, XilinxDmaChan.owned,
      Multiset.coe_nil]
    abel
  | freeChanCoherent =>
    simp [Call.lost, Call.segs, After.segs, dmaFreeCoherent, XilinxDmaChan.owned]

/-! ## What only an allocation changes -/

/-- The parts of the channel that no function writes but `xilinx_dma_alloc_chan_resources` and,
at its end, `xilinx_dma_free_chan_resources`: the properties set by the probe, the pool, the number
of the next pool, and all addresses. -/
structure SamePool (s s' : XilinxDmaChan cfg) : Prop where
  ctrlOffset : s'.ctrlOffset = s.ctrlOffset
  hasSg : s'.hasSg = s.hasSg
  segV : s'.segV = s.segV
  segP : s'.segP = s.segP
  pools : s'.pools = s.pools
  phys : ∀ p, (s'.mem p).phys = (s.mem p).phys

namespace SamePool

/-- A channel has the pool that it has. -/
theorem refl (s : XilinxDmaChan cfg) : SamePool s s := ⟨rfl, rfl, rfl, rfl, rfl, fun _ => rfl⟩

/-- The pool stays the same over two steps. -/
theorem trans {s₁ s₂ s₃ : XilinxDmaChan cfg} (h : SamePool s₁ s₂) (h' : SamePool s₂ s₃) :
    SamePool s₁ s₃ :=
  ⟨h'.ctrlOffset.trans h.ctrlOffset, h'.hasSg.trans h.hasSg, h'.segV.trans h.segV,
    h'.segP.trans h.segP, h'.pools.trans h.pools, fun p => (h'.phys p).trans (h.phys p)⟩

end SamePool

/-- Wiping leaves a segment its address. -/
theorem cleanSegs_phys (ps : List SegPtr) (mem : SegPtr → XilinxDmaTxSegment cfg) (p : SegPtr) :
    (cleanSegs ps mem p).phys = (mem p).phys :=
  (cleanSegs_linksKept ps mem p).1

/-- A freed descriptor leaves the pool. -/
theorem freeTxDescriptor_samePool (s : XilinxDmaChan cfg) (segments : List SegPtr) :
    SamePool s (xilinxDmaFreeTxDescriptor s segments) := by
  rw [freeTxDescriptor_eq]
  exact ⟨rfl, rfl, rfl, rfl, rfl, cleanSegs_phys _ _⟩

/-- Freed lists leave the pool. -/
theorem freeDescriptors_samePool (s : XilinxDmaChan cfg) :
    SamePool s (xilinxDmaFreeDescriptors s) := by
  rw [freeDescriptors_eq]
  exact ⟨rfl, rfl, rfl, rfl, rfl, cleanSegs_phys _ _⟩

/-- A write to a hardware descriptor leaves the pool. -/
theorem setHw_samePool (s : XilinxDmaChan cfg) (p : SegPtr) (hw : XilinxDmaDescHw) :
    SamePool s (s.setHw p hw) := by
  refine ⟨rfl, rfl, rfl, rfl, rfl, fun q => ?_⟩
  by_cases hq : q = p
  · subst hq
    simp [XilinxDmaChan.setHw]
  · simp [XilinxDmaChan.setHw, Function.update_of_ne hq]

/-- A start leaves the pool. -/
theorem startTransfer_samePool (startOk : Bool) (s : XilinxDmaChan cfg) :
    SamePool s (xilinxDmaStartTransfer startOk s) := by
  rcases startTransfer_cases startOk s with ⟨-, h⟩ | ⟨-, -, c, w, -, h⟩ | ⟨-, -, c, w, -, h⟩ <;>
    rw [h] <;> exact ⟨rfl, rfl, rfl, rfl, rfl, fun _ => rfl⟩

/-- Scheduling the tasklet leaves the pool. -/
theorem taskletSchedule_samePool (s : XilinxDmaChan cfg) : SamePool s (taskletSchedule s) :=
  ⟨rfl, rfl, rfl, rfl, rfl, fun _ => rfl⟩

/-- The completion leaves the pool. -/
theorem irqComplete_samePool (s : XilinxDmaChan cfg) : SamePool s (irqComplete s) := by
  rw [irqComplete_eq]
  exact ⟨rfl, rfl, rfl, rfl, rfl, fun _ => rfl⟩

/-- The acknowledgement leaves the pool. -/
theorem irqAck_samePool (status : BitVec 32) (s : XilinxDmaChan cfg) :
    SamePool s (irqAck status s) := by
  rw [irqAck_eq]
  exact ⟨rfl, rfl, rfl, rfl, rfl, fun _ => rfl⟩

/-- A halt leaves the pool. -/
theorem halt_samePool (haltOk : Bool) (s : XilinxDmaChan cfg) :
    SamePool s (xilinxDmaHalt haltOk s) := by
  rw [halt_eq]
  exact ⟨rfl, rfl, rfl, rfl, rfl, fun _ => rfl⟩

/-- Leaving the cyclic mode leaves the pool. -/
theorem clearCyclic_samePool (s : XilinxDmaChan cfg) : SamePool s (clearCyclic s) := by
  rw [clearCyclic_eq]
  exact ⟨rfl, rfl, rfl, rfl, rfl, fun _ => rfl⟩

/-- A submit leaves the pool. -/
theorem submitLocked_samePool (d : XilinxDmaTxDescriptor cfg) {s : XilinxDmaChan cfg}
    (hbug : s.bug = false) : SamePool s (submitLocked d s).1 := by
  by_cases h : s.descPendingcount < xilinxDmaCoalesceMax
  · rw [submitLocked_queued d hbug h]
    exact ⟨rfl, rfl, rfl, rfl, rfl, linkTail_phys _ _ _⟩
  · rw [submitLocked_bug d (by omega)]
    exact ⟨rfl, rfl, rfl, rfl, rfl, linkTail_phys _ _ _⟩

/-- A cleanup leaves the pool. -/
theorem cleanup_samePool (s : XilinxDmaChan cfg) : SamePool s (xilinxDmaChanDescCleanup s).1 := by
  obtain ⟨freed, rest, -, -, hcases⟩ := cleanupLoop_cases s.doneList s rfl
  unfold xilinxDmaChanDescCleanup
  rcases hcases with ⟨-, h⟩ | ⟨d, tl, -, -, -, h⟩ | ⟨d, tl, -, -, h⟩ | ⟨d, tl, -, -, h⟩ <;>
    rw [h] <;> exact ⟨rfl, rfl, rfl, rfl, rfl, cleanSegs_phys _ _⟩

/-- The rest of a cleanup leaves the pool. -/
theorem cleanupResume_samePool (pc : CleanupPc cfg) (s : XilinxDmaChan cfg) :
    SamePool s (cleanupResume pc s).1 := by
  cases pc with
  | idle => exact SamePool.refl s
  | cyclicCallback => exact SamePool.refl s
  | callback d => exact (freeTxDescriptor_samePool s d.segments).trans (cleanup_samePool _)

/-- No section of a call but the last one of a release changes these parts. -/
theorem VxdmaSys.Section.samePool {env : CallEnv} {s t : XilinxDmaChan cfg} {c : Call cfg}
    {after : After cfg} (h : VxdmaSys.Section env s c t after) (hc : c ≠ .freeChanCoherent) :
    SamePool s t := by
  have hkept : ∀ mem : SegPtr → XilinxDmaTxSegment cfg, LinksKept s.mem mem →
      ∀ p, (mem p).phys = (s.mem p).phys := fun mem hmem p => (hmem p).1
  cases h with
  | buildDone b d mem hne hbuilt hmem => exact ⟨rfl, rfl, rfl, rfl, rfl, hkept mem hmem.1⟩
  | buildRound c cs b p ps =>
    have hmem := wordsChanged_update s.mem p (fillHwDesc b.app c (s.mem p).hw) (by simp) (by simp)
    exact ⟨rfl, rfl, rfl, rfl, rfl, hkept _ hmem.1⟩
  | buildError => exact freeTxDescriptor_samePool _ _
  | submitRefused => exact freeTxDescriptor_samePool _ _
  | queued => exact ⟨rfl, rfl, rfl, rfl, rfl, linkTail_phys _ _ _⟩
  | queuedBug => exact ⟨rfl, rfl, rfl, rfl, rfl, linkTail_phys _ _ _⟩
  | issue => exact startTransfer_samePool _ _
  | irqIoc => exact irqAck_samePool _ _
  | irqOther => exact irqAck_samePool _ _
  | irqLock => exact (irqComplete_samePool s).trans (startTransfer_samePool _ _)
  | terminate => exact halt_samePool _ _
  | terminateFree => exact freeDescriptors_samePool _
  | terminateClear => exact clearCyclic_samePool _
  | freeChan => exact freeDescriptors_samePool _
  | freeChanCoherent => exact absurd rfl hc
  | _ => exact ⟨rfl, rfl, rfl, rfl, rfl, fun _ => rfl⟩

/-! ## One action -/

/-- What the tasklet holds is what its cleanup holds. -/
theorem VxdmaSys.held_eq (s : VxdmaSys cfg) : s.held = s.cleanup.held := by
  cases h : s.cleanup <;> simp [VxdmaSys.held, CleanupPc.held, h]

/-- All segments, wherever they are. -/
def VxdmaSys.owned (s : VxdmaSys cfg) : Multiset SegPtr :=
  s.chan.owned + ↑(segsOf s.prepared) + ↑(segsOf s.held) + ↑(s.calls.flatMap Call.segs)

/-- Taking an element out of a list takes its part out of a `flatMap`. -/
theorem coe_flatMap_eraseIdx {α β : Type} {l : List α} {i : Nat} {a : α} (f : α → List β)
    (h : l[i]? = some a) :
    (↑(l.flatMap f) : Multiset β) = ↑(f a) + ↑((l.eraseIdx i).flatMap f) := by
  obtain ⟨hi, rfl⟩ := List.getElem?_eq_some_iff.mp h
  rw [Multiset.coe_add, Multiset.coe_eq_coe, ← List.flatMap_cons]
  exact (List.getElem_cons_eraseIdx_perm hi).symm.flatMap_right f

namespace VxdmaSys

/-- The segments that an action loses. -/
def lost (s : VxdmaSys cfg) : Act cfg → Multiset SegPtr
  | .run i env =>
    match s.calls[i]? with
    | some c => ↑(c.lost env s.chan)
    | none => 0
  | _ => 0

/-- The segments that an action gains. -/
def gained (s : VxdmaSys cfg) : Act cfg → Multiset SegPtr
  | .allocChanResources (some _) => ↑(poolSegs s.chan.pools)
  | _ => 0

/-- The end of a section hands on what the section owned. -/
theorem leave_owned {s s' : VxdmaSys cfg} {chan : XilinxDmaChan cfg} {after : After cfg}
    (h : s.leave chan after = some s') :
    s'.owned + s.chan.owned = s.owned + chan.owned + ↑after.segs := by
  have hafter : (↑after.segs : Multiset SegPtr) =
      ↑(segsOf after.kept) + ↑(after.calls.flatMap Call.segs) := by
    cases after <;> simp [After.segs, After.kept, After.calls]
  rw [leave_eq h, hafter]
  simp only [owned, held_eq, segsOf_append, List.flatMap_append, ← Multiset.coe_add]
  abel

/-- When the cleanup moves on, what it held and what the channel owned are shared out anew. -/
theorem owned_cleanup {s : VxdmaSys cfg} {chan : XilinxDmaChan cfg} {pc : CleanupPc cfg}
    (h : chan.owned + ↑(segsOf pc.held) = s.chan.owned + ↑(segsOf s.cleanup.held)) :
    ({ s with chan := chan, cleanup := pc } : VxdmaSys cfg).owned = s.owned := by
  simp only [owned, held_eq]
  rw [add_right_comm chan.owned, h]
  abel

/-- An allocation adds the segments of the new pool. -/
theorem allocChanResources_owned (zalloc : Option (DmaAddr cfg)) (s : VxdmaSys cfg) :
    ({ s with chan := (xilinxDmaAllocChanResources zalloc s.chan).1 } : VxdmaSys cfg).owned =
      s.owned + s.gained (.allocChanResources zalloc) := by
  cases zalloc with
  | none => simp [xilinxDmaAllocChanResources, gained, owned, held_eq, XilinxDmaChan.owned]
  | some segP =>
    simp only [xilinxDmaAllocChanResources, gained, owned, held_eq, XilinxDmaChan.owned,
      XilinxDmaChan.dmaCtrlWrite, XilinxDmaChan.emit, ← Multiset.coe_add]
    abel

/-- A call that enters brings its segments. -/
theorem enter_owned (s : VxdmaSys cfg) (c : Call cfg) :
    (s.enter c).owned = s.owned + ↑c.segs := by
  simp only [owned, held_eq, enter, List.flatMap_cons, ← Multiset.coe_add]
  abel

/-- An action of a builder that returns at once, or that enters its loops empty-handed. -/
theorem gained_of_entry {s : VxdmaSys cfg} {a : Act cfg} {e : PrepEntry cfg}
    (h : a.entry s.chan = some e) : s.gained a = 0 ∧ s.lost a = 0 := by
  cases a <;> cases h <;> exact ⟨rfl, rfl⟩

/-- **The balance of one action.** -/
theorem sectionStep_owned {s s' : VxdmaSys cfg} {a : Act cfg} (h : s.sectionStep a = some s') :
    s'.owned + s.lost a = s.owned + s.gained a := by
  obtain ⟨hbug, h⟩ := sectionStep_inv h
  cases h with
  | prepNull _ he => rw [(gained_of_entry he).1, (gained_of_entry he).2]
  | prepBuild _ chunks b he =>
    rw [(gained_of_entry he).1, (gained_of_entry he).2, enter_owned]
    simp only [Call.segs, (Act.entry_fresh he).1, Multiset.coe_nil, add_zero]
    rfl
  | txSubmit i callback d hd =>
    have hbal : (↑(segsOf s.prepared) : Multiset SegPtr) =
        ↑d.segments + ↑(segsOf (s.prepared.eraseIdx i)) :=
      coe_flatMap_eraseIdx (fun d : XilinxDmaTxDescriptor cfg => d.segments) hd
    rw [enter_owned]
    simp only [lost, gained, owned, held_eq, Call.segs, hbal, add_zero]
    abel
  | issuePending => simp [lost, gained, enter_owned, Call.segs]
  | interrupt => simp [lost, gained, enter_owned, Call.segs]
  | terminateAll => simp [lost, gained, enter_owned, Call.segs]
  | freeChanResources => simp [lost, gained, enter_owned, Call.segs]
  | allocChanResources zalloc => simp [lost, allocChanResources_owned]
  | run i env c s' hc hleave =>
    have hsection := leave_owned hleave
    have hrun := (run_inv env hbug c).owned
    have hcalls : s.owned =
        ({ s with calls := s.calls.eraseIdx i } : VxdmaSys cfg).owned + ↑c.segs := by
      simp only [owned, held_eq, coe_flatMap_eraseIdx Call.segs hc]
      abel
    simp only [lost, gained, hc, add_zero]
    refine add_right_cancel (b := s.chan.owned) ?_
    calc s'.owned + ↑(c.lost env s.chan) + s.chan.owned
        = s'.owned + s.chan.owned + ↑(c.lost env s.chan) := by abel
      _ = ({ s with calls := s.calls.eraseIdx i } : VxdmaSys cfg).owned +
            ((c.run env s.chan).1.owned + ↑(c.run env s.chan).2.segs +
              ↑(c.lost env s.chan)) := by
          rw [hsection]
          abel
      _ = s.owned + s.chan.owned := by
          rw [hrun, hcalls]
          abel
  | tasklet hidle =>
    have hbal : ({ s.chan with tasklet := false } : XilinxDmaChan cfg).owned =
        s.chan.owned + ↑(segsOf s.cleanup.held) := by
      simp [hidle, CleanupPc.held, XilinxDmaChan.owned]
    simp [lost, gained, owned_cleanup ((cleanup_owned _).trans hbal)]
  | callbackReturn => simp [lost, gained, owned_cleanup (cleanupResume_owned _ _)]
  | device p status app =>
    simp [lost, gained, owned, held_eq, XilinxDmaChan.owned, XilinxDmaChan.setHw]

/-- An action allocates a pool, gives the pool up, or leaves it alone. -/
theorem sectionStep_pool {s s' : VxdmaSys cfg} {a : Act cfg} (h : s.sectionStep a = some s') :
    (∃ zalloc, a = .allocChanResources zalloc) ∨
    (∃ i env, a = .run i env ∧ s.calls[i]? = some .freeChanCoherent ∧
      s'.chan = dmaFreeCoherent s.chan) ∨
    SamePool s.chan s'.chan := by
  obtain ⟨hbug, h⟩ := sectionStep_inv h
  cases h with
  | allocChanResources zalloc => exact Or.inl ⟨zalloc, rfl⟩
  | run i env c s' hc hleave =>
    right
    by_cases hrel : c = .freeChanCoherent
    · subst hrel
      exact Or.inl ⟨i, env, rfl, hc, leave_chan hleave⟩
    · rw [leave_chan hleave]
      exact Or.inr ((run_inv env hbug c).samePool hrel)
  | prepNull => exact Or.inr (Or.inr (SamePool.refl _))
  | prepBuild => exact Or.inr (Or.inr ⟨rfl, rfl, rfl, rfl, rfl, fun _ => rfl⟩)
  | txSubmit => exact Or.inr (Or.inr (SamePool.refl _))
  | issuePending => exact Or.inr (Or.inr (SamePool.refl _))
  | interrupt => exact Or.inr (Or.inr (SamePool.refl _))
  | terminateAll => exact Or.inr (Or.inr (SamePool.refl _))
  | freeChanResources => exact Or.inr (Or.inr (SamePool.refl _))
  | tasklet =>
    have hflag : SamePool s.chan { s.chan with tasklet := false } :=
      ⟨rfl, rfl, rfl, rfl, rfl, fun _ => rfl⟩
    exact Or.inr (Or.inr (hflag.trans (cleanup_samePool _)))
  | callbackReturn => exact Or.inr (Or.inr (cleanupResume_samePool _ _))
  | device => exact Or.inr (Or.inr (setHw_samePool _ _ _))

/-- What an action gains is nothing, or a pool under the next number. -/
theorem sectionStep_gained {s s' : VxdmaSys cfg} {a : Act cfg} (h : s.sectionStep a = some s') :
    (s.gained a = 0 ∧ s'.chan.pools = s.chan.pools) ∨
      (s.gained a = ↑(poolSegs s.chan.pools) ∧ s'.chan.pools = s.chan.pools + 1) := by
  have hother : (∀ zalloc, a ≠ .allocChanResources zalloc) → s.gained a = 0 := fun ha => by
    cases a with
    | allocChanResources zalloc => exact absurd rfl (ha zalloc)
    | _ => rfl
  by_cases ha : ∀ zalloc, a ≠ .allocChanResources zalloc
  · refine Or.inl ⟨hother ha, ?_⟩
    rcases sectionStep_pool h with ⟨zalloc, rfl⟩ | ⟨i, env, -, -, hchan⟩ | hpool
    · exact absurd rfl (ha zalloc)
    · rw [hchan]
      rfl
    · exact hpool.pools
  · push Not at ha
    obtain ⟨zalloc, rfl⟩ := ha
    rw [(sectionStep_allocChanResources h).2]
    cases zalloc with
    | none => exact Or.inl ⟨rfl, rfl⟩
    | some segP => exact Or.inr ⟨rfl, rfl⟩

/-! ## One action of the machine of whole calls -/

/-- The segments that an action gains. -/
def opGained (s : VxdmaSys cfg) : Op cfg → Multiset SegPtr
  | .allocChanResources (some _) => ↑(poolSegs s.chan.pools)
  | _ => 0

/-- A prepared descriptor that is taken takes its segments along. -/
theorem eraseIdx_owned {s : VxdmaSys cfg} {i : Nat} {d : XilinxDmaTxDescriptor cfg}
    (hd : s.prepared[i]? = some d) (chan : XilinxDmaChan cfg) :
    ({ s with chan := chan, prepared := s.prepared.eraseIdx i } : VxdmaSys cfg).owned +
      ↑d.segments + s.chan.owned = s.owned + chan.owned := by
  have hbal : (↑(segsOf s.prepared) : Multiset SegPtr) =
      ↑d.segments + ↑(segsOf (s.prepared.eraseIdx i)) :=
    coe_flatMap_eraseIdx (fun d : XilinxDmaTxDescriptor cfg => d.segments) hd
  simp only [owned, held_eq, hbal]
  abel

/-- A step that only replaces the channel, by one with the same segments, keeps the balance. -/
theorem setChan_owned {s : VxdmaSys cfg} {chan : XilinxDmaChan cfg}
    (h : chan.owned = s.chan.owned) : ({ s with chan := chan } : VxdmaSys cfg).owned = s.owned := by
  simp only [owned, held_eq, h]

/-- Scheduling the tasklet moves nothing. -/
theorem taskletSchedule_owned (s : XilinxDmaChan cfg) : (taskletSchedule s).owned = s.owned := rfl

/-- A reset moves no segment. -/
theorem resetFor_owned (s : XilinxDmaChan cfg) (c : BitVec 32) (w : List Event) :
    (resetFor s c w).owned = s.owned := rfl

/-- A release drops the free list, and with it all segments that were on the lists. -/
theorem freeChanResources_owned (s : XilinxDmaChan cfg) :
    (xilinxDmaFreeChanResources s).owned = 0 := by
  unfold xilinxDmaFreeChanResources
  rw [freeDescriptors_eq]
  rfl

/-- A terminate moves segments to the free list and loses none. -/
theorem terminateAll_owned (haltOk : Bool) (s : XilinxDmaChan cfg) :
    (xilinxDmaTerminateAll haltOk s).owned = s.owned := by
  unfold xilinxDmaTerminateAll
  simp only
  split
  · rw [clearCyclic_owned, freeDescriptors_owned, halt_owned]
  · rw [freeDescriptors_owned, halt_owned]

/-- An action of whole calls gains a pool or nothing. -/
theorem callStep_owned {s s' : VxdmaSys cfg} {op : Op cfg} (h : s.callStep op = some s') :
    s'.owned ≤ s.owned + s.opGained op := by
  obtain ⟨hbug, hstep⟩ := callStep_inv h
  have hkept : ∀ {chan : XilinxDmaChan cfg}, chan.owned = s.chan.owned →
      ({ s with chan := chan } : VxdmaSys cfg).owned ≤ s.owned + s.opGained op := fun hchan => by
    rw [setChan_owned hchan]
    exact Multiset.le_add_right _ _
  cases hstep with
  | prepNull => exact hkept rfl
  | prepDesc _ chunks b d mem _ hbuilt =>
    refine le_trans (le_of_eq ?_) (Multiset.le_add_right _ _)
    have hsplit : (↑s.chan.freeSegList : Multiset SegPtr) =
        ↑d.segments + ↑(s.chan.freeSegList.drop chunks.length) := by
      rw [hbuilt.segments, Multiset.coe_add, List.take_append_drop]
    simp only [owned, held_eq, XilinxDmaChan.owned, hsplit, segsOf_append, segsOf_cons, segsOf_nil,
      List.append_nil, ← Multiset.coe_add]
    abel
  | submitRefused i callback env d hd =>
    refine le_trans (le_of_eq ?_) (Multiset.le_add_right _ _)
    have hbal := eraseIdx_owned hd (xilinxDmaFreeTxDescriptor s.chan d.segments)
    rw [freeTxDescriptor_owned, freeTxDescriptor_eq] at hbal
    refine add_right_cancel (b := ↑d.segments + s.chan.owned) ?_
    rw [← add_assoc, hbal]
    abel
  | submitFailed i callback env d w hd =>
    refine le_trans ?_ (Multiset.le_add_right _ _)
    have hbal := eraseIdx_owned hd { s.chan with ctrlReg := env.dmacr, log := s.chan.log ++ w }
    refine le_trans (Multiset.le_add_right _ ↑d.segments) (le_of_eq ?_)
    exact add_right_cancel hbal
  | submitQueue i callback env d c w hd =>
    refine le_trans (le_of_eq ?_) (Multiset.le_add_right _ _)
    have hbal := eraseIdx_owned hd
      (submitLocked { d with callback := callback } (resetFor s.chan c w)).1
    rw [submitLocked_owned _ (s := resetFor s.chan c w) hbug, resetFor_owned] at hbal
    refine add_right_cancel (b := ↑d.segments + s.chan.owned) ?_
    rw [← add_assoc, hbal]
    abel
  | issuePending startOk => exact hkept (startTransfer_owned _ _)
  | irqNone => exact hkept rfl
  | irqOther => exact hkept ((taskletSchedule_owned _).trans (irqAck_owned _ _))
  | irqIoc =>
    refine hkept ((taskletSchedule_owned _).trans ?_)
    rw [startTransfer_owned, irqComplete_owned, irqAck_owned]
  | terminateAll haltOk => exact hkept (terminateAll_owned _ _)
  | freeChanResources =>
    refine le_trans ?_ (Multiset.le_add_right _ _)
    simp only [owned, held_eq, freeChanResources_owned, zero_add, add_assoc]
    exact Multiset.le_add_left _ _
  | allocChanResources zalloc =>
    exact le_of_eq (by cases zalloc <;> exact allocChanResources_owned _ _)
  | tasklet hidle =>
    refine le_trans (le_of_eq (owned_cleanup ((cleanup_owned _).trans ?_)))
      (Multiset.le_add_right _ _)
    simp [hidle, CleanupPc.held, XilinxDmaChan.owned]
  | callbackReturn =>
    exact le_trans (le_of_eq (owned_cleanup (cleanupResume_owned _ _)))
      (Multiset.le_add_right _ _)
  | device => exact hkept rfl

/-- A terminate leaves the pool. -/
theorem terminateAll_samePool (haltOk : Bool) (s : XilinxDmaChan cfg) :
    SamePool s (xilinxDmaTerminateAll haltOk s) := by
  have hfree := (halt_samePool haltOk s).trans (freeDescriptors_samePool _)
  unfold xilinxDmaTerminateAll
  simp only
  split
  · exact hfree.trans (clearCyclic_samePool _)
  · exact hfree

/-- An action of whole calls allocates a pool, releases it, or leaves it alone. -/
theorem callStep_pool {s s' : VxdmaSys cfg} {op : Op cfg} (h : s.callStep op = some s') :
    (∃ zalloc, op = .allocChanResources zalloc) ∨
    (op = .freeChanResources ∧ s'.chan.segV = none ∧
      SamePool { s.chan with segV := none } s'.chan) ∨
    SamePool s.chan s'.chan := by
  obtain ⟨hbug, hstep⟩ := callStep_inv h
  cases hstep with
  | allocChanResources zalloc => exact Or.inl ⟨zalloc, rfl⟩
  | freeChanResources =>
    have hfree := freeDescriptors_samePool s.chan
    exact Or.inr (Or.inl ⟨rfl, rfl,
      ⟨hfree.ctrlOffset, hfree.hasSg, rfl, hfree.segP, hfree.pools, hfree.phys⟩⟩)
  | prepNull _ k mem _ _ hmem =>
    exact Or.inr (Or.inr ⟨rfl, rfl, rfl, rfl, rfl, fun p => (hmem.1 p).1⟩)
  | prepDesc _ chunks b d mem _ hbuilt =>
    exact Or.inr (Or.inr ⟨rfl, rfl, rfl, rfl, rfl, fun p => (hbuilt.words.1 p).1⟩)
  | submitRefused i callback env d =>
    exact Or.inr (Or.inr ⟨rfl, rfl, rfl, rfl, rfl, cleanSegs_phys _ _⟩)
  | submitFailed => exact Or.inr (Or.inr ⟨rfl, rfl, rfl, rfl, rfl, fun _ => rfl⟩)
  | submitQueue i callback env d c w =>
    have hreset : SamePool s.chan (resetFor s.chan c w) := ⟨rfl, rfl, rfl, rfl, rfl, fun _ => rfl⟩
    exact Or.inr (Or.inr (hreset.trans (submitLocked_samePool _ hbug)))
  | issuePending => exact Or.inr (Or.inr (startTransfer_samePool _ _))
  | irqNone => exact Or.inr (Or.inr (SamePool.refl _))
  | irqOther => exact Or.inr (Or.inr ((irqAck_samePool _ _).trans (taskletSchedule_samePool _)))
  | irqIoc =>
    exact Or.inr (Or.inr ((((irqAck_samePool _ _).trans (irqComplete_samePool _)).trans
      (startTransfer_samePool _ _)).trans (taskletSchedule_samePool _)))
  | terminateAll => exact Or.inr (Or.inr (terminateAll_samePool _ _))
  | tasklet =>
    have hflag : SamePool s.chan { s.chan with tasklet := false } :=
      ⟨rfl, rfl, rfl, rfl, rfl, fun _ => rfl⟩
    exact Or.inr (Or.inr (hflag.trans (cleanup_samePool _)))
  | callbackReturn => exact Or.inr (Or.inr (cleanupResume_samePool _ _))
  | device => exact Or.inr (Or.inr (setHw_samePool _ _ _))

/-- No call changes how the channel was configured. -/
theorem callStep_hasSg {s s' : VxdmaSys cfg} {op : Op cfg} (h : s.callStep op = some s') :
    s'.chan.hasSg = s.chan.hasSg := by
  rcases callStep_pool h with ⟨zalloc, rfl⟩ | ⟨-, -, hpool⟩ | hpool
  · rw [callStep_allocChanResources h]
    cases zalloc <;> rfl
  · exact hpool.hasSg
  · exact hpool.hasSg

/-- What an action of whole calls gains is nothing, or a pool under the next number. -/
theorem callStep_gained {s s' : VxdmaSys cfg} {op : Op cfg} (h : s.callStep op = some s') :
    (s.opGained op = 0 ∧ s'.chan.pools = s.chan.pools) ∨
      (s.opGained op = ↑(poolSegs s.chan.pools) ∧ s'.chan.pools = s.chan.pools + 1) := by
  have hother : (∀ zalloc, op ≠ .allocChanResources zalloc) → s.opGained op = 0 := fun hop => by
    cases op with
    | allocChanResources zalloc => exact absurd rfl (hop zalloc)
    | _ => rfl
  by_cases hop : ∀ zalloc, op ≠ .allocChanResources zalloc
  · refine Or.inl ⟨hother hop, ?_⟩
    rcases callStep_pool h with ⟨zalloc, rfl⟩ | ⟨-, -, hpool⟩ | hpool
    · exact absurd rfl (hop zalloc)
    · exact hpool.pools
    · exact hpool.pools
  · push Not at hop
    obtain ⟨zalloc, rfl⟩ := hop
    cases (callStep_inv h).2 with
    | allocChanResources =>
      cases zalloc with
      | none => exact Or.inl ⟨rfl, rfl⟩
      | some segP => exact Or.inr ⟨rfl, rfl⟩
    | prepNull _ _ _ he => cases he
    | prepDesc _ _ _ _ _ he => cases he

/-! ## No segment is in two places -/

/-- No segment is in two places, and every segment comes from a pool that was allocated. -/
structure OwnedOnce (s : VxdmaSys cfg) : Prop where
  nodup : s.owned.Nodup
  allocated : ∀ p ∈ s.owned, p.pool < s.chan.pools

/-- The segments of a pool are different ones. -/
theorem poolSegs_nodup (pool : Nat) : (poolSegs pool).Nodup :=
  (List.nodup_finRange _).map fun _ _ h => (SegPtr.mk.inj h).2

/-- The segments of a pool are all those with its number. -/
theorem mem_poolSegs {pool : Nat} {p : SegPtr} : p ∈ poolSegs pool ↔ p.pool = pool := by
  simp only [poolSegs, List.mem_map, List.mem_finRange, true_and]
  constructor
  · rintro ⟨i, rfl⟩
    rfl
  · rintro rfl
    exact ⟨p.index, rfl⟩

/-- Different segments of one pool are no more than the pool has. -/
theorem segments_length_le {ps : List SegPtr} {pool : Nat} (hnodup : ps.Nodup)
    (hpool : ∀ p ∈ ps, p.pool = pool) : ps.length ≤ xilinxDmaNumDescs := by
  have hsub : ps ⊆ poolSegs pool := fun p hp => mem_poolSegs.mpr (hpool p hp)
  calc ps.length ≤ (poolSegs pool).length := (hnodup.subperm hsub).length_le
    _ = xilinxDmaNumDescs := by simp [poolSegs]

/-- **The pool bounds the queues.** Descriptors with different segments of one pool, at least one
each, are no more than the pool has segments. -/
theorem length_le_of_pool {ds : List (XilinxDmaTxDescriptor cfg)} {pool : Nat}
    (hnodup : (segsOf ds).Nodup) (hpool : ∀ p ∈ segsOf ds, p.pool = pool) :
    ds.length ≤ xilinxDmaNumDescs :=
  (length_le_length_segsOf ds).trans (segments_length_le hnodup hpool)

/-- After the probe there are no segments to own. -/
theorem probed_ownedOnce (hasSg : Bool) (ctrlOffset : Nat) (dmacr : BitVec 32) :
    OwnedOnce (probed hasSg ctrlOffset dmacr : VxdmaSys cfg) := by
  have h : (probed hasSg ctrlOffset dmacr : VxdmaSys cfg).owned = 0 := rfl
  exact ⟨by simp [h], by simp [h]⟩

/-- A balance that gains nothing, or a pool under a new number, keeps the segments apart. -/
theorem OwnedOnce.of_le {s s' : VxdmaSys cfg} {new : Multiset SegPtr} (hs : OwnedOnce s)
    (hle : s'.owned ≤ s.owned + new)
    (hnew : (new = 0 ∧ s'.chan.pools = s.chan.pools) ∨
      (new = ↑(poolSegs s.chan.pools) ∧ s'.chan.pools = s.chan.pools + 1)) : OwnedOnce s' := by
  rcases hnew with ⟨rfl, hpools⟩ | ⟨rfl, hpools⟩
  · rw [add_zero] at hle
    refine ⟨Multiset.nodup_of_le hle hs.nodup, fun p hp => ?_⟩
    rw [hpools]
    exact hs.allocated p (Multiset.mem_of_le hle hp)
  · -- the new pool has a number that no segment has yet
    have hdisj : Disjoint s.owned (↑(poolSegs s.chan.pools) : Multiset SegPtr) := by
      rw [Multiset.disjoint_left]
      intro p hp hpool
      have hlt := hs.allocated p hp
      have heq := mem_poolSegs.mp (Multiset.mem_coe.mp hpool)
      omega
    have hnodup : (s.owned + ↑(poolSegs s.chan.pools)).Nodup :=
      Multiset.nodup_add.mpr ⟨hs.nodup, poolSegs_nodup _, hdisj⟩
    refine ⟨Multiset.nodup_of_le hle hnodup, fun p hp => ?_⟩
    rw [hpools]
    rcases Multiset.mem_add.mp (Multiset.mem_of_le hle hp) with hp | hp
    · have hlt := hs.allocated p hp
      omega
    · have heq := mem_poolSegs.mp (Multiset.mem_coe.mp hp)
      omega

/-- One action keeps the segments apart. -/
theorem sectionStep_ownedOnce {s s' : VxdmaSys cfg} {a : Act cfg} (hs : OwnedOnce s)
    (h : s.sectionStep a = some s') : OwnedOnce s' :=
  hs.of_le (sectionStep_owned h ▸ Multiset.le_add_right _ _) (sectionStep_gained h)

/-- Whole calls keep every segment with one owner. -/
theorem callStep_ownedOnce {s s' : VxdmaSys cfg} {op : Op cfg} (hs : OwnedOnce s)
    (h : s.callStep op = some s') : OwnedOnce s' :=
  hs.of_le (callStep_owned h) (callStep_gained h)

/-- **No segment is in two places**, in any state that any use of the driver reaches. -/
theorem owned_nodup {hasSg : Bool} {ctrlOffset : Nat} {dmacr : BitVec 32} {s : VxdmaSys cfg}
    (h : Reachable sectionStep always (probed hasSg ctrlOffset dmacr) s) : OwnedOnce s :=
  h.invariant (probed_ownedOnce _ _ _) fun _ _ _ hs _ hstep => sectionStep_ownedOnce hs hstep

/-- The descriptors all hold segments of the live pool. -/
def FromPool (s : VxdmaSys cfg) (ds : List (XilinxDmaTxDescriptor cfg)) : Prop :=
  ∀ p ∈ segsOf ds, s.chan.segV = some p.pool

instance (s : VxdmaSys cfg) (ds : List (XilinxDmaTxDescriptor cfg)) : Decidable (s.FromPool ds) :=
  inferInstanceAs (Decidable (∀ p ∈ segsOf ds, s.chan.segV = some p.pool))

/-- What is in one place is not in another one. -/
theorem OwnedOnce.disjoint {s : VxdmaSys cfg} (hs : OwnedOnce s) {a b : Multiset SegPtr}
    (hab : a + b ≤ s.owned) {p : SegPtr} (ha : p ∈ a) : p ∉ b := by
  have hdisj := (Multiset.nodup_add.mp (Multiset.nodup_of_le hab hs.nodup)).2.2
  exact fun hb => Multiset.disjoint_left.mp hdisj ha hb

/-- The segments of the active batch are neither free nor in any other descriptor. -/
theorem OwnedOnce.active {s : VxdmaSys cfg} (hs : OwnedOnce s) {p : SegPtr}
    (hp : p ∈ segsOf s.chan.activeList) :
    p ∉ s.chan.freeSegList ∧ p ∉ segsOf s.chan.doneList ∧ p ∉ segsOf s.held ∧
      p ∉ segsOf s.prepared := by
  have hle : (↑(segsOf s.chan.activeList) : Multiset SegPtr) + (↑s.chan.freeSegList +
      ↑(segsOf s.chan.doneList) + ↑(segsOf s.held) + ↑(segsOf s.prepared)) ≤ s.owned := by
    refine Multiset.le_iff_exists_add.mpr ⟨↑(segsOf s.chan.pendingList) +
      ↑(s.calls.flatMap Call.segs), ?_⟩
    simp only [owned, XilinxDmaChan.owned]
    abel
  have hnot := hs.disjoint hle (Multiset.mem_coe.mpr hp)
  simp only [Multiset.mem_add, Multiset.mem_coe, not_or] at hnot
  obtain ⟨⟨⟨hfree, hdone⟩, hheld⟩, hprepared⟩ := hnot
  exact ⟨hfree, hdone, hheld, hprepared⟩

/-- What is queued and what is not yet submitted. -/
theorem pending_add_prepared_le (s : VxdmaSys cfg) :
    (↑(segsOf s.chan.pendingList) : Multiset SegPtr) + ↑(segsOf s.prepared) ≤ s.owned := by
  refine Multiset.le_iff_exists_add.mpr ⟨↑s.chan.freeSegList + ↑(segsOf s.chan.activeList) +
    ↑(segsOf s.chan.doneList) + ↑(segsOf s.held) + ↑(s.calls.flatMap Call.segs), ?_⟩
  simp only [owned, XilinxDmaChan.owned]
  abel

/-- The segments of the queue and of a prepared descriptor are different from each other. -/
theorem OwnedOnce.pending_nodup {s : VxdmaSys cfg} (hs : OwnedOnce s) {i : Nat}
    {d : XilinxDmaTxDescriptor cfg} (hd : s.prepared[i]? = some d) :
    (segsOf (s.chan.pendingList ++ [d])).Nodup := by
  have hprep : (↑(segsOf s.prepared) : Multiset SegPtr) =
      ↑d.segments + ↑(segsOf (s.prepared.eraseIdx i)) :=
    coe_flatMap_eraseIdx (fun d : XilinxDmaTxDescriptor cfg => d.segments) hd
  have hle := s.pending_add_prepared_le
  rw [hprep, ← add_assoc] at hle
  have hboth := Multiset.nodup_of_le ((Multiset.le_add_right _ _).trans hle) hs.nodup
  rw [Multiset.coe_add, Multiset.coe_nodup] at hboth
  simpa using hboth

/-- The first allocation after the probe. -/
theorem allocated_ownedOnce (hasSg : Bool) (ctrlOffset : Nat) (dmacr : BitVec 32)
    (segP : DmaAddr cfg) : OwnedOnce (allocated hasSg ctrlOffset dmacr segP) := by
  have halloc : (probed hasSg ctrlOffset dmacr).callStep (.allocChanResources (some segP)) =
      some (allocated hasSg ctrlOffset dmacr segP) := rfl
  exact callStep_ownedOnce (probed_ownedOnce _ _ _) halloc

end VxdmaSys

end PetalinuxDriver
