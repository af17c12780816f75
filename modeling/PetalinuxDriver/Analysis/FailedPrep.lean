import PetalinuxDriver.Analysis.Ownership

/-!
# A builder that returns NULL leaves nothing behind

The `error` label gives segments back at the tail of `free_seg_list`, while they were taken from
its head, and it wipes their words. That the list is nevertheless as before has two reasons. A
builder gives up only when it has taken the whole pool, so that the order is restored
(`runBuild_cases`). And the words of every free segment were wiped before: each way back to the
pool goes through `xilinx_dma_clean_hw_desc`, and nothing writes into a free segment. The second
reason is an invariant of the driver as a whole (`sectionStep_poolClean`).
-/

set_option autoImplicit false

namespace PetalinuxDriver

open Library

variable {cfg : PhysAddrConfig}

/-! ## Clean words -/

/-- All words but those of the link are zero. -/
def XilinxDmaDescHw.Clean (hw : XilinxDmaDescHw) : Prop := xilinxDmaCleanHwDesc hw = hw

/-- The free segments are clean. -/
def XilinxDmaChan.PoolClean (s : XilinxDmaChan cfg) : Prop :=
  ∀ p ∈ s.freeSegList, (s.mem p).hw.Clean

/-- What is wiped is clean, and so is what was clean. -/
theorem cleanSegs_clean {ps : List SegPtr} {p : SegPtr} (mem : SegPtr → XilinxDmaTxSegment cfg)
    (h : p ∈ ps ∨ (mem p).hw.Clean) : (cleanSegs ps mem p).hw.Clean := by
  unfold cleanSegs
  split
  · exact cleanHwDesc_idem _
  · rename_i hp
    exact h.resolve_left hp

/-- Giving segments back keeps the pool clean. -/
theorem XilinxDmaChan.PoolClean.giveBack {s t : XilinxDmaChan cfg} (hs : s.PoolClean)
    (ps : List SegPtr) (hfree : t.freeSegList = s.freeSegList ++ ps)
    (hmem : t.mem = cleanSegs ps s.mem) : t.PoolClean := by
  intro p hp
  rw [hmem]
  apply cleanSegs_clean
  rw [hfree] at hp
  rcases List.mem_append.mp hp with hp | hp
  · exact Or.inr (hs p hp)
  · exact Or.inl hp

/-- Nothing but the words of segments that are not free has changed. -/
theorem XilinxDmaChan.PoolClean.of_frame {s t : XilinxDmaChan cfg} (hs : s.PoolClean)
    (hfree : t.freeSegList ⊆ s.freeSegList)
    (hmem : ∀ p ∈ t.freeSegList, t.mem p = s.mem p) : t.PoolClean := by
  intro p hp
  rw [hmem p hp]
  exact hs p (hfree hp)

/-- A link does not make a segment unclean. -/
theorem linkTail_clean (pending : List (XilinxDmaTxDescriptor cfg)) (phys : DmaAddr cfg)
    {mem : SegPtr → XilinxDmaTxSegment cfg} {p : SegPtr} (h : (mem p).hw.Clean) :
    (linkTail pending phys mem p).hw.Clean := by
  obtain ⟨next, hnext⟩ := linkTail_words pending phys mem p
  unfold XilinxDmaDescHw.Clean at h ⊢
  rw [hnext, ← h]
  rfl

/-- A start keeps the free segments clean. -/
theorem startTransfer_poolClean (startOk : Bool) {s : XilinxDmaChan cfg} (hs : s.PoolClean) :
    (xilinxDmaStartTransfer startOk s).PoolClean := by
  rcases startTransfer_cases startOk s with ⟨-, h⟩ | ⟨-, -, c, w, -, h⟩ | ⟨-, -, c, w, -, h⟩ <;>
    rw [h] <;> exact hs

/-- A cleanup gives back clean segments. -/
theorem cleanup_poolClean {s : XilinxDmaChan cfg} (hs : s.PoolClean) :
    (xilinxDmaChanDescCleanup s).1.PoolClean := by
  obtain ⟨freed, rest, -, -, hcases⟩ := cleanupLoop_cases s.doneList s rfl
  unfold xilinxDmaChanDescCleanup
  rcases hcases with ⟨-, h⟩ | ⟨d, tl, -, -, -, h⟩ | ⟨d, tl, -, -, h⟩ | ⟨d, tl, -, -, h⟩ <;>
    rw [h] <;> exact hs.giveBack (segsOf freed) rfl rfl

/-- A freed descriptor gives back clean segments. -/
theorem freeTxDescriptor_poolClean {s : XilinxDmaChan cfg} (hs : s.PoolClean)
    (segments : List SegPtr) : (xilinxDmaFreeTxDescriptor s segments).PoolClean := by
  rw [freeTxDescriptor_eq]
  exact hs.giveBack segments rfl rfl

/-- The rest of a cleanup gives back clean segments. -/
theorem cleanupResume_poolClean (pc : CleanupPc cfg) {s : XilinxDmaChan cfg} (hs : s.PoolClean) :
    (cleanupResume pc s).1.PoolClean := by
  cases pc with
  | idle => exact hs
  | cyclicCallback => exact hs
  | callback d => exact cleanup_poolClean (freeTxDescriptor_poolClean hs d.segments)

/-- Freed lists give back clean segments. -/
theorem freeDescriptors_poolClean {s : XilinxDmaChan cfg} (hs : s.PoolClean) :
    (xilinxDmaFreeDescriptors s).PoolClean := by
  rw [freeDescriptors_eq]
  exact hs.giveBack _ rfl rfl

/-- A new pool is clean. -/
theorem ringSegment_clean (segP : DmaAddr cfg) (i : Fin xilinxDmaNumDescs) :
    (ringSegment segP i).hw.Clean := by
  cases cfg <;> rfl

/-! ## The pool stays clean -/

namespace VxdmaSys

/-- One section keeps the pool clean; the segments of the call itself are not free. -/
theorem Section.poolClean {env : CallEnv} {s t : XilinxDmaChan cfg} {c : Call cfg}
    {after : After cfg} (h : Section env s c t after) (hs : s.PoolClean)
    (hnodup : (s.freeSegList ++ c.segs).Nodup) : t.PoolClean := by
  have hdisjoint := (List.nodup_append.mp hnodup).2.2
  cases h with
  | buildDone b d mem hne hbuilt hmem =>
    refine hs.of_frame (List.Subset.refl _) ?_
    intro p hp
    apply hmem.2
    intro hb
    exact hdisjoint p hp p hb rfl
  | buildRound c cs b p ps hfree =>
    rw [hfree] at hnodup
    have hfresh : p ∉ ps := (List.nodup_cons.mp (List.nodup_append.mp hnodup).1).1
    refine hs.of_frame ?_ ?_
    · rw [hfree]
      exact List.subset_cons_self p ps
    · rintro q hq
      apply Function.update_of_ne
      rintro rfl
      exact hfresh hq
  | buildError b => exact freeTxDescriptor_poolClean hs _
  | submitRefused d => exact freeTxDescriptor_poolClean hs _
  | queued d =>
    intro p hp
    exact linkTail_clean _ _ (hs p hp)
  | queuedBug d =>
    intro p hp
    exact linkTail_clean _ _ (hs p hp)
  | issue => exact startTransfer_poolClean _ hs
  | irqIoc =>
    rw [irqAck_eq]
    exact hs
  | irqOther =>
    rw [irqAck_eq]
    exact hs
  | irqLock =>
    apply startTransfer_poolClean
    rw [irqComplete_eq]
    exact hs
  | terminate =>
    rw [halt_eq]
    exact hs
  | terminateFree => exact freeDescriptors_poolClean hs
  | terminateClear =>
    rw [clearCyclic_eq]
    exact hs
  | freeChan => exact freeDescriptors_poolClean hs
  | freeChanInit =>
    intro p hp
    cases hp
  | _ => exact hs

/-- What is free and what a call in flight holds are different segments. -/
theorem OwnedOnce.free_call {s : VxdmaSys cfg} (hs : OwnedOnce s) {i : Nat} {c : Call cfg}
    (hc : s.calls[i]? = some c) : (s.chan.freeSegList ++ c.segs).Nodup := by
  have hcall : (↑(s.calls.flatMap Call.segs) : Multiset SegPtr) =
      ↑c.segs + ↑((s.calls.eraseIdx i).flatMap Call.segs) := coe_flatMap_eraseIdx Call.segs hc
  have hle : (↑(s.chan.freeSegList ++ c.segs) : Multiset SegPtr) ≤ s.owned := by
    refine Multiset.le_iff_exists_add.mpr ⟨↑(segsOf s.chan.pendingList) +
      ↑(segsOf s.chan.activeList) + ↑(segsOf s.chan.doneList) + ↑(segsOf s.prepared) +
      ↑(segsOf s.held) + ↑((s.calls.eraseIdx i).flatMap Call.segs), ?_⟩
    simp only [owned, XilinxDmaChan.owned, hcall, ← Multiset.coe_add]
    abel
  exact Multiset.coe_nodup.mp (Multiset.nodup_of_le hle hs.nodup)

/-- A free segment has the number of a pool that was allocated. -/
theorem OwnedOnce.free_allocated {s : VxdmaSys cfg} (hs : OwnedOnce s) :
    ∀ p ∈ s.chan.freeSegList, p.pool < s.chan.pools := by
  intro p hp
  apply hs.allocated
  simp only [owned, XilinxDmaChan.owned, Multiset.mem_add, Multiset.mem_coe]
  tauto

/-- **One action keeps the pool clean.** -/
theorem sectionStep_poolClean {s s' : VxdmaSys cfg} {a : Act cfg} (honce : OwnedOnce s)
    (hs : s.chan.PoolClean) (h : s.sectionStep a = some s') : s'.chan.PoolClean := by
  obtain ⟨hbug, hstep⟩ := sectionStep_inv h
  cases hstep with
  | allocChanResources zalloc =>
    cases zalloc with
    | none => exact hs
    | some segP =>
      intro p hp
      simp only [xilinxDmaAllocChanResources, XilinxDmaChan.dmaCtrlWrite,
        XilinxDmaChan.emit] at hp ⊢
      rcases List.mem_append.mp hp with hp | hp
      · have hold := honce.free_allocated p hp
        rw [if_neg (by omega)]
        exact hs p hp
      · rw [if_pos (mem_poolSegs.mp hp)]
        exact ringSegment_clean segP p.index
  | run i env c s' hc hleave =>
    rw [leave_chan hleave]
    exact (run_inv env hbug c).poolClean hs (honce.free_call hc)
  | tasklet => exact cleanup_poolClean (s := { s.chan with tasklet := false }) hs
  | callbackReturn => exact cleanupResume_poolClean s.cleanup hs
  | device p status app hp =>
    have hfree := (honce.active hp).1
    refine hs.of_frame (List.Subset.refl _) ?_
    intro q hq
    apply Function.update_of_ne
    rintro rfl
    exact hfree hq
  | _ => exact hs

/-- The pool is clean, whatever the callers do. -/
theorem poolClean_of_reachable {hasSg : Bool} {ctrlOffset : Nat} {dmacr : BitVec 32}
    {s : VxdmaSys cfg} (h : Reachable sectionStep always (probed hasSg ctrlOffset dmacr) s) :
    s.chan.PoolClean := by
  let Inv : VxdmaSys cfg → Prop := fun s => OwnedOnce s ∧ s.chan.PoolClean
  have hinv : Inv s := by
    refine h.invariant ⟨probed_ownedOnce _ _ _, ?_⟩ ?_
    · intro p hp
      cases hp
    · intro s a s' hs _ hstep
      exact ⟨sectionStep_ownedOnce hs.1 hstep, sectionStep_poolClean hs.1 hs.2 hstep⟩
  exact hinv.2

end VxdmaSys

/-! ## The builder that gives up -/

/-- Wiping clean segments changes nothing. -/
theorem cleanSegs_of_clean {ps : List SegPtr} {mem : SegPtr → XilinxDmaTxSegment cfg}
    (h : ∀ p ∈ ps, (mem p).hw.Clean) : cleanSegs ps mem = mem := by
  funext p
  unfold cleanSegs
  split
  · rename_i hp
    rw [h p hp]
  · rfl

/-- The rounds of a builder and the `error` label together wipe what they touched. -/
theorem cleanSegs_of_wordsChanged {ps : List SegPtr} {mem mem' : SegPtr → XilinxDmaTxSegment cfg}
    (h : WordsChanged ps mem mem') : cleanSegs ps mem' = cleanSegs ps mem := by
  funext p
  unfold cleanSegs
  split
  · obtain ⟨hphys, hnext, hmsb⟩ := h.1 p
    simp only [xilinxDmaCleanHwDesc, hphys, hnext, hmsb]
  · rename_i hp
    exact h.2 p hp

/-- A builder that gives up leaves a clean pool exactly as it was. -/
theorem runPrep_null {entry : PrepEntry cfg} {s : XilinxDmaChan cfg} (hfresh : entry.Fresh s)
    (hclean : s.PoolClean) (hnull : (runPrep entry s).2 = .null) :
    ∃ k, (runPrep entry s).1 = { s with kzallocs := k } := by
  cases entry with
  | null => exact ⟨s.kzallocs, rfl⟩
  | wild => cases hnull
  | build chunks b =>
    obtain ⟨hsegs, -⟩ := hfresh
    refine ⟨s.kzallocs + 1, ?_⟩
    simp only [runPrep, runBuild] at hnull ⊢
    obtain ⟨taken, rest, mem, hsplit, hmem, ⟨-, hloop⟩ | ⟨rfl, -, hloop⟩⟩ :=
      buildLoop_cases chunks b (kzallocDesc s)
    · -- with a segment for each round the builder does not return NULL
      rw [hloop] at hnull
      rcases finishBuild_cases { b with segments := b.segments ++ taken }
          { kzallocDesc s with freeSegList := rest, mem := mem } with
        ⟨-, hfin⟩ | ⟨d, mem', -, -, -, hfin⟩
      · simp only at hnull
        rw [hfin] at hnull
        cases hnull
      · simp only at hnull
        rw [hfin] at hnull
        cases hnull
    · rw [List.append_nil] at hsplit
      obtain rfl : s.freeSegList = taken := hsplit
      have hwiped : cleanSegs s.freeSegList mem = s.mem := by
        rw [cleanSegs_of_wordsChanged hmem]
        exact cleanSegs_of_clean hclean
      rw [hloop]
      simp only [freeTxDescriptor_eq, hsegs, List.nil_append, hwiped, kzallocDesc]

/-- **A failed prep is a no-op.** In any state that any use of the driver reaches, a builder that
runs without interference and returns NULL leaves the whole channel as it was: the pool in its
order and with its words, the lists, the flags and counters, and the registers, which it did not
write. Only the number of descriptors ever allocated has grown. -/
theorem failed_prep_noop {hasSg : Bool} {ctrlOffset : Nat} {dmacr : BitVec 32} {s : VxdmaSys cfg}
    (h : Reachable VxdmaSys.sectionStep always (VxdmaSys.probed hasSg ctrlOffset dmacr) s) :
    (∀ args : PrepSlaveSgArgs cfg, (xilinxDmaPrepSlaveSg args s.chan).2 = .null →
      ∃ k, (xilinxDmaPrepSlaveSg args s.chan).1 = { s.chan with kzallocs := k }) ∧
    ∀ args : PrepDmaCyclicArgs cfg, (xilinxDmaPrepDmaCyclic args s.chan).2 = .null →
      ∃ k, (xilinxDmaPrepDmaCyclic args s.chan).1 = { s.chan with kzallocs := k } := by
  have hclean := VxdmaSys.poolClean_of_reachable h
  constructor
  · intro args hnull
    exact runPrep_null (prepSlaveSgEntry_fresh args s.chan) hclean hnull
  · intro args hnull
    exact runPrep_null (prepDmaCyclicEntry_fresh args s.chan) hclean hnull

/-- A pool that has turned by two segments: a descriptor went through the lists and came back. -/
def turnedPool : List (VxdmaSys.Act .addr32) :=
  let env : CallEnv := ⟨⟨0, true⟩, xilinxDmaXrIrqIocMask, true, true⟩
  [.allocChanResources (some 0), .prepSlaveSg ⟨[⟨0, 1⟩, ⟨64, 1⟩], .memToDev, none, true⟩] ++
  VxdmaSys.sections 3 env ++ [.txSubmit 0 none] ++ VxdmaSys.sections 3 env ++ [.issuePending] ++
  VxdmaSys.sections 1 env ++ [.interrupt] ++ VxdmaSys.sections 3 env ++ [.tasklet]

/-- A scatterlist with one entry more than the pool has segments. -/
def tooManyEntries : PrepSlaveSgArgs .addr32 :=
  ⟨List.replicate 256 ⟨0, 1⟩, .memToDev, none, true⟩

/-- A prep that needs too many segments, on a pool that has turned. -/
theorem failed_prep_noop_turnedPool :
    ∃ s k, exec VxdmaSys.sectionStep (VxdmaSys.probed true 0 0) turnedPool = some s ∧
      s.chan.freeSegList.head? = some ⟨0, 2⟩ ∧
      (xilinxDmaPrepSlaveSg tooManyEntries s.chan).2 = .null ∧
      (xilinxDmaPrepSlaveSg tooManyEntries s.chan).1 = { s.chan with kzallocs := k } := by
  have hexec : (exec VxdmaSys.sectionStep (VxdmaSys.probed true 0 0) turnedPool).map (fun s =>
      (s.chan.freeSegList.head?, (xilinxDmaPrepSlaveSg tooManyEntries s.chan).2)) =
        some (some ⟨0, 2⟩, .null) := by
    decide +kernel
  obtain ⟨s, hs, hfacts⟩ := Option.map_eq_some_iff.mp hexec
  obtain ⟨hhead, hnull⟩ := Prod.mk.inj hfacts
  have hrun : Reachable VxdmaSys.sectionStep always (VxdmaSys.probed true 0 0) s :=
    Reachable.of_exec (Reachable.execOk_of_forall fun _ _ _ => trivial) hs
  obtain ⟨k, hk⟩ := (failed_prep_noop hrun).1 tooManyEntries hnull
  exact ⟨s, k, hs, hhead, hnull, hk⟩

end PetalinuxDriver
