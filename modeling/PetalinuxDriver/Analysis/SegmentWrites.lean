import PetalinuxDriver.Analysis.BuiltWords
import PetalinuxDriver.Analysis.FailedPrep

/-!
# What one action writes into a segment

The hardware words of a segment are written in six places: when its pool is allocated, by a round
of a builder, by the flags at the end of a builder, by a submit that links the tail of the queue,
by the engine, and when it is given back. `SegmentWrite` lists them with the words they leave, and
`sectionStep_write` says that there is no other. Every invariant about the contents of segments is
a case analysis over these.
-/

set_option autoImplicit false

namespace PetalinuxDriver

open Library

variable {cfg : PhysAddrConfig}

/-- A segment with other hardware words. -/
def XilinxDmaTxSegment.withHw (segment : XilinxDmaTxSegment cfg) (hw : XilinxDmaDescHw) :
    XilinxDmaTxSegment cfg :=
  { segment with hw := hw }

namespace VxdmaSys

/-- What an action did to a segment. -/
inductive SegmentWrite (s s' : VxdmaSys cfg) (a : Act cfg) (p : SegPtr) : Prop
  | kept (h : s'.chan.mem p = s.chan.mem p)
  /-- The segment belongs to a pool that was allocated. -/
  | fresh (segP : DmaAddr cfg) (ha : a = .allocChanResources (some segP))
      (hp : p.pool = s.chan.pools) (h : s'.chan.mem p = ringSegment segP p.index)
  /-- A round of a builder took it and filled it. -/
  | filled (i : Nat) (env : CallEnv) (c : Chunk cfg) (cs : List (Chunk cfg)) (b : TxBuild)
      (ha : a = .run i env) (hc : s.calls[i]? = some (.build (c :: cs) b))
      (hfree : s.chan.freeSegList = p :: s'.chan.freeSegList)
      (h : s'.chan.mem p = (s.chan.mem p).withHw (fillHwDesc b.app c (s.chan.mem p).hw))
  /-- The end of a builder added its flags. -/
  | flagged (i : Nat) (env : CallEnv) (b : TxBuild) (d : XilinxDmaTxDescriptor cfg)
      (ha : a = .run i env) (hc : s.calls[i]? = some (.build [] b)) (hp : p ∈ b.segments)
      (h : s'.chan.mem p = (s.chan.mem p).withHw ((s.chan.mem p).hw.flagged (d.flags p)))
  /-- A submit linked it to the new tail of the queue. -/
  | linked (i : Nat) (env : CallEnv) (d t : XilinxDmaTxDescriptor cfg) (ha : a = .run i env)
      (hc : s.calls[i]? = some (.submitLock d)) (ht : s.chan.pendingList.getLast? = some t)
      (hp : p = t.lastSegment)
      (h : s'.chan.mem p =
        (s.chan.mem p).withHw { (s.chan.mem p).hw with nextDesc := lower32Bits d.phys })
  /-- The engine wrote it back. -/
  | device (status : BitVec 32) (app : AppWords) (ha : a = .device p status app)
      (hp : p ∈ segsOf s.chan.activeList)
      (h : s'.chan.mem p =
        (s.chan.mem p).withHw { (s.chan.mem p).hw with status := status, app := app })
  /-- It was wiped and given back. -/
  | cleaned (hp : p ∈ s'.chan.freeSegList)
      (h : s'.chan.mem p = (s.chan.mem p).withHw (xilinxDmaCleanHwDesc (s.chan.mem p).hw))

/-- A list of segments was wiped and put at the tail of the pool. -/
theorem SegmentWrite.of_cleanSegs {s s' : VxdmaSys cfg} {a : Act cfg} {p : SegPtr}
    {ps : List SegPtr} (hmem : s'.chan.mem = cleanSegs ps s.chan.mem)
    (hfree : s'.chan.freeSegList = s.chan.freeSegList ++ ps) : SegmentWrite s s' a p := by
  by_cases hp : p ∈ ps
  · refine .cleaned ?_ ?_
    · rw [hfree]
      exact List.mem_append_right _ hp
    · rw [hmem, cleanSegs, if_pos hp]
      rfl
  · apply SegmentWrite.kept
    rw [hmem]
    exact cleanSegs_of_notMem hp _

/-- A cleanup wipes what it gives back. -/
theorem cleanup_cleanSegs (s : XilinxDmaChan cfg) :
    ∃ ps, (xilinxDmaChanDescCleanup s).1.mem = cleanSegs ps s.mem ∧
      (xilinxDmaChanDescCleanup s).1.freeSegList = s.freeSegList ++ ps := by
  obtain ⟨freed, rest, -, -, hcases⟩ := cleanupLoop_cases s.doneList s rfl
  refine ⟨segsOf freed, ?_⟩
  unfold xilinxDmaChanDescCleanup
  rcases hcases with ⟨-, h⟩ | ⟨d, tl, -, -, -, h⟩ | ⟨d, tl, -, -, h⟩ | ⟨d, tl, -, -, h⟩ <;>
    rw [h] <;> exact ⟨rfl, rfl⟩

/-- The rest of a cleanup wipes what it gives back. -/
theorem cleanupResume_cleanSegs (pc : CleanupPc cfg) (s : XilinxDmaChan cfg) :
    ∃ ps, (cleanupResume pc s).1.mem = cleanSegs ps s.mem ∧
      (cleanupResume pc s).1.freeSegList = s.freeSegList ++ ps := by
  cases pc with
  | idle => exact ⟨[], by simp [cleanupResume], by simp [cleanupResume]⟩
  | cyclicCallback => exact ⟨[], by simp [cleanupResume], by simp [cleanupResume]⟩
  | callback d =>
    obtain ⟨ps, hmem, hfree⟩ := cleanup_cleanSegs (xilinxDmaFreeTxDescriptor s d.segments)
    rw [freeTxDescriptor_eq] at hmem hfree
    refine ⟨d.segments ++ ps, ?_, ?_⟩
    · rw [cleanupResume, freeTxDescriptor_eq, hmem, cleanSegs_append]
    · rw [cleanupResume, freeTxDescriptor_eq, hfree, List.append_assoc]

/-- A submit writes the tail of the queue. -/
theorem linkTail_cases (pending : List (XilinxDmaTxDescriptor cfg)) (phys : DmaAddr cfg)
    (mem : SegPtr → XilinxDmaTxSegment cfg) (p : SegPtr) :
    linkTail pending phys mem p = mem p ∨
      ∃ t, pending.getLast? = some t ∧ p = t.lastSegment ∧
        linkTail pending phys mem p =
          (mem p).withHw { (mem p).hw with nextDesc := lower32Bits phys } := by
  unfold linkTail
  cases hlast : pending.getLast? with
  | none => exact Or.inl rfl
  | some t =>
    by_cases hp : p = t.lastSegment
    · subst hp
      exact Or.inr ⟨t, rfl, rfl, Function.update_self _ _ _⟩
    · exact Or.inl (Function.update_of_ne hp _ _)

/-- **What one section writes.** -/
theorem run_write {s s' : VxdmaSys cfg} {i : Nat} {env : CallEnv}
    (h : s.sectionStep (.run i env) = some s') (p : SegPtr) : SegmentWrite s s' (.run i env) p := by
  obtain ⟨c, hc, hsection, rfl⟩ := sectionStep_run h
  generalize hafter : (c.run env s.chan).2 = after at hsection
  generalize hchan : (c.run env s.chan).1 = t at hsection
  have hkept : t.mem = s.chan.mem → SegmentWrite s
      { s with
        chan := t
        prepared := s.prepared ++ after.kept
        calls := after.calls ++ s.calls.eraseIdx i } (.run i env) p :=
    fun hmem => .kept (congrFun hmem p)
  cases hsection with
  | buildDone b d mem hne hbuilt hmem =>
    by_cases hp : p ∈ b.segments
    · have hfin : finishBuild b s.chan =
          ({ s.chan with
            mem := mem
            ctrlReg := builtCtrl b s.chan
            log := s.chan.log ++ builtEvents b s.chan }, .desc d) := by
        simp only [Call.run] at hafter hchan
        split at hafter
        · rename_i s₁ d₁ hfin
          rw [hfin] at hchan ⊢
          cases hafter
          rw [← hchan]
        · cases hafter
        · cases hafter
      exact .flagged i env b d rfl hc hp (finishBuild_mem hfin p)
    · exact .kept (hmem.2 p hp)
  | buildRound c cs b q qs hfree =>
    by_cases hp : p = q
    · subst hp
      refine .filled i env c cs b rfl hc hfree ?_
      exact Function.update_self _ _ _
    · exact .kept (Function.update_of_ne hp _ _)
  | buildError b =>
    rw [freeTxDescriptor_eq] at hchan ⊢
    exact SegmentWrite.of_cleanSegs rfl rfl
  | submitRefused d =>
    rw [freeTxDescriptor_eq]
    exact SegmentWrite.of_cleanSegs rfl rfl
  | queued d =>
    rcases linkTail_cases s.chan.pendingList d.phys s.chan.mem p with hsame | ⟨t, ht, hp, hlink⟩
    · exact .kept hsame
    · exact .linked i env d t rfl hc ht hp hlink
  | queuedBug d =>
    rcases linkTail_cases s.chan.pendingList d.phys s.chan.mem p with hsame | ⟨t, ht, hp, hlink⟩
    · exact .kept hsame
    · exact .linked i env d t rfl hc ht hp hlink
  | issue => exact hkept (startTransfer_lists _ _).2.2
  | irqIoc =>
    apply hkept
    rw [irqAck_eq]
  | irqOther =>
    apply hkept
    rw [irqAck_eq]
  | irqLock =>
    apply hkept
    rw [(startTransfer_lists _ _).2.2, irqComplete_eq]
  | terminate =>
    apply hkept
    rw [halt_eq]
  | terminateFree =>
    rw [freeDescriptors_eq]
    exact SegmentWrite.of_cleanSegs rfl rfl
  | terminateClear =>
    apply hkept
    rw [clearCyclic_eq]
  | freeChan =>
    rw [freeDescriptors_eq]
    exact SegmentWrite.of_cleanSegs rfl rfl
  | _ => exact hkept rfl

/-- **What one action writes.** -/
theorem sectionStep_write {s s' : VxdmaSys cfg} {a : Act cfg} (h : s.sectionStep a = some s')
    (p : SegPtr) : SegmentWrite s s' a p := by
  obtain ⟨-, hstep⟩ := sectionStep_inv h
  cases hstep with
  | allocChanResources zalloc =>
    cases zalloc with
    | none => exact .kept rfl
    | some segP =>
      by_cases hp : p.pool = s.chan.pools
      · refine .fresh segP rfl hp ?_
        simp [xilinxDmaAllocChanResources, XilinxDmaChan.dmaCtrlWrite, XilinxDmaChan.emit, hp]
      · apply SegmentWrite.kept
        simp [xilinxDmaAllocChanResources, XilinxDmaChan.dmaCtrlWrite, XilinxDmaChan.emit, hp]
  | run i env c s' hc hleave => exact run_write h p
  | tasklet =>
    obtain ⟨ps, hmem, hfree⟩ := cleanup_cleanSegs { s.chan with tasklet := false }
    exact SegmentWrite.of_cleanSegs hmem hfree
  | callbackReturn =>
    obtain ⟨ps, hmem, hfree⟩ := cleanupResume_cleanSegs s.cleanup s.chan
    exact SegmentWrite.of_cleanSegs hmem hfree
  | device q status app hq =>
    by_cases hp : p = q
    · subst hp
      exact .device status app rfl hq (Function.update_self _ _ _)
    · exact .kept (Function.update_of_ne hp _ _)
  | _ => exact .kept rfl

/-- A segment of a pool that was allocated keeps its address. -/
theorem sectionStep_phys {s s' : VxdmaSys cfg} {a : Act cfg} (h : s.sectionStep a = some s')
    {p : SegPtr} (hp : p.pool < s.chan.pools) : (s'.chan.mem p).phys = (s.chan.mem p).phys := by
  cases sectionStep_write h p with
  | kept hmem => rw [hmem]
  | fresh segP ha hnew => omega
  | filled _ _ _ _ _ _ _ _ hmem =>
    rw [hmem]
    rfl
  | flagged _ _ _ _ _ _ _ hmem =>
    rw [hmem]
    rfl
  | linked _ _ _ _ _ _ _ _ hmem =>
    rw [hmem]
    rfl
  | device _ _ _ _ hmem =>
    rw [hmem]
    rfl
  | cleaned _ hmem =>
    rw [hmem]
    rfl

end VxdmaSys

end PetalinuxDriver
