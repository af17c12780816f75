import PetalinuxDriver.Analysis.Ownership

/-!
# Who writes links

The `next_desc` of a segment is written when its pool is allocated, and by `append_desc_queue`.
Everything else leaves all links and all addresses alone.
-/

set_option autoImplicit false

namespace PetalinuxDriver

variable {cfg : PhysAddrConfig}

/-- A freed descriptor keeps its links. -/
theorem freeTxDescriptor_linksKept (s : XilinxDmaChan cfg) (segments : List SegPtr) :
    LinksKept s.mem (xilinxDmaFreeTxDescriptor s segments).mem := by
  rw [freeTxDescriptor_eq]
  exact cleanSegs_linksKept segments s.mem

/-- Freed lists keep their links. -/
theorem freeDescriptors_linksKept (s : XilinxDmaChan cfg) :
    LinksKept s.mem (xilinxDmaFreeDescriptors s).mem := by
  rw [freeDescriptors_eq]
  exact cleanSegs_linksKept _ s.mem

/-- A start links nothing. -/
theorem startTransfer_linksKept (startOk : Bool) (s : XilinxDmaChan cfg) :
    LinksKept s.mem (xilinxDmaStartTransfer startOk s).mem := by
  rw [(startTransfer_lists startOk s).2.2]
  exact LinksKept.refl s.mem

/-- The acknowledgement links nothing. -/
theorem irqAck_linksKept (status : BitVec 32) (s : XilinxDmaChan cfg) :
    LinksKept s.mem (irqAck status s).mem := by
  rw [irqAck_eq]
  exact LinksKept.refl s.mem

/-- The completion links nothing. -/
theorem irqComplete_linksKept (s : XilinxDmaChan cfg) : LinksKept s.mem (irqComplete s).mem := by
  rw [irqComplete_eq]
  exact LinksKept.refl s.mem

/-- A cleanup wipes all but the links. -/
theorem cleanup_linksKept (s : XilinxDmaChan cfg) :
    LinksKept s.mem (xilinxDmaChanDescCleanup s).1.mem := by
  obtain ⟨freed, rest, -, -, hcases⟩ := cleanupLoop_cases s.doneList s rfl
  unfold xilinxDmaChanDescCleanup
  rcases hcases with ⟨-, h⟩ | ⟨d, tl, -, -, -, h⟩ | ⟨d, tl, -, -, h⟩ | ⟨d, tl, -, -, h⟩ <;>
    rw [h] <;> exact cleanSegs_linksKept _ s.mem

/-- The rest of a cleanup wipes all but the links. -/
theorem cleanupResume_linksKept (pc : CleanupPc cfg) (s : XilinxDmaChan cfg) :
    LinksKept s.mem (cleanupResume pc s).1.mem := by
  cases pc with
  | idle => exact LinksKept.refl s.mem
  | cyclicCallback => exact LinksKept.refl s.mem
  | callback d => exact (freeTxDescriptor_linksKept s d.segments).trans (cleanup_linksKept _)

/-- A terminate keeps the links of what it frees. -/
theorem terminateAll_linksKept (haltOk : Bool) (s : XilinxDmaChan cfg) :
    LinksKept s.mem (xilinxDmaTerminateAll haltOk s).mem := by
  unfold xilinxDmaTerminateAll
  simp only [freeDescriptors_eq, halt_eq, clearCyclic_eq]
  split <;> exact cleanSegs_linksKept _ s.mem

namespace VxdmaSys

/-- Only the locked section of a submit writes a link. -/
theorem Section.linksKept {env : CallEnv} {s t : XilinxDmaChan cfg} {c : Call cfg}
    {after : After cfg} (h : Section env s c t after) (hc : ∀ d, c ≠ .submitLock d) :
    LinksKept s.mem t.mem := by
  cases h with
  | buildDone b d mem hne hbuilt hmem => exact hmem.1
  | buildRound c cs b p ps =>
    exact (wordsChanged_update s.mem p (fillHwDesc b.app c (s.mem p).hw) (by simp) (by simp)).1
  | buildError => exact freeTxDescriptor_linksKept _ _
  | submitRefused => exact freeTxDescriptor_linksKept _ _
  | queued d => exact absurd rfl (hc d)
  | queuedBug d => exact absurd rfl (hc d)
  | issue => exact startTransfer_linksKept _ _
  | irqIoc => exact irqAck_linksKept _ _
  | irqOther => exact irqAck_linksKept _ _
  | irqLock => exact (irqComplete_linksKept s).trans (startTransfer_linksKept _ _)
  | terminate =>
    rw [halt_eq]
    exact LinksKept.refl s.mem
  | terminateFree => exact freeDescriptors_linksKept _
  | terminateClear =>
    rw [clearCyclic_eq]
    exact LinksKept.refl s.mem
  | freeChan => exact freeDescriptors_linksKept _
  | _ => exact LinksKept.refl s.mem

/-- The locked section of a submit writes the link of the queue's tail. -/
theorem Section.linkTail {env : CallEnv} {s t : XilinxDmaChan cfg} {d : XilinxDmaTxDescriptor cfg}
    {after : After cfg} (h : Section env s (.submitLock d) t after) :
    t.mem = linkTail s.pendingList d.phys s.mem := by
  cases h <;> rfl

end VxdmaSys

end PetalinuxDriver
