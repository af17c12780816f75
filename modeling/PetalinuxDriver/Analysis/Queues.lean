import PetalinuxDriver.Analysis.Ownership

/-!
# What whole calls do to the queues

For the counters and flags of the channel an action of `callStep` is one of four things: it leaves
`pending_list`, `active_list` and what belongs to them alone, it queues a descriptor, it enters
`xilinx_dma_start_transfer`, or it empties the lists (`callStep_queues`).
-/

set_option autoImplicit false

namespace PetalinuxDriver

variable {cfg : PhysAddrConfig}

/-- The queues and what is kept about them are the same. -/
structure SameQueues (s s' : XilinxDmaChan cfg) : Prop where
  pendingList : s'.pendingList = s.pendingList
  activeList : s'.activeList = s.activeList
  descPendingcount : s'.descPendingcount = s.descPendingcount
  idle : s'.idle = s.idle
  bug : s'.bug = s.bug

namespace SameQueues

/-- Queues that are left alone are the same. -/
theorem refl (s : XilinxDmaChan cfg) : SameQueues s s := ⟨rfl, rfl, rfl, rfl, rfl⟩

/-- The queues stay the same over two steps. -/
theorem trans {s₁ s₂ s₃ : XilinxDmaChan cfg} (h : SameQueues s₁ s₂) (h' : SameQueues s₂ s₃) :
    SameQueues s₁ s₃ :=
  ⟨h'.pendingList.trans h.pendingList, h'.activeList.trans h.activeList,
    h'.descPendingcount.trans h.descPendingcount, h'.idle.trans h.idle, h'.bug.trans h.bug⟩

end SameQueues

/-- A freed descriptor is in no queue. -/
theorem freeTxDescriptor_sameQueues (s : XilinxDmaChan cfg) (segments : List SegPtr) :
    SameQueues s (xilinxDmaFreeTxDescriptor s segments) := by
  rw [freeTxDescriptor_eq]
  exact ⟨rfl, rfl, rfl, rfl, rfl⟩

/-- The acknowledgement leaves the queues. -/
theorem irqAck_sameQueues (status : BitVec 32) (s : XilinxDmaChan cfg) :
    SameQueues s (irqAck status s) := by
  rw [irqAck_eq]
  exact ⟨rfl, rfl, rfl, rfl, rfl⟩

/-- A cleanup takes from `done_list` only. -/
theorem cleanup_sameQueues (s : XilinxDmaChan cfg) :
    SameQueues s (xilinxDmaChanDescCleanup s).1 := by
  obtain ⟨freed, rest, -, -, hcases⟩ := cleanupLoop_cases s.doneList s rfl
  unfold xilinxDmaChanDescCleanup
  rcases hcases with ⟨-, h⟩ | ⟨d, tl, -, -, -, h⟩ | ⟨d, tl, -, -, h⟩ | ⟨d, tl, -, -, h⟩ <;>
    rw [h] <;> exact ⟨rfl, rfl, rfl, rfl, rfl⟩

/-- The rest of a cleanup takes from `done_list` only. -/
theorem cleanupResume_sameQueues (pc : CleanupPc cfg) (s : XilinxDmaChan cfg) :
    SameQueues s (cleanupResume pc s).1 := by
  cases pc with
  | idle => exact SameQueues.refl s
  | cyclicCallback => exact SameQueues.refl s
  | callback d => exact (freeTxDescriptor_sameQueues s d.segments).trans (cleanup_sameQueues _)

/-- `xilinx_dma_terminate_all` empties the lists. The counter and the idle flag stay. -/
theorem terminateAll_queues (haltOk : Bool) (s : XilinxDmaChan cfg) :
    SameQueues { s with pendingList := [], activeList := [] } (xilinxDmaTerminateAll haltOk s) := by
  unfold xilinxDmaTerminateAll
  simp only [freeDescriptors_eq, halt_eq, clearCyclic_eq]
  split <;> exact ⟨rfl, rfl, rfl, rfl, rfl⟩

/-- `xilinx_dma_free_chan_resources` empties the lists. The counter and the idle flag stay. -/
theorem freeChanResources_queues (s : XilinxDmaChan cfg) :
    SameQueues { s with pendingList := [], activeList := [] } (xilinxDmaFreeChanResources s) := by
  unfold xilinxDmaFreeChanResources
  rw [freeDescriptors_eq]
  exact ⟨rfl, rfl, rfl, rfl, rfl⟩

/-- An allocation leaves the queues. -/
theorem allocChanResources_sameQueues (zalloc : Option (DmaAddr cfg)) (s : XilinxDmaChan cfg) :
    SameQueues s (xilinxDmaAllocChanResources zalloc s).1 := by
  cases zalloc <;> exact ⟨rfl, rfl, rfl, rfl, rfl⟩

namespace VxdmaSys

/-- The action empties the lists of the channel. -/
def Op.dropsLists : Op cfg → Bool
  | .terminateAll _ => true
  | .freeChanResources => true
  | _ => false

/-- **What an action does to the queues.** -/
theorem callStep_queues {s s' : VxdmaSys cfg} {op : Op cfg} (h : s.callStep op = some s') :
    (SameQueues s.chan s'.chan) ∨
    (∃ i callback env d c w, op = .txSubmit i callback env ∧ s.prepared[i]? = some d ∧
      s.chan.cyclic = false ∧ (s.chan.err = true → env.ok = true) ∧
      s'.chan = (submitLocked { d with callback := callback } (resetFor s.chan c w)).1) ∨
    (∃ t startOk, s.startEntry op = some (t, startOk) ∧
      SameQueues (xilinxDmaStartTransfer startOk t) s'.chan) ∨
    (op.dropsLists = true ∧
      SameQueues { s.chan with pendingList := [], activeList := [] } s'.chan) := by
  obtain ⟨hbug, hstep⟩ := callStep_inv h
  cases hstep with
  | prepNull => exact Or.inl ⟨rfl, rfl, rfl, rfl, rfl⟩
  | prepDesc => exact Or.inl ⟨rfl, rfl, rfl, rfl, rfl⟩
  | submitRefused => exact Or.inl ⟨rfl, rfl, rfl, rfl, rfl⟩
  | submitFailed => exact Or.inl ⟨rfl, rfl, rfl, rfl, rfl⟩
  | submitQueue i callback env d c w hd hcyc hok =>
    exact Or.inr (Or.inl ⟨i, callback, env, d, c, w, rfl, hd, hcyc, hok, rfl⟩)
  | issuePending startOk =>
    exact Or.inr (Or.inr (Or.inl ⟨s.chan, startOk, rfl, SameQueues.refl _⟩))
  | irqNone => exact Or.inl (SameQueues.refl _)
  | irqOther status =>
    exact Or.inl ((irqAck_sameQueues status s.chan).trans ⟨rfl, rfl, rfl, rfl, rfl⟩)
  | irqIoc status startOk hsome hioc =>
    exact Or.inr (Or.inr (Or.inl ⟨irqComplete (irqAck status s.chan), startOk,
      by simp [startEntry, hsome, hioc], ⟨rfl, rfl, rfl, rfl, rfl⟩⟩))
  | terminateAll haltOk => exact Or.inr (Or.inr (Or.inr ⟨rfl, terminateAll_queues _ _⟩))
  | freeChanResources => exact Or.inr (Or.inr (Or.inr ⟨rfl, freeChanResources_queues _⟩))
  | allocChanResources => exact Or.inl (allocChanResources_sameQueues _ _)
  | tasklet =>
    have hqueues := cleanup_sameQueues { s.chan with tasklet := false }
    exact Or.inl ⟨hqueues.pendingList, hqueues.activeList, hqueues.descPendingcount,
      hqueues.idle, hqueues.bug⟩
  | callbackReturn => exact Or.inl (cleanupResume_sameQueues _ _)
  | device => exact Or.inl ⟨rfl, rfl, rfl, rfl, rfl⟩

/-- What `xilinx_dma_terminate_all` and `xilinx_dma_free_chan_resources` do to the queues. -/
theorem callStep_dropsLists {s s' : VxdmaSys cfg} {op : Op cfg} (hdrop : op.dropsLists = true)
    (h : s.callStep op = some s') :
    SameQueues { s.chan with pendingList := [], activeList := [] } s'.chan := by
  cases op with
  | terminateAll haltOk =>
    rw [callStep_terminateAll h]
    exact terminateAll_queues _ _
  | freeChanResources =>
    rw [callStep_freeChanResources h]
    exact freeChanResources_queues _
  | _ => cases hdrop

/-- The state in which an action enters `xilinx_dma_start_transfer`: that of an issue is the state
itself, that of an interrupt has completed the active batch. -/
theorem startEntry_cases {s : VxdmaSys cfg} {op : Op cfg} {t : XilinxDmaChan cfg} {startOk : Bool}
    (h : s.startEntry op = some (t, startOk)) :
    (op = .issuePending startOk ∧ t = s.chan) ∨
    (∃ status, op = .interrupt status startOk ∧
      hasBits status xilinxDmaXrIrqIocMask = true ∧ t = irqComplete (irqAck status s.chan)) := by
  cases op with
  | issuePending ok =>
    cases h
    exact Or.inl ⟨rfl, rfl⟩
  | interrupt status ok =>
    simp only [startEntry] at h
    split at h
    · rename_i hbits
      simp only [Bool.and_eq_true] at hbits
      cases h
      exact Or.inr ⟨status, rfl, hbits.2, rfl⟩
    · cases h
  | _ => cases h

/-- An action that enters `xilinx_dma_start_transfer` does what that does, and may schedule the
tasklet. -/
theorem callStep_start {s s' : VxdmaSys cfg} {op : Op cfg} {t : XilinxDmaChan cfg} {startOk : Bool}
    (hentry : s.startEntry op = some (t, startOk)) (h : s.callStep op = some s') :
    ∃ tasklet, s' = { s with
      chan := { xilinxDmaStartTransfer startOk t with tasklet := tasklet } } := by
  cases (callStep_inv h).2 with
  | issuePending =>
    cases hentry
    exact ⟨(xilinxDmaStartTransfer startOk s.chan).tasklet, rfl⟩
  | irqIoc status ok hsome hioc =>
    simp only [startEntry, hsome, hioc, Bool.and_self, if_true, Option.some.injEq,
      Prod.mk.injEq] at hentry
    obtain ⟨rfl, rfl⟩ := hentry
    exact ⟨true, rfl⟩
  | irqNone status ok hnone => simp [startEntry, hnone] at hentry
  | irqOther status ok hsome hioc => simp [startEntry, hioc] at hentry
  | prepNull _ _ _ he =>
    rw [startEntry_of_entry he] at hentry
    cases hentry
  | prepDesc _ _ _ _ _ he =>
    rw [startEntry_of_entry (by rw [he]; rfl)] at hentry
    cases hentry
  | _ => cases hentry

end VxdmaSys

end PetalinuxDriver
