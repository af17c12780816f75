import PetalinuxDriver.Analysis.ControlRegister
import PetalinuxDriver.Analysis.IdleFlag

/-!
# Release and re-acquisition

A channel outlives its clients. `xilinx_dma_free_chan_resources` empties the lists and
`xilinx_dma_alloc_chan_resources` makes a new pool, and between them they restore neither the flags
nor the counter nor the control register: what one client leaves there the next one finds. So the
next client gets a fresh channel exactly when the one before left these as a probe leaves them
(`reacquired_fresh_iff`).
-/

set_option autoImplicit false

namespace PetalinuxDriver

open Library

variable {cfg : PhysAddrConfig}

/-- A channel as the first allocation after the probe leaves it, with `segP` and `pool` the
address and the number of its pool. -/
structure FreshChannel (segP : DmaAddr cfg) (pool : Nat) (t : XilinxDmaChan cfg) : Prop where
  pendingList : t.pendingList = []
  activeList : t.activeList = []
  doneList : t.doneList = []
  freeSegList : t.freeSegList = poolSegs pool
  ring : ∀ i, t.mem ⟨pool, i⟩ = ringSegment segP i
  cyclic : t.cyclic = false
  err : t.err = false
  idle : t.idle = true
  descPendingcount : t.descPendingcount = 0
  cyclicBit : hasBits t.ctrlReg xilinxDmaCrCyclicBdEnMask = false
  runstopBit : hasBits t.ctrlReg xilinxDmaCrRunstopMask = false
  /-- The first submit is accepted, and the first issue after it programs the hardware. -/
  firstTransfer : ∀ env d, ∃ t' k, xilinxDmaTxSubmit env d t = (t', .cookie k) ∧
    t'.pendingList = [{ d with cookie := k }] ∧ ∀ startOk, Programs t' startOk

/-- What the release leaves alone and a fresh channel needs. -/
structure LeftClean (s : XilinxDmaChan cfg) : Prop where
  cyclic : s.cyclic = false
  err : s.err = false
  idle : s.idle = true
  descPendingcount : s.descPendingcount = 0
  cyclicBit : hasBits s.ctrlReg xilinxDmaCrCyclicBdEnMask = false
  runstopBit : hasBits s.ctrlReg xilinxDmaCrRunstopMask = false

/-- A release and a successful allocation together. -/
theorem reacquire_eq (s : XilinxDmaChan cfg) (segP : DmaAddr cfg) :
    ∃ mem log, (∀ i, mem ⟨s.pools, i⟩ = ringSegment segP i) ∧
      (xilinxDmaAllocChanResources (some segP) (xilinxDmaFreeChanResources s)).1 =
        { s with
          pendingList := []
          doneList := []
          activeList := []
          freeSegList := poolSegs s.pools
          common := dmaCookieInit
          segV := some s.pools
          segP := segP
          pools := s.pools + 1
          ctrlReg := s.ctrlReg ||| xilinxDmaXrIrqAllMask
          mem := mem
          log := log } := by
  simp only [xilinxDmaFreeChanResources, freeDescriptors_eq, initFreeSegList, dmaFreeCoherent,
    xilinxDmaAllocChanResources, XilinxDmaChan.dmaCtrlWrite, XilinxDmaChan.emit, List.nil_append]
  refine ⟨_, _, fun i => ?_, rfl⟩
  simp

/-- A channel without error, not cyclic and with an empty queue accepts a submit, and when it is
idle the issue after it programs the hardware. -/
theorem firstTransfer_of_clean {t : XilinxDmaChan cfg} (hbug : t.bug = false)
    (hpending : t.pendingList = []) (hclean : LeftClean t) (env : ResetEnv)
    (d : XilinxDmaTxDescriptor cfg) :
    ∃ t' k, xilinxDmaTxSubmit env d t = (t', .cookie k) ∧
      t'.pendingList = [{ d with cookie := k }] ∧ ∀ startOk, Programs t' startOk := by
  have hroom : t.descPendingcount < xilinxDmaCoalesceMax := by
    rw [hclean.descPendingcount]
    decide
  have hsubmit : xilinxDmaTxSubmit env d t = submitLocked d t := by
    simp [xilinxDmaTxSubmit, hclean.cyclic, hclean.err]
  rw [hsubmit, submitLocked_queued d hbug hroom]
  refine ⟨_, _, rfl, by simp [hpending], fun startOk => programs_of_canStart startOk ?_⟩
  simp [canStart, hclean.err, hclean.idle]

/-- Who waits for the batch and then terminates without a timeout leaves a clean channel, if the
cyclic bit was set for a cyclic channel only. -/
theorem terminateAll_leftClean {s : XilinxDmaChan cfg} (herr : s.err = false)
    (hidle : s.idle = true) (hcount : s.descPendingcount = 0)
    (hbit : hasBits s.ctrlReg xilinxDmaCrCyclicBdEnMask = true → s.cyclic = true) :
    LeftClean (xilinxDmaTerminateAll true s) := by
  have hrun := hasBits_and_not s.ctrlReg xilinxDmaCrRunstopMask
  unfold xilinxDmaTerminateAll
  simp only [freeDescriptors_eq, halt_eq, clearCyclic_eq]
  cases hcyc : s.cyclic with
  | true =>
    have hcyclicBit := hasBits_and_not (s.ctrlReg &&& ~~~xilinxDmaCrRunstopMask)
      xilinxDmaCrCyclicBdEnMask
    have hrunstop : hasBits (s.ctrlReg &&& ~~~xilinxDmaCrRunstopMask &&&
        ~~~xilinxDmaCrCyclicBdEnMask) xilinxDmaCrRunstopMask = false :=
      (hasBits_and_not_of_disjoint _ (by decide)).trans hrun
    exact ⟨rfl, by simp [herr], hidle, hcount, hcyclicBit, hrunstop⟩
  | false =>
    have hclear : hasBits s.ctrlReg xilinxDmaCrCyclicBdEnMask = false := by
      cases hb : hasBits s.ctrlReg xilinxDmaCrCyclicBdEnMask with
      | false => rfl
      | true => exact absurd (hbit hb) (by simp [hcyc])
    have hcyclicBit : hasBits (s.ctrlReg &&& ~~~xilinxDmaCrRunstopMask)
        xilinxDmaCrCyclicBdEnMask = false :=
      (hasBits_and_not_of_disjoint _ (by decide)).trans hclear
    exact ⟨rfl, by simp [herr], hidle, hcount, hcyclicBit, hrun⟩

namespace VxdmaSys

/-- **Release and re-acquisition.** From every state, reachable or not, in which the channel can be
released: after a successful allocation it is as the first one left it if and only if it was not
cyclic, had no error, was idle, counted nothing as pending, and had neither the cyclic bit nor the
run bit in its control register. -/
theorem reacquired_fresh_iff {s s₁ s₂ : VxdmaSys cfg} {segP : DmaAddr cfg}
    (hfree : s.callStep .freeChanResources = some s₁)
    (halloc : s₁.callStep (.allocChanResources (some segP)) = some s₂) :
    FreshChannel segP s.chan.pools s₂.chan ↔ LeftClean s.chan := by
  have hbug : s.chan.bug = false := (callStep_inv hfree).1
  have hchan : s₂.chan =
      (xilinxDmaAllocChanResources (some segP) (xilinxDmaFreeChanResources s.chan)).1 := by
    rw [callStep_allocChanResources halloc, callStep_freeChanResources hfree]
  obtain ⟨mem, log, hmem, heq⟩ := reacquire_eq s.chan segP
  rw [heq] at hchan
  have hcyclicBit : hasBits s₂.chan.ctrlReg xilinxDmaCrCyclicBdEnMask =
      hasBits s.chan.ctrlReg xilinxDmaCrCyclicBdEnMask := by
    rw [hchan]
    exact hasBits_or_irqAll _ (by decide)
  have hrunstopBit : hasBits s₂.chan.ctrlReg xilinxDmaCrRunstopMask =
      hasBits s.chan.ctrlReg xilinxDmaCrRunstopMask := by
    rw [hchan]
    exact hasBits_or_irqAll _ (by decide)
  constructor
  · intro hfresh
    rw [hchan] at hfresh
    exact ⟨hfresh.cyclic, hfresh.err, hfresh.idle, hfresh.descPendingcount,
      hcyclicBit ▸ hchan ▸ hfresh.cyclicBit, hrunstopBit ▸ hchan ▸ hfresh.runstopBit⟩
  · intro hclean
    have hclean₂ : LeftClean s₂.chan := by
      refine ⟨?_, ?_, ?_, ?_, hcyclicBit.trans hclean.cyclicBit,
        hrunstopBit.trans hclean.runstopBit⟩ <;> rw [hchan]
      · exact hclean.cyclic
      · exact hclean.err
      · exact hclean.idle
      · exact hclean.descPendingcount
    have hpending : s₂.chan.pendingList = [] := by rw [hchan]
    have hbug₂ : s₂.chan.bug = false := by rw [hchan]; exact hbug
    refine ⟨hpending, ?_, ?_, ?_, ?_, hclean₂.cyclic, hclean₂.err, hclean₂.idle,
      hclean₂.descPendingcount, hclean₂.cyclicBit, hclean₂.runstopBit,
      firstTransfer_of_clean hbug₂ hpending hclean₂⟩ <;> rw [hchan]
    exact hmem

/-- A client queues a descriptor and starts it. -/
def startedRun : List (Op .addr32) :=
  [.allocChanResources (some 0), .prepSlaveSg ⟨[⟨0, 1⟩], .memToDev, none, true⟩,
    .txSubmit 0 none ⟨0, true⟩, .issuePending true]

/-- The client waits for its transfer and terminates. -/
def politeRun : List (Op .addr32) :=
  startedRun ++ [.interrupt xilinxDmaXrIrqIocMask true, .terminateAll true]

/-- The run, then a release and an allocation, and a look at the states before and after them. -/
def reacquiredAfter {α : Type} (run : List (Op .addr32))
    (look : VxdmaSys .addr32 → VxdmaSys .addr32 → α) : Option α :=
  (exec callStep (probed true 0 0) run).bind fun s =>
    (s.callStep .freeChanResources).bind fun s₁ =>
      (s₁.callStep (.allocChanResources (some 0))).map (look s)

/-- A run, a release, an allocation and a look at the states. -/
theorem reacquiredAfter_eq_some {α : Type} {run : List (Op .addr32)}
    {look : VxdmaSys .addr32 → VxdmaSys .addr32 → α} {a : α} (h : reacquiredAfter run look = some a) :
    ∃ s s₁ s₂, exec callStep (probed true 0 0) run = some s ∧
      s.callStep .freeChanResources = some s₁ ∧
      s₁.callStep (.allocChanResources (some 0)) = some s₂ ∧ look s s₂ = a := by
  obtain ⟨s, hs, h⟩ := Option.bind_eq_some_iff.mp h
  obtain ⟨s₁, hfree, h⟩ := Option.bind_eq_some_iff.mp h
  obtain ⟨s₂, halloc, h⟩ := Option.map_eq_some_iff.mp h
  exact ⟨s, s₁, s₂, hs, hfree, halloc, h⟩

/-- After a client that waits and terminates, the next one gets a fresh channel. -/
theorem politeRun_reacquired :
    ∃ s s₁ s₂, exec callStep (probed true 0 0) politeRun = some s ∧
      s.callStep .freeChanResources = some s₁ ∧
      s₁.callStep (.allocChanResources (some 0)) = some s₂ ∧
      FreshChannel 0 s.chan.pools s₂.chan := by
  have hrun : reacquiredAfter politeRun (fun s _ => (s.chan.cyclic, s.chan.err, s.chan.idle,
      s.chan.descPendingcount, hasBits s.chan.ctrlReg xilinxDmaCrCyclicBdEnMask,
      hasBits s.chan.ctrlReg xilinxDmaCrRunstopMask)) =
        some (false, false, true, 0, false, false) := by
    decide +kernel
  obtain ⟨s, s₁, s₂, hs, hfree, halloc, hlook⟩ := reacquiredAfter_eq_some hrun
  simp only [Prod.mk.injEq] at hlook
  obtain ⟨hcyclic, herr, hidle, hcount, hcyclicBit, hrunstopBit⟩ := hlook
  have hclean : LeftClean s.chan := ⟨hcyclic, herr, hidle, hcount, hcyclicBit, hrunstopBit⟩
  exact ⟨s, s₁, s₂, hs, hfree, halloc, (reacquired_fresh_iff hfree halloc).mpr hclean⟩

/-- A client that releases the channel with its transfer in flight leaves it busy for the next. -/
theorem startedRun_not_fresh :
    ¬ ∀ s s₁ s₂ : VxdmaSys .addr32, Reachable callStep always (probed true 0 0) s →
      s.cleanup = .idle → s.callStep .freeChanResources = some s₁ →
      s₁.callStep (.allocChanResources (some 0)) = some s₂ →
      FreshChannel 0 s.chan.pools s₂.chan := by
  intro hclaim
  have hrun : reacquiredAfter startedRun (fun s s₂ => (s.cleanup, s₂.chan.idle)) =
      some (.idle, false) := by
    decide +kernel
  obtain ⟨s, s₁, s₂, hs, hfree, halloc, h⟩ := reacquiredAfter_eq_some hrun
  simp only [Prod.mk.injEq] at h
  have hreach : Reachable callStep always (probed true 0 0) s :=
    Reachable.of_exec (Reachable.execOk_of_forall fun _ _ _ => trivial) hs
  have hidle := (hclaim s s₁ s₂ hreach h.1 hfree halloc).idle
  rw [h.2] at hidle
  cases hidle

end VxdmaSys

end PetalinuxDriver
