import PetalinuxDriver.Analysis.Queues

/-!
# The idle flag

`idle` goes down when a batch moves to `active_list` and up when the interrupt handler completes
it. `xilinx_dma_terminate_all` also empties `active_list`, and `xilinx_dma_free_chan_resources`
does, but neither of them raises the flag: after that no start gets past it, and no interrupt
comes that would raise it.

In a run in which these two find nothing active, the flag says exactly that nothing is active
(`idle_exact`).
-/

set_option autoImplicit false

namespace PetalinuxDriver

open Library

variable {cfg : PhysAddrConfig}

/-- The start gets past its guards: it writes the control registers, and when the engine runs it
hands over the pending list and moves it to `active_list`. -/
def Programs (t : XilinxDmaChan cfg) (startOk : Bool) : Prop :=
  ∃ headDesc tailDesc, t.pendingList.head? = some headDesc ∧
    t.pendingList.getLast? = some tailDesc ∧
    (xilinxDmaStartTransfer startOk t).log = t.log ++ startEvents t headDesc ++
      (if startOk then goEvents t headDesc tailDesc else []) ∧
    (startOk = true →
      (xilinxDmaStartTransfer startOk t).activeList = t.activeList ++ t.pendingList ∧
        (xilinxDmaStartTransfer startOk t).pendingList = [])

/-- What passes the checks programs the engine when it starts. -/
theorem programs_of_canStart (startOk : Bool) {t : XilinxDmaChan cfg} (h : canStart t = true) :
    Programs t startOk := by
  obtain ⟨headDesc, rest, hp⟩ := List.exists_cons_of_ne_nil ((canStart_iff t).mp h).2.1
  refine ⟨headDesc, (headDesc :: rest).getLast (List.cons_ne_nil _ _), by rw [hp]; rfl, ?_, ?_⟩
  · rw [hp, List.getLast?_eq_some_getLast (List.cons_ne_nil _ _)]
  · cases startOk with
    | false =>
      rw [startTransfer_timeout hp h]
      simp
    | true =>
      rw [startTransfer_started hp h]
      simp

/-- A submit touches neither `active_list` nor the flag. -/
theorem submitLocked_idle (d : XilinxDmaTxDescriptor cfg) {s : XilinxDmaChan cfg}
    (hbug : s.bug = false) :
    (submitLocked d s).1.activeList = s.activeList ∧ (submitLocked d s).1.idle = s.idle := by
  by_cases h : s.descPendingcount < xilinxDmaCoalesceMax
  · rw [submitLocked_queued d hbug h]
    exact ⟨rfl, rfl⟩
  · rw [submitLocked_bug d (by omega)]
    exact ⟨rfl, rfl⟩

namespace VxdmaSys

/-- `xilinx_dma_terminate_all` and `xilinx_dma_free_chan_resources` find nothing active. -/
def NothingActive (s : VxdmaSys cfg) (op : Op cfg) : Prop :=
  op.dropsLists = true → s.chan.activeList = []

instance (s : VxdmaSys cfg) (op : Op cfg) : Decidable (s.NothingActive op) :=
  inferInstanceAs (Decidable (op.dropsLists = true → s.chan.activeList = []))

/-- The flag says whether nothing is active. -/
def IdleInv (s : XilinxDmaChan cfg) : Prop := s.idle = true ↔ s.activeList = []

/-- What the flag is for. -/
structure IdleExact (s : VxdmaSys cfg) : Prop where
  idle_iff : IdleInv s.chan
  /-- An issue on a channel without error and with nothing active starts what is pending. -/
  issues : ∀ startOk, s.chan.err = false → s.chan.activeList = [] → s.chan.pendingList ≠ [] →
    Programs s.chan startOk
  /-- A batch is spliced into an empty `active_list` only. -/
  splices : ∀ op t startOk, s.startEntry op = some (t, startOk) → canStart t = true →
    t.activeList = []

/-- A start keeps the flag right: it moves at least one descriptor when it lowers it. -/
theorem startTransfer_idleInv (startOk : Bool) {t : XilinxDmaChan cfg} (ht : IdleInv t) :
    IdleInv (xilinxDmaStartTransfer startOk t) := by
  rcases startTransfer_cases startOk t with ⟨-, h⟩ | ⟨-, -, c, w, -, h⟩ | ⟨hstart, -, c, w, -, h⟩
  · rwa [h]
  · rw [h]
    exact ht
  · have hne : t.activeList ++ t.pendingList ≠ [] := by
      simp [((canStart_iff t).mp hstart).2.1]
    rw [h]
    simp [IdleInv, hne]

/-- The flag is right where an action starts the engine. -/
theorem startEntry_idleInv {s : VxdmaSys cfg} {op : Op cfg} {t : XilinxDmaChan cfg}
    {startOk : Bool} (hs : IdleInv s.chan) (h : s.startEntry op = some (t, startOk)) :
    IdleInv t := by
  rcases startEntry_cases h with ⟨-, rfl⟩ | ⟨status, -, -, rfl⟩
  · exact hs
  · rw [irqComplete_eq]
    simp [IdleInv]

/-- Only the queues and the flag matter. -/
theorem IdleInv.of_sameQueues {s s' : XilinxDmaChan cfg} (hs : IdleInv s)
    (h : SameQueues s s') : IdleInv s' := by
  unfold IdleInv
  rw [h.idle, h.activeList]
  exact hs

/-- One guarded action keeps the flag right. -/
theorem callStep_idleInv {s s' : VxdmaSys cfg} {op : Op cfg} (hs : IdleInv s.chan)
    (hok : s.NothingActive op) (h : s.callStep op = some s') : IdleInv s'.chan := by
  rcases callStep_queues h with
    hsame | ⟨i, callback, env, d, c, w, rfl, hd, -, -, hchan⟩ | ⟨t, startOk, hentry, hsame⟩ |
    ⟨hdrop, hsame⟩
  · exact hs.of_sameQueues hsame
  · obtain ⟨hactive, hidle⟩ := submitLocked_idle { d with callback := callback }
      (s := resetFor s.chan c w) (callStep_inv h).1
    rw [hchan, IdleInv, hactive, hidle]
    exact hs
  · exact (startTransfer_idleInv startOk (startEntry_idleInv hs hentry)).of_sameQueues hsame
  · have hidle : s.chan.idle = true := hs.mpr (hok hdrop)
    unfold IdleInv
    rw [hsame.idle, hsame.activeList]
    exact ⟨fun _ => rfl, fun _ => hidle⟩

/-- When the flag is right, it stays right over a drop of the lists just when nothing is active. -/
theorem dropsLists_idleInv_iff {s s' : VxdmaSys cfg} {op : Op cfg} (hdrop : op.dropsLists = true)
    (hs : IdleInv s.chan) (h : s.callStep op = some s') :
    IdleInv s'.chan ↔ s.chan.activeList = [] := by
  have hsame := callStep_dropsLists hdrop h
  unfold IdleInv
  rw [hsame.idle, hsame.activeList]
  simp only [iff_true]
  exact hs

/-- **The idle flag.** In every run from the probe in which the lists are dropped only with
nothing active: `idle` is true exactly when `active_list` is empty, an issue on a channel without
error and with nothing active starts whatever is pending, and a batch only ever starts alone. -/
theorem idle_exact {hasSg : Bool} {ctrlOffset : Nat} {dmacr : BitVec 32} {s : VxdmaSys cfg}
    (h : Reachable callStep NothingActive (probed hasSg ctrlOffset dmacr) s) : IdleExact s := by
  have hprobed : IdleInv (probed hasSg ctrlOffset dmacr : VxdmaSys cfg).chan :=
    ⟨fun _ => rfl, fun _ => rfl⟩
  have hinv : IdleInv s.chan := by
    let Inv : VxdmaSys cfg → Prop := fun s => IdleInv s.chan
    have hrun : Inv s := h.invariant hprobed
      fun _ _ _ hs hok hstep => callStep_idleInv hs hok hstep
    exact hrun
  refine ⟨hinv, fun startOk herr hactive hpending => ?_, fun op t startOk hentry hstart => ?_⟩
  · exact programs_of_canStart startOk ((canStart_iff _).mpr ⟨herr, hpending, hinv.mpr hactive⟩)
  · exact (startEntry_idleInv hinv hentry).mp ((canStart_iff t).mp hstart).2.2

/-- Two batches after each other, with a terminate in between. -/
def terminatedBetween : List (Op .addr32) :=
  [.allocChanResources (some 0), .prepSlaveSg ⟨[⟨0, 1⟩], .memToDev, none, true⟩,
    .prepSlaveSg ⟨[⟨0, 1⟩], .memToDev, none, true⟩, .txSubmit 0 none ⟨0, true⟩,
    .issuePending true, .interrupt xilinxDmaXrIrqIocMask true, .terminateAll true,
    .txSubmit 0 none ⟨0, true⟩, .issuePending true]

/-- A terminate between two transfers leaves the flag right. -/
theorem idle_exact_terminatedBetween :
    ∃ s, exec callStep (probed true 0 0) terminatedBetween = some s ∧ s.IdleExact := by
  obtain ⟨s, hs⟩ := Option.isSome_iff_exists.mp
    (show (exec callStep (probed true 0 0) terminatedBetween).isSome by decide +kernel)
  have hrun : Reachable callStep NothingActive (probed true 0 0) s :=
    Reachable.of_exec (by decide +kernel) hs
  exact ⟨s, hs, idle_exact hrun⟩

/-- Terminated with a batch in flight, the channel has nothing active and is not idle. -/
theorem idle_inexact :
    ¬ ∀ s : VxdmaSys .addr32, Reachable callStep always (probed true 0 0) s → s.IdleExact := by
  intro hclaim
  have hrun : (exec callStep (probed true 0 0) [.allocChanResources (some 0),
      .prepSlaveSg ⟨[⟨0, 1⟩], .memToDev, none, true⟩, .txSubmit 0 none ⟨0, true⟩,
      .issuePending true, .terminateAll true]).map (fun s : VxdmaSys .addr32 =>
        (s.chan.idle, s.chan.activeList)) = some (false, []) := by
    decide +kernel
  obtain ⟨s, hs, hflag⟩ := Option.map_eq_some_iff.mp hrun
  simp only [Prod.mk.injEq] at hflag
  have hexact := (hclaim s (Reachable.of_exec
    (Reachable.execOk_of_forall fun _ _ _ => trivial) hs)).idle_iff
  rw [IdleInv, hflag.1, hflag.2] at hexact
  simp at hexact

end VxdmaSys

end PetalinuxDriver
