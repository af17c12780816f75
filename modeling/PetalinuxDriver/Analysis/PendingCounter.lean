import Mathlib.Tactic.IntervalCases
import PetalinuxDriver.Analysis.Queues

/-!
# The counter of pending descriptors

`desc_pendingcount` goes up with every descriptor that is queued and back to zero when the queue
is started, and goes into the coalesce field of the control register. The two functions that empty
the queue without starting it, `xilinx_dma_terminate_all` and `xilinx_dma_free_chan_resources`,
leave it as it was.

In a run that calls these two only with an empty queue the counter is the length of the queue
(`pending_counted`). The queue then never grows past 255, because its descriptors hold different
segments of one pool, so that the `BUG()` of `append_desc_queue` is out of reach. A client can get
around this argument only with descriptors that it prepared before a release.
-/

set_option autoImplicit false

namespace PetalinuxDriver

open Library

variable {cfg : PhysAddrConfig}

/-! ## The fields of the control register -/

/-- Bits 23:16 of the control register. -/
def coalesceField (v : BitVec 32) : BitVec 8 := v.extractLsb' 16 8

/-- Bits 31:24 of the control register. -/
def delayField (v : BitVec 32) : BitVec 8 := v.extractLsb' 24 8

/-- The coalescing field that a start writes is the count. -/
theorem coalesceField_set (v : BitVec 32) (n : Nat) :
    coalesceField ((v &&& ~~~xilinxDmaCrCoalesceMax) |||
      (BitVec.ofNat 32 n <<< xilinxDmaCrCoalesceShift)) = BitVec.ofNat 8 n := by
  ext i hi
  have hmask : xilinxDmaCrCoalesceMax.getLsbD (16 + i) = true := by
    interval_cases i <;> decide
  have hword : 16 + i < 32 ∧ i < 32 := by omega
  simp [coalesceField, xilinxDmaCrCoalesceShift, hmask, hword, BitVec.getLsbD_ofNat,
    ← BitVec.getLsbD_eq_getElem, hi]

/-- The delay field is not touched by a count that fits. -/
theorem delayField_set (v : BitVec 32) {n : Nat} (hn : n ≤ xilinxDmaCoalesceMax) :
    delayField ((v &&& ~~~xilinxDmaCrCoalesceMax) |||
      (BitVec.ofNat 32 n <<< xilinxDmaCrCoalesceShift)) = delayField v := by
  ext i hi
  have hmask : xilinxDmaCrCoalesceMax.getLsbD (24 + i) = false := by
    interval_cases i <;> decide
  have hbit : n.testBit (24 + i - 16) = false := by
    have hlt : n < 2 ^ 8 := by
      unfold xilinxDmaCoalesceMax at hn
      omega
    exact Nat.testBit_lt_two_pow (hlt.trans_le (Nat.pow_le_pow_right (by omega) (by omega)))
  have hshift : (BitVec.ofNat 32 n).getLsbD (24 + i - 16) = false := by
    rw [BitVec.getLsbD_ofNat, hbit, Bool.and_false]
  simp [delayField, xilinxDmaCrCoalesceShift, hmask, hshift]
  omega

/-- The run bit is outside the coalescing field. -/
theorem coalesceField_runstop (v : BitVec 32) :
    coalesceField (v ||| xilinxDmaCrRunstopMask) = coalesceField v := by
  ext i hi
  have hmask : xilinxDmaCrRunstopMask.getLsbD (16 + i) = false := by
    interval_cases i <;> decide
  simp [coalesceField, hmask]

/-- The run bit is outside the delay field. -/
theorem delayField_runstop (v : BitVec 32) :
    delayField (v ||| xilinxDmaCrRunstopMask) = delayField v := by
  ext i hi
  have hmask : xilinxDmaCrRunstopMask.getLsbD (24 + i) = false := by
    interval_cases i <;> decide
  simp [delayField, hmask]

/-! ## What a start writes -/

/-- A start from this state writes the control register, and each value that it writes there has
the number of descriptors of the batch in its coalesce field and the old delay field. -/
def StartWritesCount (t : XilinxDmaChan cfg) (startOk : Bool) : Prop :=
  ∃ written, (xilinxDmaStartTransfer startOk t).log = t.log ++ written ∧
    (∃ v, .iowrite32 (t.ctrlOffset + xilinxDmaRegControl) v ∈ written) ∧
    ∀ v, .iowrite32 (t.ctrlOffset + xilinxDmaRegControl) v ∈ written →
      (coalesceField v).toNat = t.pendingList.length ∧ delayField v = delayField t.ctrlReg

/-- The write of an address is at its own register. -/
theorem mem_addrWrite {offset offset' n : Nat} {v : BitVec 32} {value : BitVec n}
    (h : Event.iowrite32 offset v = addrWrite cfg offset' value) : offset = offset' := by
  cases cfg with
  | addr32 => exact (Event.iowrite32.inj h).1
  | addr64 => cases h

/-- The writes to the control register on the way to a start. -/
theorem startEvents_control {t : XilinxDmaChan cfg} {headDesc : XilinxDmaTxDescriptor cfg}
    (hcount : t.descPendingcount ≤ xilinxDmaCoalesceMax) {v : BitVec 32}
    (h : .iowrite32 (t.ctrlOffset + xilinxDmaRegControl) v ∈ startEvents t headDesc) :
    v = coalesced t ∨ v = startCtrl t := by
  simp only [startEvents, hcount, if_true, List.mem_append, List.mem_singleton,
    Event.iowrite32.injEq] at h
  rcases h with (h | h) | h
  · exact Or.inl h.2
  · split at h
    · have := mem_addrWrite (List.mem_singleton.mp h)
      unfold xilinxDmaRegControl xilinxDmaRegCurdesc at this
      omega
    · cases h
  · exact Or.inr h.2

/-- The writes that hand over the batch do not touch the control register. -/
theorem goEvents_control {t : XilinxDmaChan cfg} {headDesc tailDesc : XilinxDmaTxDescriptor cfg}
    {v : BitVec 32} :
    .iowrite32 (t.ctrlOffset + xilinxDmaRegControl) v ∉ goEvents t headDesc tailDesc := by
  intro h
  unfold goEvents at h
  split at h
  · have := mem_addrWrite (List.mem_singleton.mp h)
    unfold xilinxDmaRegControl xilinxDmaRegTaildesc at this
    omega
  · simp only [List.mem_cons, List.not_mem_nil, or_false, Event.iowrite32.injEq] at h
    rcases h with h | h
    · have := mem_addrWrite h
      unfold xilinxDmaRegControl xilinxDmaRegSrcdstaddr at this
      omega
    · have := h.1
      unfold xilinxDmaRegControl xilinxDmaRegBtt at this
      omega

/-- With a counter that is right, a start writes what it should. -/
theorem startWritesCount {t : XilinxDmaChan cfg} (startOk : Bool) (hstart : canStart t = true)
    (hcount : t.descPendingcount = t.pendingList.length)
    (hle : t.pendingList.length ≤ xilinxDmaCoalesceMax) : StartWritesCount t startOk := by
  obtain ⟨headDesc, rest, hp⟩ := List.exists_cons_of_ne_nil ((canStart_iff t).mp hstart).2.1
  have hle' : t.descPendingcount ≤ xilinxDmaCoalesceMax := hcount ▸ hle
  have hcoalesced : coalesced t = (t.ctrlReg &&& ~~~xilinxDmaCrCoalesceMax) |||
      (BitVec.ofNat 32 t.pendingList.length <<< xilinxDmaCrCoalesceShift) := by
    rw [coalesced, if_pos hle', hcount]
  have hfields : ∀ v, v = coalesced t ∨ v = startCtrl t →
      (coalesceField v).toNat = t.pendingList.length ∧ delayField v = delayField t.ctrlReg := by
    have hmod : t.pendingList.length % 2 ^ 8 = t.pendingList.length := by
      unfold xilinxDmaCoalesceMax at hle
      omega
    rintro v (rfl | rfl)
    · rw [hcoalesced, coalesceField_set, delayField_set _ hle, BitVec.toNat_ofNat]
      exact ⟨hmod, rfl⟩
    · rw [startCtrl, coalesceField_runstop, delayField_runstop, hcoalesced, coalesceField_set,
        delayField_set _ hle, BitVec.toNat_ofNat]
      exact ⟨hmod, rfl⟩
  have hwritten : .iowrite32 (t.ctrlOffset + xilinxDmaRegControl) (startCtrl t) ∈
      startEvents t headDesc := by
    simp [startEvents]
  cases startOk with
  | false =>
    refine ⟨startEvents t headDesc, by rw [startTransfer_timeout hp hstart], ⟨_, hwritten⟩, ?_⟩
    exact fun v hv => hfields v (startEvents_control hle' hv)
  | true =>
    refine ⟨startEvents t headDesc ++ goEvents t headDesc _,
      by rw [startTransfer_started hp hstart, List.append_assoc],
      ⟨_, List.mem_append_left _ hwritten⟩, fun v hv => ?_⟩
    rcases List.mem_append.mp hv with hv | hv
    · exact hfields v (startEvents_control hle' hv)
    · exact absurd hv goEvents_control

/-! ## The counter over a run -/

/-- No cookie is below `DMA_MIN_COOKIE`. -/
theorem dmaMinCookie_le_nextCookie (s : XilinxDmaChan cfg) : dmaMinCookie ≤ nextCookie s := by
  simp only [nextCookie, dmaCookieAssign]
  split <;> omega

/-- `BUG_ON` stays quiet when all active cookies are valid. -/
theorem any_completeBug {ds : List (XilinxDmaTxDescriptor cfg)}
    (h : ∀ d ∈ ds, dmaMinCookie ≤ d.cookie) : ds.any completeBug = false := by
  rw [List.any_eq_false]
  intro d hd
  have := h d hd
  simp only [completeBug, Bool.and_eq_true, decide_eq_true_eq, not_and]
  intro _
  omega

namespace VxdmaSys

/-- The two ways to go wrong are left out: `xilinx_dma_terminate_all` and
`xilinx_dma_free_chan_resources` find an empty queue, and a submit that finds 255 queued
descriptors involves no descriptor left over from a released pool. -/
def QueueGuard (s : VxdmaSys cfg) : Op cfg → Prop
  | .txSubmit i _ _ => ∀ d ∈ s.prepared[i]?,
      s.FromPool (s.chan.pendingList ++ [d]) ∨ s.chan.pendingList.length < xilinxDmaCoalesceMax
  | .terminateAll _ => s.chan.pendingList = []
  | .freeChanResources => s.chan.pendingList = []
  | _ => True

instance (s : VxdmaSys cfg) : (op : Op cfg) → Decidable (s.QueueGuard op)
  | .txSubmit i _ _ => inferInstanceAs (Decidable (∀ d ∈ s.prepared[i]?,
      s.FromPool (s.chan.pendingList ++ [d]) ∨ s.chan.pendingList.length < xilinxDmaCoalesceMax))
  | .terminateAll _ => inferInstanceAs (Decidable (s.chan.pendingList = []))
  | .freeChanResources => inferInstanceAs (Decidable (s.chan.pendingList = []))
  | .prepSlaveSg _ => isTrue trivial
  | .prepDmaCyclic _ => isTrue trivial
  | .issuePending _ => isTrue trivial
  | .interrupt _ _ => isTrue trivial
  | .allocChanResources _ => isTrue trivial
  | .tasklet => isTrue trivial
  | .callbackReturn => isTrue trivial
  | .device _ _ _ => isTrue trivial

/-- What `desc_pendingcount` is for: it counts the queue, no `BUG()` was hit, and every start from
here tells the device the size of its batch. -/
structure PendingCounted (s : VxdmaSys cfg) : Prop where
  count : s.chan.descPendingcount = s.chan.pendingList.length
  noBug : s.chan.bug = false
  starts : ∀ op t startOk, s.startEntry op = some (t, startOk) → canStart t = true →
    StartWritesCount t startOk

/-- The invariant behind it. -/
structure CountInv (s : VxdmaSys cfg) : Prop where
  once : OwnedOnce s
  count : s.chan.descPendingcount = s.chan.pendingList.length
  le : s.chan.pendingList.length ≤ xilinxDmaCoalesceMax
  noBug : s.chan.bug = false
  cookies : ∀ d ∈ s.chan.pendingList ++ s.chan.activeList, dmaMinCookie ≤ d.cookie

/-- The live pool bounds the queues. -/
theorem length_le_of_fromPool {s : VxdmaSys cfg} {ds : List (XilinxDmaTxDescriptor cfg)}
    (hnodup : (segsOf ds).Nodup) (hpool : s.FromPool ds) : ds.length ≤ xilinxDmaNumDescs := by
  cases hv : s.chan.segV with
  | none =>
    have hnil : segsOf ds = [] := List.eq_nil_iff_forall_not_mem.mpr fun p hp => by
      have := hpool p hp
      rw [hv] at this
      cases this
    rw [segsOf_eq_nil.mp hnil]
    exact Nat.zero_le _
  | some pool =>
    exact length_le_of_pool hnodup fun p hp => (Option.some.inj (hv ▸ hpool p hp)).symm

/-- A guarded submit finds room. -/
theorem CountInv.room {s : VxdmaSys cfg} (hs : CountInv s) {i : Nat} {callback : Option Nat}
    {env : ResetEnv} {d : XilinxDmaTxDescriptor cfg} (hd : s.prepared[i]? = some d)
    (hok : s.QueueGuard (.txSubmit i callback env)) :
    s.chan.pendingList.length < xilinxDmaCoalesceMax := by
  rcases hok d hd with hpool | hlt
  · have hle := length_le_of_fromPool (hs.once.pending_nodup hd) hpool
    rw [List.length_append, List.length_singleton] at hle
    unfold xilinxDmaCoalesceMax
    unfold xilinxDmaNumDescs at hle
    omega
  · exact hlt

/-- The start of the queue resets the counter. -/
theorem startTransfer_countInv (startOk : Bool) {t : XilinxDmaChan cfg}
    (hcount : t.descPendingcount = t.pendingList.length)
    (hle : t.pendingList.length ≤ xilinxDmaCoalesceMax)
    (hcookies : ∀ d ∈ t.pendingList ++ t.activeList, dmaMinCookie ≤ d.cookie) :
    (xilinxDmaStartTransfer startOk t).descPendingcount =
        (xilinxDmaStartTransfer startOk t).pendingList.length ∧
      (xilinxDmaStartTransfer startOk t).pendingList.length ≤ xilinxDmaCoalesceMax ∧
      (xilinxDmaStartTransfer startOk t).bug = t.bug ∧
      ∀ d ∈ (xilinxDmaStartTransfer startOk t).pendingList ++
        (xilinxDmaStartTransfer startOk t).activeList, dmaMinCookie ≤ d.cookie := by
  rcases startTransfer_cases startOk t with ⟨-, h⟩ | ⟨-, -, c, w, -, h⟩ | ⟨-, -, c, w, -, h⟩ <;>
    rw [h]
  · exact ⟨hcount, hle, rfl, hcookies⟩
  · exact ⟨hcount, hle, rfl, hcookies⟩
  · refine ⟨rfl, Nat.zero_le _, rfl, fun d hd => hcookies d ?_⟩
    simp only [List.nil_append, List.mem_append] at hd ⊢
    exact hd.symm

/-- In the state of a start the counter is right, and there was no `BUG_ON` on the way. -/
theorem CountInv.startEntry {s : VxdmaSys cfg} (hs : CountInv s) {op : Op cfg}
    {t : XilinxDmaChan cfg} {startOk : Bool} (h : s.startEntry op = some (t, startOk)) :
    t.descPendingcount = t.pendingList.length ∧ t.pendingList.length ≤ xilinxDmaCoalesceMax ∧
      t.bug = false ∧ ∀ d ∈ t.pendingList ++ t.activeList, dmaMinCookie ≤ d.cookie := by
  rcases startEntry_cases h with ⟨-, rfl⟩ | ⟨status, -, -, rfl⟩
  · exact ⟨hs.count, hs.le, hs.noBug, hs.cookies⟩
  · have hquiet : s.chan.activeList.any completeBug = false :=
      any_completeBug fun d hd => hs.cookies d (List.mem_append_right _ hd)
    simp only [irqAck_eq, irqComplete_eq, hquiet, hs.noBug, List.append_nil]
    exact ⟨hs.count, hs.le, rfl, fun d hd => hs.cookies d (List.mem_append_left _ hd)⟩

/-- One guarded action keeps the invariant. -/
theorem callStep_countInv {s s' : VxdmaSys cfg} {op : Op cfg} (hs : CountInv s)
    (hok : s.QueueGuard op) (h : s.callStep op = some s') : CountInv s' := by
  have honce := callStep_ownedOnce hs.once h
  rcases callStep_queues h with
    hsame | ⟨i, callback, env, d, c, w, rfl, hd, -, -, hchan⟩ | ⟨t, startOk, hentry, hsame⟩ |
    ⟨hdrop, hsame⟩
  · refine ⟨honce, ?_, ?_, hsame.bug.trans hs.noBug, ?_⟩
    · rw [hsame.descPendingcount, hsame.pendingList, hs.count]
    · rw [hsame.pendingList]
      exact hs.le
    · rw [hsame.pendingList, hsame.activeList]
      exact hs.cookies
  · have hroom := hs.room hd hok
    have hqueued := submitLocked_queued { d with callback := callback }
      (s := resetFor s.chan c w) hs.noBug (by rw [← hs.count] at hroom; exact hroom)
    rw [hqueued] at hchan
    refine ⟨honce, ?_, ?_, ?_, ?_⟩ <;> rw [hchan]
    · simp [resetFor, hs.count]
    · simp only [resetFor, List.length_append, List.length_singleton]
      omega
    · exact hs.noBug
    · intro e he
      simp only [resetFor, List.mem_append, List.mem_singleton] at he
      rcases he with (he | rfl) | he
      · exact hs.cookies e (List.mem_append_left _ he)
      · exact dmaMinCookie_le_nextCookie _
      · exact hs.cookies e (List.mem_append_right _ he)
  · obtain ⟨hcount, hle, hbug, hcookies⟩ := hs.startEntry hentry
    obtain ⟨hcount', hle', hbug', hcookies'⟩ :=
      startTransfer_countInv startOk hcount hle hcookies
    refine ⟨honce, ?_, ?_, (hsame.bug.trans hbug').trans hbug, ?_⟩
    · rw [hsame.descPendingcount, hsame.pendingList, hcount']
    · rw [hsame.pendingList]
      exact hle'
    · rw [hsame.pendingList, hsame.activeList]
      exact hcookies'
  · -- the counter stays, so it is right only because the queue was empty
    have hempty : s.chan.pendingList = [] := by
      cases op with
      | terminateAll haltOk => exact hok
      | freeChanResources => exact hok
      | _ => cases hdrop
    refine ⟨honce, ?_, ?_, hsame.bug.trans hs.noBug, ?_⟩
    · rw [hsame.descPendingcount, hsame.pendingList]
      change s.chan.descPendingcount = 0
      rw [hs.count, hempty]
      rfl
    · rw [hsame.pendingList]
      exact Nat.zero_le _
    · rw [hsame.pendingList, hsame.activeList]
      simp

/-- After the probe nothing is counted. -/
theorem probed_countInv (hasSg : Bool) (ctrlOffset : Nat) (dmacr : BitVec 32) :
    CountInv (probed hasSg ctrlOffset dmacr : VxdmaSys cfg) :=
  ⟨probed_ownedOnce _ _ _, rfl, Nat.zero_le _, rfl, by simp [probed, probedChan,
    xilinxDmaChanReset, kzallocChan, XilinxDmaChan.dmaCtrlWrite, XilinxDmaChan.emit]⟩

/-- **The pending counter.** In every run from the probe in which the lists are emptied only with
an empty queue, and 255 queued descriptors are joined by none from a released pool, the counter is
the length of the queue, `BUG()` is not reached, and every start writes the size of its batch into
the coalesce field and leaves the delay field alone. -/
theorem pending_counted {hasSg : Bool} {ctrlOffset : Nat} {dmacr : BitVec 32} {s : VxdmaSys cfg}
    (h : Reachable callStep QueueGuard (probed hasSg ctrlOffset dmacr) s) : PendingCounted s := by
  have hinv : CountInv s :=
    h.invariant (probed_countInv _ _ _) fun _ _ _ hs hok hstep => callStep_countInv hs hok hstep
  refine ⟨hinv.count, hinv.noBug, fun op t startOk hentry hstart => ?_⟩
  obtain ⟨hcount, hle, -, -⟩ := hinv.startEntry hentry
  exact startWritesCount startOk hstart hcount hle

/-- A descriptor is queued, started and completed before the channel is terminated. -/
def terminatedIdle : List (Op .addr32) :=
  [.allocChanResources (some 0), .prepSlaveSg ⟨[⟨0, 1⟩], .memToDev, none, true⟩,
    .txSubmit 0 none ⟨0, true⟩, .issuePending true, .interrupt xilinxDmaXrIrqIocMask true,
    .terminateAll true]

/-- A terminate of a channel on which nothing waits leaves the count right. -/
theorem pending_counted_terminatedIdle :
    ∃ s, exec callStep (probed true 0 0) terminatedIdle = some s ∧ s.PendingCounted := by
  obtain ⟨s, hs⟩ := Option.isSome_iff_exists.mp
    (show (exec callStep (probed true 0 0) terminatedIdle).isSome by decide +kernel)
  have hrun : Reachable callStep QueueGuard (probed true 0 0) s :=
    Reachable.of_exec (by decide +kernel) hs
  exact ⟨s, hs, pending_counted hrun⟩

/-- A counter that is right stays right when the lists are dropped just when the queue is empty. -/
theorem dropsLists_count_iff {s s' : VxdmaSys cfg} {op : Op cfg} (hdrop : op.dropsLists = true)
    (hs : s.chan.descPendingcount = s.chan.pendingList.length) (h : s.callStep op = some s') :
    s'.chan.descPendingcount = s'.chan.pendingList.length ↔ s.chan.pendingList = [] := by
  have hsame := callStep_dropsLists hdrop h
  rw [hsame.descPendingcount, hsame.pendingList]
  change s.chan.descPendingcount = 0 ↔ _
  rw [hs, List.length_eq_zero_iff]

/-- Terminated with a descriptor still in the queue, the channel counts it for ever. -/
theorem pending_miscounted :
    ¬ ∀ s : VxdmaSys .addr32, Reachable callStep always (probed true 0 0) s →
      s.PendingCounted := by
  intro hclaim
  have hrun : (exec callStep (probed true 0 0) [.allocChanResources (some 0),
      .prepSlaveSg ⟨[⟨0, 1⟩], .memToDev, none, true⟩, .txSubmit 0 none ⟨0, true⟩,
      .terminateAll true]).map (fun s : VxdmaSys .addr32 =>
        (s.chan.descPendingcount, s.chan.pendingList.length)) = some (1, 0) := by
    decide +kernel
  obtain ⟨s, hs, hcounts⟩ := Option.map_eq_some_iff.mp hrun
  have hcount := (hclaim s (Reachable.of_exec
    (Reachable.execOk_of_forall fun _ _ _ => trivial) hs)).count
  simp only [Prod.mk.injEq] at hcounts
  omega

end VxdmaSys

end PetalinuxDriver
