import PetalinuxDriver.Analysis.ChannelTable

/-!
# What a failed probe gives back

When `xilinx_dma_probe` fails, it calls `xilinx_dma_chan_remove` for the entries 0 and 1 of the
table. Each channel that was probed holds an irq, a tasklet and a place on `common.channels`; what
is in the table may be one of these channels, one that failed after it was stored, or nothing.

`probeUnwinds_iff` says when the two fit: at most one channel was probed, an mm2s channel with an
irq number above zero, the child that failed, if one did, had not put itself into entry 1, and a
device that is unregistered had been registered.
-/

set_option autoImplicit false

namespace PetalinuxDriver

open Library LedgerEntry

variable {cfg : PhysAddrConfig}

/-! ## What the loop over the table releases -/

/-- The resources of the channel in entry 1, as `xilinx_dma_chan_remove` sees them. -/
def released (xdev : XilinxDmaDevice cfg) : List DmaResource :=
  match xdev.chan 1 with
  | none => []
  | some n =>
    match xdev.allocs[n]? with
    | none => []
    | some c => (if c.irq > 0 then [.irq n] else []) ++ [.tasklet n, .deviceNode n]

/-- The removal appends what it releases. -/
theorem removeChans_ledger {xdev : XilinxDmaDevice cfg} (h : xdev.chan 0 = none) :
    (removeChans xdev).ledger = xdev.ledger ++ (released xdev).map release := by
  rw [removeChans_eq h]
  unfold released
  cases xdev.chan 1 with
  | none => simp
  | some n =>
    simp only [xilinxDmaChanRemove]
    cases xdev.allocs[n]? with
    | none => simp
    | some c => by_cases hirq : c.irq > 0 <;> simp [hirq]

/-- The removal releases three resources at most. -/
theorem released_length_le (xdev : XilinxDmaDevice cfg) : (released xdev).length ≤ 3 := by
  unfold released
  split
  · simp
  · split
    · simp
    · split <;> simp

/-- A tasklet is released with its channel only. -/
theorem tasklet_mem_released {xdev : XilinxDmaDevice cfg} {n : Nat}
    (h : DmaResource.tasklet n ∈ released xdev) : xdev.chan 1 = some n := by
  unfold released at h
  split at h
  · simp at h
  · rename_i k hk
    split at h
    · simp at h
    · split at h <;> simp_all

/-- The removal frees an irq only of a channel that has a number above zero. -/
theorem irq_mem_released {xdev : XilinxDmaDevice cfg} {n : Nat}
    (h : DmaResource.irq n ∈ released xdev) : ∃ c, xdev.allocs[n]? = some c ∧ c.irq > 0 := by
  unfold released at h
  split at h
  · simp at h
  · split at h
    · simp at h
    · rename_i k hk c hc
      split at h
      · rename_i hirq
        simp only [List.cons_append, List.nil_append, List.mem_cons, DmaResource.irq.injEq,
          reduceCtorEq, List.not_mem_nil, or_false] at h
        rw [h]
        exact ⟨c, hc, hirq⟩
      · simp at h

/-- The tasklets of the first channels are acquired. -/
theorem tasklet_mem_acquired {n k : Nat} : DmaResource.tasklet n ∈ acquired k ↔ n < k := by
  simp [acquired, chanResources]

/-- The irqs of the first channels are acquired. -/
theorem irq_mem_acquired {n k : Nat} : DmaResource.irq n ∈ acquired k ↔ n < k := by
  simp [acquired, chanResources]

/-- There are three resources for each channel. -/
theorem acquired_length (k : Nat) : (acquired k).length = 3 * k := by
  induction k with
  | zero => rfl
  | succ k ih =>
    simp only [acquired, List.range_succ, List.flatMap_append, List.length_append] at ih ⊢
    rw [ih]
    simp [chanResources]
    omega

/-- The channels are at most one, an mm2s channel with an irq. -/
def OneMm2s (children : List ChannelNode) : Prop :=
  children.length ≤ 1 ∧ ∀ child ∈ children, child.mm2s = true ∧ 0 < child.irq

/-- The loop releases what these channels acquired when there is at most one, an mm2s channel with
an irq. -/
theorem acquired_perm_released_iff {children : List ChannelNode} {xdev : XilinxDmaDevice cfg}
    (h : TableOf children xdev) :
    (acquired children.length).Perm (released xdev) ↔ OneMm2s children := by
  constructor
  · intro hperm
    have hlength : children.length ≤ 1 := by
      have hacquired := acquired_length children.length
      have hreleased := released_length_le xdev
      have := hperm.length_eq
      omega
    refine ⟨hlength, fun child hchild => ?_⟩
    obtain ⟨n, hn⟩ := List.mem_iff_getElem?.mp hchild
    have hlt := (List.getElem?_eq_some_iff.mp hn).1
    have htasklet := tasklet_mem_released (hperm.mem_iff.mp (tasklet_mem_acquired.mpr hlt))
    obtain ⟨node, hnode, hmm2s⟩ := h.entry1 n htasklet
    obtain ⟨c, hc, hirq⟩ := irq_mem_released (hperm.mem_iff.mp (irq_mem_acquired.mpr hlt))
    obtain ⟨c', hc', -, hirq'⟩ := h.alloc hn
    rw [hn] at hnode
    rw [hc] at hc'
    cases hnode
    cases hc'
    exact ⟨hmm2s, by omega⟩
  · rintro ⟨hlength, hall⟩
    match hchildren : children with
    | [] =>
      have hnone : xdev.chan 1 = none := by
        cases hentry : xdev.chan 1 with
        | none => rfl
        | some n => exact absurd (h.entry1_lt hentry) (Nat.not_lt_zero n)
      simp [released, hnone, acquired]
    | [child] =>
      obtain ⟨hmm2s, hirq⟩ := hall child List.mem_cons_self
      have hmem : 0 ∈ xdev.channels := by
        rw [h.channels]
        exact List.mem_range.mpr Nat.one_pos
      have hentry := h.entry1_of_single hlength (fun c hc => (hall c hc).1) hmem
      obtain ⟨c, hc, -, hcirq⟩ := h.alloc (n := 0) rfl
      have hpos : c.irq > 0 := by omega
      simp [released, hentry, hc, hpos, acquired, chanResources, List.range_succ]
    | _ :: _ :: _ => simp at hlength

/-! ## The child that fails -/

/-- A child that fails has put itself into entry 1, or has left the table alone. -/
theorem chanProbe_failed {children : List ChannelNode} {xdev xdev' : XilinxDmaDevice cfg}
    {child : ChannelNode} {err : Errno} (h : TableOf children xdev)
    (hstep : xilinxDmaChanProbe child xdev = (xdev', some err)) :
    xdev'.ledger = xdev.ledger ∧ xdev'.removed = [] ∧ xdev'.chan 0 = none ∧
      ∃ cs, xdev'.allocs = xdev.allocs ++ cs ∧
        ((child.stored = true ∧ child.mm2s = true ∧ cs ≠ [] ∧
            xdev'.chan 1 = some children.length) ∨
          (¬ (child.stored = true ∧ child.mm2s = true) ∧ xdev'.chan = xdev.chan)) := by
  have hinv := chanProbe_inv child xdev
  rw [hstep] at hinv
  cases hinv with
  | early a cs err hstored =>
    refine ⟨rfl, h.removed, h.entry0, cs, rfl, Or.inr ⟨?_, rfl⟩⟩
    simp [hstored]
  | late a low c err hstored hfail =>
    have hchan := XilinxDmaDevice.storeChan_chan child xdev.allocs.length low xdev
    cases hmm2s : child.mm2s with
    | false =>
      simp only [hmm2s, Bool.false_eq_true, if_false] at hchan
      refine ⟨by simp, by simp [h.removed], ?_, [c], rfl, Or.inr ⟨by simp, hchan⟩⟩
      change (xdev.storeChan _ _ _).chan 0 = none
      rw [hchan]
      exact h.entry0
    | true =>
      simp only [hmm2s, if_true] at hchan
      refine ⟨by simp, by simp [h.removed], ?_, [c], rfl,
        Or.inl ⟨hstored, rfl, by simp, ?_⟩⟩
      · change (xdev.storeChan _ _ _).chan 0 = none
        rw [hchan]
        exact h.entry0
      · change (xdev.storeChan _ _ _).chan 1 = some children.length
        rw [hchan, Function.update_self, h.length]

/-- What the loop finds does not depend on the channels that are not in the table. -/
theorem released_of_append {children : List ChannelNode} {xdev xdev' : XilinxDmaDevice cfg}
    (h : TableOf children xdev) (hchan : xdev'.chan = xdev.chan)
    {cs : List (ProbedChannel cfg)} (hallocs : xdev'.allocs = xdev.allocs ++ cs) :
    released xdev' = released xdev := by
  unfold released
  rw [hchan, hallocs]
  cases hentry : xdev.chan 1 with
  | none => rfl
  | some n =>
    have hlt : n < xdev.allocs.length := h.length ▸ h.entry1_lt hentry
    simp only [List.getElem?_append_left hlt]

/-- After a child failed, the loop over the table gives everything back when what was probed is
one mm2s channel and the child has not taken its entry. -/
theorem balanced_after_failure_iff {children : List ChannelNode} {xdev xdev' : XilinxDmaDevice cfg}
    {child : ChannelNode} {err : Errno} (h : Probed children xdev)
    (hstep : xilinxDmaChanProbe child xdev = (xdev', some err)) :
    LedgerEntry.Balanced (removeChans xdev').ledger ↔
      OneMm2s children ∧ ¬ (child.stored = true ∧ child.mm2s = true) := by
  obtain ⟨hledger, -, hentry0, cs, hallocs, hcases⟩ := chanProbe_failed h.toTableOf hstep
  rw [removeChans_ledger hentry0, hledger, h.ledger, balanced_acquires_releases]
  rcases hcases with ⟨hstored, hmm2s, hne, hentry⟩ | ⟨hnot, hchan⟩
  · -- its tasklet is killed and was never initialised
    obtain ⟨c, cs, rfl⟩ := List.exists_cons_of_ne_nil hne
    have hc : xdev'.allocs[children.length]? = some c := by
      rw [hallocs, ← h.length]
      simp
    have hmem : DmaResource.tasklet children.length ∈ released xdev' := by
      simp [released, hentry, hc]
    constructor
    · intro hperm
      have hlt := tasklet_mem_acquired.mp (hperm.mem_iff.mpr hmem)
      omega
    · rintro ⟨-, hnot⟩
      exact absurd ⟨hstored, hmm2s⟩ hnot
  · rw [released_of_append h.toTableOf hchan hallocs, acquired_perm_released_iff h.toTableOf]
    constructor
    · exact fun hone => ⟨hone, hnot⟩
    · exact fun hone => hone.1

/-- Then each channel that was probed is removed once. -/
theorem removed_after_failure {children : List ChannelNode} {xdev xdev' : XilinxDmaDevice cfg}
    {child : ChannelNode} {err : Errno} (h : TableOf children xdev)
    (hstep : xilinxDmaChanProbe child xdev = (xdev', some err)) (hone : OneMm2s children)
    (hnot : ¬ (child.stored = true ∧ child.mm2s = true)) {n : Nat} (hn : n < children.length) :
    (removeChans xdev').removed.count n = 1 := by
  obtain ⟨-, hremoved, hentry0, cs, hallocs, hcases⟩ := chanProbe_failed h hstep
  rcases hcases with ⟨hstored, hmm2s, -, -⟩ | ⟨-, hchan⟩
  · exact absurd ⟨hstored, hmm2s⟩ hnot
  · have hmem : n ∈ xdev.channels := by
      rw [h.channels]
      exact List.mem_range.mpr hn
    have hentry := h.entry1_of_single hone.1 (fun c hc => (hone.2 c hc).1) hmem
    have hlt : n < xdev'.allocs.length := by
      have := h.length
      rw [hallocs, List.length_append]
      omega
    rw [removeChans_eq hentry0, hchan, hentry]
    simp [chanRemove_removed hlt, hremoved]

/-! ## The device -/

namespace DeviceNode

/-- The child at which the loop over the children stops. -/
def failingChild (node : DeviceNode) : Option ChannelNode :=
  (node.reached.dropWhile ChannelNode.succeeds).head?

/-- The probe gets as far as `dma_async_device_register`. -/
def registers (node : DeviceNode) : Bool :=
  node.kzallocOk && node.ioremap.isNone && node.children.all ChannelNode.succeeds

/-- What was probed is one mm2s channel with an irq, or nothing, the child that failed has not put
itself into the table as one, and the device was registered if it came to that. -/
def Unwindable (node : DeviceNode) : Prop :=
  OneMm2s node.probedChildren ∧
    (∀ child, node.failingChild = some child → ¬ (child.stored = true ∧ child.mm2s = true)) ∧
    (node.registers = true → node.asyncRegister = none)

end DeviceNode

/-- A failed probe of the device releases each resource that it acquired once, and no other, and
it removes each channel that it probed. -/
def Unwinds (cfg : PhysAddrConfig) (node : DeviceNode) : Prop :=
  ∀ (xdev : XilinxDmaDevice cfg) err, xilinxDmaProbe node = (xdev, some err) →
    LedgerEntry.Balanced xdev.ledger ∧ ∀ n < node.probedChildren.length, xdev.removed.count n = 1

/-- Either all children are probed or there is a first one that fails. -/
theorem children_split (children : List ChannelNode) :
    (∀ c ∈ children, c.succeeds = true) ∨
      ∃ good bad post, children = good ++ bad :: post ∧ (∀ c ∈ good, c.succeeds = true) ∧
        bad.succeeds = false := by
  induction children with
  | nil => exact Or.inl fun c hc => absurd hc List.not_mem_nil
  | cons child children ih =>
    cases hchild : child.succeeds with
    | false => exact Or.inr ⟨[], child, children, rfl, by simp, hchild⟩
    | true =>
      rcases ih with hall | ⟨good, bad, post, hsplit, hgood, hbad⟩
      · left
        simpa [hchild] using hall
      · right
        refine ⟨child :: good, bad, post, by rw [hsplit, List.cons_append], ?_, hbad⟩
        simpa [hchild] using hgood

/-- A device that is not set up at all has nothing to give back. -/
theorem unwinds_of_unreached (cfg : PhysAddrConfig) {node : DeviceNode}
    (h : node.kzallocOk = false ∨ node.ioremap ≠ none) :
    Unwinds cfg node ∧ node.Unwindable := by
  have hreached : node.reached = [] := by
    rcases h with h | h
    · simp [DeviceNode.reached, h]
    · simp [DeviceNode.reached, h]
  have hprobed : node.probedChildren = [] := by simp [DeviceNode.probedChildren, hreached]
  have hregisters : node.registers = false := by
    rcases h with h | h
    · simp [DeviceNode.registers, h]
    · simp [DeviceNode.registers, h]
  refine ⟨?_, ?_, ?_, ?_⟩
  · intro xdev err hprobe
    have hzero : xdev.ledger = [] := by
      unfold xilinxDmaProbe at hprobe
      split at hprobe
      · cases hprobe
        rfl
      · rename_i hkzalloc
        have hmap : node.ioremap ≠ none := h.resolve_left (by simpa using hkzalloc)
        obtain ⟨e, he⟩ := Option.ne_none_iff_exists'.mp hmap
        simp only [he, Prod.mk.injEq] at hprobe
        rw [← hprobe.1]
        rfl
    rw [hzero, hprobed]
    exact ⟨rfl, fun n hn => absurd hn (Nat.not_lt_zero n)⟩
  · rw [hprobed]
    exact ⟨Nat.zero_le 1, fun c hc => absurd hc List.not_mem_nil⟩
  · simp [DeviceNode.failingChild, hreached]
  · simp [hregisters]

/-- A device one of whose children fails. -/
theorem unwinds_of_child {node : DeviceNode} (hkzalloc : node.kzallocOk = true)
    (hmap : node.ioremap = none) {good post : List ChannelNode} {bad : ChannelNode}
    (hsplit : node.children = good ++ bad :: post) (hgood : ∀ c ∈ good, c.succeeds = true)
    (hbad : bad.succeeds = false) : Unwinds cfg node ↔ node.Unwindable := by
  have hreached : node.reached = good ++ bad :: post := by
    simp [DeviceNode.reached, hkzalloc, hmap, hsplit]
  have hprobed : node.probedChildren = good := by
    rw [DeviceNode.probedChildren, hreached, List.takeWhile_append_of_pos hgood,
      List.takeWhile_cons_of_neg (by simp [hbad]), List.append_nil]
  have hfailing : node.failingChild = some bad := by
    rw [DeviceNode.failingChild, hreached, List.dropWhile_append_of_pos hgood,
      List.dropWhile_cons_of_neg (by simp [hbad]), List.head?_cons]
  obtain ⟨mid, hrun, h⟩ :=
    probeChildren_succeed (bad :: post) hgood (Probed.start cfg node.includeSg)
  obtain ⟨xdev', err, hstep, hlast⟩ := probeChildren_fails post hbad mid
  have hdevice : xilinxDmaProbe node = (removeChans xdev', some err) := by
    simp [xilinxDmaProbe, hkzalloc, hmap, hsplit, hrun, hlast]
  have hbalanced := balanced_after_failure_iff h hstep
  have hregisters : node.registers = false := by simp [DeviceNode.registers, hsplit, hbad]
  simp only [Unwinds, DeviceNode.Unwindable, hprobed, hfailing, hdevice, hregisters]
  constructor
  · intro hunwinds
    obtain ⟨hone, hnot⟩ := hbalanced.mp (hunwinds _ _ rfl).1
    refine ⟨hone, ?_, by simp⟩
    rintro child ⟨⟩
    exact hnot
  · rintro ⟨hone, hnot, -⟩ xdev e ⟨⟩
    have hclear := hnot bad rfl
    exact ⟨hbalanced.mpr ⟨hone, hclear⟩,
      fun n hn => removed_after_failure h.toTableOf hstep hone hclear hn⟩

/-- What is held once the device was unregistered: what its channels acquired, if it had been
registered. -/
theorem replay_asyncDevice {xdev : XilinxDmaDevice cfg} {k : Nat}
    (h : xdev.ledger = (acquired k).map acquire) (err : Option Errno) :
    replay 0 ((xdev.asyncDeviceRegister err).ledger ++ [release .asyncDevice]) =
      if err.isNone then some ↑(acquired k) else none := by
  have hheld : replay 0 xdev.ledger = some (acquired k : Multiset DmaResource) := by
    rw [h, replay_acquires, zero_add]
  cases err with
  | none =>
    apply replay_snoc_release
    exact replay_snoc_acquire hheld .asyncDevice
  | some err =>
    have hnot : DmaResource.asyncDevice ∉ acquired k := by simp [acquired, chanResources]
    change replay 0 (xdev.ledger ++ [release .asyncDevice]) = none
    rw [replay_append, hheld]
    simp [replay, hnot]

/-- A device whose registration with the device tree fails. -/
theorem unwinds_of_register {node : DeviceNode} (hkzalloc : node.kzallocOk = true)
    (hmap : node.ioremap = none) (hchildren : ∀ c ∈ node.children, c.succeeds = true)
    {e : Errno} (hregister : node.controllerRegister = some e) :
    Unwinds cfg node ↔ node.Unwindable := by
  have hreached : node.reached = node.children := by
    simp [DeviceNode.reached, hkzalloc, hmap]
  have hprobed : node.probedChildren = node.children := by
    rw [DeviceNode.probedChildren, hreached, List.takeWhile_eq_self_iff]
    exact hchildren
  have hfailing : node.failingChild = none := by
    rw [DeviceNode.failingChild, hreached, List.dropWhile_eq_nil_iff.mpr hchildren, List.head?_nil]
  have hregisters : node.registers = true := by
    simpa [DeviceNode.registers, hkzalloc, hmap] using hchildren
  obtain ⟨xdev, hrun, h⟩ :=
    probeChildren_succeed [] hchildren (Probed.start cfg node.includeSg)
  rw [List.append_nil] at hrun
  rw [List.nil_append] at h
  have htable := (h.toTableOf.asyncDeviceRegister node.asyncRegister).enter (.release .asyncDevice)
  have hdevice : xilinxDmaProbe node =
      (removeChans ((xdev.asyncDeviceRegister node.asyncRegister).enter (.release .asyncDevice)),
        some e) := by
    simp [xilinxDmaProbe, hkzalloc, hmap, hrun, probeChildren, hregister]
  have hbalanced : LedgerEntry.Balanced (removeChans
      ((xdev.asyncDeviceRegister node.asyncRegister).enter (.release .asyncDevice))).ledger ↔
        OneMm2s node.children ∧ node.asyncRegister = none := by
    rw [removeChans_ledger htable.entry0, LedgerEntry.Balanced, replay_append]
    change (replay 0 ((xdev.asyncDeviceRegister node.asyncRegister).ledger ++
      [release .asyncDevice])).bind _ = _ ↔ _
    rw [replay_asyncDevice h.ledger _, ← acquired_perm_released_iff htable, ← Multiset.coe_eq_coe,
      ← replay_releases]
    cases hasync : node.asyncRegister with
    | some err => simp
    | none => simp
  simp only [Unwinds, DeviceNode.Unwindable, hprobed, hfailing, hdevice, hregisters]
  constructor
  · intro hunwinds
    obtain ⟨hone, hheld⟩ := hbalanced.mp (hunwinds _ _ rfl).1
    refine ⟨hone, ?_, fun _ => hheld⟩
    rintro child ⟨⟩
  · rintro ⟨hone, -, hheld⟩ xdev' err ⟨⟩
    refine ⟨hbalanced.mpr ⟨hone, hheld trivial⟩, fun n hn => ?_⟩
    refine removed_of_single htable hone.1 (fun c hc => (hone.2 c hc).1) n ?_
    rw [htable.channels]
    exact List.mem_range.mpr hn

/-- **What a failed probe gives back.** For every device tree and every step at which the probe
can fail: each resource acquired is released once and no other is, and each channel that was
probed is removed, exactly when the probe does not fail, or at most one channel was probed, an
mm2s channel with an irq above zero, the child that failed has not stored itself as one, and
`dma_async_device_register` has not failed. -/
theorem probeUnwinds_iff (node : DeviceNode) :
    Unwinds cfg node ↔ node.succeeds = true ∨ node.Unwindable := by
  cases hkzalloc : node.kzallocOk with
  | false =>
    obtain ⟨hunwinds, hcond⟩ := unwinds_of_unreached cfg (Or.inl hkzalloc)
    exact iff_of_true hunwinds (Or.inr hcond)
  | true =>
    cases hmap : node.ioremap with
    | some e =>
      have hunmapped : node.ioremap ≠ none := by
        rw [hmap]
        exact Option.some_ne_none e
      obtain ⟨hunwinds, hcond⟩ := unwinds_of_unreached cfg (Or.inr hunmapped)
      exact iff_of_true hunwinds (Or.inr hcond)
    | none =>
      rcases children_split node.children with hall | ⟨good, bad, post, hsplit, hgood, hbad⟩
      · cases hregister : node.controllerRegister with
        | some e =>
          have hfails : node.succeeds = false := by simp [DeviceNode.succeeds, hregister]
          rw [unwinds_of_register hkzalloc hmap hall hregister, hfails]
          simp
        | none =>
          have hok : node.succeeds = true := by
            simpa [DeviceNode.succeeds, hkzalloc, hmap, hregister] using hall
          obtain ⟨xdev, -, hrun⟩ := probe_of_succeeds cfg hok
          refine iff_of_true ?_ (Or.inl hok)
          intro xdev' err hprobe
          rw [hrun] at hprobe
          cases hprobe
      · have hfails : node.succeeds = false := by
          simp [DeviceNode.succeeds, hsplit, hbad]
        rw [unwinds_of_child hkzalloc hmap hsplit hgood hbad, hfails]
        simp

/-- Both channels are probed, and the registration with the device tree fails. -/
def failsLast : DeviceNode := { bothChannels with controllerRegister := some .enomem }

/-- The s2mm channel keeps its irq, its tasklet and its place on the list. -/
theorem not_unwinds : ¬ ∀ node : DeviceNode, Unwinds .addr32 node := by
  intro hclaim
  have hprobe : (xilinxDmaProbe failsLast : XilinxDmaDevice .addr32 × Option Errno) =
      ((xilinxDmaProbe failsLast).1, some .enomem) := rfl
  have hbalanced := (hclaim failsLast _ _ hprobe).1
  have hnot : ¬ LedgerEntry.Balanced
      (xilinxDmaProbe failsLast : XilinxDmaDevice .addr32 × Option Errno).1.ledger := by
    decide +kernel
  exact hnot hbalanced

/-- One mm2s channel whose irq is taken: its irq is freed and its tasklet killed, and it had
neither. -/
example :
    ¬ LedgerEntry.Balanced (xilinxDmaProbe { bothChannels with
      children := [{ soundChild true 61 with requestIrq := some .ebusy }] } :
        XilinxDmaDevice .addr32 × Option Errno).1.ledger := by
  decide +kernel

end PetalinuxDriver
