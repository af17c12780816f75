import PetalinuxDriver.Analysis.ProbeUnwinding

/-!
# What a removed device leaves behind

The children of a device are probed in their order, and each mm2s channel takes entry 1 of the table
from the one before it (`probeChildren_table`). So the removal finds the last mm2s channel there and
no other: it gives back what this one holds, except an irq whose number is not above zero, and all
other channels stay on the list with their irq and their tasklet, on memory that goes with the
device. `removal_leaves` says exactly what is held afterwards, for every device tree.

The removal unregisters the device, and the probe has not looked at whether it was registered. When
`dma_async_device_register` has failed, this releases what is not held.
-/

set_option autoImplicit false

namespace PetalinuxDriver

open Library LedgerEntry

variable {cfg : PhysAddrConfig}

/-! ## The last mm2s channel -/

/-- The number of the last of these channels that is an mm2s channel. -/
def lastMm2s (children : List ChannelNode) : Option Nat :=
  ((children.zipIdx.filter fun c => c.1.mm2s).getLast?).map Prod.snd

/-- The last mm2s child is the new one, if it is one. -/
theorem lastMm2s_concat (children : List ChannelNode) (node : ChannelNode) :
    lastMm2s (children ++ [node]) =
      if node.mm2s then some children.length else lastMm2s children := by
  unfold lastMm2s
  rw [List.zipIdx_append, List.filter_append]
  cases hmm2s : node.mm2s with
  | false => simp [hmm2s]
  | true => simp [hmm2s]

/-- A channel that is probed takes entry 1 when it is an mm2s channel. -/
theorem chanProbe_entry1 {node : ChannelNode} {xdev xdev' : XilinxDmaDevice cfg}
    (hstep : xilinxDmaChanProbe node xdev = (xdev', none)) :
    xdev'.chan 1 = if node.mm2s then some xdev.allocs.length else xdev.chan 1 := by
  have hinv := chanProbe_inv node xdev
  rw [hstep] at hinv
  cases hinv with
  | probed a low c hok hid hirq =>
    have hchan := XilinxDmaDevice.storeChan_chan node xdev.allocs.length low xdev
    change (xdev.storeChan _ _ _).chan 1 = _
    rw [hchan]
    cases node.mm2s with
    | false => rfl
    | true => simp

/-- **The table after the loop over the children.** -/
theorem probeChildren_table {children pre : List ChannelNode} {xdev xdev' : XilinxDmaDevice cfg}
    (h : Probed pre xdev) (hentry : xdev.chan 1 = lastMm2s pre)
    (hrun : probeChildren children xdev = (xdev', none)) :
    Probed (pre ++ children) xdev' ∧ xdev'.chan 1 = lastMm2s (pre ++ children) := by
  induction children generalizing pre xdev with
  | nil =>
    cases hrun
    rw [List.append_nil]
    exact ⟨h, hentry⟩
  | cons node children ih =>
    cases hstep : xilinxDmaChanProbe node xdev with
    | mk mid err =>
      rw [probeChildren, hstep] at hrun
      cases err with
      | some err => cases hrun
      | none =>
        have hnext : mid.chan 1 = lastMm2s (pre ++ [node]) := by
          rw [chanProbe_entry1 hstep, lastMm2s_concat, hentry, h.toTableOf.length]
        have hrest := ih (h.snoc hstep) hnext hrun
        rwa [List.append_assoc, List.singleton_append] at hrest

/-- A probed device, with its table. -/
theorem probe_table {node : DeviceNode} {xdev : XilinxDmaDevice cfg}
    (h : xilinxDmaProbe node = (xdev, none)) :
    ∃ mid : XilinxDmaDevice cfg, Probed node.children mid ∧
      mid.chan 1 = lastMm2s node.children ∧
      xdev = (mid.asyncDeviceRegister node.asyncRegister).enter (.acquire .controller) := by
  have hok := succeeds_of_probe h
  simp only [DeviceNode.succeeds, Bool.and_eq_true, Option.isNone_iff_eq_none] at hok
  obtain ⟨⟨⟨hkzalloc, hmap⟩, -⟩, hregister⟩ := hok
  unfold xilinxDmaProbe at h
  simp only [hkzalloc, hmap, hregister, Bool.not_true, Bool.false_eq_true, if_false] at h
  split at h
  · cases h
  · rename_i mid hrun
    obtain ⟨hprobed, hentry⟩ := probeChildren_table (Probed.start cfg node.includeSg) rfl hrun
    cases h
    exact ⟨mid, hprobed, hentry, rfl⟩

/-! ## What stays -/

/-- What the removal gives back of a channel: it frees no irq whose number is not above zero. -/
def givenBack (children : List ChannelNode) (c : ChannelNode × Nat) : List DmaResource :=
  if lastMm2s children = some c.2 then
    (if c.1.irq > 0 then [.irq c.2] else []) ++ [.tasklet c.2, .deviceNode c.2]
  else []

/-- What the removal leaves of a channel. -/
def leftOver (children : List ChannelNode) (c : ChannelNode × Nat) : List DmaResource :=
  if lastMm2s children = some c.2 then (if c.1.irq > 0 then [] else [.irq c.2])
  else chanResources c.2

/-- What the removal leaves of all channels. -/
def leftBehind (children : List ChannelNode) : List DmaResource :=
  children.zipIdx.flatMap (leftOver children)

/-- What was acquired for a channel is given back or left. -/
theorem givenBack_append_leftOver (children : List ChannelNode) (c : ChannelNode × Nat) :
    (givenBack children c ++ leftOver children c).Perm (chanResources c.2) := by
  unfold givenBack leftOver chanResources
  split
  · split
    · simp
    · rw [List.nil_append]
      exact List.perm_append_comm
  · simp

/-- What the probe of the children acquires, child by child. -/
theorem acquired_eq_flatMap (children : List ChannelNode) :
    acquired children.length = children.zipIdx.flatMap fun c => chanResources c.2 := by
  have hnumbers : children.zipIdx.map Prod.snd = List.range children.length := by
    rw [List.zipIdx_map_snd, List.range_eq_range']
  rw [acquired, ← hnumbers, List.flatMap_map]

/-- What is given back and what is left are all that was acquired. -/
theorem perm_acquired (children : List ChannelNode) :
    (children.zipIdx.flatMap (givenBack children) ++ leftBehind children).Perm
      (acquired children.length) := by
  rw [acquired_eq_flatMap, leftBehind]
  refine (List.flatMap_append_perm _ _ _).trans ?_
  exact List.Perm.flatMap_left _ fun c _ => givenBack_append_leftOver children c

/-- Where only one position of a list has something to give. -/
theorem flatMap_zipIdx_single {α β : Type*} {l : List α} {a : α} {n : Nat} {f : α × Nat → List β}
    (ha : l[n]? = some a) (hf : ∀ c, c.2 ≠ n → f c = []) : l.zipIdx.flatMap f = f (a, n) := by
  obtain ⟨hlt, hget⟩ := List.getElem?_eq_some_iff.mp ha
  have hsplit : l = l.take n ++ a :: l.drop (n + 1) := by
    rw [← hget, List.getElem_cons_drop, List.take_append_drop]
  have hlength : (l.take n).length = n := by
    rw [List.length_take]
    omega
  have hbefore : (l.take n).zipIdx.flatMap f = [] := by
    rw [List.flatMap_eq_nil_iff]
    intro c hc
    have := (List.mem_zipIdx hc).2.1
    exact hf c (by omega)
  have hafter : ((l.drop (n + 1)).zipIdx (n + 1)).flatMap f = [] := by
    rw [List.flatMap_eq_nil_iff]
    intro c hc
    have := (List.mem_zipIdx hc).1
    exact hf c (by omega)
  rw [hsplit, List.zipIdx_append, List.zipIdx_cons, List.flatMap_append, List.flatMap_cons,
    hlength, Nat.zero_add, hbefore, hafter, List.nil_append, List.append_nil]

/-- The removal gives back what it finds in the table. -/
theorem released_eq_flatMap {children : List ChannelNode} {xdev : XilinxDmaDevice cfg}
    (h : TableOf children xdev) (hentry : xdev.chan 1 = lastMm2s children) :
    released xdev = children.zipIdx.flatMap (givenBack children) := by
  unfold released
  cases hlast : xdev.chan 1 with
  | none =>
    symm
    rw [List.flatMap_eq_nil_iff]
    intro c _
    rw [givenBack, ← hentry, hlast, if_neg (by simp)]
  | some n =>
    obtain ⟨node, hnode, -⟩ := h.entry1 n hlast
    obtain ⟨c, hc, -, hirq⟩ := h.alloc hnode
    have hother : ∀ c : ChannelNode × Nat, c.2 ≠ n → givenBack children c = [] := by
      intro c hne
      rw [givenBack, ← hentry, hlast, if_neg]
      intro heq
      exact hne (Option.some.inj heq).symm
    rw [flatMap_zipIdx_single hnode hother, givenBack, ← hentry, hlast, if_pos rfl]
    simp only [hc, hirq]

/-! ## The result -/

section Removal

variable {children : List ChannelNode} {xdev : XilinxDmaDevice cfg}

/-- The loop over the table, on a device that holds what its channels acquired. -/
theorem removeChans_leaves (h : TableOf children xdev) (hentry : xdev.chan 1 = lastMm2s children)
    (hheld : replay 0 xdev.ledger = some ↑(acquired children.length)) :
    (removeChans xdev).removed = (lastMm2s children).toList ∧
      replay 0 (removeChans xdev).ledger = some ↑(leftBehind children) := by
  refine ⟨?_, ?_⟩
  · rw [removeChans_eq h.entry0, ← hentry]
    cases hlast : xdev.chan 1 with
    | none => exact h.removed
    | some n =>
      have hlt : n < xdev.allocs.length := h.length ▸ h.entry1_lt hlast
      rw [chanRemove_removed hlt, h.removed]
      rfl
  · have hsplit : (acquired children.length : Multiset DmaResource) =
        ↑(released xdev) + ↑(leftBehind children) := by
      rw [released_eq_flatMap h hentry, Multiset.coe_add, Multiset.coe_eq_coe]
      exact (perm_acquired children).symm
    rw [removeChans_ledger h.entry0, replay_append, hheld, Option.bind_some, hsplit]
    exact replay_releases_add _ _

/-- Nothing is left when the table has the one channel that there is. -/
theorem leftBehind_eq_nil_iff (h : TableOf children xdev)
    (hentry : xdev.chan 1 = lastMm2s children) : leftBehind children = [] ↔ OneMm2s children := by
  rw [← acquired_perm_released_iff h, released_eq_flatMap h hentry]
  have hperm := perm_acquired children
  constructor
  · intro hnil
    rw [hnil, List.append_nil] at hperm
    exact hperm.symm
  · intro heq
    have hlength := (hperm.trans heq).length_eq
    rw [List.length_append] at hlength
    exact List.eq_nil_of_length_eq_zero (by omega)

end Removal

/-- What is held when the removal comes to the channels: what they acquired, if the device had been
registered. -/
theorem replay_unregistered {mid : XilinxDmaDevice cfg} {k : Nat}
    (h : mid.ledger = (acquired k).map acquire) (err : Option Errno) :
    replay 0 ((mid.asyncDeviceRegister err).ledger ++
        [acquire .controller, release .controller, release .asyncDevice]) =
      if err.isNone then some ↑(acquired k) else none := by
  have hcancel := replay_asyncDevice h err
  rw [replay_append] at hcancel ⊢
  simpa only [replay_cancel] using hcancel

/-- **What a removed device leaves behind.** For every device tree whose probe succeeds: the removal
releases nothing that is not held exactly when the device had been registered with the DMA engine.
Then it removes the last mm2s channel and no other, and what is held afterwards is what it left of
each channel. That is nothing exactly when there is at most one channel, an mm2s channel with an
irq. -/
theorem removal_leaves {node : DeviceNode} {xdev : XilinxDmaDevice cfg}
    (h : xilinxDmaProbe node = (xdev, none)) :
    ((replay 0 (xilinxDmaRemove xdev).ledger).isSome ↔ node.asyncRegister = none) ∧
      (node.asyncRegister = none →
        (xilinxDmaRemove xdev).removed = (lastMm2s node.children).toList ∧
          replay 0 (xilinxDmaRemove xdev).ledger = some ↑(leftBehind node.children)) ∧
      (leftBehind node.children = [] ↔ OneMm2s node.children) := by
  obtain ⟨mid, hprobed, hentry, rfl⟩ := probe_table h
  have htable := (((hprobed.toTableOf.asyncDeviceRegister node.asyncRegister).enter
    (.acquire .controller)).enter (.release .controller)).enter (.release .asyncDevice)
  have hkept : (mid.asyncDeviceRegister node.asyncRegister).chan 1 = lastMm2s node.children := by
    rw [← hentry]
    cases node.asyncRegister <;> rfl
  have hheld := replay_unregistered hprobed.ledger node.asyncRegister
  cases hasync : node.asyncRegister with
  | some err =>
    rw [hasync] at htable hheld
    refine ⟨?_, fun hnone => (Option.some_ne_none err hnone).elim, ?_⟩
    · have hfailed : replay 0 (xilinxDmaRemove ((mid.asyncDeviceRegister (some err)).enter
          (.acquire .controller))).ledger = none := by
        rw [xilinxDmaRemove, removeChans_ledger htable.entry0, replay_append]
        simp [XilinxDmaDevice.enter, hheld]
      simp [hfailed]
    · exact leftBehind_eq_nil_iff hprobed.toTableOf hentry
  | none =>
    rw [hasync] at htable hheld hkept
    obtain ⟨hremoved, hleft⟩ := removeChans_leaves htable hkept (by
      simpa [XilinxDmaDevice.enter] using hheld)
    refine ⟨?_, fun _ => ⟨hremoved, hleft⟩, leftBehind_eq_nil_iff hprobed.toTableOf hentry⟩
    rw [xilinxDmaRemove, hleft]
    simp

/-- With one channel of each kind, the s2mm channel keeps all that it has. -/
theorem removal_leaves_bothChannels :
    ∃ xdev : XilinxDmaDevice .addr32, xilinxDmaProbe bothChannels = (xdev, none) ∧
      leftBehind bothChannels.children = [.irq 1, .tasklet 1, .deviceNode 1] ∧
      ((replay 0 (xilinxDmaRemove xdev).ledger).isSome ↔ bothChannels.asyncRegister = none) ∧
      (bothChannels.asyncRegister = none →
        (xilinxDmaRemove xdev).removed = (lastMm2s bothChannels.children).toList ∧
          replay 0 (xilinxDmaRemove xdev).ledger = some ↑(leftBehind bothChannels.children)) ∧
      (leftBehind bothChannels.children = [] ↔ OneMm2s bothChannels.children) := by
  have hprobe : (xilinxDmaProbe bothChannels : XilinxDmaDevice .addr32 × Option Errno) =
      ((xilinxDmaProbe bothChannels).1, none) := rfl
  exact ⟨_, hprobe, by decide, removal_leaves hprobe⟩

end PetalinuxDriver
