import PetalinuxDriver.Analysis.ChannelTable
import PetalinuxDriver.Library.WordFields
import PetalinuxDriver.Model.ChannelFilters

/-!
# What the tag of a channel says

`xilinx_dma_chan_probe` reads a whole `u32` as device id and shifts it to bit 28 of the tag, so that
four of its bits are left there. Two channels have the same tag exactly when they have the same
direction and device ids that agree modulo 16 (`chanTag_inj`). The match word of a client is the tag
of device 0, and so the filters take a channel of device 16 for one of device 0.
-/

set_option autoImplicit false

namespace PetalinuxDriver

open Library

variable {cfg : PhysAddrConfig}

/-! ## Tags -/

/-- The match word lies below the device id. -/
theorem matchWord_lt (d : DmaTransferDirection) :
    (matchWord xilinxDmaIpDma d.word).toNat < 2 ^ xilinxDmaDeviceIdShift := by
  cases d <;> decide

/-- The word that a filter compares tells the direction. -/
theorem matchWord_inj (d d' : DmaTransferDirection) :
    matchWord xilinxDmaIpDma d.word = matchWord xilinxDmaIpDma d'.word ↔ d = d' := by
  cases d <;> cases d' <;> decide

/-- The tag packs the direction and the device. -/
theorem chanTag_eq_pack (d : DmaTransferDirection) (deviceId : BitVec 32) :
    chanTag d deviceId = pack xilinxDmaDeviceIdShift (matchWord xilinxDmaIpDma d.word) deviceId :=
  rfl

/-- **What a tag says**: the direction, and the device id modulo 16. -/
theorem chanTag_inj (d d' : DmaTransferDirection) (deviceId deviceId' : BitVec 32) :
    chanTag d deviceId = chanTag d' deviceId' ↔
      d = d' ∧ deviceId.toNat % 16 = deviceId'.toNat % 16 := by
  have hshift : xilinxDmaDeviceIdShift ≤ 32 := by decide
  rw [chanTag_eq_pack, chanTag_eq_pack,
    pack_inj hshift (matchWord_lt d) (matchWord_lt d') deviceId deviceId', matchWord_inj]
  rfl

/-- The match word is the tag of device 0. -/
theorem matchWord_eq_chanTag (d : DmaTransferDirection) :
    matchWord xilinxDmaIpDma d.word = chanTag d 0 := by
  cases d <;> rfl

/-! ## Filters -/

/-- A filter by tag compares two words. -/
theorem filterByTag_iff (tag param : BitVec 32) :
    filterByTag (some ⟨some tag⟩) (some param) = true ↔ tag = param := by
  rw [← BitVec.toInt_inj]
  exact decide_eq_true_iff

/-- The requests of all clients come down to the same comparison. -/
theorem accepts_iff {d : DmaTransferDirection} {request : ChannelRequest}
    (h : request ∈ clientRequests d) (c : ProbedChannel cfg) :
    request.accepts c.common = true ↔ c.tag = chanTag d 0 := by
  rw [← matchWord_eq_chanTag]
  simp only [clientRequests, List.mem_cons, List.not_mem_nil, or_false] at h
  rcases h with rfl | rfl | rfl
  · exact filterByTag_iff _ _
  · exact filterByTag_iff _ _
  · exact filterByTag_iff _ _

/-! ## Probed channels -/

/-- The node of a channel with this direction and this device id. -/
structure ChannelNode.Describes (node : ChannelNode) (d : DmaTransferDirection)
    (deviceId : BitVec 32) : Prop where
  direction : node.kind.map (fun kind => kind.2.2) = some d
  device : node.deviceId = .ok deviceId

/-- A successful probe of the node adds this channel to a device. -/
def ProbedChannel.ProbedFrom (c : ProbedChannel cfg) (node : ChannelNode) : Prop :=
  ∃ xdev xdev' : XilinxDmaDevice cfg,
    xilinxDmaChanProbe node xdev = (xdev', none) ∧ xdev'.allocs = xdev.allocs ++ [c]

/-- The part of the probe from the reset on keeps the direction and the tag. -/
theorem setupChan_adds (node : ChannelNode) (n : Nat) (c : ProbedChannel cfg)
    (xdev : XilinxDmaDevice cfg) :
    ∃ c', (setupChan node n c xdev).1.allocs = xdev.allocs ++ [c'] ∧
      c'.direction = c.direction ∧ c'.tag = c.tag := by
  unfold setupChan
  split
  · exact ⟨_, rfl, rfl, rfl⟩
  · cases node.requestIrq with
    | some err => exact ⟨_, rfl, rfl, rfl⟩
    | none => exact ⟨_, rfl, rfl, rfl⟩

/-- What a successful probe adds. -/
theorem chanProbe_adds {node : ChannelNode} {xdev xdev' : XilinxDmaDevice cfg}
    (h : xilinxDmaChanProbe node xdev = (xdev', none)) :
    ∃ c deviceId, xdev'.allocs = xdev.allocs ++ [c] ∧ node.Describes c.direction deviceId ∧
      c.tag = chanTag c.direction deviceId := by
  have hnone : (xilinxDmaChanProbe node xdev).2 = none := by rw [h]
  obtain ⟨low, value, id, ctrlOffset, direction, deviceId, -, hkind, hdevice, hsetup⟩ :=
    chanProbe_setup hnone
  obtain ⟨c, hallocs, hdirection, htag⟩ := setupChan_adds node xdev.allocs.length _ _
  rw [← hsetup, h, XilinxDmaDevice.storeChan_allocs] at hallocs
  refine ⟨c, deviceId, hallocs, ⟨?_, hdevice⟩, ?_⟩
  · rw [hkind, hdirection, Option.map_some]
  · rw [htag, hdirection]

/-- The tag of a probed channel, by the direction and the device id in its node. -/
theorem ProbedChannel.ProbedFrom.tag {c : ProbedChannel cfg} {node : ChannelNode}
    {d : DmaTransferDirection} {deviceId : BitVec 32} (h : c.ProbedFrom node)
    (hnode : node.Describes d deviceId) : c.direction = d ∧ c.tag = chanTag d deviceId := by
  obtain ⟨xdev, xdev', hprobe, hallocs⟩ := h
  obtain ⟨c', deviceId', hallocs', hnode', htag⟩ := chanProbe_adds hprobe
  obtain rfl : c = c' := by
    have hlast := List.append_cancel_left (hallocs.symm.trans hallocs')
    exact List.singleton_inj.mp hlast
  obtain rfl : c.direction = d := Option.some.inj (hnode'.direction.symm.trans hnode.direction)
  obtain rfl : deviceId' = deviceId := Except.ok.inj (hnode'.device.symm.trans hnode.device)
  exact ⟨rfl, htag⟩

/-- The channels of a device come from the children of its node. -/
theorem probeChildren_probedFrom {children : List ChannelNode} {xdev xdev' : XilinxDmaDevice cfg}
    (h : probeChildren children xdev = (xdev', none)) :
    ∃ cs, xdev'.allocs = xdev.allocs ++ cs ∧
      List.Forall₂ ProbedChannel.ProbedFrom cs children := by
  induction children generalizing xdev with
  | nil =>
    cases h
    exact ⟨[], (List.append_nil _).symm, .nil⟩
  | cons node rest ih =>
    unfold probeChildren at h
    split at h
    · rename_i xdev₁ hprobe
      obtain ⟨c, -, hallocs, -, -⟩ := chanProbe_adds hprobe
      obtain ⟨cs, hrest, hchannels⟩ := ih h
      refine ⟨c :: cs, ?_, .cons ⟨xdev, xdev₁, hprobe, hallocs⟩ hchannels⟩
      rw [hrest, hallocs, List.append_assoc, List.singleton_append]
    · cases h

/-- **The channels that a device is registered with** are probed from the children of its node, one
from each. -/
theorem probe_probedFrom {node : DeviceNode} {xdev : XilinxDmaDevice cfg}
    (h : xilinxDmaProbe node = (xdev, none)) :
    List.Forall₂ ProbedChannel.ProbedFrom xdev.allocs node.children := by
  unfold xilinxDmaProbe at h
  split at h
  · cases h
  · split at h
    · cases h
    · split at h
      · cases h
      · rename_i xdev₁ hchildren
        obtain ⟨cs, hallocs, hchannels⟩ := probeChildren_probedFrom hchildren
        have hkept : (xdev₁.asyncDeviceRegister node.asyncRegister).allocs = xdev₁.allocs := by
          cases node.asyncRegister <;> rfl
        split at h
        · cases h
        · cases h
          change List.Forall₂ _ (xdev₁.asyncDeviceRegister node.asyncRegister).allocs _
          rw [hkept, hallocs]
          exact hchannels

/-! ## Every direction and every device id -/

/-- A node with a direction and a device id, and nothing that goes wrong. -/
def slaveNode (d : DmaTransferDirection) (deviceId : BitVec 32) : ChannelNode where
  kzalloc := some 0
  includeDre := true
  datawidth := .ok 32
  mm2s := d = .memToDev
  s2mm := d = .devToMem
  deviceId := .ok deviceId
  reset := ⟨0, true⟩
  irq := 1
  requestIrq := none

/-- The node describes the channel. -/
theorem slaveNode_describes {d : DmaTransferDirection} (hd : isSlaveDirection d = true)
    (deviceId : BitVec 32) : (slaveNode d deviceId).Describes d deviceId := by
  refine ⟨?_, rfl⟩
  cases d with
  | memToDev => rfl
  | devToMem => rfl
  | memToMem => cases hd
  | devToDev => cases hd
  | transNone => cases hd

/-- There are channels with every slave direction and every device id. -/
theorem exists_probedFrom {d : DmaTransferDirection} (hd : isSlaveDirection d = true)
    (deviceId : BitVec 32) : ∃ c : ProbedChannel cfg, c.ProbedFrom (slaveNode d deviceId) := by
  have hsucceeds : (slaveNode d deviceId).succeeds = true := by
    cases d with
    | memToDev => rfl
    | devToMem => rfl
    | memToMem => cases hd
    | devToDev => cases hd
    | transNone => cases hd
  obtain ⟨xdev, hprobe⟩ := @chanProbe_of_succeeds cfg _ hsucceeds .zero
  obtain ⟨c, -, hallocs, -, -⟩ := chanProbe_adds hprobe
  exact ⟨c, _, xdev, hprobe, hallocs⟩

/-! ## What a tag identifies -/

/-- **What tags and filters tell apart.** Two channels that differ have different tags exactly when
their directions differ or their device ids differ modulo 16; and the filters accept a channel
exactly for its direction and device id 0, unless it has that direction and its device id is a
multiple of 16 other than 0. -/
theorem channelTags_identify_iff {node node' : ChannelNode} {d d' : DmaTransferDirection}
    {deviceId deviceId' : BitVec 32} {c c' : ProbedChannel cfg}
    (hnode : node.Describes d deviceId) (hnode' : node'.Describes d' deviceId')
    (hc : c.ProbedFrom node) (hc' : c'.ProbedFrom node') :
    (((deviceId, d) ≠ (deviceId', d') → c.tag ≠ c'.tag) ↔
      d ≠ d' ∨ deviceId = deviceId' ∨ deviceId.toNat % 16 ≠ deviceId'.toNat % 16) ∧
    ∀ wanted, ∀ request ∈ clientRequests wanted,
      ((request.accepts c.common = true ↔ c.direction = wanted ∧ deviceId = 0) ↔
        d ≠ wanted ∨ deviceId = 0 ∨ deviceId.toNat % 16 ≠ 0) := by
  obtain ⟨hdirection, htag⟩ := hc.tag hnode
  obtain ⟨-, htag'⟩ := hc'.tag hnode'
  refine ⟨?_, ?_⟩
  · rw [htag, htag', ne_eq (chanTag d deviceId), chanTag_inj, ne_eq, Prod.mk.injEq]
    tauto
  · intro wanted request hrequest
    rw [accepts_iff hrequest, htag, chanTag_inj, hdirection]
    have hzero : (0 : BitVec 32).toNat % 16 = 0 := rfl
    rw [hzero]
    constructor
    · intro h
      tauto
    · intro h
      have hmod : deviceId = 0 → deviceId.toNat % 16 = 0 := by
        rintro rfl
        rfl
      tauto

/-- Two small numbers, and no request finds the wrong channel. -/
theorem channelTags_identify_small :
    ∃ c c' : ProbedChannel .addr32, c.ProbedFrom (slaveNode .memToDev 3) ∧
      c'.ProbedFrom (slaveNode .memToDev 5) ∧ c.tag ≠ c'.tag ∧
      ∀ request ∈ clientRequests .memToDev, request.accepts c.common = false := by
  have hslave : isSlaveDirection .memToDev = true := rfl
  obtain ⟨c, hc⟩ : ∃ c : ProbedChannel .addr32, c.ProbedFrom (slaveNode .memToDev 3) :=
    exists_probedFrom hslave 3
  obtain ⟨c', hc'⟩ : ∃ c : ProbedChannel .addr32, c.ProbedFrom (slaveNode .memToDev 5) :=
    exists_probedFrom hslave 5
  obtain ⟨htags, hfilters⟩ := channelTags_identify_iff (slaveNode_describes hslave 3)
    (slaveNode_describes hslave 5) hc hc'
  refine ⟨c, c', hc, hc', htags.mpr (by decide) (by decide), ?_⟩
  intro request hrequest
  have haccepts := (hfilters .memToDev request hrequest).mpr (by decide)
  by_contra hnot
  obtain ⟨-, hthree⟩ := haccepts.mp (Bool.eq_true_of_not_eq_false hnot)
  cases hthree

/-- Device 16 has the tag of device 0, and every client takes it for device 0. -/
theorem channelTags_collide :
    ∃ c c' : ProbedChannel .addr32, c.ProbedFrom (slaveNode .memToDev 0) ∧
      c'.ProbedFrom (slaveNode .memToDev 16) ∧ c.tag = c'.tag ∧
      ∀ request ∈ clientRequests .memToDev, request.accepts c'.common = true := by
  have hslave : isSlaveDirection .memToDev = true := rfl
  obtain ⟨c, hc⟩ : ∃ c : ProbedChannel .addr32, c.ProbedFrom (slaveNode .memToDev 0) :=
    exists_probedFrom hslave 0
  obtain ⟨c', hc'⟩ : ∃ c : ProbedChannel .addr32, c.ProbedFrom (slaveNode .memToDev 16) :=
    exists_probedFrom hslave 16
  obtain ⟨-, htag⟩ := hc.tag (slaveNode_describes hslave 0)
  obtain ⟨-, htag'⟩ := hc'.tag (slaveNode_describes hslave 16)
  have hsame : chanTag .memToDev 16 = chanTag .memToDev 0 := by decide
  refine ⟨c, c', hc, hc', ?_, ?_⟩
  · rw [htag, htag', hsame]
  · intro request hrequest
    rw [accepts_iff hrequest, htag', hsame]

end PetalinuxDriver
