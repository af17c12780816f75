import Mathlib.Data.List.TakeWhile
import PetalinuxDriver.Model.VxdmaProbe

/-!
# The table of channels

`xilinx_dma_chan_probe` gives an mm2s channel the id 1 and an s2mm channel the id 2, and stores
the channel at that index of a table with two entries; the loops over the table and the lookup go
by the entries 0 and 1. So entry 0 is never filled, an s2mm channel goes into `has_sg` and is lost,
and a second mm2s channel takes the place of the first.

`tableSound_iff` says for which device trees and which specifiers nothing of this shows: at most
one channel, an mm2s one, and a specifier that is 2 or more as an `int`, or 1 when there is that
channel.
-/

set_option autoImplicit false

namespace PetalinuxDriver

open Library

variable {cfg : PhysAddrConfig}

/-! ## One channel -/

namespace ChannelNode

/-- `chan->id` of a channel whose node is compatible. -/
def chanId (node : ChannelNode) : Nat := if node.mm2s then 1 else 2

/-- The probe of the channel gets to `xdev->chan[chan->id] = chan`. -/
def stored (node : ChannelNode) : Bool :=
  node.kzalloc.isSome && node.datawidth.isOk && node.kind.isSome && node.deviceId.isOk

/-- The probe of the channel succeeds. -/
def succeeds (node : ChannelNode) : Bool :=
  node.stored && node.reset.ok && node.requestIrq.isNone

/-- The number of a channel is that of its kind. -/
theorem kind_id {node : ChannelNode} {id ctrlOffset : Nat} {direction : DmaTransferDirection}
    (h : node.kind = some (id, ctrlOffset, direction)) : id = node.chanId := by
  unfold kind at h
  unfold chanId
  split at h
  · cases h
    rw [if_pos ‹_›]
  · split at h
    · cases h
      rw [if_neg ‹_›]
    · cases h

end ChannelNode

/-- What a successful probe of the channel with number `n` acquires. -/
def chanResources (n : Nat) : List DmaResource := [.irq n, .tasklet n, .deviceNode n]

namespace XilinxDmaDevice

/-- Storing a channel leaves the list of common. -/
@[simp] theorem storeChan_channels (id n : Nat) (low : BitVec 8) (xdev : XilinxDmaDevice cfg) :
    (xdev.storeChan id n low).channels = xdev.channels := by
  unfold storeChan
  split <;> rfl

/-- Storing a channel allocates nothing. -/
@[simp] theorem storeChan_allocs (id n : Nat) (low : BitVec 8) (xdev : XilinxDmaDevice cfg) :
    (xdev.storeChan id n low).allocs = xdev.allocs := by
  unfold storeChan
  split <;> rfl

/-- Storing a channel acquires nothing. -/
@[simp] theorem storeChan_ledger (id n : Nat) (low : BitVec 8) (xdev : XilinxDmaDevice cfg) :
    (xdev.storeChan id n low).ledger = xdev.ledger := by
  unfold storeChan
  split <;> rfl

/-- Storing a channel removes nothing. -/
@[simp] theorem storeChan_removed (id n : Nat) (low : BitVec 8) (xdev : XilinxDmaDevice cfg) :
    (xdev.storeChan id n low).removed = xdev.removed := by
  unfold storeChan
  split <;> rfl

/-- The data width changes nothing else, and may as well be read after the store. -/
theorem storeChan_copyAlign (id n a : Nat) (low : BitVec 8) (xdev : XilinxDmaDevice cfg) :
    ({ xdev with copyAlign := a } : XilinxDmaDevice cfg).storeChan id n low =
      { xdev.storeChan id n low with copyAlign := a } := by
  unfold storeChan
  split <;> rfl

/-- An mm2s channel goes to entry 1, an s2mm channel beside the table. -/
theorem storeChan_chan (node : ChannelNode) (n : Nat) (low : BitVec 8)
    (xdev : XilinxDmaDevice cfg) :
    (xdev.storeChan node.chanId n low).chan =
      if node.mm2s then Function.update xdev.chan 1 (some n) else xdev.chan := by
  unfold storeChan ChannelNode.chanId
  cases node.mm2s <;> rfl

/-- An mm2s channel does not reach the field behind the table. -/
theorem storeChan_hasSg {node : ChannelNode} (hmm2s : node.mm2s = true) (n : Nat) (low : BitVec 8)
    (xdev : XilinxDmaDevice cfg) : (xdev.storeChan node.chanId n low).hasSg = xdev.hasSg := by
  unfold storeChan ChannelNode.chanId
  rw [hmm2s]
  rfl

end XilinxDmaDevice

/-- What `xilinx_dma_chan_probe` does. -/
inductive ChanProbe (node : ChannelNode) (xdev : XilinxDmaDevice cfg) :
    XilinxDmaDevice cfg × Option Errno → Prop
  /-- It fails before the channel is stored. -/
  | early (a : Nat) (cs : List (ProbedChannel cfg)) (err : Errno) (hstored : node.stored = false) :
      ChanProbe node xdev
        ({ xdev with copyAlign := a, allocs := xdev.allocs ++ cs }, some err)
  /-- It fails afterwards, with nothing acquired. -/
  | late (a : Nat) (low : BitVec 8) (c : ProbedChannel cfg) (err : Errno)
      (hstored : node.stored = true) (hfail : node.succeeds = false) :
      ChanProbe node xdev
        ({ xdev.storeChan node.chanId xdev.allocs.length low with
            copyAlign := a
            allocs := xdev.allocs ++ [c] }, some err)
  | probed (a : Nat) (low : BitVec 8) (c : ProbedChannel cfg) (hok : node.succeeds = true)
      (hid : c.id = node.chanId) (hirq : c.irq = node.irq) :
      ChanProbe node xdev
        ({ xdev.storeChan node.chanId xdev.allocs.length low with
            copyAlign := a
            allocs := xdev.allocs ++ [c]
            channels := xdev.channels ++ [xdev.allocs.length]
            ledger := xdev.ledger ++ (chanResources xdev.allocs.length).map .acquire }, none)

/-- The part of the probe from the reset on. -/
theorem setupChan_inv {node : ChannelNode} (hstored : node.stored = true) (a : Nat)
    (low : BitVec 8) {c : ProbedChannel cfg} (hid : c.id = node.chanId)
    (xdev : XilinxDmaDevice cfg) :
    ChanProbe node xdev (setupChan node xdev.allocs.length c
      { xdev.storeChan node.chanId xdev.allocs.length low with copyAlign := a }) := by
  unfold setupChan
  cases hreset : node.reset.ok with
  | false =>
    have hfail : node.succeeds = false := by simp [ChannelNode.succeeds, hreset]
    simp only [xilinxDmaChanReset, hreset, Bool.false_eq_true, if_false,
      XilinxDmaDevice.storeChan_allocs]
    exact .late a low _ .ebusy hstored hfail
  | true =>
    simp only [xilinxDmaChanReset, hreset, if_true, XilinxDmaDevice.storeChan_allocs]
    cases hirq : node.requestIrq with
    | some err =>
      have hfail : node.succeeds = false := by simp [ChannelNode.succeeds, hirq]
      exact .late a low _ err hstored hfail
    | none =>
      have hok : node.succeeds = true := by simp [ChannelNode.succeeds, hstored, hreset, hirq]
      simp only [XilinxDmaDevice.storeChan_channels, XilinxDmaDevice.storeChan_ledger]
      exact .probed a low _ hok hid rfl

/-- **Inversion of the probe of a channel.** -/
theorem chanProbe_inv (node : ChannelNode) (xdev : XilinxDmaDevice cfg) :
    ChanProbe node xdev (xilinxDmaChanProbe node xdev) := by
  unfold xilinxDmaChanProbe
  cases hkzalloc : node.kzalloc with
  | none =>
    have hstored : node.stored = false := by simp [ChannelNode.stored, hkzalloc]
    have hprobe : ChanProbe node xdev ({ xdev with allocs := xdev.allocs ++ [] }, some .enomem) :=
      .early xdev.copyAlign [] .enomem hstored
    rwa [List.append_nil] at hprobe
  | some low =>
    cases hwidth : node.datawidth with
    | error err =>
      exact .early xdev.copyAlign [_] err
        (by simp [ChannelNode.stored, hwidth, Except.isOk, Except.toBool])
    | ok value =>
      cases hkind : node.kind with
      | none =>
        exact .early (copyAlignOf node value xdev.copyAlign) [_] .einval
          (by simp [ChannelNode.stored, hkind])
      | some kind =>
        obtain ⟨id, ctrlOffset, direction⟩ := kind
        obtain rfl := ChannelNode.kind_id hkind
        cases hdevice : node.deviceId with
        | error err =>
          exact .early (copyAlignOf node value xdev.copyAlign) [_] err
            (by simp [ChannelNode.stored, hdevice, Except.isOk, Except.toBool])
        | ok deviceId =>
          have hstored : node.stored = true := by
            simp [ChannelNode.stored, hkzalloc, hwidth, hkind, hdevice, Except.isOk,
              Except.toBool]
          simp only [XilinxDmaDevice.storeChan_copyAlign]
          exact setupChan_inv hstored _ low rfl xdev

/-- A successful probe has read all that it asks for, and it ends with the part from the reset
on. -/
theorem chanProbe_setup {node : ChannelNode} {xdev : XilinxDmaDevice cfg}
    (h : (xilinxDmaChanProbe node xdev).2 = none) :
    ∃ low value id ctrlOffset direction deviceId,
      node.datawidth = .ok value ∧ node.kind = some (id, ctrlOffset, direction) ∧
      node.deviceId = .ok deviceId ∧
      xilinxDmaChanProbe node xdev = setupChan node xdev.allocs.length
        ⟨kzallocChan xdev.hasSg ctrlOffset, id, direction, chanTag direction deviceId, 0⟩
        (({ xdev with copyAlign := copyAlignOf node value xdev.copyAlign } :
          XilinxDmaDevice cfg).storeChan id xdev.allocs.length low) := by
  unfold xilinxDmaChanProbe at h ⊢
  cases hkzalloc : node.kzalloc with
  | none =>
    rw [hkzalloc] at h
    cases h
  | some low =>
    cases hwidth : node.datawidth with
    | error err =>
      simp only [hkzalloc, hwidth] at h
      cases h
    | ok value =>
      cases hkind : node.kind with
      | none =>
        simp only [hkzalloc, hwidth, hkind] at h
        cases h
      | some kind =>
        obtain ⟨id, ctrlOffset, direction⟩ := kind
        cases hdevice : node.deviceId with
        | error err =>
          simp only [hkzalloc, hwidth, hkind, hdevice] at h
          cases h
        | ok deviceId =>
          exact ⟨low, value, id, ctrlOffset, direction, deviceId, rfl, rfl, rfl, rfl⟩

/-- A probe that returns zero had no reason to fail. -/
theorem chanProbe_succeeds {node : ChannelNode} {xdev xdev' : XilinxDmaDevice cfg}
    (h : xilinxDmaChanProbe node xdev = (xdev', none)) : node.succeeds = true := by
  have hinv := chanProbe_inv node xdev
  rw [h] at hinv
  cases hinv with
  | probed a low c hok => exact hok

/-- Without a reason to fail the probe returns zero. -/
theorem chanProbe_of_succeeds {node : ChannelNode} (h : node.succeeds = true)
    (xdev : XilinxDmaDevice cfg) : ∃ xdev', xilinxDmaChanProbe node xdev = (xdev', none) := by
  have hinv := chanProbe_inv node xdev
  generalize xilinxDmaChanProbe node xdev = r at hinv
  cases hinv with
  | early a cs err hstored => simp [ChannelNode.succeeds, hstored] at h
  | late a low c err hstored hfail =>
    rw [hfail] at h
    cases h
  | probed => exact ⟨_, rfl⟩

/-- A probe that fails had a reason to. -/
theorem chanProbe_fails {node : ChannelNode} {xdev xdev' : XilinxDmaDevice cfg} {err : Errno}
    (h : xilinxDmaChanProbe node xdev = (xdev', some err)) : node.succeeds = false := by
  have hinv := chanProbe_inv node xdev
  rw [h] at hinv
  cases hinv with
  | early a cs err hstored => simp [ChannelNode.succeeds, hstored]
  | late a low c err hstored hfail => exact hfail

/-! ## The children in turn -/

/-- What the first `k` channels acquire. -/
def acquired (k : Nat) : List DmaResource := (List.range k).flatMap chanResources

/-- The table and the lists of a device whose channels are those of these children. -/
structure TableOf (children : List ChannelNode) (xdev : XilinxDmaDevice cfg) : Prop where
  allocs : xdev.allocs.map (fun c => (c.id, c.irq)) = children.map fun node => (node.chanId, node.irq)
  channels : xdev.channels = List.range children.length
  removed : xdev.removed = []
  entry0 : xdev.chan 0 = none
  /-- Entry 1 has an mm2s channel, if there is one. -/
  entry1 : ∀ n, xdev.chan 1 = some n → ∃ node, children[n]? = some node ∧ node.mm2s = true
  noMm2s : xdev.chan 1 = none → ∀ node ∈ children, node.mm2s = false

namespace TableOf

variable {children : List ChannelNode} {xdev : XilinxDmaDevice cfg}

/-- The ledger is not part of the table. -/
theorem enter (h : TableOf children xdev) (e : LedgerEntry DmaResource) :
    TableOf children (xdev.enter e) :=
  ⟨h.allocs, h.channels, h.removed, h.entry0, h.entry1, h.noMm2s⟩

/-- One channel is allocated for each child. -/
theorem length (h : TableOf children xdev) : xdev.allocs.length = children.length := by
  simpa using congrArg List.length h.allocs

/-- The channel of a child has its number and its irq. -/
theorem alloc (h : TableOf children xdev) {n : Nat} {node : ChannelNode}
    (hn : children[n]? = some node) :
    ∃ c, xdev.allocs[n]? = some c ∧ c.id = node.chanId ∧ c.irq = node.irq := by
  have hmap := congrArg (fun l => l[n]?) h.allocs
  simp only [List.getElem?_map, hn, Option.map_some, Option.map_eq_some_iff, Prod.mk.injEq] at hmap
  exact hmap

/-- The entry points to a channel that was allocated. -/
theorem entry1_lt (h : TableOf children xdev) {n : Nat} (hn : xdev.chan 1 = some n) :
    n < children.length := by
  obtain ⟨node, hnode, -⟩ := h.entry1 n hn
  exact (List.getElem?_eq_some_iff.mp hnode).1

/-- The number of the next channel is in no entry. -/
theorem fresh (h : TableOf children xdev) : ∀ i, xdev.chan i ≠ some children.length := by
  intro i hi
  match i with
  | 0 =>
    rw [h.entry0] at hi
    cases hi
  | 1 =>
    have := h.entry1_lt hi
    omega

end TableOf

/-- The device after the channels of these children were probed. -/
structure Probed (children : List ChannelNode) (xdev : XilinxDmaDevice cfg) : Prop extends
    TableOf children xdev where
  ledger : xdev.ledger = (acquired children.length).map .acquire

namespace Probed

variable {children : List ChannelNode} {xdev : XilinxDmaDevice cfg}

/-- Before the first child the table is empty. -/
theorem start (cfg : PhysAddrConfig) (hasSg : Bool) :
    Probed [] ({ XilinxDmaDevice.zero with hasSg := hasSg } : XilinxDmaDevice cfg) where
  allocs := rfl
  channels := rfl
  removed := rfl
  entry0 := rfl
  entry1 := fun n hn => by cases hn
  noMm2s := fun _ node hnode => absurd hnode List.not_mem_nil
  ledger := rfl

/-- One more channel. -/
theorem snoc (h : Probed children xdev) {node : ChannelNode} {xdev' : XilinxDmaDevice cfg}
    (hstep : xilinxDmaChanProbe node xdev = (xdev', none)) : Probed (children ++ [node]) xdev' := by
  have hinv := chanProbe_inv node xdev
  rw [hstep] at hinv
  cases hinv with
  | probed a low c hok hid hirq =>
    have hchan := XilinxDmaDevice.storeChan_chan node xdev.allocs.length low xdev
    have hlength := h.length
    have hledger : xdev.ledger ++ (chanResources xdev.allocs.length).map .acquire =
        (acquired (children ++ [node]).length).map .acquire := by
      simp [h.ledger, hlength, acquired, List.range_succ]
    refine ⟨⟨?_, ?_, ?_, ?_, ?_, ?_⟩, hledger⟩
    · simp [h.allocs, hid, hirq]
    · simp [h.channels, hlength, List.range_succ]
    · simp [h.removed]
    · change (xdev.storeChan _ _ _).chan 0 = none
      rw [hchan]
      cases node.mm2s
      · exact h.entry0
      · exact h.entry0
    · intro n hn
      change (xdev.storeChan _ _ _).chan 1 = some n at hn
      rw [hchan] at hn
      cases hmm2s : node.mm2s with
      | false =>
        simp only [hmm2s, Bool.false_eq_true, if_false] at hn
        obtain ⟨old, hold, holdmm2s⟩ := h.entry1 n hn
        have hlt := (List.getElem?_eq_some_iff.mp hold).1
        exact ⟨old, by rwa [List.getElem?_append_left hlt], holdmm2s⟩
      | true =>
        simp only [hmm2s, if_true, Function.update_self, Option.some.injEq] at hn
        exact ⟨node, by simp [← hn, hlength], hmm2s⟩
    · intro hnone
      change (xdev.storeChan _ _ _).chan 1 = none at hnone
      rw [hchan] at hnone
      cases hmm2s : node.mm2s with
      | false =>
        simp only [hmm2s, Bool.false_eq_true, if_false] at hnone
        intro old hold
        rcases List.mem_append.mp hold with hold | hold
        · exact h.noMm2s hnone old hold
        · rw [List.mem_singleton.mp hold, hmm2s]
      | true => simp [hmm2s] at hnone

end Probed

/-- Children that all succeed are probed one after the other. -/
theorem probeChildren_succeed {children : List ChannelNode} (rest : List ChannelNode)
    (hok : ∀ node ∈ children, node.succeeds = true) {pre : List ChannelNode}
    {xdev : XilinxDmaDevice cfg} (h : Probed pre xdev) :
    ∃ xdev', probeChildren (children ++ rest) xdev = probeChildren rest xdev' ∧
      Probed (pre ++ children) xdev' := by
  induction children generalizing pre xdev with
  | nil => exact ⟨xdev, rfl, by rwa [List.append_nil]⟩
  | cons node children ih =>
    cases hstep : xilinxDmaChanProbe node xdev with
    | mk mid err =>
      cases err with
      | some err =>
        have hfail := chanProbe_fails hstep
        rw [hok node List.mem_cons_self] at hfail
        cases hfail
      | none =>
        have hrest : ∀ node ∈ children, node.succeeds = true :=
          fun other hother => hok other (List.mem_cons_of_mem _ hother)
        obtain ⟨xdev', hrun, hprobed⟩ := ih hrest (h.snoc hstep)
        refine ⟨xdev', ?_, ?_⟩
        · rw [List.cons_append, probeChildren, hstep]
          exact hrun
        · rwa [List.append_assoc, List.singleton_append] at hprobed

/-- The loop ends at the first child whose probe fails. -/
theorem probeChildren_fails {node : ChannelNode} (rest : List ChannelNode)
    (hfail : node.succeeds = false) (xdev : XilinxDmaDevice cfg) :
    ∃ xdev' err, xilinxDmaChanProbe node xdev = (xdev', some err) ∧
      probeChildren (node :: rest) xdev = (xdev', some err) := by
  cases hstep : xilinxDmaChanProbe node xdev with
  | mk xdev' err =>
    cases err with
    | none =>
      rw [chanProbe_succeeds hstep] at hfail
      cases hfail
    | some err => exact ⟨xdev', err, rfl, by rw [probeChildren, hstep]⟩

/-- A loop that ends without an error has probed every child. -/
theorem probeChildren_none {children : List ChannelNode} {xdev xdev' : XilinxDmaDevice cfg}
    (h : probeChildren children xdev = (xdev', none)) :
    ∀ node ∈ children, node.succeeds = true := by
  induction children generalizing xdev with
  | nil => exact fun node hnode => absurd hnode List.not_mem_nil
  | cons node children ih =>
    cases hstep : xilinxDmaChanProbe node xdev with
    | mk mid err =>
      rw [probeChildren, hstep] at h
      cases err with
      | some err => cases h
      | none =>
        intro other hother
        rcases List.mem_cons.mp hother with rfl | hother
        · exact chanProbe_succeeds hstep
        · exact ih h other hother

/-! ## The loop over the table -/

/-- Entry 0 is empty, so the loop removes the channel in entry 1. -/
theorem removeChans_eq {xdev : XilinxDmaDevice cfg} (h : xdev.chan 0 = none) :
    removeChans xdev =
      match xdev.chan 1 with
      | none => xdev
      | some n => xilinxDmaChanRemove n xdev := by
  have hrange : List.finRange xilinxDmaMaxChansPerDevice = [0, 1] := rfl
  cases hone : xdev.chan 1 with
  | none => simp [removeChans, hrange, h, hone]
  | some n => simp [removeChans, hrange, h, hone]

/-- The channel is noted as removed. -/
theorem chanRemove_removed {n : Nat} {xdev : XilinxDmaDevice cfg} (h : n < xdev.allocs.length) :
    (xilinxDmaChanRemove n xdev).removed = xdev.removed ++ [n] := by
  unfold xilinxDmaChanRemove
  rw [List.getElem?_eq_getElem h]

/-! ## The device -/

namespace DeviceNode

/-- The children that `xilinx_dma_probe` gets to, unless one of them fails. -/
def reached (node : DeviceNode) : List ChannelNode :=
  if node.kzallocOk && node.ioremap.isNone then node.children else []

/-- The children whose probe succeeds before one fails. -/
def probedChildren (node : DeviceNode) : List ChannelNode :=
  node.reached.takeWhile ChannelNode.succeeds

/-- The probe of the device succeeds. -/
def succeeds (node : DeviceNode) : Bool :=
  node.kzallocOk && node.ioremap.isNone && node.children.all ChannelNode.succeeds &&
    node.controllerRegister.isNone

/-- The device at the loop over the children. -/
def start (node : DeviceNode) : XilinxDmaDevice cfg :=
  { XilinxDmaDevice.zero with hasSg := node.includeSg }

end DeviceNode

/-- The registration of the device leaves the table alone, whether it succeeds or not. -/
theorem TableOf.asyncDeviceRegister {children : List ChannelNode} {xdev : XilinxDmaDevice cfg}
    (h : TableOf children xdev) (err : Option Errno) :
    TableOf children (xdev.asyncDeviceRegister err) := by
  cases err with
  | some err => exact h
  | none => exact h.enter _

/-- A successful probe of the device leaves what its channels left. -/
theorem probe_of_succeeds (cfg : PhysAddrConfig) {node : DeviceNode} (h : node.succeeds = true) :
    ∃ xdev : XilinxDmaDevice cfg, Probed node.children xdev ∧
      xilinxDmaProbe node =
        ((xdev.asyncDeviceRegister node.asyncRegister).enter (.acquire .controller), none) := by
  simp only [DeviceNode.succeeds, Bool.and_eq_true, Option.isNone_iff_eq_none,
    List.all_eq_true] at h
  obtain ⟨⟨⟨hkzalloc, hmap⟩, hchildren⟩, hregister⟩ := h
  obtain ⟨xdev, hrun, hprobed⟩ :=
    probeChildren_succeed [] hchildren (Probed.start cfg node.includeSg)
  rw [List.append_nil] at hrun
  refine ⟨xdev, by rwa [List.nil_append] at hprobed, ?_⟩
  simp [xilinxDmaProbe, hkzalloc, hmap, hrun, probeChildren, hregister]

/-! ## What the table promises -/

/-- The new channel is stored inside the table and nothing else is hit. -/
def StoredInTable (xdev xdev' : XilinxDmaDevice cfg) : Prop :=
  (∃ i, xdev'.chan = Function.update xdev.chan i (some xdev.allocs.length)) ∧
    xdev'.hasSg = xdev.hasSg

/-- The lookup gives `NULL` or the channel that was probed with that id. -/
def XlateSound (arg : BitVec 32) (xdev : XilinxDmaDevice cfg) : Prop :=
  ∀ available, ofDmaXilinxXlate arg available xdev = .null ∨
    ∃ n c, ofDmaXilinxXlate arg available xdev = .common n ∧ n ∈ xdev.channels ∧
      xdev.allocs[n]? = some c ∧ (c.id : Int) = arg.toInt

/-- The table of channels is in bounds and complete, for a device node and a specifier. -/
structure TableSound (cfg : PhysAddrConfig) (node : DeviceNode) (arg : BitVec 32) : Prop where
  stores : ∀ pre child post (xdev xdev' : XilinxDmaDevice cfg),
    node.reached = pre ++ child :: post → probeChildren pre node.start = (xdev, none) →
      xilinxDmaChanProbe child xdev = (xdev', none) → StoredInTable xdev xdev'
  lookup : ∀ xdev : XilinxDmaDevice cfg, xilinxDmaProbe node = (xdev, none) → XlateSound arg xdev
  reachable : ∀ xdev : XilinxDmaDevice cfg, xilinxDmaProbe node = (xdev, none) →
    ∀ n ∈ xdev.channels, ∃ spec, ofDmaXilinxXlate spec true xdev = .common n
  removedOnce : ∀ xdev : XilinxDmaDevice cfg, xilinxDmaProbe node = (xdev, none) →
    ∀ n ∈ xdev.channels, (xilinxDmaRemove xdev).removed.count n = 1

/-- A channel is stored inside the table when it is an mm2s channel. -/
theorem storedInTable_iff {children : List ChannelNode} {xdev xdev' : XilinxDmaDevice cfg}
    {child : ChannelNode} (h : TableOf children xdev)
    (hstep : xilinxDmaChanProbe child xdev = (xdev', none)) :
    StoredInTable xdev xdev' ↔ child.mm2s = true := by
  have hinv := chanProbe_inv child xdev
  rw [hstep] at hinv
  cases hinv with
  | probed a low c hok hid hirq =>
    have hchan := XilinxDmaDevice.storeChan_chan child xdev.allocs.length low xdev
    constructor
    · rintro ⟨⟨i, hi⟩, -⟩
      change (xdev.storeChan _ _ _).chan = _ at hi
      by_contra hmm2s
      rw [hchan, if_neg hmm2s] at hi
      -- the number of the new channel is in no entry yet
      have hentry := congrFun hi i
      rw [Function.update_self, h.length] at hentry
      exact h.fresh i hentry
    · intro hmm2s
      refine ⟨⟨1, ?_⟩, ?_⟩
      · change (xdev.storeChan _ _ _).chan = _
        rw [hchan, if_pos hmm2s]
      · exact XilinxDmaDevice.storeChan_hasSg hmm2s _ _ _

/-! ## The lookup -/

/-- A specifier from two on finds nothing. -/
theorem xlate_past {arg : BitVec 32} (harg : 2 ≤ arg.toInt) (available : Bool)
    (xdev : XilinxDmaDevice cfg) : ofDmaXilinxXlate arg available xdev = .null := by
  have hpast : arg.toInt ≥ (xilinxDmaMaxChansPerDevice : Int) := harg
  simp only [ofDmaXilinxXlate, if_pos hpast]

/-- The specifier one finds the entry 1. -/
theorem xlate_one {arg : BitVec 32} (harg : arg.toInt = 1) (available : Bool)
    (xdev : XilinxDmaDevice cfg) :
    ofDmaXilinxXlate arg available xdev =
      match xdev.chan 1 with
      | none => .wild
      | some n => if available then .common n else .null := by
  unfold ofDmaXilinxXlate
  rw [harg]
  rfl

/-- Entry 0 and what lies before the table. -/
theorem entry_below {index : Int} (hindex : index < 1) {xdev : XilinxDmaDevice cfg}
    (h : xdev.chan 0 = none) : xdev.entry index = none := by
  by_cases hzero : index = 0
  · subst hzero
    exact h
  · have hnot : ¬ (0 ≤ index ∧ index.toNat < xilinxDmaMaxChansPerDevice) := by omega
    rw [XilinxDmaDevice.entry, dif_neg hnot]

/-- Every smaller specifier reads an entry that was never set. -/
theorem xlate_below {arg : BitVec 32} (harg : arg.toInt < 1) (available : Bool)
    {xdev : XilinxDmaDevice cfg} (h : xdev.chan 0 = none) :
    ofDmaXilinxXlate arg available xdev = .wild := by
  have hpast : ¬ arg.toInt ≥ (xilinxDmaMaxChansPerDevice : Int) := by
    change ¬ arg.toInt ≥ 2
    omega
  simp only [ofDmaXilinxXlate, if_neg hpast, entry_below harg h]

/-- The lookup is sound for specifiers past the table, and for 1 when that entry is filled. -/
theorem xlateSound_iff {children : List ChannelNode} {xdev : XilinxDmaDevice cfg}
    (h : TableOf children xdev) (arg : BitVec 32) :
    XlateSound arg xdev ↔
      2 ≤ arg.toInt ∨ (arg.toInt = 1 ∧ ∃ node ∈ children, node.mm2s = true) := by
  constructor
  · intro hsound
    have hwild : ofDmaXilinxXlate arg true xdev ≠ .wild := by
      rcases hsound true with hnull | ⟨n, c, hcommon, -⟩
      · simp [hnull]
      · simp [hcommon]
    rcases lt_trichotomy arg.toInt 1 with hlt | hone | hgt
    · exact absurd (xlate_below hlt true h.entry0) hwild
    · refine Or.inr ⟨hone, ?_⟩
      rw [xlate_one hone] at hwild
      cases hentry : xdev.chan 1 with
      | none => simp [hentry] at hwild
      | some n =>
        obtain ⟨node, hnode, hmm2s⟩ := h.entry1 n hentry
        exact ⟨node, List.mem_of_getElem? hnode, hmm2s⟩
    · exact Or.inl (by omega)
  · rintro (hpast | ⟨hone, node, hnode, hmm2s⟩) available
    · exact Or.inl (xlate_past hpast available xdev)
    · rw [xlate_one hone]
      cases hentry : xdev.chan 1 with
      | none =>
        rw [h.noMm2s hentry node hnode] at hmm2s
        cases hmm2s
      | some n =>
        cases available with
        | false => exact Or.inl rfl
        | true =>
          right
          obtain ⟨child, hchild, hkind⟩ := h.entry1 n hentry
          obtain ⟨c, hc, hid, -⟩ := h.alloc hchild
          have hlt := (List.getElem?_eq_some_iff.mp hchild).1
          refine ⟨n, c, rfl, ?_, hc, ?_⟩
          · rw [h.channels]
            exact List.mem_range.mpr hlt
          · rw [hid, hone, ChannelNode.chanId, if_pos hkind]
            rfl

/-! ## The result -/

/-- When the loop over the table removes each channel once, there is at most one. -/
theorem length_le_one_of_removedOnce {children : List ChannelNode} {xdev : XilinxDmaDevice cfg}
    (h : TableOf children xdev)
    (honce : ∀ n ∈ xdev.channels, (removeChans xdev).removed.count n = 1) :
    children.length ≤ 1 := by
  rw [h.channels, removeChans_eq h.entry0] at honce
  by_contra hlength
  have h0 := honce 0 (List.mem_range.mpr (by omega))
  have h1 := honce 1 (List.mem_range.mpr (by omega))
  cases hentry : xdev.chan 1 with
  | none => simp [hentry, h.removed] at h0
  | some n =>
    have hlt := h.entry1_lt hentry
    simp only [hentry, chanRemove_removed (h.length ▸ hlt), h.removed, List.nil_append,
      List.count_singleton, beq_iff_eq] at h0 h1
    split at h0
    · split at h1
      · omega
      · omega
    · omega

/-- The one channel of a table is in entry 1, when it is an mm2s channel. -/
theorem TableOf.entry1_of_single {children : List ChannelNode} {xdev : XilinxDmaDevice cfg}
    (h : TableOf children xdev) (hlength : children.length ≤ 1)
    (hmm2s : ∀ child ∈ children, child.mm2s = true) {n : Nat} (hn : n ∈ xdev.channels) :
    xdev.chan 1 = some n := by
  rw [h.channels, List.mem_range] at hn
  have hmem : children[n] ∈ children := List.getElem_mem hn
  cases hentry : xdev.chan 1 with
  | none =>
    have := h.noMm2s hentry _ hmem
    rw [hmm2s _ hmem] at this
    cases this
  | some k =>
    have hk := h.entry1_lt hentry
    have hkn : k = n := by omega
    rw [hkn]

/-- A probe that succeeds reaches every child. -/
theorem reached_of_succeeds {node : DeviceNode} (h : node.succeeds = true) :
    node.reached = node.children := by
  simp only [DeviceNode.succeeds, Bool.and_eq_true] at h
  simp [DeviceNode.reached, h.1.1.1, h.1.1.2]

/-- A probe that succeeds probes every child. -/
theorem probedChildren_of_succeeds {node : DeviceNode} (h : node.succeeds = true) :
    node.probedChildren = node.children := by
  rw [DeviceNode.probedChildren, reached_of_succeeds h, List.takeWhile_eq_self_iff]
  simp only [DeviceNode.succeeds, Bool.and_eq_true, List.all_eq_true] at h
  exact h.1.2

/-- A device whose probe returned no error is one whose parts all succeeded. -/
theorem succeeds_of_probe {node : DeviceNode} {xdev : XilinxDmaDevice cfg}
    (h : xilinxDmaProbe node = (xdev, none)) : node.succeeds = true := by
  unfold xilinxDmaProbe at h
  cases hkzalloc : node.kzallocOk with
  | false => simp [hkzalloc] at h
  | true =>
    cases hmap : node.ioremap with
    | some err => simp [hkzalloc, hmap] at h
    | none =>
      simp only [hkzalloc, hmap, Bool.not_true, Bool.false_eq_true, if_false] at h
      split at h
      · cases h
      · rename_i mid hrun
        have hchildren := probeChildren_none hrun
        cases hregister : node.controllerRegister with
        | some err => simp [hregister] at h
        | none =>
          simp only [DeviceNode.succeeds, hkzalloc, hmap, hregister, Option.isNone_none,
            Bool.true_and, Bool.and_true, List.all_eq_true]
          exact hchildren

/-- Each channel that is looked up by 1 and removed. -/
theorem removed_of_single {children : List ChannelNode} {xdev : XilinxDmaDevice cfg}
    (h : TableOf children xdev) (hlength : children.length ≤ 1)
    (hmm2s : ∀ child ∈ children, child.mm2s = true) :
    ∀ n ∈ xdev.channels, (removeChans xdev).removed.count n = 1 := by
  intro n hn
  have hentry := h.entry1_of_single hlength hmm2s hn
  have hlt : n < xdev.allocs.length := h.length ▸ h.entry1_lt hentry
  simp [removeChans_eq h.entry0, hentry, chanRemove_removed hlt, h.removed]

/-- A child whose probe succeeds after those before it did is one of the probed children. -/
theorem mem_probedChildren {node : DeviceNode} {pre post : List ChannelNode} {child : ChannelNode}
    (hsplit : node.reached = pre ++ child :: post) (hpre : ∀ c ∈ pre, c.succeeds = true)
    (hchild : child.succeeds = true) : child ∈ node.probedChildren := by
  rw [DeviceNode.probedChildren, hsplit, List.takeWhile_append_of_pos hpre,
    List.takeWhile_cons_of_pos hchild]
  simp

/-- The probed children in the order in which they are probed. -/
theorem split_probedChildren {node : DeviceNode} {child : ChannelNode}
    (h : child ∈ node.probedChildren) :
    ∃ pre post, node.reached = pre ++ child :: post ∧ (∀ c ∈ pre, c.succeeds = true) ∧
      child.succeeds = true := by
  obtain ⟨pre, post, hsplit⟩ := List.append_of_mem h
  have hall : ∀ c ∈ node.probedChildren, c.succeeds = true := fun c hc => List.mem_takeWhile_imp hc
  refine ⟨pre, post ++ node.reached.dropWhile ChannelNode.succeeds, ?_, ?_, hall child h⟩
  · calc node.reached
        = node.probedChildren ++ node.reached.dropWhile ChannelNode.succeeds :=
          List.takeWhile_append_dropWhile.symm
      _ = pre ++ child :: (post ++ node.reached.dropWhile ChannelNode.succeeds) := by
          rw [hsplit, List.append_assoc, List.cons_append]
  · intro c hc
    apply hall
    rw [hsplit]
    exact List.mem_append_left _ hc

/-- The stores stay inside the table when every probed channel is an mm2s channel. -/
theorem stores_iff (node : DeviceNode) :
    (∀ pre child post (xdev xdev' : XilinxDmaDevice cfg),
      node.reached = pre ++ child :: post → probeChildren pre node.start = (xdev, none) →
        xilinxDmaChanProbe child xdev = (xdev', none) → StoredInTable xdev xdev') ↔
      ∀ child ∈ node.probedChildren, child.mm2s = true := by
  have hprobed : ∀ pre : List ChannelNode, (∀ c ∈ pre, c.succeeds = true) →
      ∃ xdev : XilinxDmaDevice cfg, probeChildren pre node.start = (xdev, none) ∧
        Probed pre xdev := by
    intro pre hpre
    obtain ⟨xdev, hrun, h⟩ := probeChildren_succeed [] hpre (Probed.start cfg node.includeSg)
    rw [List.append_nil] at hrun
    exact ⟨xdev, hrun, h⟩
  constructor
  · intro hstores child hchild
    obtain ⟨pre, post, hsplit, hpre, hok⟩ := split_probedChildren hchild
    obtain ⟨xdev, hrun, h⟩ := hprobed pre hpre
    obtain ⟨xdev', hstep⟩ := chanProbe_of_succeeds hok xdev
    exact (storedInTable_iff h.toTableOf hstep).mp 
      (hstores pre child post xdev xdev' hsplit hrun hstep)
  · intro hmm2s pre child post xdev xdev' hsplit hrun hstep
    have hpre := probeChildren_none hrun
    obtain ⟨mid, hmid, h⟩ := hprobed pre hpre
    rw [hrun] at hmid
    cases hmid
    exact (storedInTable_iff h.toTableOf hstep).mpr
      (hmm2s child (mem_probedChildren hsplit hpre (chanProbe_succeeds hstep)))

/-- **The table of channels.** For every device tree and every specifier, the stores stay inside
the table, the lookup is sound, every channel can be looked up and is removed once, exactly when
the channels probed are mm2s channels and, if the probe succeeds, there is at most one and the
specifier is past the table as an `int`, or 1 and there is one. -/
theorem tableSound_iff (node : DeviceNode) (arg : BitVec 32) :
    TableSound cfg node arg ↔
      (∀ child ∈ node.probedChildren, child.mm2s = true) ∧
        (node.succeeds = true → node.children.length ≤ 1 ∧
          (2 ≤ arg.toInt ∨ (arg.toInt = 1 ∧ node.children ≠ []))) := by
  constructor
  · intro h
    have hmm2s := (stores_iff node).mp h.stores
    refine ⟨hmm2s, fun hok => ?_⟩
    rw [probedChildren_of_succeeds hok] at hmm2s
    obtain ⟨xdev, hprobed, hrun⟩ := probe_of_succeeds cfg hok
    have htable := (hprobed.toTableOf.asyncDeviceRegister node.asyncRegister).enter
      (.acquire .controller)
    refine ⟨?_, ?_⟩
    · have hremove := (htable.enter (.release .controller)).enter (.release .asyncDevice)
      exact length_le_one_of_removedOnce hremove (h.removedOnce _ hrun)
    · rcases (xlateSound_iff htable arg).mp (h.lookup _ hrun) with hpast | ⟨hone, child, hchild, -⟩
      · exact Or.inl hpast
      · exact Or.inr ⟨hone, List.ne_nil_of_mem hchild⟩
  · rintro ⟨hmm2s, hsuccess⟩
    -- what a successful probe of the device leaves
    have hdevice : ∀ xdev : XilinxDmaDevice cfg, xilinxDmaProbe node = (xdev, none) →
        TableOf node.children xdev ∧ (∀ child ∈ node.children, child.mm2s = true) ∧
          node.children.length ≤ 1 ∧
          (2 ≤ arg.toInt ∨ (arg.toInt = 1 ∧ node.children ≠ [])) := by
      intro xdev hprobe
      have hok := succeeds_of_probe hprobe
      obtain ⟨mid, hprobed, hrun⟩ := probe_of_succeeds cfg hok
      rw [hprobe] at hrun
      cases hrun
      rw [probedChildren_of_succeeds hok] at hmm2s
      exact ⟨(hprobed.toTableOf.asyncDeviceRegister _).enter _, hmm2s, hsuccess hok⟩
    constructor
    · exact (stores_iff node).mpr hmm2s
    · intro xdev hprobe
      obtain ⟨htable, hall, -, harg⟩ := hdevice xdev hprobe
      rw [xlateSound_iff htable]
      rcases harg with hpast | ⟨hone, hne⟩
      · exact Or.inl hpast
      · obtain ⟨child, hchild⟩ := List.exists_mem_of_ne_nil _ hne
        exact Or.inr ⟨hone, child, hchild, hall child hchild⟩
    · intro xdev hprobe n hn
      obtain ⟨htable, hall, hlength, -⟩ := hdevice xdev hprobe
      refine ⟨1#32, ?_⟩
      rw [xlate_one rfl, htable.entry1_of_single hlength hall hn]
      rfl
    · intro xdev hprobe n hn
      obtain ⟨htable, hall, hlength, -⟩ := hdevice xdev hprobe
      have hremove := (htable.enter (.release .controller)).enter (.release .asyncDevice)
      exact removed_of_single hremove hlength hall n hn

/-- A child that is probed without a failure; `mm2s` says which of the two kinds it is. -/
def soundChild (mm2s : Bool) (irq : Int) : ChannelNode where
  kzalloc := some 0
  includeDre := true
  datawidth := .ok 32
  mm2s := mm2s
  s2mm := !mm2s
  deviceId := .ok 0
  reset := ⟨0, true⟩
  irq := irq
  requestIrq := none

/-- A device with one channel of each kind, as the hardware has them. -/
def bothChannels : DeviceNode where
  kzallocOk := true
  ioremap := none
  includeSg := true
  children := [soundChild true 61, soundChild false 62]
  asyncRegister := none
  controllerRegister := none

/-- Its s2mm channel is stored behind the table. -/
theorem not_tableSound :
    ¬ ∀ (node : DeviceNode) (arg : BitVec 32), TableSound .addr32 node arg := by
  intro hclaim
  have hstores := (stores_iff bothChannels).mp (hclaim bothChannels 1).stores
  have hprobed : bothChannels.probedChildren = [soundChild true 61, soundChild false 62] := rfl
  have hmm2s := hstores (soundChild false 62) (by rw [hprobed]; simp)
  cases hmm2s

/-- The device goes on as one without scatter-gather, and its second channel is not removed. -/
example :
    (xilinxDmaProbe bothChannels : XilinxDmaDevice .addr32 × Option Errno).1.hasSg = false ∧
      (xilinxDmaRemove (xilinxDmaProbe bothChannels : XilinxDmaDevice .addr32 × Option Errno).1).removed
        = [0] := by
  decide

end PetalinuxDriver
