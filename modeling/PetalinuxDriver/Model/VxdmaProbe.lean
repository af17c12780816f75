import Mathlib.Data.Nat.Size
import PetalinuxDriver.Library.Ledger
import PetalinuxDriver.Model.VxdmaProgram

/-!
# Probe, lookup and removal of the AXI DMA device

`xilinx_dma_chan_remove` to `xilinx_dma_remove` of `vxdma/vxdma.c`. What the device tree says and
what the kernel and the device answer are arguments. Channels are numbered in the order in which
`devm_kzalloc` returned them, so that a channel's number stands for its address.

`xdev->chan[2]` is the memory behind the table. In `struct xilinx_dma_device` that is `has_sg`,
whose byte takes the lowest byte of the pointer stored there.

The ledger has the resources that the driver gives back by itself: those of `devm` functions are
given back by the kernel. The reference to a child node that `for_each_child_of_node` holds when the
loop is left by an error is not in it.

`xilinx_dma_probe` does not look at what `dma_async_device_register` returns, so its outcome is one
of the answers of the kernel: when it fails the probe goes on, and the device is unregistered later
without having been registered.
-/

set_option autoImplicit false

namespace PetalinuxDriver

open Library

variable {cfg : PhysAddrConfig}

/-! ## Constants -/

def xilinxDmaMm2sCtrlOffset : Nat := 0x00
def xilinxDmaS2mmCtrlOffset : Nat := 0x30

/-- `XILINX_DMA_MAX_CHANS_PER_DEVICE`. -/
abbrev xilinxDmaMaxChansPerDevice : Nat := 2

/-- `XILINX_DMA_IP_DMA` of `linux/amba/xilinx_dma.h`. -/
def xilinxDmaIpDma : BitVec 32 := 0x00100000

/-- `XILINX_DMA_DEVICE_ID_SHIFT` of `linux/amba/xilinx_dma.h`. -/
def xilinxDmaDeviceIdShift : Nat := 28

/-- The number of an enumerator of `enum dma_transfer_direction`. -/
def DmaTransferDirection.word : DmaTransferDirection → BitVec 32
  | .memToMem => 0
  | .memToDev => 1
  | .devToMem => 2
  | .devToDev => 3
  | .transNone => 4

/-- `fls`: the position of the last bit set, counted from one. -/
def fls (x : BitVec 32) : Nat := x.toNat.size

/-! ## What a probe is given -/

/-- A child node, with what the kernel and the device answer while its channel is probed. -/
structure ChannelNode where
  /-- `devm_kzalloc`: the lowest byte of the address. -/
  kzalloc : Option (BitVec 8)
  /-- `xlnx,include-dre`. -/
  includeDre : Bool
  /-- `xlnx,datawidth`. -/
  datawidth : Except Errno (BitVec 32)
  /-- Compatible with `xlnx,axi-dma-mm2s-channel`. -/
  mm2s : Bool
  /-- Compatible with `xlnx,axi-dma-s2mm-channel`. -/
  s2mm : Bool
  /-- `xlnx,device-id`. -/
  deviceId : Except Errno (BitVec 32)
  reset : ResetEnv
  /-- `irq_of_parse_and_map`. -/
  irq : Int
  /-- The error of `request_irq`. -/
  requestIrq : Option Errno

/-- The device node, with what the kernel answers while it is probed. -/
structure DeviceNode where
  kzallocOk : Bool
  /-- The error of `devm_ioremap_resource`. -/
  ioremap : Option Errno
  /-- `xlnx,include-sg`. -/
  includeSg : Bool
  children : List ChannelNode
  /-- The error of `dma_async_device_register`. -/
  asyncRegister : Option Errno
  /-- The error of `of_dma_controller_register`. -/
  controllerRegister : Option Errno

/-! ## The device -/

/-- `struct xilinx_dma_chan`, with the fields that only the probe and the removal use. -/
structure ProbedChannel (cfg : PhysAddrConfig) where
  chan : XilinxDmaChan cfg
  id : Nat
  direction : DmaTransferDirection
  /-- The field `private`. -/
  tag : BitVec 32
  irq : Int

/-- What the driver has to give back itself. -/
inductive DmaResource where
  /-- The irq of a channel, between `request_irq` and `free_irq`. -/
  | irq (chan : Nat)
  /-- A tasklet, between `tasklet_init` and `tasklet_kill`. -/
  | tasklet (chan : Nat)
  /-- A `device_node`, between `list_add_tail` and `list_del`. -/
  | deviceNode (chan : Nat)
  /-- `dma_async_device_register` and `dma_async_device_unregister`. -/
  | asyncDevice
  /-- `of_dma_controller_register` and `of_dma_controller_free`. -/
  | controller
deriving DecidableEq, Repr

/-- `struct xilinx_dma_device`, with the channels allocated for it, the ledger, and the channels
for which `xilinx_dma_chan_remove` was called. -/
structure XilinxDmaDevice (cfg : PhysAddrConfig) where
  chan : Fin xilinxDmaMaxChansPerDevice → Option Nat
  hasSg : Bool
  copyAlign : Nat
  /-- `common.channels`. -/
  channels : List Nat
  allocs : List (ProbedChannel cfg)
  ledger : List (LedgerEntry DmaResource)
  removed : List Nat

namespace XilinxDmaDevice

/-- What `devm_kzalloc` and `INIT_LIST_HEAD` leave. -/
def zero : XilinxDmaDevice cfg where
  chan := fun _ => none
  hasSg := false
  copyAlign := 0
  channels := []
  allocs := []
  ledger := []
  removed := []

/-- `xdev->chan[id] = chan`, for a channel with number `n` at an address with lowest byte `low`. -/
def storeChan (id n : Nat) (low : BitVec 8) (xdev : XilinxDmaDevice cfg) : XilinxDmaDevice cfg :=
  if h : id < xilinxDmaMaxChansPerDevice then
    { xdev with chan := Function.update xdev.chan ⟨id, h⟩ (some n) }
  else { xdev with hasSg := low != 0 }

end XilinxDmaDevice

/-! ## One channel -/

/-- The id, register offset and direction of a channel, by what its node is compatible with. -/
def ChannelNode.kind (node : ChannelNode) : Option (Nat × Nat × DmaTransferDirection) :=
  if node.mm2s then some (1, xilinxDmaMm2sCtrlOffset, .memToDev)
  else if node.s2mm then some (2, xilinxDmaS2mmCtrlOffset, .devToMem)
  else none

/-- `chan->private`. -/
def chanTag (direction : DmaTransferDirection) (deviceId : BitVec 32) : BitVec 32 :=
  (direction.word &&& 0xFF) ||| xilinxDmaIpDma ||| (deviceId <<< xilinxDmaDeviceIdShift)

/-- `common.copy_align` after the data width of a channel was read. -/
def copyAlignOf (node : ChannelNode) (value : BitVec 32) (copyAlign : Nat) : Nat :=
  let width := value >>> 3
  let hasDre := node.includeDre && !(width > 8)
  if hasDre then copyAlign else fls (width - 1)

/-- `xilinx_dma_chan_probe` from the reset on, for the channel with number `n`. -/
def setupChan (node : ChannelNode) (n : Nat) (c : ProbedChannel cfg) (xdev : XilinxDmaDevice cfg) :
    XilinxDmaDevice cfg × Option Errno :=
  match xilinxDmaChanReset node.reset c.chan with
  | (chan, some err) => ({ xdev with allocs := xdev.allocs ++ [{ c with chan := chan }] }, some err)
  | (chan, none) =>
    let c := { c with chan := chan, irq := node.irq }
    match node.requestIrq with
    | some err => ({ xdev with allocs := xdev.allocs ++ [c] }, some err)
    | none =>
      let c := { c with chan := { c.chan with idle := true } }
      ({ xdev with
          allocs := xdev.allocs ++ [c]
          channels := xdev.channels ++ [n]
          ledger := xdev.ledger ++
            [.acquire (.irq n), .acquire (.tasklet n), .acquire (.deviceNode n)] }, none)

/-- `xilinx_dma_chan_probe`. -/
def xilinxDmaChanProbe (node : ChannelNode) (xdev : XilinxDmaDevice cfg) :
    XilinxDmaDevice cfg × Option Errno :=
  match node.kzalloc with
  | none => (xdev, some .enomem)
  | some low =>
    let n := xdev.allocs.length
    let c : ProbedChannel cfg := ⟨kzallocChan xdev.hasSg 0, 0, .memToMem, 0, 0⟩
    match node.datawidth with
    | .error err => ({ xdev with allocs := xdev.allocs ++ [c] }, some err)
    | .ok value =>
      let xdev := { xdev with copyAlign := copyAlignOf node value xdev.copyAlign }
      match node.kind with
      | none => ({ xdev with allocs := xdev.allocs ++ [c] }, some .einval)
      | some (id, ctrlOffset, direction) =>
        let c := { c with chan := kzallocChan xdev.hasSg ctrlOffset, id := id, direction := direction }
        match node.deviceId with
        | .error err => ({ xdev with allocs := xdev.allocs ++ [c] }, some err)
        | .ok deviceId =>
          let c := { c with tag := chanTag direction deviceId }
          setupChan node n c (xdev.storeChan id n low)

/-- `xilinx_dma_chan_remove`, for the channel with number `n`. -/
def xilinxDmaChanRemove (n : Nat) (xdev : XilinxDmaDevice cfg) : XilinxDmaDevice cfg :=
  match xdev.allocs[n]? with
  | none => xdev
  | some c =>
    let chan := { c.chan with ctrlReg := c.chan.ctrlReg &&& ~~~xilinxDmaXrIrqAllMask }
    let chan := chan.dmaCtrlWrite xilinxDmaRegControl chan.ctrlReg
    { xdev with
      allocs := xdev.allocs.set n { c with chan := chan }
      channels := xdev.channels.erase n
      ledger := xdev.ledger ++ (if c.irq > 0 then [.release (.irq n)] else []) ++
        [.release (.tasklet n), .release (.deviceNode n)]
      removed := xdev.removed ++ [n] }

/-! ## The device as a whole -/

/-- `for_each_child_of_node` in `xilinx_dma_probe`, up to the first error. -/
def probeChildren : List ChannelNode → XilinxDmaDevice cfg → XilinxDmaDevice cfg × Option Errno
  | [], xdev => (xdev, none)
  | node :: rest, xdev =>
    match xilinxDmaChanProbe node xdev with
    | (xdev, none) => probeChildren rest xdev
    | (xdev, some err) => (xdev, some err)

/-- The loop over the table at `free_chan_resources` and in `xilinx_dma_remove`. -/
def removeChans (xdev : XilinxDmaDevice cfg) : XilinxDmaDevice cfg :=
  (List.finRange xilinxDmaMaxChansPerDevice).foldl (fun xdev i =>
    match xdev.chan i with
    | none => xdev
    | some n => xilinxDmaChanRemove n xdev) xdev

/-- An entry of the ledger. -/
def XilinxDmaDevice.enter (e : LedgerEntry DmaResource) (xdev : XilinxDmaDevice cfg) :
    XilinxDmaDevice cfg :=
  { xdev with ledger := xdev.ledger ++ [e] }

/-- `dma_async_device_register`, which takes nothing when it fails. -/
def XilinxDmaDevice.asyncDeviceRegister (err : Option Errno) (xdev : XilinxDmaDevice cfg) :
    XilinxDmaDevice cfg :=
  match err with
  | some _ => xdev
  | none => xdev.enter (.acquire .asyncDevice)

/-- `xilinx_dma_probe`. -/
def xilinxDmaProbe (node : DeviceNode) : XilinxDmaDevice cfg × Option Errno :=
  if !node.kzallocOk then (.zero, some .enomem)
  else
    match node.ioremap with
    | some err => (.zero, some err)
    | none =>
      match probeChildren node.children { XilinxDmaDevice.zero with hasSg := node.includeSg } with
      | (xdev, some err) => (removeChans xdev, some err)
      | (xdev, none) =>
        let xdev := xdev.asyncDeviceRegister node.asyncRegister
        match node.controllerRegister with
        | some err => (removeChans (xdev.enter (.release .asyncDevice)), some err)
        | none => (xdev.enter (.acquire .controller), none)

/-- `xilinx_dma_remove`. -/
def xilinxDmaRemove (xdev : XilinxDmaDevice cfg) : XilinxDmaDevice cfg :=
  removeChans ((xdev.enter (.release .controller)).enter (.release .asyncDevice))

/-! ## Lookup -/

/-- What `of_dma_xilinx_xlate` returns: `NULL`, the `common` of a channel, or something computed
from an address that is not that of a channel. -/
inductive XlateResult where
  | null
  | common (chan : Nat)
  | wild
deriving DecidableEq, Repr

/-- The channel whose address is in `xdev->chan[index]`, if there is one. -/
def XilinxDmaDevice.entry (index : Int) (xdev : XilinxDmaDevice cfg) : Option Nat :=
  if h : 0 ≤ index ∧ index.toNat < xilinxDmaMaxChansPerDevice then xdev.chan ⟨index.toNat, h.2⟩
  else none

/-- `of_dma_xilinx_xlate` on `args[0]`; `available` is whether `dma_get_slave_channel` can give out
the channel it is passed. -/
def ofDmaXilinxXlate (arg : BitVec 32) (available : Bool) (xdev : XilinxDmaDevice cfg) :
    XlateResult :=
  let chanId := arg.toInt
  if chanId ≥ xilinxDmaMaxChansPerDevice then .null
  else
    match xdev.entry chanId with
    | none => .wild
    | some n => if available then .common n else .null

end PetalinuxDriver
