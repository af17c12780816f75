import Mathlib.Data.List.FinRange
import Mathlib.Logic.Function.Basic
import PetalinuxDriver.Model.Kernel

/-!
# The data of the AXI DMA channel driver

`vxdma/vxdma.h` and the types at the head of `vxdma/vxdma.c`. A segment pointer names the
coherent pool it lies in and its index there, so that the segments of a pool that was released
and the segments of the next pool never have the same name. Lists of segments and descriptors
hold the pointers and the descriptors in list order.

The channel record carries, besides the fields of `struct xilinx_dma_chan`, what the functions
read and write around it: the segment memory, the number of pools and descriptors allocated so
far, which name the next one, and the sequence of observable events. Nothing in the code reads
the events.
-/

set_option autoImplicit false

namespace PetalinuxDriver

/-! ## Registers and limits -/

def xilinxDmaRegControl : Nat := 0x00
def xilinxDmaRegStatus : Nat := 0x04
def xilinxDmaRegCurdesc : Nat := 0x08
def xilinxDmaRegTaildesc : Nat := 0x10
def xilinxDmaRegSrcdstaddr : Nat := 0x18
def xilinxDmaRegBtt : Nat := 0x28

def xilinxDmaCrRunstopMask : BitVec 32 := bit 0
def xilinxDmaCrResetMask : BitVec 32 := bit 2
def xilinxDmaCrCyclicBdEnMask : BitVec 32 := bit 4

def xilinxDmaCrCoalesceShift : Nat := 16
def xilinxDmaCrCoalesceMax : BitVec 32 := genmask 23 16

def xilinxDmaXrIrqIocMask : BitVec 32 := bit 12
def xilinxDmaXrIrqErrorMask : BitVec 32 := bit 14
def xilinxDmaXrIrqAllMask : BitVec 32 := genmask 14 12

def xilinxDmaBdSop : BitVec 32 := bit 27
def xilinxDmaBdEop : BitVec 32 := bit 26

/-- `XILINX_DMA_MAX_TRANS_LEN`, as the mask it is defined as. -/
def xilinxDmaMaxTransLen : BitVec 32 := genmask 22 0

/-- `XILINX_DMA_NUM_DESCS`. -/
abbrev xilinxDmaNumDescs : Nat := 255

/-- Literals are indices of the pool. -/
instance instNeZeroNumDescs : NeZero xilinxDmaNumDescs := ⟨by decide⟩

/-- `XILINX_DMA_COALESCE_MAX`. -/
def xilinxDmaCoalesceMax : Nat := 255

/-- `XILINX_DMA_NUM_APP_WORDS`. -/
abbrev xilinxDmaNumAppWords : Nat := 5

/-- `sizeof(struct xilinx_dma_tx_segment)`: 64 bytes of hardware descriptor, then the list node
and the address, rounded up to the alignment of 64. -/
def sizeofTxSegment : Nat := 128

/-! ## Segments and descriptors -/

/-- The application words of a hardware descriptor. -/
abbrev AppWords := Vector (BitVec 32) xilinxDmaNumAppWords

/-- `struct xilinx_dma_desc_hw`. -/
structure XilinxDmaDescHw where
  nextDesc : BitVec 32
  nextDescMsb : BitVec 32
  bufAddr : BitVec 32
  bufAddrMsb : BitVec 32
  pad1 : BitVec 32
  pad2 : BitVec 32
  control : BitVec 32
  status : BitVec 32
  app : AppWords
deriving DecidableEq, Repr

/-- What `memset` to zero and `dma_zalloc_coherent` leave. -/
def zeroDescHw : XilinxDmaDescHw where
  nextDesc := 0
  nextDescMsb := 0
  bufAddr := 0
  bufAddrMsb := 0
  pad1 := 0
  pad2 := 0
  control := 0
  status := 0
  app := Vector.replicate xilinxDmaNumAppWords 0

/-- `struct xilinx_dma_tx_segment`; the list node is the segment's place in a list of pointers. -/
structure XilinxDmaTxSegment (cfg : PhysAddrConfig) where
  hw : XilinxDmaDescHw
  phys : DmaAddr cfg
deriving DecidableEq, Repr

/-- A pointer `&seg_v[index]` into the pool of the `pool`-th `dma_zalloc_coherent`. -/
structure SegPtr where
  pool : Nat
  index : Fin xilinxDmaNumDescs
deriving DecidableEq, Repr

/-- `&seg_v[(i + 1) % XILINX_DMA_NUM_DESCS]`. -/
def SegPtr.succ (p : SegPtr) : SegPtr := { p with index := p.index + 1 }

/-- `seg_v[0]`, ..., `seg_v[XILINX_DMA_NUM_DESCS - 1]`. -/
def poolSegs (pool : Nat) : List SegPtr :=
  (List.finRange xilinxDmaNumDescs).map (SegPtr.mk pool)

/-- `struct xilinx_dma_tx_descriptor` as a prep function returns it: with at least one segment.
`id` is the allocation it was made by; the cookie, the address and the callback are those of
`async_tx`. -/
structure XilinxDmaTxDescriptor (cfg : PhysAddrConfig) where
  id : Nat
  cookie : Int
  phys : DmaAddr cfg
  callback : Option Nat
  segments : List SegPtr
  segments_ne : segments ≠ []
  direction : DmaTransferDirection
  cyclic : Bool
deriving DecidableEq, Repr

namespace XilinxDmaTxDescriptor

variable {cfg : PhysAddrConfig}

/-- `list_first_entry(&desc->segments, ...)`. -/
def firstSegment (d : XilinxDmaTxDescriptor cfg) : SegPtr := d.segments.head d.segments_ne

/-- `list_last_entry(&desc->segments, ...)`. -/
def lastSegment (d : XilinxDmaTxDescriptor cfg) : SegPtr := d.segments.getLast d.segments_ne

end XilinxDmaTxDescriptor

/-- One entry of a mapped scatterlist: `sg_dma_address` and `sg_dma_len`. -/
structure ScatterEntry (cfg : PhysAddrConfig) where
  dmaAddress : DmaAddr cfg
  dmaLength : BitVec 32
deriving DecidableEq, Repr

/-! ## Events -/

/-- What can be observed of the driver from outside, in the order in which it happens. -/
inductive Event where
  /-- `iowrite32` at an offset from the register base. -/
  | iowrite32 (offset : Nat) (value : BitVec 32)
  /-- `writeq` at an offset from the register base. -/
  | writeq (offset : Nat) (value : BitVec 64)
  /-- `dma_cookie_assign` handed out a cookie. -/
  | cookieAssign (desc : Nat) (cookie : Int)
  /-- `dma_cookie_complete`. -/
  | cookieComplete (desc : Nat)
  /-- The cleanup called the client's callback. -/
  | callback (desc : Nat)
  /-- `xilinx_dma_free_desc_list` took the descriptor off a list and freed it. -/
  | freeDescList (desc : Nat)
  /-- `BUG()` or `BUG_ON()`. -/
  | bug
deriving DecidableEq, Repr

/-- The write of a register that takes an address: `writeq` in the 64-bit build, else
`iowrite32`. -/
def addrWrite (cfg : PhysAddrConfig) {n : Nat} (offset : Nat) (value : BitVec n) : Event :=
  match cfg with
  | .addr64 => .writeq offset (value.setWidth 64)
  | .addr32 => .iowrite32 offset (value.setWidth 32)

/-! ## The channel -/

/-- `struct xilinx_dma_chan` and the memory, allocators and events around it. -/
structure XilinxDmaChan (cfg : PhysAddrConfig) where
  ctrlOffset : Nat
  ctrlReg : BitVec 32
  pendingList : List (XilinxDmaTxDescriptor cfg)
  doneList : List (XilinxDmaTxDescriptor cfg)
  activeList : List (XilinxDmaTxDescriptor cfg)
  freeSegList : List SegPtr
  /-- The cookie fields of `common`. -/
  common : DmaChanCookies
  /-- The live pool, between `dma_zalloc_coherent` and `dma_free_coherent`. -/
  segV : Option Nat
  segP : DmaAddr cfg
  hasSg : Bool
  cyclic : Bool
  err : Bool
  idle : Bool
  /-- The scheduled bit of `tasklet`. -/
  tasklet : Bool
  residue : BitVec 32
  /-- A `u32` that never leaves 0 to 256. -/
  descPendingcount : Nat
  mem : SegPtr → XilinxDmaTxSegment cfg
  pools : Nat
  kzallocs : Nat
  log : List Event
  /-- A `BUG()` was hit, with the lock held: nothing runs on this channel any more. -/
  bug : Bool

namespace XilinxDmaChan

variable {cfg : PhysAddrConfig}

/-! ## Register access -/

/-- An event happens. -/
def emit (s : XilinxDmaChan cfg) (e : Event) : XilinxDmaChan cfg :=
  { s with log := s.log ++ [e] }

/-- `dma_ctrl_write`. -/
def dmaCtrlWrite (s : XilinxDmaChan cfg) (reg : Nat) (value : BitVec 32) : XilinxDmaChan cfg :=
  s.emit (.iowrite32 (s.ctrlOffset + reg) value)

/-- The write of an address register: `dma_ctrl_writeq` in the 64-bit build, else
`dma_ctrl_write`. -/
def dmaCtrlWriteAddr {n : Nat} (s : XilinxDmaChan cfg) (reg : Nat) (value : BitVec n) :
    XilinxDmaChan cfg :=
  s.emit (addrWrite cfg (s.ctrlOffset + reg) value)

/-! ## Segment memory -/

/-- A store to the hardware descriptor of a segment. -/
def setHw (s : XilinxDmaChan cfg) (p : SegPtr) (hw : XilinxDmaDescHw) : XilinxDmaChan cfg :=
  { s with mem := Function.update s.mem p { s.mem p with hw := hw } }

end XilinxDmaChan

end PetalinuxDriver
