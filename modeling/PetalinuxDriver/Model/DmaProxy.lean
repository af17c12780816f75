import PetalinuxDriver.Library.Ledger
import PetalinuxDriver.Library.Transition
import PetalinuxDriver.Model.VxdmaProgram

/-!
# The DMA proxy

`vdmaproxy/dma_proxy.c`, from `sync_callback` to `ioctl`: a client of the DMA engine that lets user
space start transfers out of a buffer it shares with the kernel. Nothing serialises the calls, so
the machine `proxyStep` has any number of `ioctl` calls in flight, and each action moves one of
them over its next access to what the calls share: the channel, its completion, the interface, and
the DMA engine.

The DMA engine is described by what a client may rely on. A submitted transaction completes at any
time, its callback runs at any time after that, and `dma_async_is_tx_complete` says whether the
transaction with a cookie has completed. A descriptor is prepared by `xilinx_dma_prep_slave_sg`, on
a channel in any state. User space may change `interface_p->length` at any time, so each read of it
is an argument.
-/

set_option autoImplicit false

namespace PetalinuxDriver

open Library

variable {cfg : PhysAddrConfig}

/-! ## The shared interface -/

/-- `TEST_SIZE`. -/
def testSize : Nat := 4096 * 64

/-- `sizeof(interface_p->buffer)`, an array of `int`. -/
def sizeofProxyBuffer : Nat := 4 * testSize

/-- `sizeof(struct dma_proxy_channel_interface)`: the buffer, the status and the length. -/
def sizeofProxyInterface : Nat := sizeofProxyBuffer + 4 + 4

/-- `PAGE_SIZE`. -/
def pageSize : Nat := 4096

/-- `PAGE_ALIGN(size) >> PAGE_SHIFT`. -/
def pagesOf (size : Nat) : Nat := (size + (pageSize - 1)) / pageSize

/-- `enum proxy_status`. -/
inductive ProxyStatus where
  | noError
  | busy
  | timeout
  | error
deriving DecidableEq, Repr

/-! ## Mappings and error numbers -/

/-- `enum dma_data_direction`, as far as the proxy uses it. -/
inductive DmaDataDirection where
  | toDevice
  | fromDevice
deriving DecidableEq, Repr

/-- What `dma_map_single` makes and `dma_unmap_single` takes back. -/
structure DmaMapping (cfg : PhysAddrConfig) where
  handle : DmaAddr cfg
  length : BitVec 32
  direction : DmaDataDirection
deriving DecidableEq, Repr

/-- `map_direction` in `transfer` and in `wait_for_transfer`. -/
def mapDirection (direction : DmaTransferDirection) : DmaDataDirection :=
  if direction = .memToDev then .toDevice else .fromDevice

/-- The number of an error. -/
def Errno.code : Errno → Int
  | .enomem => 12
  | .ebusy => 16
  | .einval => 22

/-! ## The proxy channel -/

/-- `struct dma_proxy_channel`, with `interface_p->status` and the module parameter. -/
structure DmaProxyChannel (cfg : PhysAddrConfig) where
  cachedBuffers : Bool
  direction : DmaTransferDirection
  interfacePhysAddr : DmaAddr cfg
  status : ProxyStatus
  /-- The completion: the transactions whose callbacks completed it and that no wait has used up,
  oldest first. Its counter is the length. -/
  cmp : List Nat
  cookie : Int
  dmaHandle : DmaAddr cfg

/-- The channel as `create_channel` leaves it, in memory that was zero. -/
def createdChannel (cachedBuffers : Bool) (direction : DmaTransferDirection)
    (interfacePhysAddr : DmaAddr cfg) : DmaProxyChannel cfg where
  cachedBuffers := cachedBuffers
  direction := direction
  interfacePhysAddr := interfacePhysAddr
  status := .noError
  cmp := []
  cookie := 0
  dmaHandle := 0

/-- A transaction that the DMA engine has accepted: the call that submitted it, whether it has
completed, and whether its callback has run. Its cookie is its place, counted from one. -/
structure ProxyTx where
  call : Nat
  completed : Bool
  calledBack : Bool
deriving DecidableEq, Repr

/-- `dma_async_is_tx_complete` returns `DMA_COMPLETE`. -/
def txComplete (txs : List ProxyTx) (cookie : Int) : Bool :=
  if cookie ≤ 0 then true
  else
    match txs[(cookie - 1).toNat]? with
    | none => true
    | some tx => tx.completed

/-- `dma_submit_error`. -/
def dmaSubmitError (cookie : Int) : Bool := cookie < 0

/-- `dmaengine_prep_slave_single` on a channel of the AXI DMA driver. -/
def dmaenginePrepSlaveSingle (handle : DmaAddr cfg) (length : BitVec 32)
    (direction : DmaTransferDirection) (kzallocOk : Bool) (chan : XilinxDmaChan cfg) :
    XilinxDmaChan cfg × PrepResult cfg :=
  xilinxDmaPrepSlaveSg ⟨[⟨handle, length⟩], direction, none, kzallocOk⟩ chan

/-! ## A call in flight -/

/-- Where an `ioctl` is. -/
inductive ProxyPc where
  /-- At the beginning of `transfer`. -/
  | transfer
  /-- At the beginning of `start_transfer`. -/
  | startTransfer
  /-- ... before `init_completion`, with a descriptor for that many bytes. -/
  | initCompletion (length : BitVec 32)
  /-- ... before `dmaengine_submit`. -/
  | submit (length : BitVec 32)
  /-- ... before `dma_async_issue_pending`, with what the submit returned. -/
  | issuePending (cookie : Int)
  /-- Back in `transfer`, before the cookie is stored. -/
  | storeCookie (cookie : Int)
  /-- ... before `dma_submit_error`. -/
  | checkCookie
  /-- At the beginning of `wait_for_transfer`. -/
  | waitForTransfer
  /-- ... in `wait_for_completion_timeout`. -/
  | wait
  /-- ... before `dma_async_is_tx_complete`; the wait has ended in time, or not. -/
  | isTxComplete (woken : Bool)
  /-- ... before the status is stored. -/
  | storeStatus (woken complete : Bool)
  /-- ... before the buffer is unmapped. -/
  | unmap
deriving DecidableEq, Repr

/-- An `ioctl` in flight: its number, what it mapped and unmapped so far, and the lengths of the
descriptors that it submitted. -/
structure ProxyCall (cfg : PhysAddrConfig) where
  id : Nat
  pc : ProxyPc
  mapped : List (LedgerEntry (DmaMapping cfg))
  submitted : List (BitVec 32)

/-- The channel with the transactions submitted through it and the calls in flight. -/
structure ProxySys (cfg : PhysAddrConfig) where
  ch : DmaProxyChannel cfg
  txs : List ProxyTx
  calls : List (ProxyCall cfg)
  nextId : Nat

/-- What a step of a call finds outside of the proxy. -/
structure ProxyEnv (cfg : PhysAddrConfig) where
  /-- `interface_p->length`. -/
  length : BitVec 32
  /-- What `dma_map_single` returns. -/
  handle : DmaAddr cfg
  /-- The DMA channel, and whether it gets memory for a descriptor. -/
  chan : XilinxDmaChan cfg
  kzallocOk : Bool
  /-- The error of `dmaengine_submit`. -/
  submitError : Option Errno

/-- Nothing fails: the pool of the DMA channel is full, and the length is this one at each read. -/
def ProxyEnv.serving (length : BitVec 32) : ProxyEnv cfg where
  length := length
  handle := 0
  chan := (xilinxDmaAllocChanResources (some 0) (probedChan true 0 0)).1
  kzallocOk := true
  submitError := none

/-- How a step of a call ends. -/
inductive ProxyAfter (cfg : PhysAddrConfig) where
  | goesOn (c : ProxyCall cfg)
  | returns (c : ProxyCall cfg)
  | wild

/-- The mapping that a call makes or takes back when it reads `length`. -/
def ProxySys.mapping (s : ProxySys cfg) (handle : DmaAddr cfg) (length : BitVec 32) :
    DmaMapping cfg :=
  ⟨handle, length, mapDirection s.ch.direction⟩

/-- The next step of a call. -/
def ProxyCall.run (env : ProxyEnv cfg) (s : ProxySys cfg) (c : ProxyCall cfg) :
    ProxySys cfg × ProxyAfter cfg :=
  match c.pc with
  | .transfer =>
    if s.ch.cachedBuffers then
      ({ s with ch := { s.ch with dmaHandle := env.handle } },
        .goesOn { c with
          pc := .startTransfer
          mapped := c.mapped ++ [.acquire (s.mapping env.handle env.length)] })
    else
      -- the buffer is the first member of the interface
      ({ s with ch := { s.ch with dmaHandle := s.ch.interfacePhysAddr } },
        .goesOn { c with pc := .startTransfer })
  | .startTransfer =>
    match (dmaenginePrepSlaveSingle s.ch.dmaHandle env.length s.ch.direction env.kzallocOk
      env.chan).2 with
    | .null => (s, .goesOn { c with pc := .storeCookie (-Errno.ebusy.code) })
    | .desc _ => (s, .goesOn { c with pc := .initCompletion env.length })
    | .wild => (s, .wild)
  | .initCompletion length =>
    ({ s with ch := { s.ch with cmp := [] } }, .goesOn { c with pc := .submit length })
  | .submit length =>
    match env.submitError with
    | some err => (s, .goesOn { c with pc := .issuePending (-err.code) })
    | none =>
      ({ s with txs := s.txs ++ [⟨c.id, false, false⟩] },
        .goesOn { c with
          pc := .issuePending (s.txs.length + 1)
          submitted := c.submitted ++ [length] })
  | .issuePending cookie => (s, .goesOn { c with pc := .storeCookie cookie })
  | .storeCookie cookie =>
    ({ s with ch := { s.ch with cookie := cookie } }, .goesOn { c with pc := .checkCookie })
  | .checkCookie =>
    if dmaSubmitError s.ch.cookie then (s, .returns c)
    else (s, .goesOn { c with pc := .waitForTransfer })
  | .waitForTransfer =>
    ({ s with ch := { s.ch with status := .busy } }, .goesOn { c with pc := .wait })
  | .wait =>
    match s.ch.cmp with
    | [] => (s, .goesOn { c with pc := .isTxComplete false })
    | _ :: rest =>
      ({ s with ch := { s.ch with cmp := rest } }, .goesOn { c with pc := .isTxComplete true })
  | .isTxComplete woken =>
    (s, .goesOn { c with pc := .storeStatus woken (txComplete s.txs s.ch.cookie) })
  | .storeStatus woken complete =>
    let status := if !woken then .timeout else if !complete then .error else .noError
    ({ s with ch := { s.ch with status := status } }, .goesOn { c with pc := .unmap })
  | .unmap =>
    if s.ch.cachedBuffers then
      (s, .returns { c with
        mapped := c.mapped ++ [.release (s.mapping s.ch.dmaHandle env.length)] })
    else (s, .returns c)

/-! ## mmap -/

/-- `mmap`, for a vma of that many pages at that page offset; `remapOk` says that
`remap_pfn_range` succeeds. The result are the pages mapped, counted from the first page of the
interface, or an error. -/
def proxyMmap (ch : DmaProxyChannel cfg) (vmaPages pgoff : Nat) (remapOk : Bool) :
    Option (List Nat) :=
  if ch.cachedBuffers then
    if remapOk then some (List.range vmaPages) else none
  else
    -- dma_common_mmap, which is passed the size of the vma
    let count := pagesOf (vmaPages * pageSize)
    if pgoff < count ∧ vmaPages ≤ count - pgoff then
      if remapOk then some ((List.range vmaPages).map (pgoff + ·)) else none
    else none

/-! ## The machine -/

/-- A file operation, a step of a call in flight, or something that the DMA engine does with a
transaction. -/
inductive ProxyAct (cfg : PhysAddrConfig) where
  | open
  | mmap (vmaPages pgoff : Nat) (remapOk : Bool)
  | ioctl
  | run (i : Nat) (env : ProxyEnv cfg)
  | complete (k : Nat)
  /-- `sync_callback`. -/
  | callback (k : Nat)

namespace ProxySys

/-- A channel that nobody has used. -/
def created (cachedBuffers : Bool) (direction : DmaTransferDirection)
    (interfacePhysAddr : DmaAddr cfg) : ProxySys cfg where
  ch := createdChannel cachedBuffers direction interfacePhysAddr
  txs := []
  calls := []
  nextId := 0

/-- A call enters. -/
def enterIoctl (s : ProxySys cfg) : ProxySys cfg :=
  { s with calls := ⟨s.nextId, .transfer, [], []⟩ :: s.calls, nextId := s.nextId + 1 }

/-- The call that was taken out of `calls` has made a step. -/
def leave (s : ProxySys cfg) : ProxyAfter cfg → Option (ProxySys cfg)
  | .goesOn c => some { s with calls := c :: s.calls }
  | .returns _ => some s
  | .wild => none

/-- One action. -/
def proxyStep (s : ProxySys cfg) : ProxyAct cfg → Option (ProxySys cfg)
  | .open => some s
  | .mmap _ _ _ => some s
  | .ioctl => some s.enterIoctl
  | .run i env =>
    match s.calls[i]? with
    | none => none
    | some c =>
      let r := c.run env { s with calls := s.calls.eraseIdx i }
      r.1.leave r.2
  | .complete k =>
    match s.txs[k]? with
    | none => none
    | some tx =>
      if tx.completed then none
      else some { s with txs := s.txs.set k { tx with completed := true } }
  | .callback k =>
    match s.txs[k]? with
    | none => none
    | some tx =>
      if tx.completed && !tx.calledBack then
        some { s with
          txs := s.txs.set k { tx with calledBack := true }
          ch := { s.ch with cmp := s.ch.cmp ++ [k] } }
      else none

end ProxySys

end PetalinuxDriver
