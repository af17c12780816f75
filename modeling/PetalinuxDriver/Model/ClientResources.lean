import Mathlib.Logic.Function.Basic
import PetalinuxDriver.Library.Ledger
import PetalinuxDriver.Model.DmaClients

/-!
# What the DMA clients acquire

`vxaxidma_test` of `vxdma_dev.c` and `xhls_test` of `vxhls_dev.c` once more, this time with what they
allocate, map and request. What the kernel answers to each call is an argument. The ledger has what
the clients acquire and give back, in the order of the calls; the static variables of each file stay
from one `ioctl` to the next.

The contents of the buffers are left out, and so is `xhls_setup_accel`, whose result is not used.
What is not left out is that `xhls_test` reads the buffer for the output without a look at whether it
got one: a read through `NULL` ends the call in an oops.
-/

set_option autoImplicit false

namespace PetalinuxDriver

open Library

/-- What a client acquires: a DMA channel, a buffer, and a mapping for the device of a channel. -/
inductive ClientResource where
  | channel (chan : Nat)
  | buffer (p : Nat)
  | mapping (chan : Option Nat) (handle : Nat) (len : BitVec 32) (dir : DmaDataDirection)
deriving DecidableEq, Repr

/-- What a client prints about a transfer that it waited for. -/
inductive TransferReport where
  | timedOut
  | status (error : Bool)
deriving DecidableEq, Repr

/-- The static variables of a client, except for the completions. -/
structure ClientStatics where
  chan : DmaSide → Option Nat
  dmaHandle : DmaSide → Nat
  cookie : DmaSide → Int

/-- What the clients have done. -/
structure ClientLog where
  ledger : List (LedgerEntry ClientResource)
  /-- A buffer that is `NULL` was mapped. -/
  nullMapped : Bool
  reports : List TransferReport

/-- A client in a call. -/
structure ClientState extends ClientStatics, ClientLog

/-! ## What the kernel answers -/

/-- The outcome of `wait_for_completion_timeout` and of `dma_async_is_tx_complete`. -/
structure WaitOutcome where
  timeLeft : Nat
  complete : Bool
  error : Bool
deriving DecidableEq, Repr

/-- What `axidma_start_transfer` prints when it waits. -/
def WaitOutcome.report (out : WaitOutcome) : List TransferReport :=
  if out.timeLeft = 0 then [.timedOut]
  else if !out.complete then [.status out.error]
  else []

/-- The outcome of a transfer. The cookie is that of `dmaengine_submit`, unless
`dmaengine_prep_slave_single` returned `NULL`. -/
structure TransferOutcome where
  handle : Nat
  cookie : Option Int
  wait : WaitOutcome
deriving DecidableEq, Repr

/-- What the kernel answers during a `vxaxidma_test`. -/
structure AxidmaEnv where
  txChan : Option Nat
  rxChan : Option Nat
  srcDmaBuffer : Option Nat
  destDmaBuffer : Option Nat
  tx : TransferOutcome
  rx : TransferOutcome
deriving DecidableEq, Repr

/-- What the kernel answers during an `xhls_test`. -/
structure XhlsEnv where
  inputADat : Option Nat
  inputBDat : Option Nat
  ouputDat : Option Nat
  txChan : Option Nat
  rxChan : Option Nat
  inputA : TransferOutcome
  inputB : TransferOutcome
  output : TransferOutcome
deriving DecidableEq, Repr

/-- How a call ends. -/
inductive CallEnd where
  | returns (ret : Int)
  /-- The kernel has read through `NULL`: what the call would have done from there on is not done,
  and it does not return. -/
  | oops
deriving DecidableEq, Repr

/-! ## The calls -/

/-- `MTRX_DIM`. -/
def mtrxDim : Nat := 32

/-- `MTRX_SIZE`, in entries of `data_t`. -/
def mtrxSize : Nat := mtrxDim * mtrxDim

/-- The loop that prints so many entries from a pointer on gets to its end: no `*iptr0` reads through
`NULL`. -/
def printsEntries (iptr0 : Option Nat) : Nat → Bool
  | 0 => true
  | n + 1 => if iptr0.isNone then false else printsEntries (iptr0.map (· + 4)) n

namespace ClientState

/-- An entry of the ledger. -/
def enter (e : LedgerEntry ClientResource) (s : ClientState) : ClientState :=
  { s with ledger := s.ledger ++ [e] }

/-- `kmalloc` or `kzalloc`. -/
def kmalloc (p : Option Nat) (s : ClientState) : ClientState :=
  match p with
  | none => s
  | some p => s.enter (.acquire (.buffer p))

/-- `kfree`, which does nothing for `NULL`. -/
def kfree (p : Option Nat) (s : ClientState) : ClientState :=
  match p with
  | none => s
  | some p => s.enter (.release (.buffer p))

/-- `dma_request_channel`, with the static that it is kept in. -/
def dmaRequestChannel (side : DmaSide) (chan : Option Nat) (s : ClientState) : ClientState :=
  let s := { s with chan := Function.update s.chan side chan }
  match chan with
  | none => s
  | some chan => s.enter (.acquire (.channel chan))

/-- `dma_release_channel`. The static is `NULL` at `exit_err` only, which looks at it before. -/
def dmaReleaseChannel (side : DmaSide) (s : ClientState) : ClientState :=
  match s.chan side with
  | none => s
  | some chan => s.enter (.release (.channel chan))

/-- `dma_map_single`, with the static that the handle is kept in. -/
def dmaMapSingle (side : DmaSide) (p : Option Nat) (handle : Nat) (len : BitVec 32)
    (dir : DmaDataDirection) (s : ClientState) : ClientState :=
  { s with
    dmaHandle := Function.update s.dmaHandle side handle
    nullMapped := s.nullMapped || p.isNone }.enter (.acquire (.mapping (s.chan side) handle len dir))

/-- `dma_unmap_single`. -/
def dmaUnmapSingle (side : DmaSide) (len : BitVec 32) (dir : DmaDataDirection) (s : ClientState) :
    ClientState :=
  s.enter (.release (.mapping (s.chan side) (s.dmaHandle side) len dir))

/-- `axidma_prep_buffer`, with the static that the cookie is kept in. -/
def axidmaPrepBuffer (side : DmaSide) (out : TransferOutcome) (s : ClientState) : ClientState :=
  { s with cookie := Function.update s.cookie side (out.cookie.getD (-Errno.ebusy.code)) }

/-- `axidma_start_transfer`. -/
def axidmaStartTransfer (wait : Bool) (out : WaitOutcome) (s : ClientState) : ClientState :=
  if wait then { s with reports := s.reports ++ out.report } else s

/-! ## `vxdma_dev` -/

/-- `dma_length`. -/
def testLength : BitVec 32 := 32 * 16

/-- `axidma_test_transfer`, once both buffers are there. -/
def axidmaTransferBuffers (env : AxidmaEnv) (s : ClientState) : ClientState :=
  let s := s.dmaMapSingle .tx env.srcDmaBuffer env.tx.handle testLength .toDevice
  let s := s.dmaMapSingle .rx env.destDmaBuffer env.rx.handle testLength .fromDevice
  let s := s.axidmaPrepBuffer .rx env.rx
  let s := s.axidmaPrepBuffer .tx env.tx
  if dmaSubmitError (s.cookie .rx) || dmaSubmitError (s.cookie .tx) then s
  else
    let s := s.axidmaStartTransfer false env.rx.wait
    let s := s.axidmaStartTransfer true env.tx.wait
    let s := s.dmaUnmapSingle .rx testLength .fromDevice
    let s := s.dmaUnmapSingle .tx testLength .toDevice
    let s := s.kfree env.srcDmaBuffer
    s.kfree env.destDmaBuffer

/-- `axidma_test_transfer`. -/
def axidmaTestTransfer (env : AxidmaEnv) (s : ClientState) : ClientState :=
  let s := s.kmalloc env.srcDmaBuffer
  let s := s.kmalloc env.destDmaBuffer
  if env.srcDmaBuffer.isNone || env.destDmaBuffer.isNone then s
  else s.axidmaTransferBuffers env

/-- `vxaxidma_test`. -/
def vxaxidmaTest (env : AxidmaEnv) (s : ClientState) : ClientState × Int :=
  let s := s.dmaRequestChannel .tx env.txChan
  let s := s.dmaRequestChannel .rx env.rxChan
  if (s.chan .rx).isNone || (s.chan .tx).isNone then (s, -1)
  else
    let s := s.axidmaTestTransfer env
    let s := s.dmaReleaseChannel .tx
    (s.dmaReleaseChannel .rx, 1)

/-! ## `vxhls_dev` -/

/-- `xhls_setup_dma`. -/
def xhlsSetupDma (env : XhlsEnv) (s : ClientState) : ClientState × Int :=
  let s := s.dmaRequestChannel .tx env.txChan
  let s := s.dmaRequestChannel .rx env.rxChan
  if (s.chan .rx).isNone || (s.chan .tx).isNone then (s, -1) else (s, 1)

/-- `xhls_wait_output`. -/
def xhlsWaitOutput (buffer : Option Nat) (out : TransferOutcome) (s : ClientState) :
    ClientState × Int :=
  let s := s.dmaMapSingle .rx buffer out.handle dmaLength .fromDevice
  let s := s.axidmaPrepBuffer .rx out
  if dmaSubmitError (s.cookie .rx) then (s, -1)
  else
    let s := s.axidmaStartTransfer true out.wait
    (s.dmaUnmapSingle .rx dmaLength .fromDevice, 1)

/-- `xhls_load_input`. -/
def xhlsLoadInput (data : Option Nat) (out : TransferOutcome) (s : ClientState) :
    ClientState × Int :=
  if data.isNone then (s, -1)
  else
    let s := s.dmaMapSingle .tx data out.handle dmaLength .toDevice
    let s := s.axidmaPrepBuffer .tx out
    if dmaSubmitError (s.cookie .tx) then (s, -1)
    else
      let s := s.axidmaStartTransfer true out.wait
      (s.dmaUnmapSingle .tx dmaLength .toDevice, 1)

/-- `exit_err` and `exit_success`, which differ in the result only. -/
def xhlsExit (env : XhlsEnv) (s : ClientState) : ClientState :=
  let s := s.dmaReleaseChannel .tx
  let s := s.dmaReleaseChannel .rx
  let s := s.kfree env.inputADat
  let s := s.kfree env.inputBDat
  s.kfree env.ouputDat

/-- `xhls_test` from the first `xhls_load_input` on. What `xhls_wait_output` returns is not used. -/
def xhlsTransfers (env : XhlsEnv) (s : ClientState) : ClientState × CallEnd :=
  let (s, ret) := s.xhlsLoadInput env.inputADat env.inputA
  if ret < 0 then (s.xhlsExit env, .returns (-1))
  else
    let (s, ret) := s.xhlsLoadInput env.inputBDat env.inputB
    if ret < 0 then (s.xhlsExit env, .returns (-1))
    else
      let (s, _) := s.xhlsWaitOutput env.ouputDat env.output
      if printsEntries env.ouputDat mtrxSize then (s.xhlsExit env, .returns 1) else (s, .oops)

/-- `xhls_test`. -/
def xhlsTest (env : XhlsEnv) (s : ClientState) : ClientState × CallEnd :=
  let s := s.kmalloc env.inputADat
  let s := s.kmalloc env.inputBDat
  let s := s.kmalloc env.ouputDat
  if env.inputADat.isNone || env.inputBDat.isNone then (s, .returns (-1))
  else
    let (s, ret) := s.xhlsSetupDma env
    if ret < 0 then (s.xhlsExit env, .returns (-1)) else s.xhlsTransfers env

end ClientState

/-! ## The devices -/

/-- `RX_TRANSFER`. -/
def rxTransfer : BitVec 32 := 0

/-- `TX_TRANSFER`. -/
def txTransfer : BitVec 32 := 1

/-- `VXHLS_TEST`. -/
def vxhlsTest : BitVec 32 := 0

/-- `vxdma_dev_ioctl`. -/
def vxdmaDevIoctl (cmdType : BitVec 32) (env : AxidmaEnv) (s : ClientState) :
    ClientState × CallEnd :=
  if cmdType = rxTransfer then ((s.vxaxidmaTest env).1, .returns 0)
  else if cmdType = txTransfer then (s, .returns 0)
  else (s, .returns (-1))

/-- `vxhls_ioctl`. -/
def vxhlsIoctl (cmdType : BitVec 32) (env : XhlsEnv) (s : ClientState) : ClientState × CallEnd :=
  if cmdType = vxhlsTest then
    match s.xhlsTest env with
    | (s, .returns _) => (s, .returns 0)
    | (s, .oops) => (s, .oops)
  else (s, .returns (-1))

/-- A call of one of the two devices. -/
inductive ClientIoctl where
  | vxdmaDev (cmdType : BitVec 32) (env : AxidmaEnv)
  | vxhls (cmdType : BitVec 32) (env : XhlsEnv)
deriving DecidableEq, Repr

/-- Both clients. -/
structure TestClients extends ClientLog where
  vxdmaDev : ClientStatics
  vxhls : ClientStatics

namespace TestClients

/-- The clients as they are loaded. -/
def loaded : TestClients where
  ledger := []
  nullMapped := false
  reports := []
  vxdmaDev := ⟨fun _ => none, fun _ => 0, fun _ => 0⟩
  vxhls := ⟨fun _ => none, fun _ => 0, fun _ => 0⟩

/-- One `ioctl`. -/
def ioctl (s : TestClients) : ClientIoctl → TestClients × CallEnd
  | .vxdmaDev cmdType env =>
    let (c, rc) := vxdmaDevIoctl cmdType env ⟨s.vxdmaDev, s.toClientLog⟩
    ({ s with toClientLog := c.toClientLog, vxdmaDev := c.toClientStatics }, rc)
  | .vxhls cmdType env =>
    let (c, rc) := vxhlsIoctl cmdType env ⟨s.vxhls, s.toClientLog⟩
    ({ s with toClientLog := c.toClientLog, vxhls := c.toClientStatics }, rc)

/-- One `ioctl` after the other. An oops ends the process that made the call, and the next call is
that of another one. -/
def ioctls (s : TestClients) : List ClientIoctl → TestClients
  | [] => s
  | i :: is => (s.ioctl i).1.ioctls is

end TestClients

end PetalinuxDriver
