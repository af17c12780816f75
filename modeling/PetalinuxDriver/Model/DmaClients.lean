import Mathlib.Logic.Function.Basic
import PetalinuxDriver.Library.Script
import PetalinuxDriver.Model.DmaProxy
import PetalinuxDriver.Model.VxdmaCalls

/-!
# The DMA clients

`vxaxidma_test` of `vxdma_dev.c` and `xhls_test` of `vxhls_dev.c`, with the functions they call. A
client runs one test after the other on a transmit and a receive channel. A test is a script, and
`clientStep` takes its next operation, or lets something else happen on one of the channels: an
interrupt, the next section of a call in flight, a step of the cleanup tasklet, or the callback that
the cleanup is in. The channels are machines of sections, and the client makes its next step when no
call of its own is in flight.

What only prints is left out, and so is `xhls_setup_accel`, whose result is not used.
-/

set_option autoImplicit false

namespace PetalinuxDriver

open Library

variable {cfg : PhysAddrConfig}

/-! ## Programs -/

/-- `tx_chan` or `rx_chan`, with the cookie, the handle and the completion of its side. -/
inductive DmaSide where
  | tx
  | rx
deriving DecidableEq, Repr

/-- The buffers of the two tests. -/
inductive ClientBuffer where
  | srcDmaBuffer
  | destDmaBuffer
  | inputADat
  | inputBDat
  | ouputDat
deriving DecidableEq, Repr

/-- What a client does on one side. -/
inductive ChannelOp where
  /-- `dma_request_channel`. -/
  | request
  /-- `dma_map_single`, which gives the handle of the side. -/
  | map
  /-- `dmaengine_prep_slave_single` of the handle. -/
  | prep (dir : DmaTransferDirection) (len : BitVec 32)
  /-- `dmaengine_submit` of what was prepared, for this buffer, and the callback set before. -/
  | submit (buf : ClientBuffer)
  | initCompletion
  /-- `dma_async_issue_pending`. -/
  | issuePending
  /-- `wait_for_completion_timeout`. -/
  | wait
  /-- `dma_release_channel`. -/
  | release
deriving DecidableEq, Repr

/-- An operation of a client. -/
inductive ClientOp where
  | on (side : DmaSide) (op : ChannelOp)
  /-- `dma_unmap_single`. -/
  | unmap (buf : ClientBuffer)
  /-- The comparison of the destination with the source. -/
  | compare
  | kfree (buf : ClientBuffer)
deriving DecidableEq, Repr

/-- What a client checks. -/
inductive ClientCheck where
  /-- Its buffers were allocated. -/
  | kmalloc
  /-- It got both channels. -/
  | channels
  /-- No cookie of these sides is an error. -/
  | submitted (sides : List DmaSide)
deriving DecidableEq, Repr

/-- A program of a client. -/
abbrev ClientProg := Script ClientOp ClientCheck

/-- `axidma_prep_buffer`. -/
def axidmaPrepBuffer (side : DmaSide) (buf : ClientBuffer) (len : BitVec 32)
    (dir : DmaTransferDirection) (next : ClientProg) : ClientProg :=
  .op (.on side (.prep dir len)) (.op (.on side (.submit buf)) next)

/-- `axidma_start_transfer`. -/
def axidmaStartTransfer (side : DmaSide) (wait : Bool) (next : ClientProg) : ClientProg :=
  .op (.on side .initCompletion) (.op (.on side .issuePending)
    (if wait then .op (.on side .wait) next else next))

/-- `axidma_test_transfer`, with `dma_length`. -/
def axidmaTestTransfer (next : ClientProg) : ClientProg :=
  .check .kmalloc next <|
  .op (.on .tx .map) <|
  .op (.on .rx .map) <|
  axidmaPrepBuffer .rx .destDmaBuffer (32 * 16) .devToMem <|
  axidmaPrepBuffer .tx .srcDmaBuffer (32 * 16) .memToDev <|
  .check (.submitted [.rx, .tx]) next <|
  axidmaStartTransfer .rx false <|
  axidmaStartTransfer .tx true <|
  .op (.unmap .destDmaBuffer) <|
  .op (.unmap .srcDmaBuffer) <|
  .op .compare <|
  .op (.kfree .srcDmaBuffer) <|
  .op (.kfree .destDmaBuffer) next

/-- `vxaxidma_test`. -/
def vxaxidmaTest : ClientProg :=
  .op (.on .tx .request) <|
  .op (.on .rx .request) <|
  .check .channels .done <|
  axidmaTestTransfer <|
  .op (.on .tx .release) <|
  .op (.on .rx .release) .done

/-- `DMA_LENGTH`. -/
def dmaLength : BitVec 32 := 32 * 32 * 4

/-- `xhls_wait_output`. Its caller does not look at the result. -/
def xhlsWaitOutput (buffer : ClientBuffer) (next : ClientProg) : ClientProg :=
  .op (.on .rx .map) <|
  axidmaPrepBuffer .rx buffer dmaLength .devToMem <|
  .check (.submitted [.rx]) next <|
  axidmaStartTransfer .rx true <|
  .op (.unmap buffer) next

/-- `xhls_load_input`, with where its caller goes on when it fails. `data` is not `NULL`, the caller
has checked that. -/
def xhlsLoadInput (data : ClientBuffer) (exitErr next : ClientProg) : ClientProg :=
  .op (.on .tx .map) <|
  axidmaPrepBuffer .tx data dmaLength .memToDev <|
  .check (.submitted [.tx]) exitErr <|
  axidmaStartTransfer .tx true <|
  .op (.unmap data) next

/-- `exit_err` and `exit_success` of `xhls_test`. -/
def xhlsExit : ClientProg :=
  .op (.on .tx .release) <|
  .op (.on .rx .release) <|
  .op (.kfree .inputADat) <|
  .op (.kfree .inputBDat) <|
  .op (.kfree .ouputDat) .done

/-- `xhls_test`. -/
def xhlsTest : ClientProg :=
  .check .kmalloc .done <|
  .op (.on .tx .request) <|
  .op (.on .rx .request) <|
  .check .channels xhlsExit <|
  xhlsLoadInput .inputADat xhlsExit <|
  xhlsLoadInput .inputBDat xhlsExit <|
  xhlsWaitOutput .ouputDat xhlsExit

/-! ## One side -/

/-- How far the latest transfer of a side has come; it is `idle` once it was waited for. -/
inductive TransferStage where
  | idle
  | submitted
  | initialised
deriving DecidableEq, Repr

/-- A channel and what the client keeps for it. -/
structure ClientSide (cfg : PhysAddrConfig) where
  sys : VxdmaSys cfg
  /-- The channel pointer is not `NULL`. -/
  requested : Bool
  dmaHandle : DmaAddr cfg
  /-- The descriptor of the latest `axidma_prep_buffer` and what its submit returned, unless
  nothing was prepared. -/
  submitted : Option (Nat × SubmitResult)
  stage : TransferStage
  /-- The buffers that the submitted descriptors are for. -/
  buffers : List (Nat × ClientBuffer)
  /-- The completion: the descriptors whose callbacks completed it and that no wait has used up,
  oldest first. -/
  cmp : List Nat
  /-- The descriptors whose callbacks have completed the completion. -/
  calledBack : List Nat
  /-- The callback that the cleanup is in has completed the completion. -/
  called : Bool

/-- What the client is answered. -/
structure ClientAnswer (cfg : PhysAddrConfig) where
  /-- An allocation or a request succeeds. -/
  ok : Bool
  /-- The bus address of a pool or of a mapping. -/
  addr : DmaAddr cfg

namespace ClientSide

/-- A probed channel that nobody uses. -/
def probed (hasSg : Bool) (ctrlOffset : Nat) (dmacr : BitVec 32) : ClientSide cfg where
  sys := VxdmaSys.probed hasSg ctrlOffset dmacr
  requested := false
  dmaHandle := 0
  submitted := none
  stage := .idle
  buffers := []
  cmp := []
  calledBack := []
  called := false

/-- `tx_cookie` or `rx_cookie`. -/
def cookie (c : ClientSide cfg) : Int :=
  match c.submitted with
  | some (_, .cookie cookie) => cookie
  | some (_, .error err) => -err.code
  -- nothing was prepared; after a `BUG()` nobody looks
  | _ => -Errno.ebusy.code

/-- No call of the client is in flight. -/
def resting (c : ClientSide cfg) : Bool := c.sys.calls.all Call.ofIrq

/-- An action of the machine of sections. -/
def act (a : VxdmaSys.Act cfg) (c : ClientSide cfg) : Option (ClientSide cfg) :=
  (c.sys.sectionStep a).map fun sys => { c with sys := sys }

/-- `dma_request_channel`. A channel that is in use is not found. -/
def request (ans : ClientAnswer cfg) (c : ClientSide cfg) : ClientSide cfg :=
  match if ans.ok then c.act (.allocChanResources (some ans.addr)) else none with
  | none => { c with requested := false }
  | some c => { c with requested := true }

/-- `dmaengine_submit`, unless nothing was prepared. -/
def submit (buf : ClientBuffer) (c : ClientSide cfg) : Option (ClientSide cfg) :=
  match c.sys.prepared with
  | [] => some { c with submitted := none, stage := .submitted }
  | d :: _ =>
    { c with
      submitted := none
      stage := .submitted
      buffers := (d.id, buf) :: c.buffers }.act (.txSubmit 0 (some 0))

/-- An operation of the client on this side. -/
def run (ans : ClientAnswer cfg) (c : ClientSide cfg) : ChannelOp → Option (ClientSide cfg)
  | .request => some (c.request ans)
  | .map => some { c with dmaHandle := ans.addr }
  | .prep dir len => c.act (.prepSlaveSg ⟨[⟨c.dmaHandle, len⟩], dir, none, ans.ok⟩)
  | .submit buf => c.submit buf
  | .initCompletion => some { c with stage := .initialised, cmp := [] }
  | .issuePending => c.act .issuePending
  | .wait => some { c with stage := .idle, cmp := c.cmp.tail }
  | .release =>
    if c.requested then { c with requested := false }.act .freeChanResources else some c

/-- What the section that a call runs next returns to the client, if it submits. -/
def submitReturns (i : Nat) (env : CallEnv) (c : ClientSide cfg) : Option (Nat × SubmitResult) :=
  match c.sys.calls[i]? with
  | none => none
  | some call =>
    match (call.run env c.sys.chan).2 with
    | .submitted d r => some (d.id, r)
    | _ => none

/-- What happens on a channel without the client. -/
def outside (c : ClientSide cfg) : VxdmaSys.Act cfg → Option (ClientSide cfg)
  | .interrupt => c.act .interrupt
  | .run i env =>
    { c with submitted := (c.submitReturns i env).or c.submitted }.act (.run i env)
  | .tasklet => c.act .tasklet
  | .callbackReturn => if c.called then { c with called := false }.act .callbackReturn else none
  | .device p status app => c.act (.device p status app)
  | _ => none

/-- `axidma_sync_callback`, which the cleanup is in. -/
def axidmaSyncCallback (c : ClientSide cfg) : Option (ClientSide cfg) :=
  match c.sys.cleanup with
  | .callback d =>
    if c.called then none
    else some { c with
      cmp := c.cmp ++ [d.id]
      calledBack := c.calledBack ++ [d.id]
      called := true }
  | _ => none

end ClientSide

/-! ## The machine -/

/-- The two sides, and what the client has left to do. -/
structure ClientSys (cfg : PhysAddrConfig) where
  side : DmaSide → ClientSide cfg
  prog : ClientProg

/-- An action: a test is started, the client takes its next step, or something happens on a
channel. -/
inductive ClientAct (cfg : PhysAddrConfig) where
  | ioctl
  | client (ans : ClientAnswer cfg)
  | channel (side : DmaSide) (a : VxdmaSys.Act cfg)
  | callback (side : DmaSide)

namespace ClientSys

/-- Two probed channels that nobody uses. -/
def probed (hasSg : DmaSide → Bool) (ctrlOffset : DmaSide → Nat) (dmacr : DmaSide → BitVec 32) :
    ClientSys cfg where
  side := fun side => .probed (hasSg side) (ctrlOffset side) (dmacr side)
  prog := .done

/-- One side goes on. -/
def setSide (s : ClientSys cfg) (side : DmaSide) (c : ClientSide cfg) : ClientSys cfg :=
  { s with side := Function.update s.side side c }

/-- What a check finds. -/
def finds (ans : ClientAnswer cfg) (s : ClientSys cfg) : ClientCheck → Bool
  | .kmalloc => ans.ok
  | .channels => (s.side .tx).requested && (s.side .rx).requested
  | .submitted sides => sides.all fun side => !dmaSubmitError (s.side side).cookie

/-- The next step of the client. -/
def advance (ans : ClientAnswer cfg) (s : ClientSys cfg) : Option (ClientSys cfg) :=
  match s.prog with
  | .done => none
  | .check c failed next => some { s with prog := if s.finds ans c then next else failed }
  | .op (.on side op) next => ((s.side side).run ans op).map ({ s with prog := next }.setSide side)
  | .op _ next => some { s with prog := next }

/-- `BUG()` was called on one of the channels. -/
def bug (s : ClientSys cfg) : Bool := (s.side .tx).sys.chan.bug || (s.side .rx).sys.chan.bug

/-- No call of the client is in flight. -/
def resting (s : ClientSys cfg) : Bool := (s.side .tx).resting && (s.side .rx).resting

/-- One action, with a client that runs this test. -/
def clientStep (test : ClientProg) (s : ClientSys cfg) (a : ClientAct cfg) :
    Option (ClientSys cfg) :=
  if s.bug then none
  else
    match a with
    | .ioctl =>
      match s.prog with
      | .done =>
        some ⟨fun side => { s.side side with stage := .idle }, test⟩
      | _ => none
    | .client ans => if s.resting then s.advance ans else none
    | .channel side a => ((s.side side).outside a).map (s.setSide side)
    | .callback side => ((s.side side).axidmaSyncCallback).map (s.setSide side)

end ClientSys

end PetalinuxDriver
