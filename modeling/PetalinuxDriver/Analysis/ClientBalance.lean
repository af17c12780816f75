import Mathlib.Tactic.Abel
import PetalinuxDriver.Library.Transition
import PetalinuxDriver.Model.ClientResources

/-!
# What the DMA clients leave behind

Neither client ever gives back what it does not hold. What it leaves behind is another matter: each
function has an early return that skips what its end gives back, and an `xhls_test` that has no
buffer for the output maps `NULL` and then reads through it, with its channels and inputs in its
hands. `Holding` follows what is held
through the calls, one lemma for each of them, and `ioctl_holding` says what an `ioctl` leaves, for
every answer of the kernel. `clients_leave_nothing_iff` reads off when that is nothing.
-/

set_option autoImplicit false

namespace PetalinuxDriver

open Library LedgerEntry

/-! ## What is held -/

/-- The ledger can be read to its end, and these resources are held then. -/
def ClientLog.Holding (s : ClientLog) (held : Multiset ClientResource) : Prop :=
  replay 0 s.ledger = some held

/-- A buffer, if there is one. -/
def bufferOf : Option Nat → Multiset ClientResource
  | none => 0
  | some p => {.buffer p}

/-- A channel, if there is one. -/
def channelOf : Option Nat → Multiset ClientResource
  | none => 0
  | some chan => {.channel chan}

namespace ClientState

variable {s : ClientState} {held : Multiset ClientResource}

/-- A `kmalloc` adds the buffer that it gets. -/
theorem holding_kmalloc (h : s.Holding held) (p : Option Nat) :
    (s.kmalloc p).Holding (bufferOf p + held) := by
  cases p with
  | none =>
    rw [bufferOf, zero_add]
    exact h
  | some p =>
    rw [bufferOf, Multiset.singleton_add]
    exact replay_snoc_acquire h _

/-- A `kfree` gives one back, and nothing when there is none. -/
theorem holding_kfree {p : Option Nat} (h : s.Holding (bufferOf p + held)) :
    (s.kfree p).Holding held := by
  cases p with
  | none =>
    rw [bufferOf, zero_add] at h
    exact h
  | some p =>
    rw [bufferOf, Multiset.singleton_add] at h
    exact replay_snoc_release h

/-- A request adds the channel that it gets. -/
theorem holding_dmaRequestChannel (h : s.Holding held) (side : DmaSide) (chan : Option Nat) :
    (s.dmaRequestChannel side chan).Holding (channelOf chan + held) := by
  cases chan with
  | none =>
    rw [channelOf, zero_add]
    exact h
  | some chan =>
    rw [channelOf, Multiset.singleton_add]
    exact replay_snoc_acquire h _

/-- A release gives back the channel that the static pointer names. -/
theorem holding_dmaReleaseChannel {side : DmaSide}
    (h : s.Holding (channelOf (s.chan side) + held)) : (s.dmaReleaseChannel side).Holding held := by
  unfold dmaReleaseChannel
  cases hchan : s.chan side with
  | none =>
    rw [hchan, channelOf, zero_add] at h
    exact h
  | some chan =>
    rw [hchan, channelOf, Multiset.singleton_add] at h
    exact replay_snoc_release h

/-- A mapping is added, with the channel and the handle that the statics name. -/
theorem holding_dmaMapSingle (h : s.Holding held) (side : DmaSide) (p : Option Nat) (handle : Nat)
    (len : BitVec 32) (dir : DmaDataDirection) :
    (s.dmaMapSingle side p handle len dir).Holding
      (.mapping (s.chan side) handle len dir ::ₘ held) :=
  replay_snoc_acquire h _

/-- A mapping is given back when the statics still name its channel and its handle. -/
theorem holding_dmaUnmapSingle {side : DmaSide} {len : BitVec 32} {dir : DmaDataDirection}
    (h : s.Holding (.mapping (s.chan side) (s.dmaHandle side) len dir ::ₘ held)) :
    (s.dmaUnmapSingle side len dir).Holding held :=
  replay_snoc_release h

/-! ## What stays -/

section Frames

variable (s : ClientState) (side : DmaSide) (p : Option Nat)

/-- A `kmalloc` sets no channel pointer. -/
@[simp] theorem kmalloc_chan : (s.kmalloc p).chan = s.chan := by cases p <;> rfl

/-- A `kfree` sets no channel pointer. -/
@[simp] theorem kfree_chan : (s.kfree p).chan = s.chan := by cases p <;> rfl

/-- A request sets the pointer of its side. -/
@[simp] theorem dmaRequestChannel_chan :
    (s.dmaRequestChannel side p).chan = Function.update s.chan side p := by cases p <;> rfl

/-- A release leaves the pointers. -/
@[simp] theorem dmaReleaseChannel_chan : (s.dmaReleaseChannel side).chan = s.chan := by
  unfold dmaReleaseChannel
  cases s.chan side <;> rfl

/-- A `kmalloc` maps nothing. -/
@[simp] theorem kmalloc_nullMapped : (s.kmalloc p).nullMapped = s.nullMapped := by cases p <;> rfl

/-- A `kfree` maps nothing. -/
@[simp] theorem kfree_nullMapped : (s.kfree p).nullMapped = s.nullMapped := by cases p <;> rfl

/-- A request maps nothing. -/
@[simp] theorem dmaRequestChannel_nullMapped :
    (s.dmaRequestChannel side p).nullMapped = s.nullMapped := by cases p <;> rfl

/-- A release maps nothing. -/
@[simp] theorem dmaReleaseChannel_nullMapped :
    (s.dmaReleaseChannel side).nullMapped = s.nullMapped := by
  unfold dmaReleaseChannel
  cases s.chan side <;> rfl

variable (wait : Bool) (out : WaitOutcome)

/-- A wait leaves the static variables. -/
@[simp] theorem axidmaStartTransfer_statics :
    (s.axidmaStartTransfer wait out).toClientStatics = s.toClientStatics := by cases wait <;> rfl

/-- A wait takes and gives back nothing. -/
@[simp] theorem axidmaStartTransfer_ledger :
    (s.axidmaStartTransfer wait out).ledger = s.ledger := by cases wait <;> rfl

/-- A wait maps nothing. -/
@[simp] theorem axidmaStartTransfer_nullMapped :
    (s.axidmaStartTransfer wait out).nullMapped = s.nullMapped := by cases wait <;> rfl

end Frames

end ClientState

/-! ## Transfers -/

/-- The transfer was prepared, and its submit gave a cookie. -/
def TransferOutcome.submitted (out : TransferOutcome) : Bool :=
  match out.cookie with
  | none => false
  | some cookie => !dmaSubmitError cookie

/-- What a transfer leaves that is not submitted: the mapping of its buffer. -/
def TransferOutcome.left (out : TransferOutcome) (chan : Option Nat) (dir : DmaDataDirection) :
    Multiset ClientResource :=
  if out.submitted then 0 else {.mapping chan out.handle dmaLength dir}

/-- `xhls_test` gets as far as `xhls_wait_output`. -/
def XhlsEnv.waits (env : XhlsEnv) : Bool :=
  !(env.inputADat.isNone || env.inputBDat.isNone) && !(env.rxChan.isNone || env.txChan.isNone) &&
    env.inputA.submitted && env.inputB.submitted

namespace ClientState

variable {s : ClientState} {held : Multiset ClientResource}

/-- The cookie that is stored tells whether the transfer was submitted. -/
theorem dmaSubmitError_prep (side : DmaSide) (out : TransferOutcome) (s : ClientState) :
    dmaSubmitError ((s.axidmaPrepBuffer side out).cookie side) = !out.submitted := by
  simp only [axidmaPrepBuffer, Function.update_self, TransferOutcome.submitted]
  cases out.cookie with
  | none => rfl
  | some cookie => exact (Bool.not_not _).symm

/-- A mapping that is taken back after the transfer. -/
theorem holding_transfer (h : s.Holding held) (side : DmaSide) (p : Option Nat)
    (out : TransferOutcome) (len : BitVec 32) (dir : DmaDataDirection) :
    (((((s.dmaMapSingle side p out.handle len dir).axidmaPrepBuffer side out).axidmaStartTransfer
      true out.wait).dmaUnmapSingle side len dir)).Holding held := by
  apply holding_dmaUnmapSingle
  have hmapped := holding_dmaMapSingle h side p out.handle len dir
  have hhandle : (((s.dmaMapSingle side p out.handle len dir).axidmaPrepBuffer side
      out).axidmaStartTransfer true out.wait).dmaHandle side = out.handle := by
    rw [axidmaStartTransfer_statics]
    exact Function.update_self side out.handle s.dmaHandle
  rw [hhandle, axidmaStartTransfer_statics]
  exact hmapped

/-- **`xhls_load_input`.** -/
theorem xhlsLoadInput_spec (h : s.Holding held) (data : Nat) (out : TransferOutcome) :
    (s.xhlsLoadInput (some data) out).1.Holding (out.left (s.chan .tx) .toDevice + held) ∧
      (s.xhlsLoadInput (some data) out).1.chan = s.chan ∧
      (s.xhlsLoadInput (some data) out).1.nullMapped = s.nullMapped ∧
      (s.xhlsLoadInput (some data) out).2 = if out.submitted then 1 else -1 := by
  have hnull : (s.nullMapped || (some data).isNone) = s.nullMapped := Bool.or_false _
  simp only [xhlsLoadInput, Option.isNone_some, Bool.false_eq_true, if_false, dmaSubmitError_prep,
    TransferOutcome.left]
  cases hsub : out.submitted with
  | false =>
    refine ⟨?_, rfl, hnull, rfl⟩
    exact holding_dmaMapSingle h .tx (some data) out.handle dmaLength .toDevice
  | true =>
    refine ⟨?_, rfl, hnull, rfl⟩
    simp only [if_true, zero_add]
    exact holding_transfer h .tx (some data) out dmaLength .toDevice

/-- **`xhls_wait_output`.** -/
theorem xhlsWaitOutput_spec (h : s.Holding held) (buffer : Option Nat) (out : TransferOutcome) :
    (s.xhlsWaitOutput buffer out).1.Holding (out.left (s.chan .rx) .fromDevice + held) ∧
      (s.xhlsWaitOutput buffer out).1.chan = s.chan ∧
      (s.xhlsWaitOutput buffer out).1.nullMapped = (s.nullMapped || buffer.isNone) := by
  simp only [xhlsWaitOutput, dmaSubmitError_prep, TransferOutcome.left]
  cases hsub : out.submitted with
  | false =>
    refine ⟨?_, rfl, rfl⟩
    exact holding_dmaMapSingle h .rx buffer out.handle dmaLength .fromDevice
  | true =>
    refine ⟨?_, rfl, rfl⟩
    simp only [if_true, zero_add]
    exact holding_transfer h .rx buffer out dmaLength .fromDevice

/-! ## `vxaxidma_test` -/

/-- What `axidma_test_transfer` leaves, with these channels: a buffer without the other one, or the
buffers and their mappings. -/
def transferLeft (txChan rxChan : Option Nat) (env : AxidmaEnv) : Multiset ClientResource :=
  if env.srcDmaBuffer.isNone || env.destDmaBuffer.isNone then
    bufferOf env.destDmaBuffer + bufferOf env.srcDmaBuffer
  else if env.rx.submitted && env.tx.submitted then 0
  else .mapping rxChan env.rx.handle testLength .fromDevice ::ₘ
    .mapping txChan env.tx.handle testLength .toDevice ::ₘ
      (bufferOf env.destDmaBuffer + bufferOf env.srcDmaBuffer)

/-- The client once both buffers are mapped. -/
def axidmaMapped (env : AxidmaEnv) (s : ClientState) : ClientState :=
  (s.dmaMapSingle .tx env.srcDmaBuffer env.tx.handle testLength .toDevice).dmaMapSingle .rx
    env.destDmaBuffer env.rx.handle testLength .fromDevice

/-- The client before the start of the transfers. -/
def axidmaPrepared (env : AxidmaEnv) (s : ClientState) : ClientState :=
  ((s.axidmaMapped env).axidmaPrepBuffer .rx env.rx).axidmaPrepBuffer .tx env.tx

/-- The client when both transfers are over. -/
def axidmaCompleted (env : AxidmaEnv) (s : ClientState) : ClientState :=
  ((s.axidmaPrepared env).axidmaStartTransfer false env.rx.wait).axidmaStartTransfer true env.tx.wait

/-- The waits of a test leave the static variables. -/
theorem axidmaCompleted_statics (env : AxidmaEnv) (s : ClientState) :
    (s.axidmaCompleted env).toClientStatics = (s.axidmaPrepared env).toClientStatics := by
  rw [axidmaCompleted, axidmaStartTransfer_statics, axidmaStartTransfer_statics]

/-- The waits of a test leave the channel pointers. -/
theorem axidmaCompleted_chan (env : AxidmaEnv) (s : ClientState) :
    (s.axidmaCompleted env).chan = s.chan := by
  rw [axidmaCompleted_statics]
  rfl

/-- `axidma_test_transfer`, by whether both transfers are submitted. -/
theorem axidmaTransferBuffers_eq (env : AxidmaEnv) (s : ClientState) :
    s.axidmaTransferBuffers env =
      if env.rx.submitted && env.tx.submitted then
        ((((s.axidmaCompleted env).dmaUnmapSingle .rx testLength .fromDevice).dmaUnmapSingle .tx
          testLength .toDevice).kfree env.srcDmaBuffer).kfree env.destDmaBuffer
      else s.axidmaPrepared env := by
  have hrx : dmaSubmitError ((s.axidmaPrepared env).cookie .rx) = !env.rx.submitted :=
    dmaSubmitError_prep .rx env.rx (s.axidmaMapped env)
  have htx : dmaSubmitError ((s.axidmaPrepared env).cookie .tx) = !env.tx.submitted :=
    dmaSubmitError_prep .tx env.tx _
  have hchecked : s.axidmaTransferBuffers env =
      if dmaSubmitError ((s.axidmaPrepared env).cookie .rx) ||
        dmaSubmitError ((s.axidmaPrepared env).cookie .tx) then s.axidmaPrepared env
      else
        ((((s.axidmaCompleted env).dmaUnmapSingle .rx testLength .fromDevice).dmaUnmapSingle .tx
          testLength .toDevice).kfree env.srcDmaBuffer).kfree env.destDmaBuffer := rfl
  rw [hchecked, hrx, htx]
  cases env.rx.submitted <;> cases env.tx.submitted <;> rfl

/-- Both buffers of a test are mapped. -/
theorem holding_axidmaPrepared (h : s.Holding held) (env : AxidmaEnv) :
    (s.axidmaPrepared env).Holding
      (.mapping (s.chan .rx) env.rx.handle testLength .fromDevice ::ₘ
        .mapping (s.chan .tx) env.tx.handle testLength .toDevice ::ₘ held) :=
  holding_dmaMapSingle (holding_dmaMapSingle h .tx _ env.tx.handle testLength .toDevice) .rx _
    env.rx.handle testLength .fromDevice

/-- The mappings are taken back as they were made. -/
theorem holding_axidmaUnmapped (h : s.Holding held) (env : AxidmaEnv) :
    (((s.axidmaCompleted env).dmaUnmapSingle .rx testLength .fromDevice).dmaUnmapSingle .tx
      testLength .toDevice).Holding held := by
  have hrx : (s.axidmaCompleted env).dmaHandle .rx = env.rx.handle := by
    rw [axidmaCompleted_statics]
    rfl
  have htx : (s.axidmaCompleted env).dmaHandle .tx = env.tx.handle := by
    rw [axidmaCompleted_statics]
    rfl
  apply holding_dmaUnmapSingle
  apply holding_dmaUnmapSingle
  show (s.axidmaCompleted env).Holding
    (.mapping ((s.axidmaCompleted env).chan .rx) ((s.axidmaCompleted env).dmaHandle .rx) testLength
      .fromDevice ::ₘ .mapping ((s.axidmaCompleted env).chan .tx)
        ((s.axidmaCompleted env).dmaHandle .tx) testLength .toDevice ::ₘ held)
  rw [axidmaCompleted_chan, hrx, htx]
  have hledger : (s.axidmaCompleted env).ledger = (s.axidmaPrepared env).ledger := by
    rw [axidmaCompleted, axidmaStartTransfer_ledger, axidmaStartTransfer_ledger]
  unfold ClientLog.Holding
  rw [hledger]
  exact holding_axidmaPrepared h env

/-- `axidma_test_transfer`, once both buffers are there. -/
theorem axidmaTransferBuffers_spec {env : AxidmaEnv}
    (hbuffers : (env.srcDmaBuffer.isNone || env.destDmaBuffer.isNone) = false)
    (h : s.Holding (bufferOf env.destDmaBuffer + (bufferOf env.srcDmaBuffer + held))) :
    (s.axidmaTransferBuffers env).Holding (transferLeft (s.chan .tx) (s.chan .rx) env + held) ∧
      (s.axidmaTransferBuffers env).chan = s.chan ∧
      (s.axidmaTransferBuffers env).nullMapped = s.nullMapped := by
  have hnull : (s.axidmaPrepared env).nullMapped = s.nullMapped := by
    show (s.nullMapped || env.srcDmaBuffer.isNone || env.destDmaBuffer.isNone) = s.nullMapped
    rw [Bool.or_assoc, hbuffers, Bool.or_false]
  rw [axidmaTransferBuffers_eq, transferLeft, hbuffers]
  cases env.rx.submitted && env.tx.submitted with
  | false =>
    refine ⟨?_, rfl, hnull⟩
    have hprepared := holding_axidmaPrepared h env
    rw [← add_assoc, ← Multiset.cons_add, ← Multiset.cons_add] at hprepared
    exact hprepared
  | true =>
    simp only [Bool.false_eq_true, if_false, if_true, zero_add]
    refine ⟨?_, ?_, ?_⟩
    · apply holding_kfree
      apply holding_kfree
      rw [add_left_comm]
      exact holding_axidmaUnmapped h env
    · rw [kfree_chan, kfree_chan]
      exact axidmaCompleted_chan env s
    · rw [kfree_nullMapped, kfree_nullMapped]
      show (s.axidmaCompleted env).nullMapped = s.nullMapped
      rw [axidmaCompleted, axidmaStartTransfer_nullMapped, axidmaStartTransfer_nullMapped, hnull]

/-- **`axidma_test_transfer`.** -/
theorem axidmaTestTransfer_spec (h : s.Holding held) (env : AxidmaEnv) :
    (s.axidmaTestTransfer env).Holding (transferLeft (s.chan .tx) (s.chan .rx) env + held) ∧
      (s.axidmaTestTransfer env).chan = s.chan ∧
      (s.axidmaTestTransfer env).nullMapped = s.nullMapped := by
  have halloc := holding_kmalloc (holding_kmalloc h env.srcDmaBuffer) env.destDmaBuffer
  have hchan : ((s.kmalloc env.srcDmaBuffer).kmalloc env.destDmaBuffer).chan = s.chan := by
    rw [kmalloc_chan, kmalloc_chan]
  have hnull : ((s.kmalloc env.srcDmaBuffer).kmalloc env.destDmaBuffer).nullMapped = s.nullMapped := by
    rw [kmalloc_nullMapped, kmalloc_nullMapped]
  simp only [axidmaTestTransfer]
  cases hbuffers : env.srcDmaBuffer.isNone || env.destDmaBuffer.isNone with
  | false =>
    have hspec := axidmaTransferBuffers_spec hbuffers halloc
    rw [hchan, hnull] at hspec
    exact hspec
  | true =>
    refine ⟨?_, hchan, hnull⟩
    rw [transferLeft, hbuffers]
    simp only [if_true]
    rw [add_assoc]
    exact halloc

/-- The client when it has asked for both channels. -/
def requestBoth (txChan rxChan : Option Nat) (s : ClientState) : ClientState :=
  (s.dmaRequestChannel .tx txChan).dmaRequestChannel .rx rxChan

/-- Both channels are requested, and the pointers name what came of it. -/
theorem requestBoth_spec (h : s.Holding held) (txChan rxChan : Option Nat) :
    (s.requestBoth txChan rxChan).Holding (channelOf rxChan + (channelOf txChan + held)) ∧
      (s.requestBoth txChan rxChan).chan .tx = txChan ∧
      (s.requestBoth txChan rxChan).chan .rx = rxChan ∧
      (s.requestBoth txChan rxChan).nullMapped = s.nullMapped := by
  refine ⟨?_, ?_, ?_, ?_⟩
  · exact holding_dmaRequestChannel (holding_dmaRequestChannel h .tx txChan) .rx rxChan
  · simp [requestBoth]
  · simp [requestBoth]
  · simp [requestBoth]

/-- What `vxaxidma_test` leaves: a channel without the other one, or what its transfer leaves. -/
def axidmaLeft (env : AxidmaEnv) : Multiset ClientResource :=
  if env.rxChan.isNone || env.txChan.isNone then channelOf env.rxChan + channelOf env.txChan
  else transferLeft env.txChan env.rxChan env

/-- Both channels are given back. -/
theorem holding_releaseBoth
    (h : s.Holding (channelOf (s.chan .rx) + (channelOf (s.chan .tx) + held))) :
    ((s.dmaReleaseChannel .tx).dmaReleaseChannel .rx).Holding held := by
  apply holding_dmaReleaseChannel
  rw [dmaReleaseChannel_chan]
  apply holding_dmaReleaseChannel
  rw [add_left_comm]
  exact h

/-- **`vxaxidma_test`.** -/
theorem vxaxidmaTest_spec (h : s.Holding held) (env : AxidmaEnv) :
    (s.vxaxidmaTest env).1.Holding (axidmaLeft env + held) ∧
      (s.vxaxidmaTest env).1.nullMapped = s.nullMapped := by
  obtain ⟨hrequested, htx, hrx, hnull⟩ := requestBoth_spec h env.txChan env.rxChan
  have hcall : s.vxaxidmaTest env =
      if ((s.requestBoth env.txChan env.rxChan).chan .rx).isNone ||
        ((s.requestBoth env.txChan env.rxChan).chan .tx).isNone then
        (s.requestBoth env.txChan env.rxChan, -1)
      else
        ((((s.requestBoth env.txChan env.rxChan).axidmaTestTransfer env).dmaReleaseChannel
          .tx).dmaReleaseChannel .rx, 1) := rfl
  rw [hcall, axidmaLeft, htx, hrx]
  split
  · refine ⟨?_, hnull⟩
    rw [add_assoc]
    exact hrequested
  · obtain ⟨hleft, hchan, hkept⟩ := axidmaTestTransfer_spec hrequested env
    rw [htx, hrx] at hleft
    refine ⟨?_, ?_⟩
    · apply holding_releaseBoth
      rw [hchan, htx, hrx, add_left_comm (channelOf env.txChan), add_left_comm (channelOf env.rxChan)]
      exact hleft
    · rw [dmaReleaseChannel_nullMapped, dmaReleaseChannel_nullMapped, hkept, hnull]

/-! ## `xhls_test` -/

/-- The buffers of `xhls_test`. -/
def xhlsBuffers (env : XhlsEnv) : Multiset ClientResource :=
  bufferOf env.ouputDat + (bufferOf env.inputBDat + bufferOf env.inputADat)

/-- What `xhls_test` leaves once it has its channels: the mapping of the first transfer that is not
submitted, and in an oops the channels and the buffers, too. -/
def xhlsTransfersLeft (txChan rxChan : Option Nat) (env : XhlsEnv) : Multiset ClientResource :=
  if !env.inputA.submitted then env.inputA.left txChan .toDevice
  else if !env.inputB.submitted then env.inputB.left txChan .toDevice
  else if env.ouputDat.isNone then
    env.output.left rxChan .fromDevice + (channelOf rxChan + (channelOf txChan + xhlsBuffers env))
  else env.output.left rxChan .fromDevice

/-- The loop that prints the output gets to its end unless it starts at `NULL`. -/
theorem printsEntries_eq (iptr0 : Option Nat) (n : Nat) :
    printsEntries iptr0 (n + 1) = iptr0.isSome := by
  induction n generalizing iptr0 with
  | zero => cases iptr0 <;> rfl
  | succ n ih =>
    cases iptr0 with
    | none => rfl
    | some p => exact ih (some (p + 4))

/-- The loop that prints goes through whenever there is an output buffer. -/
theorem printsEntries_mtrxSize (iptr0 : Option Nat) :
    printsEntries iptr0 mtrxSize = iptr0.isSome :=
  printsEntries_eq iptr0 1023

/-- What `xhls_test` leaves. Where it has not both channels, it leaves nothing. -/
def xhlsLeft (env : XhlsEnv) : Multiset ClientResource :=
  if env.inputADat.isNone || env.inputBDat.isNone then xhlsBuffers env
  else if env.rxChan.isNone || env.txChan.isNone then 0
  else xhlsTransfersLeft env.txChan env.rxChan env

/-- `exit_err` and `exit_success` give back the channels and the buffers, and not what was left
before. -/
theorem xhlsExit_spec {env : XhlsEnv} {chan : DmaSide → Option Nat} (hchan : s.chan = chan)
    {left : Multiset ClientResource}
    (h : s.Holding (left +
      (channelOf (chan .rx) + (channelOf (chan .tx) + (xhlsBuffers env + held))))) :
    (s.xhlsExit env).Holding (left + held) ∧ (s.xhlsExit env).nullMapped = s.nullMapped := by
  subst hchan
  refine ⟨?_, ?_⟩
  · unfold xhlsExit
    apply holding_kfree
    apply holding_kfree
    apply holding_kfree
    apply holding_releaseBoth
    have hmove : left + (channelOf (s.chan .rx) + (channelOf (s.chan .tx) + (xhlsBuffers env + held)))
        = channelOf (s.chan .rx) + (channelOf (s.chan .tx) + (bufferOf env.inputADat +
          (bufferOf env.inputBDat + (bufferOf env.ouputDat + (left + held))))) := by
      unfold xhlsBuffers
      abel
    rw [← hmove]
    exact h
  · simp [xhlsExit]

/-- `xhls_test`, once it has its channels. -/
theorem xhlsTransfers_spec {env : XhlsEnv} {a b : Nat} (ha : env.inputADat = some a)
    (hb : env.inputBDat = some b)
    (h : s.Holding (channelOf (s.chan .rx) + (channelOf (s.chan .tx) + (xhlsBuffers env + held)))) :
    (s.xhlsTransfers env).1.Holding (xhlsTransfersLeft (s.chan .tx) (s.chan .rx) env + held) ∧
      (s.xhlsTransfers env).1.nullMapped =
        (s.nullMapped || (env.inputA.submitted && env.inputB.submitted && env.ouputDat.isNone)) ∧
      ((s.xhlsTransfers env).2 = .oops ↔
        (env.inputA.submitted && env.inputB.submitted && env.ouputDat.isNone) = true) := by
  obtain ⟨hA, hAchan, hAnull, hAret⟩ := xhlsLoadInput_spec h a env.inputA
  simp only [xhlsTransfers, xhlsTransfersLeft, ha, hb, hAret, printsEntries_mtrxSize]
  cases hsubA : env.inputA.submitted with
  | false =>
    obtain ⟨hexit, hnull⟩ := xhlsExit_spec hAchan hA
    refine ⟨hexit, ?_, by simp⟩
    rw [Bool.false_and, Bool.false_and, Bool.or_false, ← hAnull]
    exact hnull
  | true =>
    have hAnone : env.inputA.left (s.chan .tx) .toDevice = 0 := if_pos hsubA
    rw [hAnone, zero_add] at hA
    obtain ⟨hB, hBchan, hBnull, hBret⟩ := xhlsLoadInput_spec hA b env.inputB
    rw [hAchan] at hB hBchan
    simp only [hBret]
    cases hsubB : env.inputB.submitted with
    | false =>
      obtain ⟨hexit, hnull⟩ := xhlsExit_spec hBchan hB
      refine ⟨hexit, ?_, by simp⟩
      rw [Bool.and_false, Bool.false_and, Bool.or_false, ← hAnull, ← hBnull]
      exact hnull
    | true =>
      have hBnone : env.inputB.left (s.chan .tx) .toDevice = 0 := if_pos hsubB
      rw [hBnone, zero_add] at hB
      obtain ⟨hout, houtchan, houtnull⟩ := xhlsWaitOutput_spec hB env.ouputDat env.output
      rw [hBchan] at hout houtchan
      rw [hBnull, hAnull] at houtnull
      cases hoc : env.ouputDat with
      | none =>
        -- nothing is given back any more
        rw [hoc] at hout houtnull
        refine ⟨?_, houtnull, by simp⟩
        simp only [Option.isNone_none, Bool.not_true, Bool.false_eq_true, if_false, if_true]
        rw [add_assoc, add_assoc, add_assoc]
        exact hout
      | some p =>
        rw [hoc] at hout houtchan houtnull
        obtain ⟨hexit, hnull⟩ := xhlsExit_spec houtchan hout
        refine ⟨hexit, ?_, by simp⟩
        rw [Bool.true_and, Bool.true_and, ← houtnull]
        exact hnull

/-- The client once it has called `kmalloc` for its buffers. -/
def xhlsAllocated (env : XhlsEnv) (s : ClientState) : ClientState :=
  ((s.kmalloc env.inputADat).kmalloc env.inputBDat).kmalloc env.ouputDat

/-- `xhls_test`, by how far it gets. -/
theorem xhlsTest_eq (env : XhlsEnv) (s : ClientState) :
    s.xhlsTest env =
      if env.inputADat.isNone || env.inputBDat.isNone then (s.xhlsAllocated env, .returns (-1))
      else if env.rxChan.isNone || env.txChan.isNone then
        (((s.xhlsAllocated env).requestBoth env.txChan env.rxChan).xhlsExit env, .returns (-1))
      else ((s.xhlsAllocated env).requestBoth env.txChan env.rxChan).xhlsTransfers env := by
  have htx : ((s.xhlsAllocated env).requestBoth env.txChan env.rxChan).chan .tx = env.txChan := by
    simp [requestBoth]
  have hrx : ((s.xhlsAllocated env).requestBoth env.txChan env.rxChan).chan .rx = env.rxChan := by
    simp [requestBoth]
  have hcall : s.xhlsTest env =
      if env.inputADat.isNone || env.inputBDat.isNone then (s.xhlsAllocated env, .returns (-1))
      else if ((s.xhlsAllocated env).xhlsSetupDma env).2 < 0 then
        (((s.xhlsAllocated env).xhlsSetupDma env).1.xhlsExit env, .returns (-1))
      else ((s.xhlsAllocated env).xhlsSetupDma env).1.xhlsTransfers env := rfl
  have hsetup : (s.xhlsAllocated env).xhlsSetupDma env =
      ((s.xhlsAllocated env).requestBoth env.txChan env.rxChan,
        if env.rxChan.isNone || env.txChan.isNone then -1 else 1) := by
    have hunfold : (s.xhlsAllocated env).xhlsSetupDma env =
        if (((s.xhlsAllocated env).requestBoth env.txChan env.rxChan).chan .rx).isNone ||
          (((s.xhlsAllocated env).requestBoth env.txChan env.rxChan).chan .tx).isNone then
          ((s.xhlsAllocated env).requestBoth env.txChan env.rxChan, -1)
        else ((s.xhlsAllocated env).requestBoth env.txChan env.rxChan, 1) := rfl
    rw [hunfold, htx, hrx]
    split <;> rfl
  rw [hcall, hsetup]
  cases env.inputADat.isNone || env.inputBDat.isNone with
  | true => rfl
  | false => cases env.rxChan.isNone || env.txChan.isNone <;> rfl

/-- **`xhls_test`.** -/
theorem xhlsTest_spec (h : s.Holding held) (env : XhlsEnv) :
    (s.xhlsTest env).1.Holding (xhlsLeft env + held) ∧
      (s.xhlsTest env).1.nullMapped = (s.nullMapped || (env.waits && env.ouputDat.isNone)) ∧
      ((s.xhlsTest env).2 = .oops ↔ (env.waits && env.ouputDat.isNone) = true) := by
  have halloc := holding_kmalloc (holding_kmalloc (holding_kmalloc h env.inputADat) env.inputBDat)
    env.ouputDat
  have hallocated : (s.xhlsAllocated env).Holding (xhlsBuffers env + held) := by
    rw [xhlsBuffers, add_assoc, add_assoc]
    exact halloc
  have hallocnull : (s.xhlsAllocated env).nullMapped = s.nullMapped := by simp [xhlsAllocated]
  obtain ⟨hrequested, htx, hrx, hnull⟩ := requestBoth_spec hallocated env.txChan env.rxChan
  rw [hallocnull] at hnull
  rw [xhlsTest_eq, xhlsLeft, XhlsEnv.waits]
  cases hbuffers : env.inputADat.isNone || env.inputBDat.isNone with
  | true =>
    simp only [if_true, Bool.not_true, Bool.false_and, Bool.or_false]
    exact ⟨hallocated, hallocnull, by simp⟩
  | false =>
    cases hchannels : env.rxChan.isNone || env.txChan.isNone with
    | true =>
      simp only [Bool.false_eq_true, if_false, if_true, Bool.not_true, Bool.and_false,
        Bool.false_and, Bool.or_false]
      rw [← hnull]
      have hexit := @xhlsExit_spec ((s.xhlsAllocated env).requestBoth env.txChan env.rxChan) held env
        _ rfl 0
      rw [htx, hrx, zero_add] at hexit
      obtain ⟨hleft, hkept⟩ := hexit hrequested
      exact ⟨hleft, hkept, by simp⟩
    | false =>
      simp only [Bool.false_eq_true, if_false, Bool.not_false, Bool.true_and]
      rw [Bool.or_eq_false_iff] at hbuffers
      obtain ⟨a, ha⟩ := Option.isSome_iff_exists.mp (Option.isNone_eq_false_iff.mp hbuffers.1)
      obtain ⟨b, hb⟩ := Option.isSome_iff_exists.mp (Option.isNone_eq_false_iff.mp hbuffers.2)
      have hready : ((s.xhlsAllocated env).requestBoth env.txChan env.rxChan).Holding
          (channelOf (((s.xhlsAllocated env).requestBoth env.txChan env.rxChan).chan .rx) +
            (channelOf (((s.xhlsAllocated env).requestBoth env.txChan env.rxChan).chan .tx) +
              (xhlsBuffers env + held))) := by
        rw [htx, hrx]
        exact hrequested
      have hspec := xhlsTransfers_spec ha hb hready
      rw [htx, hrx, hnull] at hspec
      exact hspec

end ClientState

/-! ## When nothing is left -/

/-- A `vxaxidma_test` leaves nothing: it gets neither channel, or both, and then it gets neither
buffer, or both, and both its transfers are submitted. -/
def AxidmaEnv.leavesNothing (env : AxidmaEnv) : Bool :=
  (env.txChan.isNone && env.rxChan.isNone) ||
    (env.txChan.isSome && env.rxChan.isSome &&
      ((env.srcDmaBuffer.isNone && env.destDmaBuffer.isNone) ||
        (env.srcDmaBuffer.isSome && env.destDmaBuffer.isSome && env.tx.submitted &&
          env.rx.submitted)))

/-- A loopback test leaves nothing exactly under its condition. -/
theorem axidmaLeft_eq_zero_iff (env : AxidmaEnv) :
    ClientState.axidmaLeft env = 0 ↔ env.leavesNothing = true := by
  unfold ClientState.axidmaLeft AxidmaEnv.leavesNothing ClientState.transferLeft
  cases env.txChan <;> cases env.rxChan <;> cases env.srcDmaBuffer <;> cases env.destDmaBuffer <;>
    cases env.tx.submitted <;> cases env.rx.submitted <;> simp [bufferOf, channelOf]

/-- An `xhls_test` leaves nothing and maps no `NULL`: it gets none of its buffers, or both inputs,
and then it does not get both channels, or it gets the buffer for the output, too, and all its
transfers are submitted. -/
def XhlsEnv.leavesNothing (env : XhlsEnv) : Bool :=
  (env.inputADat.isNone && env.inputBDat.isNone && env.ouputDat.isNone) ||
    (env.inputADat.isSome && env.inputBDat.isSome &&
      (!(env.txChan.isSome && env.rxChan.isSome) ||
        (env.ouputDat.isSome && env.inputA.submitted && env.inputB.submitted &&
          env.output.submitted)))

/-- A matrix test leaves nothing and maps no `NULL` exactly under its condition. -/
theorem xhlsLeft_eq_zero_iff (env : XhlsEnv) :
    (ClientState.xhlsLeft env = 0 ∧ (env.waits && env.ouputDat.isNone) = false) ↔
      env.leavesNothing = true := by
  unfold ClientState.xhlsLeft XhlsEnv.leavesNothing XhlsEnv.waits ClientState.xhlsTransfersLeft
    TransferOutcome.left ClientState.xhlsBuffers
  cases env.inputADat <;> cases env.inputBDat <;> cases env.ouputDat <;> cases env.txChan <;>
    cases env.rxChan <;> cases env.inputA.submitted <;> cases env.inputB.submitted <;>
    cases env.output.submitted <;> simp [bufferOf]

/-! ## Calls -/

/-- What an `ioctl` leaves, when it returns or in an oops. -/
def ClientIoctl.left : ClientIoctl → Multiset ClientResource
  | .vxdmaDev cmdType env => if cmdType = rxTransfer then ClientState.axidmaLeft env else 0
  | .vxhls cmdType env => if cmdType = vxhlsTest then ClientState.xhlsLeft env else 0

/-- An `ioctl` maps a buffer that is `NULL`. -/
def ClientIoctl.mapsNull : ClientIoctl → Bool
  | .vxdmaDev _ _ => false
  | .vxhls cmdType env => decide (cmdType = vxhlsTest) && (env.waits && env.ouputDat.isNone)

/-- An `ioctl` is another command, or its test leaves nothing. -/
def ClientIoctl.leavesNothing : ClientIoctl → Bool
  | .vxdmaDev cmdType env => !decide (cmdType = rxTransfer) || env.leavesNothing
  | .vxhls cmdType env => !decide (cmdType = vxhlsTest) || env.leavesNothing

/-- An ioctl leaves nothing and maps no `NULL` exactly under its condition. -/
theorem ClientIoctl.left_eq_zero_iff (i : ClientIoctl) :
    (i.left = 0 ∧ i.mapsNull = false) ↔ i.leavesNothing = true := by
  cases i with
  | vxdmaDev cmdType env =>
    by_cases hcmd : cmdType = rxTransfer
    · simp [left, mapsNull, leavesNothing, hcmd, axidmaLeft_eq_zero_iff]
    · simp [left, mapsNull, leavesNothing, hcmd]
  | vxhls cmdType env =>
    by_cases hcmd : cmdType = vxhlsTest
    · simp [left, mapsNull, leavesNothing, hcmd, ← xhlsLeft_eq_zero_iff]
    · simp [left, mapsNull, leavesNothing, hcmd]

namespace TestClients

variable {s : TestClients} {held : Multiset ClientResource}

/-- **One `ioctl`.** Whatever the kernel answers, it gives back only what is held, and leaves what it
leaves. It does not return exactly when it maps `NULL`. -/
theorem ioctl_holding (h : s.Holding held) (i : ClientIoctl) :
    (s.ioctl i).1.Holding (i.left + held) ∧
      (s.ioctl i).1.nullMapped = (s.nullMapped || i.mapsNull) ∧
      ((s.ioctl i).2 = .oops ↔ i.mapsNull = true) := by
  cases i with
  | vxdmaDev cmdType env =>
    have hcalled : (⟨s.vxdmaDev, s.toClientLog⟩ : ClientState).Holding held := h
    simp only [ioctl, vxdmaDevIoctl, ClientIoctl.left, ClientIoctl.mapsNull, Bool.or_false]
    by_cases hcmd : cmdType = rxTransfer
    · simp only [hcmd, if_true]
      obtain ⟨hleft, hnull⟩ := ClientState.vxaxidmaTest_spec hcalled env
      exact ⟨hleft, hnull, by simp⟩
    · simp only [hcmd, if_false, zero_add]
      split
      · exact ⟨h, rfl, by simp⟩
      · exact ⟨h, rfl, by simp⟩
  | vxhls cmdType env =>
    have hcalled : (⟨s.vxhls, s.toClientLog⟩ : ClientState).Holding held := h
    simp only [ioctl, vxhlsIoctl, ClientIoctl.left, ClientIoctl.mapsNull]
    by_cases hcmd : cmdType = vxhlsTest
    · simp only [hcmd, if_true, decide_true, Bool.true_and]
      obtain ⟨hleft, hnull, hend⟩ := ClientState.xhlsTest_spec hcalled env
      rw [← hend]
      generalize ClientState.xhlsTest env ⟨s.vxhls, s.toClientLog⟩ = r at hleft hnull
      obtain ⟨c, ret | -⟩ := r
      · exact ⟨hleft, hnull, by simp⟩
      · exact ⟨hleft, hnull, Iff.rfl⟩
    · simp only [hcmd, if_false, zero_add, decide_false, Bool.false_and, Bool.or_false]
      exact ⟨h, trivial, by simp⟩

/-- **Calls.** What is held after some of them is what each of them left. -/
theorem ioctls_holding (h : s.Holding held) (is : List ClientIoctl) :
    (s.ioctls is).Holding ((is.map ClientIoctl.left).sum + held) := by
  induction is generalizing s held with
  | nil =>
    rw [List.map_nil, List.sum_nil, zero_add]
    exact h
  | cons i is ih =>
    have hrest := ih (ioctl_holding h i).1
    rw [List.map_cons, List.sum_cons, add_comm i.left, add_assoc]
    exact hrest

/-- Nothing is held, everything was given back once, and no buffer that is `NULL` was mapped. -/
def Clean (s : TestClients) : Prop := Balanced s.ledger ∧ s.nullMapped = false

/-- At first nothing is held. -/
theorem clean_loaded : loaded.Clean := ⟨rfl, rfl⟩

/-- A clean state holds nothing. -/
theorem Clean.holding (h : s.Clean) : s.Holding 0 := h.1

/-- An `ioctl` after which everything is clean again. -/
theorem Clean.ioctl_iff (h : s.Clean) (i : ClientIoctl) :
    (s.ioctl i).1.Clean ↔ i.leavesNothing = true := by
  obtain ⟨hleft, hnull, -⟩ := ioctl_holding h.holding i
  rw [add_zero] at hleft
  rw [h.2, Bool.false_or] at hnull
  rw [Clean, balanced_iff_of_replay hleft, hnull]
  exact i.left_eq_zero_iff

/-- The calls as a run. -/
theorem exec_ioctl (s : TestClients) (is : List ClientIoctl) :
    exec (fun s i => some (ioctl s i).1) s is = some (s.ioctls is) := by
  induction is generalizing s with
  | nil => rfl
  | cons i is ih => exact ih (s.ioctl i).1

/-- Everything is clean after each of some calls when every one of them leaves nothing. -/
theorem Clean.prefixes_iff (h : s.Clean) (is : List ClientIoctl) :
    (∀ n, (s.ioctls (is.take n)).Clean) ↔ ∀ i ∈ is, i.leavesNothing = true := by
  have hrun : (∀ n t, exec (fun s i => some (ioctl s i).1) s (is.take n) = some t → t.Clean) ↔
      ∀ i ∈ is, i.leavesNothing = true := by
    -- no invariant is needed besides `Clean` itself
    refine @Reachable.exec_prefixes_iff TestClients ClientIoctl _ (fun _ => True) _ _ s _ is ?_ trivial
      h (exec_ioctl s is)
    intro s i s' _ hclean hcall
    cases hcall
    exact ⟨trivial, hclean.ioctl_iff i⟩
  rw [← hrun]
  simp only [exec_ioctl, Option.some.injEq, forall_eq']

end TestClients

/-- **The clients leave nothing behind when all goes well.** After each of some calls everything that
the clients acquired was given back once, and no buffer that is `NULL` was mapped, exactly when every
call leaves nothing. -/
theorem clients_leave_nothing_iff (is : List ClientIoctl) :
    (∀ n, (TestClients.loaded.ioctls (is.take n)).Clean) ↔ ∀ i ∈ is, i.leavesNothing = true :=
  TestClients.clean_loaded.prefixes_iff is

/-- The answers to an `RX_TRANSFER` that finds the channel to transmit only. -/
def oneChannelEnv : AxidmaEnv where
  txChan := some 0
  rxChan := none
  srcDmaBuffer := none
  destDmaBuffer := none
  tx := ⟨0, none, ⟨0, false, false⟩⟩
  rx := ⟨0, none, ⟨0, false, false⟩⟩

/-- The answers to a `VXHLS_TEST` that gets no buffer for the output. -/
def noOutputEnv : XhlsEnv where
  inputADat := some 0x1000
  inputBDat := some 0x2000
  ouputDat := none
  txChan := some 0
  rxChan := some 1
  inputA := ⟨0x1000, some 1, ⟨1, true, false⟩⟩
  inputB := ⟨0x2000, some 2, ⟨1, true, false⟩⟩
  output := ⟨0, some 1, ⟨0, false, false⟩⟩

/-- A channel that was found without the other one is never released; and a buffer for the output
that was not allocated is mapped and then read, in an oops that leaves the channels and the
inputs. -/
theorem clients_leave_something :
    (TestClients.loaded.ioctl (.vxdmaDev rxTransfer oneChannelEnv)).1.ledger =
        [.acquire (.channel 0)] ∧
      ¬ (TestClients.loaded.ioctl (.vxdmaDev rxTransfer oneChannelEnv)).1.Clean ∧
      (TestClients.loaded.ioctl (.vxhls vxhlsTest noOutputEnv)).1.nullMapped = true ∧
      (TestClients.loaded.ioctl (.vxhls vxhlsTest noOutputEnv)).2 = .oops ∧
      replay 0 (TestClients.loaded.ioctl (.vxhls vxhlsTest noOutputEnv)).1.ledger =
        some {.channel 0, .channel 1, .buffer 0x1000, .buffer 0x2000} := by
  refine ⟨rfl, ?_, rfl, rfl, by decide⟩
  rintro ⟨hbalanced, -⟩
  exact not_balanced_acquire (ClientResource.channel 0) hbalanced

end PetalinuxDriver
