import PetalinuxDriver.Model.VxdmaTypes

/-!
# The functions of the AXI DMA channel driver

`vxdma/vxdma.c`, from `xilinx_dma_alloc_tx_segment` to `xilinx_dma_terminate_all`, each under its
name in the source and with its locked and unlocked parts as definitions of their own where the
function has several. What the device answers is an argument: the value of the control register
read by a reset, the status word read by the interrupt handler, and whether a poll succeeded.

`wild` is the result of a builder that goes on where C gives the code no meaning: it divides by a
period length of zero, or takes the first entry of an empty segment list.
-/

set_option autoImplicit false

namespace PetalinuxDriver

variable {cfg : PhysAddrConfig}

/-! ## Segments and descriptors -/

/-- `xilinx_dma_alloc_tx_segment`. -/
def xilinxDmaAllocTxSegment (s : XilinxDmaChan cfg) : Option (SegPtr × XilinxDmaChan cfg) :=
  match s.freeSegList with
  | [] => none
  | segment :: rest => some (segment, { s with freeSegList := rest })

/-- `xilinx_dma_clean_hw_desc`: everything but the link to the next descriptor becomes zero. -/
def xilinxDmaCleanHwDesc (hw : XilinxDmaDescHw) : XilinxDmaDescHw :=
  { zeroDescHw with nextDesc := hw.nextDesc, nextDescMsb := hw.nextDescMsb }

/-- `xilinx_dma_free_tx_segment`. -/
def xilinxDmaFreeTxSegment (s : XilinxDmaChan cfg) (segment : SegPtr) : XilinxDmaChan cfg :=
  let s := s.setHw segment (xilinxDmaCleanHwDesc (s.mem segment).hw)
  { s with freeSegList := s.freeSegList ++ [segment] }

/-- `xilinx_dma_free_tx_descriptor`, on the segment list of the descriptor. -/
def xilinxDmaFreeTxDescriptor (s : XilinxDmaChan cfg) (segments : List SegPtr) :
    XilinxDmaChan cfg :=
  segments.foldl xilinxDmaFreeTxSegment s

/-- `xilinx_dma_free_desc_list`: the caller's list is empty afterwards. -/
def xilinxDmaFreeDescList (s : XilinxDmaChan cfg) (list : List (XilinxDmaTxDescriptor cfg)) :
    XilinxDmaChan cfg :=
  list.foldl (fun s d => (xilinxDmaFreeTxDescriptor s d.segments).emit (.freeDescList d.id)) s

/-- `xilinx_dma_free_descriptors`: one locked section over the three lists, in this order. -/
def xilinxDmaFreeDescriptors (s : XilinxDmaChan cfg) : XilinxDmaChan cfg :=
  let s := { xilinxDmaFreeDescList s s.pendingList with pendingList := [] }
  let s := { xilinxDmaFreeDescList s s.doneList with doneList := [] }
  { xilinxDmaFreeDescList s s.activeList with activeList := [] }

/-! ## Channel resources -/

/-- `chan->seg_p + sizeof(*chan->seg_v) * i`. -/
def segAddr (segP : DmaAddr cfg) (i : Nat) : DmaAddr cfg :=
  segP + BitVec.ofNat cfg.width (sizeofTxSegment * i)

/-- `chan->seg_v[i]` as `xilinx_dma_alloc_chan_resources` initialises it. -/
def ringSegment (segP : DmaAddr cfg) (i : Fin xilinxDmaNumDescs) : XilinxDmaTxSegment cfg :=
  let next := segAddr segP ((i.val + 1) % xilinxDmaNumDescs)
  let hw := match cfg with
    | .addr64 => { zeroDescHw with nextDesc := lower32Bits next, nextDescMsb := upper32Bits next }
    | .addr32 => { zeroDescHw with nextDesc := lower32Bits next }
  { hw := hw, phys := segAddr segP i.val }

/-- `xilinx_dma_alloc_chan_resources`; `zalloc` is the bus address of the new pool, if there is
one. -/
def xilinxDmaAllocChanResources (zalloc : Option (DmaAddr cfg)) (s : XilinxDmaChan cfg) :
    XilinxDmaChan cfg × Option Errno :=
  match zalloc with
  | none => ({ s with segV := none }, some .enomem)
  | some segP =>
    let pool := s.pools
    let s := { s with
      segV := some pool
      segP := segP
      pools := pool + 1
      mem := fun p => if p.pool = pool then ringSegment segP p.index else s.mem p
      freeSegList := s.freeSegList ++ poolSegs pool
      common := dmaCookieInit
      ctrlReg := s.ctrlReg ||| xilinxDmaXrIrqAllMask }
    (s.dmaCtrlWrite xilinxDmaRegControl s.ctrlReg, none)

/-- The second locked section of `xilinx_dma_free_chan_resources`: `INIT_LIST_HEAD`. -/
def initFreeSegList (s : XilinxDmaChan cfg) : XilinxDmaChan cfg :=
  { s with freeSegList := [] }

/-- `dma_free_coherent` of the pool. -/
def dmaFreeCoherent (s : XilinxDmaChan cfg) : XilinxDmaChan cfg :=
  { s with segV := none }

/-- `xilinx_dma_free_chan_resources`. -/
def xilinxDmaFreeChanResources (s : XilinxDmaChan cfg) : XilinxDmaChan cfg :=
  dmaFreeCoherent (initFreeSegList (xilinxDmaFreeDescriptors s))

/-! ## Cleanup -/

/-- Where the cleanup tasklet is when it does not hold the lock: not running, around the callback
of a descriptor that it has taken off `done_list`, or around the callback of a cyclic descriptor,
which stays there. -/
inductive CleanupPc (cfg : PhysAddrConfig) where
  | idle
  | callback (desc : XilinxDmaTxDescriptor cfg)
  | cyclicCallback
deriving DecidableEq

/-- The loop of `xilinx_dma_chan_desc_cleanup` over `done_list`, up to the next place where it
drops the lock. -/
def cleanupLoop : List (XilinxDmaTxDescriptor cfg) → XilinxDmaChan cfg →
    XilinxDmaChan cfg × CleanupPc cfg
  | [], s => (s, .idle)
  | desc :: rest, s =>
    if desc.cyclic then
      -- xilinx_dma_chan_handle_cyclic, then break
      match desc.callback with
      | none => (s, .idle)
      | some _ => (s.emit (.callback desc.id), .cyclicCallback)
    else
      let s := { s with doneList := rest }
      match desc.callback with
      | some _ => (s.emit (.callback desc.id), .callback desc)
      | none => cleanupLoop rest (xilinxDmaFreeTxDescriptor s desc.segments)

/-- `xilinx_dma_chan_desc_cleanup` from its start to the first place where it drops the lock. -/
def xilinxDmaChanDescCleanup (s : XilinxDmaChan cfg) : XilinxDmaChan cfg × CleanupPc cfg :=
  cleanupLoop s.doneList s

/-- `xilinx_dma_chan_desc_cleanup` after a callback has returned. -/
def cleanupResume (pc : CleanupPc cfg) (s : XilinxDmaChan cfg) :
    XilinxDmaChan cfg × CleanupPc cfg :=
  match pc with
  | .idle => (s, .idle)
  | .callback desc => xilinxDmaChanDescCleanup (xilinxDmaFreeTxDescriptor s desc.segments)
  | .cyclicCallback => (s, .idle)

/-! ## Halt, start and reset -/

/-- `xilinx_dma_halt`; `haltOk` says that the poll for the halted bit succeeded. -/
def xilinxDmaHalt (haltOk : Bool) (s : XilinxDmaChan cfg) : XilinxDmaChan cfg :=
  let s := { s with ctrlReg := s.ctrlReg &&& ~~~xilinxDmaCrRunstopMask }
  let s := s.dmaCtrlWrite xilinxDmaRegControl s.ctrlReg
  if haltOk then s else { s with err := true }

/-- `xilinx_dma_start`; `startOk` says that the poll for the halted bit to clear succeeded. -/
def xilinxDmaStart (startOk : Bool) (s : XilinxDmaChan cfg) : XilinxDmaChan cfg :=
  let s := { s with ctrlReg := s.ctrlReg ||| xilinxDmaCrRunstopMask }
  let s := s.dmaCtrlWrite xilinxDmaRegControl s.ctrlReg
  if startOk then s else { s with err := true }

/-- What the device answers to a reset: the control register it reads first, and whether the
reset bit cleared in time. -/
structure ResetEnv where
  dmacr : BitVec 32
  ok : Bool
deriving DecidableEq, Repr

/-- `xilinx_dma_chan_reset`. -/
def xilinxDmaChanReset (env : ResetEnv) (s : XilinxDmaChan cfg) :
    XilinxDmaChan cfg × Option Errno :=
  let s := { s with ctrlReg := env.dmacr }
  let s := s.dmaCtrlWrite xilinxDmaRegControl (s.ctrlReg ||| xilinxDmaCrResetMask)
  if env.ok then ({ s with err := false }, none) else (s, some .ebusy)

/-! ## Starting a batch -/

/-- The number of queued descriptors goes into the coalesce field of the control register. -/
def writeCoalesce (s : XilinxDmaChan cfg) : XilinxDmaChan cfg :=
  if s.descPendingcount ≤ xilinxDmaCoalesceMax then
    let s := { s with ctrlReg := s.ctrlReg &&& ~~~xilinxDmaCrCoalesceMax }
    let s := { s with ctrlReg := s.ctrlReg |||
      (BitVec.ofNat 32 s.descPendingcount <<< xilinxDmaCrCoalesceShift) }
    s.dmaCtrlWrite xilinxDmaRegControl s.ctrlReg
  else s

/-- The writes that make the engine go: the tail of the chain, or in simple mode the address and
the length of the first segment of the first descriptor. -/
def programTransfer (headDesc tailDesc : XilinxDmaTxDescriptor cfg) (s : XilinxDmaChan cfg) :
    XilinxDmaChan cfg :=
  if s.hasSg then
    s.dmaCtrlWriteAddr xilinxDmaRegTaildesc (s.mem tailDesc.lastSegment).phys
  else
    let hw := (s.mem headDesc.firstSegment).hw
    (s.dmaCtrlWriteAddr xilinxDmaRegSrcdstaddr hw.bufAddr).dmaCtrlWrite xilinxDmaRegBtt
      (hw.control &&& xilinxDmaMaxTransLen)

/-- `xilinx_dma_start_transfer`. -/
def xilinxDmaStartTransfer (startOk : Bool) (s : XilinxDmaChan cfg) : XilinxDmaChan cfg :=
  if s.err then s
  else
    match s.pendingList with
    | [] => s
    | headDesc :: rest =>
      if !s.idle then s
      else
        let tailDesc := (headDesc :: rest).getLast (List.cons_ne_nil _ _)
        let s := writeCoalesce s
        let s := if s.hasSg then s.dmaCtrlWriteAddr xilinxDmaRegCurdesc headDesc.phys else s
        let s := xilinxDmaStart startOk s
        if s.err then s
        else
          let s := programTransfer headDesc tailDesc s
          { s with
            activeList := s.activeList ++ s.pendingList
            pendingList := []
            descPendingcount := 0
            idle := false }

/-- `xilinx_dma_issue_pending`: one locked section. -/
def xilinxDmaIssuePending (startOk : Bool) (s : XilinxDmaChan cfg) : XilinxDmaChan cfg :=
  xilinxDmaStartTransfer startOk s

/-! ## The interrupt handler -/

/-- `dma_cookie_complete`. -/
def dmaCookieComplete (s : XilinxDmaChan cfg) (d : XilinxDmaTxDescriptor cfg) :
    XilinxDmaChan cfg × XilinxDmaTxDescriptor cfg :=
  let s := if d.cookie < dmaMinCookie then { s.emit .bug with bug := true } else s
  let s := { s with common := { s.common with completedCookie := d.cookie } }
  (s.emit (.cookieComplete d.id), { d with cookie := 0 })

/-- One round of the loop of `xilinx_dma_complete_descriptor`. -/
def completeOne (s : XilinxDmaChan cfg) (d : XilinxDmaTxDescriptor cfg) : XilinxDmaChan cfg :=
  let (s, d) := if !d.cyclic then dmaCookieComplete s d else (s, d)
  { s with doneList := s.doneList ++ [d] }

/-- `xilinx_dma_complete_descriptor`. -/
def xilinxDmaCompleteDescriptor (s : XilinxDmaChan cfg) : XilinxDmaChan cfg :=
  { s.activeList.foldl completeOne s with activeList := [] }

/-- The unlocked beginning of `xilinx_dma_irq_handler`: the status is acknowledged and an error
is remembered. -/
def irqAck (status : BitVec 32) (s : XilinxDmaChan cfg) : XilinxDmaChan cfg :=
  let s := s.dmaCtrlWrite xilinxDmaRegStatus (status &&& xilinxDmaXrIrqAllMask)
  if hasBits status xilinxDmaXrIrqErrorMask then { s with err := true } else s

/-- The locked section of `xilinx_dma_irq_handler` before it starts the next batch. -/
def irqComplete (s : XilinxDmaChan cfg) : XilinxDmaChan cfg :=
  { xilinxDmaCompleteDescriptor s with idle := true }

/-- `tasklet_schedule(&chan->tasklet)`. -/
def taskletSchedule (s : XilinxDmaChan cfg) : XilinxDmaChan cfg := { s with tasklet := true }

/-- `xilinx_dma_irq_handler`; `status` is what it reads from the status register. -/
def xilinxDmaIrqHandler (status : BitVec 32) (startOk : Bool) (s : XilinxDmaChan cfg) :
    XilinxDmaChan cfg :=
  if !hasBits status xilinxDmaXrIrqAllMask then s
  else
    let s := irqAck status s
    let s := if hasBits status xilinxDmaXrIrqIocMask then
      xilinxDmaStartTransfer startOk (irqComplete s) else s
    taskletSchedule s

/-! ## Submitting -/

/-- `append_desc_queue`. -/
def appendDescQueue (s : XilinxDmaChan cfg) (desc : XilinxDmaTxDescriptor cfg) :
    XilinxDmaChan cfg :=
  let s := match s.pendingList.getLast? with
    | none => s
    | some tailDesc =>
      let tail := tailDesc.lastSegment
      s.setHw tail { (s.mem tail).hw with nextDesc := lower32Bits desc.phys }
  let s := { s with
    pendingList := s.pendingList ++ [desc]
    descPendingcount := s.descPendingcount + 1 }
  if s.descPendingcount > xilinxDmaCoalesceMax then
    { s.emit .bug with descPendingcount := xilinxDmaCoalesceMax, bug := true }
  else s

/-- What `xilinx_dma_tx_submit` does: return a cookie, return an error number, or not return
because of `BUG()`. -/
inductive SubmitResult where
  | cookie (cookie : Int)
  | error (err : Errno)
  | bug
deriving DecidableEq, Repr

/-- The locked section of `xilinx_dma_tx_submit`. -/
def submitLocked (desc : XilinxDmaTxDescriptor cfg) (s : XilinxDmaChan cfg) :
    XilinxDmaChan cfg × SubmitResult :=
  let (common, cookie) := dmaCookieAssign s.common
  let s := { s with common := common }
  let s := s.emit (.cookieAssign desc.id cookie)
  let s := appendDescQueue s { desc with cookie := cookie }
  if s.bug then (s, .bug)
  else
    let s := if desc.cyclic then { s with cyclic := true } else s
    (s, .cookie cookie)

/-- `xilinx_dma_tx_submit`. -/
def xilinxDmaTxSubmit (env : ResetEnv) (desc : XilinxDmaTxDescriptor cfg)
    (s : XilinxDmaChan cfg) : XilinxDmaChan cfg × SubmitResult :=
  if s.cyclic then (xilinxDmaFreeTxDescriptor s desc.segments, .error .ebusy)
  else if s.err then
    match xilinxDmaChanReset env s with
    | (s, some err) => (s, .error err)
    | (s, none) => submitLocked desc s
  else submitLocked desc s

/-! ## Building descriptors -/

/-- The bytes that one segment covers: where they start and how many they are. -/
structure Chunk (cfg : PhysAddrConfig) where
  addr : DmaAddr cfg
  copy : Nat
deriving DecidableEq, Repr

/-- The `while (sg_used < len)` loop of both builders: the values of `sg_used` and `copy` in its
rounds. Each round covers at least one byte, so `len` rounds are enough. -/
def chunkLoop (len : Nat) : Nat → Nat → List (Nat × Nat)
  | 0, _ => []
  | fuel + 1, sgUsed =>
    if sgUsed < len then
      let copy := min (len - sgUsed) xilinxDmaMaxTransLen.toNat
      (sgUsed, copy) :: chunkLoop len fuel (sgUsed + copy)
    else []

/-- The chunks of `len` bytes from `base` on. -/
def chunksOf (base : DmaAddr cfg) (len : Nat) : List (Chunk cfg) :=
  (chunkLoop len len 0).map fun r => ⟨base + BitVec.ofNat cfg.width r.1, r.2⟩

/-- The rounds of the two loops of `xilinx_dma_prep_slave_sg`. -/
def sgChunks (sgl : List (ScatterEntry cfg)) : List (Chunk cfg) :=
  sgl.flatMap fun sg => chunksOf sg.dmaAddress sg.dmaLength.toNat

/-- The rounds of the two loops of `xilinx_dma_prep_dma_cyclic`. -/
def cyclicChunks (bufAddr : DmaAddr cfg) (numPeriods periodLen : Nat) : List (Chunk cfg) :=
  (List.range numPeriods).flatMap fun i =>
    chunksOf (bufAddr + BitVec.ofNat cfg.width (periodLen * i)) periodLen

/-- A descriptor under construction. `app` are the words that go into every segment, and
`cyclic` says which of the two builders is at work. -/
structure TxBuild where
  id : Nat
  direction : DmaTransferDirection
  app : Option AppWords
  cyclic : Bool
  segments : List SegPtr
deriving DecidableEq

/-- What a round writes into the hardware descriptor of its segment. -/
def fillHwDesc (app : Option AppWords) (c : Chunk cfg) (hw : XilinxDmaDescHw) :
    XilinxDmaDescHw :=
  let hw := match cfg with
    | .addr64 => { hw with bufAddr := lower32Bits c.addr, bufAddrMsb := upper32Bits c.addr }
    | .addr32 => { hw with bufAddr := lower32Bits c.addr }
  let hw := { hw with control := BitVec.ofNat 32 c.copy }
  match app with
  | some appW => { hw with app := appW }
  | none => hw

/-- One round of a builder: take a segment, fill it in and append it; `none` when there is no
free segment. -/
def buildRound (c : Chunk cfg) (b : TxBuild) (s : XilinxDmaChan cfg) :
    Option (TxBuild × XilinxDmaChan cfg) :=
  match xilinxDmaAllocTxSegment s with
  | none => none
  | some (segment, s) =>
    some ({ b with segments := b.segments ++ [segment] },
      s.setHw segment (fillHwDesc b.app c (s.mem segment).hw))

/-- All rounds of a builder, or as many as there are free segments; the last component says
whether it got through. -/
def buildLoop : List (Chunk cfg) → TxBuild → XilinxDmaChan cfg →
    XilinxDmaChan cfg × TxBuild × Bool
  | [], b, s => (s, b, true)
  | c :: cs, b, s =>
    match buildRound c b s with
    | none => (s, b, false)
    | some (b, s) => buildLoop cs b s

/-- What a prep function returns. -/
inductive PrepResult (cfg : PhysAddrConfig) where
  | null
  | desc (d : XilinxDmaTxDescriptor cfg)
  | wild
deriving DecidableEq

/-- `segment->hw.control |= flag`. -/
def orControl (s : XilinxDmaChan cfg) (p : SegPtr) (flag : BitVec 32) : XilinxDmaChan cfg :=
  s.setHw p { (s.mem p).hw with control := (s.mem p).hw.control ||| flag }

/-- The end of both builders, after the loops. -/
def finishBuild (b : TxBuild) (s : XilinxDmaChan cfg) : XilinxDmaChan cfg × PrepResult cfg :=
  match b.segments with
  | [] => (s, .wild)
  | first :: rest =>
    let d : XilinxDmaTxDescriptor cfg :=
      { id := b.id
        cookie := 0
        phys := (s.mem first).phys
        callback := none
        segments := first :: rest
        segments_ne := List.cons_ne_nil _ _
        direction := b.direction
        cyclic := b.cyclic }
    let s := if b.cyclic then
      let s := { s with ctrlReg := s.ctrlReg ||| xilinxDmaCrCyclicBdEnMask }
      s.dmaCtrlWrite xilinxDmaRegControl s.ctrlReg else s
    let s := if b.direction = .memToDev then
      orControl (orControl s first xilinxDmaBdSop) d.lastSegment xilinxDmaBdEop else s
    (s, .desc d)

/-- A builder from its loops on: the `error` label gives the segments back. -/
def runBuild (cs : List (Chunk cfg)) (b : TxBuild) (s : XilinxDmaChan cfg) :
    XilinxDmaChan cfg × PrepResult cfg :=
  match buildLoop cs b s with
  | (s, b, true) => finishBuild b s
  | (s, b, false) => (xilinxDmaFreeTxDescriptor s b.segments, .null)

/-- A builder up to its loops: the rounds to do and the empty descriptor, `null` when the
direction is wrong or there is no memory for a descriptor, or `wild`. -/
inductive PrepEntry (cfg : PhysAddrConfig) where
  | null
  | build (chunks : List (Chunk cfg)) (b : TxBuild)
  | wild

/-- The arguments of `xilinx_dma_prep_slave_sg`, and whether its `kzalloc` succeeds. -/
structure PrepSlaveSgArgs (cfg : PhysAddrConfig) where
  sgl : List (ScatterEntry cfg)
  direction : DmaTransferDirection
  context : Option AppWords
  kzallocOk : Bool
deriving DecidableEq

/-- The beginning of `xilinx_dma_prep_slave_sg`. The application words are copied only for
transfers to the device. -/
def prepSlaveSgEntry (args : PrepSlaveSgArgs cfg) (s : XilinxDmaChan cfg) : PrepEntry cfg :=
  if !isSlaveDirection args.direction then .null
  else if !args.kzallocOk then .null
  else .build (sgChunks args.sgl)
    { id := s.kzallocs
      direction := args.direction
      app := if args.direction = .memToDev then args.context else none
      cyclic := false
      segments := [] }

/-- The arguments of `xilinx_dma_prep_dma_cyclic`, and whether its `kzalloc` succeeds. -/
structure PrepDmaCyclicArgs (cfg : PhysAddrConfig) where
  bufAddr : DmaAddr cfg
  bufLen : BitVec cfg.width
  periodLen : BitVec cfg.width
  direction : DmaTransferDirection
  kzallocOk : Bool
deriving DecidableEq

/-- The beginning of `xilinx_dma_prep_dma_cyclic`. The division comes first, and its result is
kept in an `unsigned int`. -/
def prepDmaCyclicEntry (args : PrepDmaCyclicArgs cfg) (s : XilinxDmaChan cfg) : PrepEntry cfg :=
  if args.periodLen.toNat = 0 then .wild
  else
    let numPeriods := (args.bufLen.toNat / args.periodLen.toNat) % 2 ^ 32
    if !isSlaveDirection args.direction then .null
    else if !args.kzallocOk then .null
    else .build (cyclicChunks args.bufAddr numPeriods args.periodLen.toNat)
      { id := s.kzallocs
        direction := args.direction
        app := none
        cyclic := true
        segments := [] }

/-- `kzalloc` of a descriptor. -/
def kzallocDesc (s : XilinxDmaChan cfg) : XilinxDmaChan cfg :=
  { s with kzallocs := s.kzallocs + 1 }

/-- A builder run without interruption. -/
def runPrep (entry : PrepEntry cfg) (s : XilinxDmaChan cfg) : XilinxDmaChan cfg × PrepResult cfg :=
  match entry with
  | .null => (s, .null)
  | .build chunks b => runBuild chunks b (kzallocDesc s)
  | .wild => (s, .wild)

/-- `xilinx_dma_prep_slave_sg`. -/
def xilinxDmaPrepSlaveSg (args : PrepSlaveSgArgs cfg) (s : XilinxDmaChan cfg) :
    XilinxDmaChan cfg × PrepResult cfg :=
  runPrep (prepSlaveSgEntry args s) s

/-- `xilinx_dma_prep_dma_cyclic`. -/
def xilinxDmaPrepDmaCyclic (args : PrepDmaCyclicArgs cfg) (s : XilinxDmaChan cfg) :
    XilinxDmaChan cfg × PrepResult cfg :=
  runPrep (prepDmaCyclicEntry args s) s

/-! ## Terminating -/

/-- The end of `xilinx_dma_terminate_all`, for a channel marked cyclic. -/
def clearCyclic (s : XilinxDmaChan cfg) : XilinxDmaChan cfg :=
  let s := { s with ctrlReg := s.ctrlReg &&& ~~~xilinxDmaCrCyclicBdEnMask }
  let s := s.dmaCtrlWrite xilinxDmaRegControl s.ctrlReg
  { s with cyclic := false }

/-- `xilinx_dma_terminate_all`. -/
def xilinxDmaTerminateAll (haltOk : Bool) (s : XilinxDmaChan cfg) : XilinxDmaChan cfg :=
  let s := xilinxDmaHalt haltOk s
  let s := xilinxDmaFreeDescriptors s
  if s.cyclic then clearCyclic s else s

/-! ## Status -/

/-- What `xilinx_dma_tx_status` stores as residue: nothing, a number, or whatever it finds behind
the last entry of an empty list. -/
inductive ResidueOut where
  | untouched
  | stored (residue : BitVec 32)
  | wild
deriving DecidableEq, Repr

/-- The residue loop of `xilinx_dma_tx_status` over the segments of a descriptor. -/
def residueOf (s : XilinxDmaChan cfg) (d : XilinxDmaTxDescriptor cfg) : BitVec 32 :=
  d.segments.foldl (fun residue p =>
    residue + (((s.mem p).hw.control - (s.mem p).hw.status) &&& xilinxDmaMaxTransLen)) 0

/-- `xilinx_dma_tx_status`; `txstate` says that the caller passed one. -/
def xilinxDmaTxStatus (cookie : Int) (txstate : Bool) (s : XilinxDmaChan cfg) :
    XilinxDmaChan cfg × DmaStatus × ResidueOut :=
  let ret := dmaCookieStatus s.common cookie
  if ret = .complete || !txstate then (s, ret, .untouched)
  else if !s.hasSg then ({ s with residue := 0 }, ret, .stored 0)
  else
    match s.activeList.getLast? with
    | none => (s, ret, .wild)
    | some desc => ({ s with residue := residueOf s desc }, ret, .stored (residueOf s desc))

/-! ## Probe -/

/-- The zeroed channel that `xilinx_dma_chan_probe` allocates, with its properties set. -/
def kzallocChan (hasSg : Bool) (ctrlOffset : Nat) : XilinxDmaChan cfg where
  ctrlOffset := ctrlOffset
  ctrlReg := 0
  pendingList := []
  doneList := []
  activeList := []
  freeSegList := []
  common := ⟨0, 0⟩
  segV := none
  segP := 0
  hasSg := hasSg
  cyclic := false
  err := false
  idle := false
  tasklet := false
  residue := 0
  descPendingcount := 0
  mem := fun _ => ⟨zeroDescHw, 0⟩
  pools := 0
  kzallocs := 0
  log := []
  bug := false

/-- The channel as a successful `xilinx_dma_chan_probe` leaves it: reset, with empty lists, and
idle; `dmacr` is the control register that the reset read. -/
def probedChan (hasSg : Bool) (ctrlOffset : Nat) (dmacr : BitVec 32) : XilinxDmaChan cfg :=
  { (xilinxDmaChanReset ⟨dmacr, true⟩ (kzallocChan hasSg ctrlOffset)).1 with idle := true }

end PetalinuxDriver
