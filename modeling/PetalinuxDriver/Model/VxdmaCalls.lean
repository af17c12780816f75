import PetalinuxDriver.Library.Transition
import PetalinuxDriver.Model.VxdmaProgram

/-!
# The driver under its callers

Two machines over one state. In the first, `sectionStep`, any number of calls are in flight and
each action moves one of them to its next boundary: a section under `chan->lock` is one action,
and so is each stretch of code between such sections, except that the reads and writes of
`chan->cyclic` and the read of `chan->err` are actions of their own. In the second, `callStep`,
a call runs from its entry to its return without interference.

In both, the cleanup tasklet stops where it drops the lock around a callback, and whatever the
callback does is whatever happens before the action `callbackReturn`. A tasklet runs only when it
is scheduled, and not while it is running. A channel is allocated and released in turn
(`dma_chan_get` and `dma_chan_put` see to that), and a `BUG()` stops everything.

`device` is the engine writing back status and application words of a segment that is on
`active_list`.
-/

set_option autoImplicit false

namespace PetalinuxDriver

variable {cfg : PhysAddrConfig}

/-! ## Calls in flight -/

/-- A call in flight, at the boundary that it has reached. -/
inductive Call (cfg : PhysAddrConfig) where
  /-- A builder before its next round, or before its end. -/
  | build (chunks : List (Chunk cfg)) (b : TxBuild)
  /-- A builder at its `error` label. -/
  | buildError (b : TxBuild)
  /-- `xilinx_dma_tx_submit` before it reads `chan->cyclic`. -/
  | submit (desc : XilinxDmaTxDescriptor cfg)
  /-- ... before it frees the descriptor of a refused call. -/
  | submitRefused (desc : XilinxDmaTxDescriptor cfg)
  /-- ... before it reads `chan->err`. -/
  | submitErr (desc : XilinxDmaTxDescriptor cfg)
  /-- ... before it resets the channel. -/
  | submitReset (desc : XilinxDmaTxDescriptor cfg)
  /-- ... before its locked section. -/
  | submitLock (desc : XilinxDmaTxDescriptor cfg)
  | issue
  /-- The interrupt handler at its entry. -/
  | irq
  /-- ... before its locked section. -/
  | irqLock
  /-- ... before `tasklet_schedule`. -/
  | irqSchedule
  | terminate
  /-- `xilinx_dma_terminate_all` after the halt. -/
  | terminateFree
  /-- ... before it reads `chan->cyclic`. -/
  | terminateCheck
  /-- ... before it clears the cyclic mode. -/
  | terminateClear
  | freeChan
  /-- `xilinx_dma_free_chan_resources` before its second locked section. -/
  | freeChanInit
  /-- ... before `dma_free_coherent`. -/
  | freeChanCoherent

/-- What the device answers to a section. -/
structure CallEnv where
  reset : ResetEnv
  status : BitVec 32
  startOk : Bool
  haltOk : Bool

/-- How a section ends: the call goes on, or it returns, a submit with its result and a prep with
its descriptor. -/
inductive After (cfg : PhysAddrConfig) where
  | goesOn (c : Call cfg)
  | returns
  | submitted (desc : XilinxDmaTxDescriptor cfg) (r : SubmitResult)
  | prepared (desc : XilinxDmaTxDescriptor cfg)
  | wild

/-- The next section of a call. -/
def Call.run (env : CallEnv) (s : XilinxDmaChan cfg) : Call cfg → XilinxDmaChan cfg × After cfg
  | .build [] b =>
    match finishBuild b s with
    | (s, .desc d) => (s, .prepared d)
    | (s, .null) => (s, .returns)
    | (s, .wild) => (s, .wild)
  | .build (c :: cs) b =>
    match buildRound c b s with
    | none => (s, .goesOn (.buildError b))
    | some (b, s) => (s, .goesOn (.build cs b))
  | .buildError b => (xilinxDmaFreeTxDescriptor s b.segments, .returns)
  | .submit d => (s, .goesOn (if s.cyclic then .submitRefused d else .submitErr d))
  | .submitRefused d => (xilinxDmaFreeTxDescriptor s d.segments, .submitted d (.error .ebusy))
  | .submitErr d => (s, .goesOn (if s.err then .submitReset d else .submitLock d))
  | .submitReset d =>
    match xilinxDmaChanReset env.reset s with
    | (s, some err) => (s, .submitted d (.error err))
    | (s, none) => (s, .goesOn (.submitLock d))
  | .submitLock d =>
    match submitLocked d s with
    | (s, r) => (s, .submitted d r)
  | .issue => (xilinxDmaIssuePending env.startOk s, .returns)
  | .irq =>
    if !hasBits env.status xilinxDmaXrIrqAllMask then (s, .returns)
    else (irqAck env.status s,
      .goesOn (if hasBits env.status xilinxDmaXrIrqIocMask then .irqLock else .irqSchedule))
  | .irqLock => (xilinxDmaStartTransfer env.startOk (irqComplete s), .goesOn .irqSchedule)
  | .irqSchedule => (taskletSchedule s, .returns)
  | .terminate => (xilinxDmaHalt env.haltOk s, .goesOn .terminateFree)
  | .terminateFree => (xilinxDmaFreeDescriptors s, .goesOn .terminateCheck)
  | .terminateCheck => if s.cyclic then (s, .goesOn .terminateClear) else (s, .returns)
  | .terminateClear => (clearCyclic s, .returns)
  | .freeChan => (xilinxDmaFreeDescriptors s, .goesOn .freeChanInit)
  | .freeChanInit => (initFreeSegList s, .goesOn .freeChanCoherent)
  | .freeChanCoherent => (dmaFreeCoherent s, .returns)

/-- The call releases the channel. -/
def Call.releases : Call cfg → Bool
  | .freeChan => true
  | .freeChanInit => true
  | .freeChanCoherent => true
  | _ => false

/-- The call is the interrupt handler's. -/
def Call.ofIrq : Call cfg → Bool
  | .irq => true
  | .irqLock => true
  | .irqSchedule => true
  | _ => false

/-! ## The state -/

/-- The channel with everything that goes on around it: the descriptors that a prep returned and
that were not yet passed to a submit, oldest first, the cleanup, and the calls in flight. -/
structure VxdmaSys (cfg : PhysAddrConfig) where
  chan : XilinxDmaChan cfg
  prepared : List (XilinxDmaTxDescriptor cfg)
  cleanup : CleanupPc cfg
  calls : List (Call cfg)

namespace VxdmaSys

/-- A probed channel that nobody uses. -/
def probed (hasSg : Bool) (ctrlOffset : Nat) (dmacr : BitVec 32) : VxdmaSys cfg where
  chan := probedChan hasSg ctrlOffset dmacr
  prepared := []
  cleanup := .idle
  calls := []

/-- A probed channel right after its first successful `xilinx_dma_alloc_chan_resources`. -/
def allocated (hasSg : Bool) (ctrlOffset : Nat) (dmacr : BitVec 32) (segP : DmaAddr cfg) :
    VxdmaSys cfg :=
  { probed hasSg ctrlOffset dmacr with
    chan := (xilinxDmaAllocChanResources (some segP) (probedChan hasSg ctrlOffset dmacr)).1 }

/-! ## What both machines do in one action -/

/-- `xilinx_dma_alloc_chan_resources`, for a channel without a pool. -/
def doAlloc (zalloc : Option (DmaAddr cfg)) (s : VxdmaSys cfg) : Option (VxdmaSys cfg) :=
  match s.chan.segV with
  | some _ => none
  | none => some { s with chan := (xilinxDmaAllocChanResources zalloc s.chan).1 }

/-- The scheduled tasklet starts: `xilinx_dma_do_tasklet`. -/
def doTasklet (s : VxdmaSys cfg) : Option (VxdmaSys cfg) :=
  match s.cleanup with
  | .idle =>
    if s.chan.tasklet then
      let (chan, pc) := xilinxDmaChanDescCleanup { s.chan with tasklet := false }
      some { s with chan := chan, cleanup := pc }
    else none
  | _ => none

/-- A callback returns to the cleanup. -/
def doCallbackReturn (s : VxdmaSys cfg) : Option (VxdmaSys cfg) :=
  match s.cleanup with
  | .idle => none
  | pc =>
    let (chan, pc) := cleanupResume pc s.chan
    some { s with chan := chan, cleanup := pc }

/-- The engine writes back the status and application words of an active segment. -/
def doDevice (p : SegPtr) (status : BitVec 32) (app : AppWords) (s : VxdmaSys cfg) :
    Option (VxdmaSys cfg) :=
  if s.chan.activeList.any fun d => d.segments.contains p then
    some { s with chan := s.chan.setHw p { (s.chan.mem p).hw with status := status, app := app } }
  else none

/-! ## The machine of sections -/

/-- An action: a call is made, a call in flight runs its next section, or the tasklet or the
device does something. -/
inductive Act (cfg : PhysAddrConfig) where
  | prepSlaveSg (args : PrepSlaveSgArgs cfg)
  | prepDmaCyclic (args : PrepDmaCyclicArgs cfg)
  /-- The client sets the callback of its `i`-th prepared descriptor and submits it. -/
  | txSubmit (i : Nat) (callback : Option Nat)
  | issuePending
  | interrupt
  | terminateAll
  | freeChanResources
  | allocChanResources (zalloc : Option (DmaAddr cfg))
  | run (i : Nat) (env : CallEnv)
  | tasklet
  | callbackReturn
  | device (p : SegPtr) (status : BitVec 32) (app : AppWords)

/-- A call is made. -/
def enter (s : VxdmaSys cfg) (c : Call cfg) : VxdmaSys cfg := { s with calls := c :: s.calls }

/-- A builder is entered: it returns at once, or it allocates its descriptor. -/
def enterBuild (s : VxdmaSys cfg) : PrepEntry cfg → Option (VxdmaSys cfg)
  | .null => some s
  | .build chunks b => some ({ s with chan := kzallocDesc s.chan }.enter (.build chunks b))
  | .wild => none

/-- The call that was taken out of `calls` has run a section. -/
def leave (s : VxdmaSys cfg) (chan : XilinxDmaChan cfg) : After cfg → Option (VxdmaSys cfg)
  | .goesOn c => some { s with chan := chan, calls := c :: s.calls }
  | .returns => some { s with chan := chan }
  | .submitted _ _ => some { s with chan := chan }
  | .prepared d => some { s with chan := chan, prepared := s.prepared ++ [d] }
  | .wild => none

/-- One action of the machine in which calls interleave. -/
def sectionStep (s : VxdmaSys cfg) (a : Act cfg) : Option (VxdmaSys cfg) :=
  if s.chan.bug then none
  else
    match a with
    | .prepSlaveSg args => s.enterBuild (prepSlaveSgEntry args s.chan)
    | .prepDmaCyclic args => s.enterBuild (prepDmaCyclicEntry args s.chan)
    | .txSubmit i callback =>
      match s.prepared[i]? with
      | none => none
      | some d =>
        some ({ s with prepared := s.prepared.eraseIdx i }.enter
          (.submit { d with callback := callback }))
    | .issuePending => some (s.enter .issue)
    | .interrupt => some (s.enter .irq)
    | .terminateAll => some (s.enter .terminate)
    | .freeChanResources =>
      if s.chan.segV.isSome && s.calls.all fun c => !c.releases then some (s.enter .freeChan)
      else none
    | .allocChanResources zalloc => s.doAlloc zalloc
    | .run i env =>
      match s.calls[i]? with
      | none => none
      | some c =>
        { s with calls := s.calls.eraseIdx i }.leave (c.run env s.chan).1 (c.run env s.chan).2
    | .tasklet => s.doTasklet
    | .callbackReturn => s.doCallbackReturn
    | .device p status app => s.doDevice p status app

/-! ## The machine of whole calls -/

/-- A call with what the device answers during it. -/
inductive Op (cfg : PhysAddrConfig) where
  | prepSlaveSg (args : PrepSlaveSgArgs cfg)
  | prepDmaCyclic (args : PrepDmaCyclicArgs cfg)
  /-- The client sets the callback of its `i`-th prepared descriptor and submits it. -/
  | txSubmit (i : Nat) (callback : Option Nat) (env : ResetEnv)
  | issuePending (startOk : Bool)
  | interrupt (status : BitVec 32) (startOk : Bool)
  | terminateAll (haltOk : Bool)
  | freeChanResources
  | allocChanResources (zalloc : Option (DmaAddr cfg))
  | tasklet
  | callbackReturn
  | device (p : SegPtr) (status : BitVec 32) (app : AppWords)

/-- A builder has run: a descriptor that it returned is kept by the client. -/
def keepPrepared (s : VxdmaSys cfg) : XilinxDmaChan cfg × PrepResult cfg → Option (VxdmaSys cfg)
  | (chan, .null) => some { s with chan := chan }
  | (chan, .desc d) => some { s with chan := chan, prepared := s.prepared ++ [d] }
  | (_, .wild) => none

/-- One action of the machine in which calls do not interleave. -/
def callStep (s : VxdmaSys cfg) (op : Op cfg) : Option (VxdmaSys cfg) :=
  if s.chan.bug then none
  else
    match op with
    | .prepSlaveSg args => s.keepPrepared (xilinxDmaPrepSlaveSg args s.chan)
    | .prepDmaCyclic args => s.keepPrepared (xilinxDmaPrepDmaCyclic args s.chan)
    | .txSubmit i callback env =>
      match s.prepared[i]? with
      | none => none
      | some d =>
        some { s with
          chan := (xilinxDmaTxSubmit env { d with callback := callback } s.chan).1
          prepared := s.prepared.eraseIdx i }
    | .issuePending startOk => some { s with chan := xilinxDmaIssuePending startOk s.chan }
    | .interrupt status startOk =>
      some { s with chan := xilinxDmaIrqHandler status startOk s.chan }
    | .terminateAll haltOk => some { s with chan := xilinxDmaTerminateAll haltOk s.chan }
    | .freeChanResources =>
      if s.chan.segV.isSome then some { s with chan := xilinxDmaFreeChanResources s.chan }
      else none
    | .allocChanResources zalloc => s.doAlloc zalloc
    | .tasklet => s.doTasklet
    | .callbackReturn => s.doCallbackReturn
    | .device p status app => s.doDevice p status app

/-- The descriptor that the cleanup holds around its callback. -/
def held (s : VxdmaSys cfg) : List (XilinxDmaTxDescriptor cfg) :=
  match s.cleanup with
  | .callback d => [d]
  | _ => []

/-- The channel state, and the outcome of its start poll, in which an action of whole calls
enters `xilinx_dma_start_transfer`. -/
def startEntry (s : VxdmaSys cfg) : Op cfg → Option (XilinxDmaChan cfg × Bool)
  | .issuePending startOk => some (s.chan, startOk)
  | .interrupt status startOk =>
    if hasBits status xilinxDmaXrIrqAllMask && hasBits status xilinxDmaXrIrqIocMask then
      some (irqComplete (irqAck status s.chan), startOk)
    else none
  | _ => none

end VxdmaSys

end PetalinuxDriver
