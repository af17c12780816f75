import PetalinuxDriver.Model.VxdmaCalls
import PetalinuxDriver.Analysis.BuilderEffects

/-!
# What one action does

The inversion lemmas of the two machines. `Section` lists everything that one section of a call
can do, `SectionStep` and `CallStep` everything that an action of `sectionStep` and of `callStep`
can do, each with the guards it passed. Every invariant of a run is proved by cases on them; only
the comparison of the two machines unfolds the step functions again.
-/

set_option autoImplicit false

namespace PetalinuxDriver

variable {cfg : PhysAddrConfig}

namespace VxdmaSys

/-! ## What both machines do -/

/-- When the tasklet runs and what it does. -/
theorem doTasklet_cases {s s' : VxdmaSys cfg} (h : s.doTasklet = some s') :
    s.cleanup = .idle ∧ s.chan.tasklet = true ∧
      s' = { s with
        chan := (xilinxDmaChanDescCleanup { s.chan with tasklet := false }).1
        cleanup := (xilinxDmaChanDescCleanup { s.chan with tasklet := false }).2 } := by
  unfold doTasklet at h
  cases hc : s.cleanup with
  | idle =>
    cases ht : s.chan.tasklet with
    | false => simp [hc, ht] at h
    | true =>
      simp only [hc, ht, if_true, Option.some.injEq] at h
      exact ⟨rfl, rfl, h.symm⟩
  | callback d => simp [hc] at h
  | cyclicCallback => simp [hc] at h

/-- When a callback returns and what the cleanup does then. -/
theorem doCallbackReturn_cases {s s' : VxdmaSys cfg} (h : s.doCallbackReturn = some s') :
    s.cleanup ≠ .idle ∧
      s' = { s with
        chan := (cleanupResume s.cleanup s.chan).1
        cleanup := (cleanupResume s.cleanup s.chan).2 } := by
  unfold doCallbackReturn at h
  cases hc : s.cleanup with
  | idle => simp [hc] at h
  | callback d =>
    simp only [hc, Option.some.injEq] at h
    exact ⟨by simp, h.symm⟩
  | cyclicCallback =>
    simp only [hc, Option.some.injEq] at h
    exact ⟨by simp, h.symm⟩

/-- The engine writes back into segments that are active, and nothing else of them than status and
application words. -/
theorem doDevice_cases {s s' : VxdmaSys cfg} {p : SegPtr} {status : BitVec 32} {app : AppWords}
    (h : s.doDevice p status app = some s') :
    p ∈ segsOf s.chan.activeList ∧
      s' = { s with
        chan := s.chan.setHw p { (s.chan.mem p).hw with status := status, app := app } } := by
  unfold doDevice at h
  split at h
  · rename_i hp
    simp only [List.any_eq_true, List.contains_eq_mem, decide_eq_true_eq] at hp
    exact ⟨mem_segsOf.mpr hp, (Option.some.inj h).symm⟩
  · cases h

/-- When resources are allocated and what that does. -/
theorem doAlloc_cases {s s' : VxdmaSys cfg} {zalloc : Option (DmaAddr cfg)}
    (h : s.doAlloc zalloc = some s') :
    s.chan.segV = none ∧
      s' = { s with chan := (xilinxDmaAllocChanResources zalloc s.chan).1 } := by
  unfold doAlloc at h
  cases hv : s.chan.segV with
  | some p => simp [hv] at h
  | none =>
    simp only [hv, Option.some.injEq] at h
    exact ⟨rfl, h.symm⟩

/-! ## One section of a call -/

/-- What the next section of a call does: the channel after it, and how it ends. -/
inductive Section (env : CallEnv) (s : XilinxDmaChan cfg) :
    Call cfg → XilinxDmaChan cfg → After cfg → Prop
  | buildDone (b : TxBuild) (d : XilinxDmaTxDescriptor cfg)
      (mem : SegPtr → XilinxDmaTxSegment cfg) (hne : b.segments ≠ []) (hbuilt : BuiltFrom b s d)
      (hmem : WordsChanged b.segments s.mem mem) :
      Section env s (.build [] b)
        { s with mem := mem, ctrlReg := builtCtrl b s, log := s.log ++ builtEvents b s }
        (.prepared d)
  | buildWild (b : TxBuild) (hnil : b.segments = []) : Section env s (.build [] b) s .wild
  | buildRound (c : Chunk cfg) (cs : List (Chunk cfg)) (b : TxBuild) (p : SegPtr)
      (ps : List SegPtr) (hfree : s.freeSegList = p :: ps) :
      Section env s (.build (c :: cs) b)
        { s with
          freeSegList := ps
          mem := Function.update s.mem p
            { s.mem p with hw := fillHwDesc b.app c (s.mem p).hw } }
        (.goesOn (.build cs { b with segments := b.segments ++ [p] }))
  | buildDry (c : Chunk cfg) (cs : List (Chunk cfg)) (b : TxBuild) (hfree : s.freeSegList = []) :
      Section env s (.build (c :: cs) b) s (.goesOn (.buildError b))
  | buildError (b : TxBuild) :
      Section env s (.buildError b) (xilinxDmaFreeTxDescriptor s b.segments) .returns
  | submitCyclic (d : XilinxDmaTxDescriptor cfg) (hcyc : s.cyclic = true) :
      Section env s (.submit d) s (.goesOn (.submitRefused d))
  | submitOpen (d : XilinxDmaTxDescriptor cfg) (hcyc : s.cyclic = false) :
      Section env s (.submit d) s (.goesOn (.submitErr d))
  | submitRefused (d : XilinxDmaTxDescriptor cfg) :
      Section env s (.submitRefused d) (xilinxDmaFreeTxDescriptor s d.segments)
        (.submitted d (.error .ebusy))
  | submitBroken (d : XilinxDmaTxDescriptor cfg) (herr : s.err = true) :
      Section env s (.submitErr d) s (.goesOn (.submitReset d))
  | submitSound (d : XilinxDmaTxDescriptor cfg) (herr : s.err = false) :
      Section env s (.submitErr d) s (.goesOn (.submitLock d))
  | resetOk (d : XilinxDmaTxDescriptor cfg) (w : List Event) (hok : env.reset.ok = true)
      (hw : ∀ e ∈ w, e.isControlWrite s.ctrlOffset = true) :
      Section env s (.submitReset d)
        { s with ctrlReg := env.reset.dmacr, err := false, log := s.log ++ w }
        (.goesOn (.submitLock d))
  | resetFailed (d : XilinxDmaTxDescriptor cfg) (w : List Event) (hok : env.reset.ok = false)
      (hw : ∀ e ∈ w, e.isControlWrite s.ctrlOffset = true) :
      Section env s (.submitReset d) { s with ctrlReg := env.reset.dmacr, log := s.log ++ w }
        (.submitted d (.error .ebusy))
  | queued (d : XilinxDmaTxDescriptor cfg) (hroom : s.descPendingcount < xilinxDmaCoalesceMax) :
      Section env s (.submitLock d)
        { s with
          common := (dmaCookieAssign s.common).1
          mem := linkTail s.pendingList d.phys s.mem
          pendingList := s.pendingList ++ [{ d with cookie := nextCookie s }]
          descPendingcount := s.descPendingcount + 1
          cyclic := s.cyclic || d.cyclic
          log := s.log ++ [.cookieAssign d.id (nextCookie s)] }
        (.submitted d (.cookie (nextCookie s)))
  | queuedBug (d : XilinxDmaTxDescriptor cfg) (hfull : xilinxDmaCoalesceMax ≤ s.descPendingcount) :
      Section env s (.submitLock d)
        { s with
          common := (dmaCookieAssign s.common).1
          mem := linkTail s.pendingList d.phys s.mem
          pendingList := s.pendingList ++ [{ d with cookie := nextCookie s }]
          descPendingcount := xilinxDmaCoalesceMax
          log := s.log ++ [.cookieAssign d.id (nextCookie s), .bug]
          bug := true }
        (.submitted d .bug)
  | issue : Section env s .issue (xilinxDmaStartTransfer env.startOk s) .returns
  | irqNone (hnone : hasBits env.status xilinxDmaXrIrqAllMask = false) :
      Section env s .irq s .returns
  | irqIoc (hsome : hasBits env.status xilinxDmaXrIrqAllMask = true)
      (hioc : hasBits env.status xilinxDmaXrIrqIocMask = true) :
      Section env s .irq (irqAck env.status s) (.goesOn .irqLock)
  | irqOther (hsome : hasBits env.status xilinxDmaXrIrqAllMask = true)
      (hioc : hasBits env.status xilinxDmaXrIrqIocMask = false) :
      Section env s .irq (irqAck env.status s) (.goesOn .irqSchedule)
  | irqLock :
      Section env s .irqLock (xilinxDmaStartTransfer env.startOk (irqComplete s))
        (.goesOn .irqSchedule)
  | irqSchedule : Section env s .irqSchedule (taskletSchedule s) .returns
  | terminate : Section env s .terminate (xilinxDmaHalt env.haltOk s) (.goesOn .terminateFree)
  | terminateFree :
      Section env s .terminateFree (xilinxDmaFreeDescriptors s) (.goesOn .terminateCheck)
  | terminateCyclic (hcyc : s.cyclic = true) :
      Section env s .terminateCheck s (.goesOn .terminateClear)
  | terminateDone (hcyc : s.cyclic = false) : Section env s .terminateCheck s .returns
  | terminateClear : Section env s .terminateClear (clearCyclic s) .returns
  | freeChan : Section env s .freeChan (xilinxDmaFreeDescriptors s) (.goesOn .freeChanInit)
  | freeChanInit : Section env s .freeChanInit (initFreeSegList s) (.goesOn .freeChanCoherent)
  | freeChanCoherent : Section env s .freeChanCoherent (dmaFreeCoherent s) .returns

/-- **Inversion of a section.** -/
theorem run_inv (env : CallEnv) {s : XilinxDmaChan cfg} (hbug : s.bug = false) (c : Call cfg) :
    Section env s c (c.run env s).1 (c.run env s).2 := by
  cases c with
  | build chunks b =>
    cases chunks with
    | nil =>
      rcases finishBuild_cases b s with ⟨hnil, h⟩ | ⟨d, mem, hne, hbuilt, hmem, h⟩
      · simp only [Call.run, h]
        exact .buildWild b hnil
      · simp only [Call.run, h]
        exact .buildDone b d mem hne hbuilt hmem
    | cons c cs =>
      cases hfree : s.freeSegList with
      | nil =>
        simp only [Call.run, buildRound_nil c b hfree]
        exact .buildDry c cs b hfree
      | cons p ps =>
        simp only [Call.run, buildRound_cons c b hfree]
        exact .buildRound c cs b p ps hfree
  | buildError b => exact .buildError b
  | submit d =>
    cases h : s.cyclic with
    | true =>
      simp only [Call.run, h, if_true]
      exact .submitCyclic d h
    | false =>
      simp only [Call.run, h, Bool.false_eq_true, if_false]
      exact .submitOpen d h
  | submitRefused d => exact .submitRefused d
  | submitErr d =>
    cases h : s.err with
    | true =>
      simp only [Call.run, h, if_true]
      exact .submitBroken d h
    | false =>
      simp only [Call.run, h, Bool.false_eq_true, if_false]
      exact .submitSound d h
  | submitReset d =>
    cases h : env.reset.ok with
    | true =>
      simp only [Call.run, chanReset_ok env.reset h]
      exact .resetOk d _ h (by simp)
    | false =>
      simp only [Call.run, chanReset_failed env.reset h]
      exact .resetFailed d _ h (by simp)
  | submitLock d =>
    by_cases h : s.descPendingcount < xilinxDmaCoalesceMax
    · simp only [Call.run, submitLocked_queued d hbug h]
      exact .queued d h
    · have hfull : xilinxDmaCoalesceMax ≤ s.descPendingcount := by omega
      simp only [Call.run, submitLocked_bug d hfull]
      exact .queuedBug d hfull
  | issue => exact .issue
  | irq =>
    cases hsome : hasBits env.status xilinxDmaXrIrqAllMask with
    | false =>
      simp only [Call.run, hsome]
      exact .irqNone hsome
    | true =>
      cases hioc : hasBits env.status xilinxDmaXrIrqIocMask with
      | false =>
        simp only [Call.run, hsome, hioc]
        exact .irqOther hsome hioc
      | true =>
        simp only [Call.run, hsome, hioc]
        exact .irqIoc hsome hioc
  | irqLock => exact .irqLock
  | irqSchedule => exact .irqSchedule
  | terminate => exact .terminate
  | terminateFree => exact .terminateFree
  | terminateCheck =>
    cases h : s.cyclic with
    | true =>
      simp only [Call.run, h, if_true]
      exact .terminateCyclic h
    | false =>
      simp only [Call.run, h, Bool.false_eq_true, if_false]
      exact .terminateDone h
  | terminateClear => exact .terminateClear
  | freeChan => exact .freeChan
  | freeChanInit => exact .freeChanInit
  | freeChanCoherent => exact .freeChanCoherent

/-! ## The machine of sections -/

end VxdmaSys

/-- The call as it goes on after a section. -/
def After.calls : After cfg → List (Call cfg)
  | .goesOn c => [c]
  | _ => []

/-- The descriptor that a section gives to the client. -/
def After.kept : After cfg → List (XilinxDmaTxDescriptor cfg)
  | .prepared d => [d]
  | _ => []

/-- Only a call that goes on has a next section. -/
theorem After.mem_calls {after : After cfg} {c : Call cfg} :
    c ∈ after.calls ↔ after = .goesOn c := by
  cases after <;> simp [After.calls, eq_comm]

/-- Only a prep that returns leaves a descriptor with the client. -/
theorem After.mem_kept {after : After cfg} {d : XilinxDmaTxDescriptor cfg} :
    d ∈ after.kept ↔ after = .prepared d := by
  cases after <;> simp [After.kept, eq_comm]

namespace VxdmaSys

/-- The builder that an action enters. -/
def Act.entry (s : XilinxDmaChan cfg) : Act cfg → Option (PrepEntry cfg)
  | .prepSlaveSg args => some (prepSlaveSgEntry args s)
  | .prepDmaCyclic args => some (prepDmaCyclicEntry args s)
  | _ => none

/-- A prep starts with the descriptor that it has just allocated. -/
theorem Act.entry_fresh {s : XilinxDmaChan cfg} {a : Act cfg} {e : PrepEntry cfg}
    (h : a.entry s = some e) : e.Fresh s := by
  cases a <;> cases h
  · exact prepSlaveSgEntry_fresh _ _
  · exact prepDmaCyclicEntry_fresh _ _

/-- What an action of `sectionStep` does. -/
inductive SectionStep (s : VxdmaSys cfg) : Act cfg → VxdmaSys cfg → Prop
  /-- A builder returned at once. -/
  | prepNull (a : Act cfg) (h : a.entry s.chan = some .null) : SectionStep s a s
  | prepBuild (a : Act cfg) (chunks : List (Chunk cfg)) (b : TxBuild)
      (h : a.entry s.chan = some (.build chunks b)) :
      SectionStep s a ({ s with chan := kzallocDesc s.chan }.enter (.build chunks b))
  | txSubmit (i : Nat) (callback : Option Nat) (d : XilinxDmaTxDescriptor cfg)
      (hd : s.prepared[i]? = some d) :
      SectionStep s (.txSubmit i callback)
        ({ s with prepared := s.prepared.eraseIdx i }.enter
          (.submit { d with callback := callback }))
  | issuePending : SectionStep s .issuePending (s.enter .issue)
  | interrupt : SectionStep s .interrupt (s.enter .irq)
  | terminateAll : SectionStep s .terminateAll (s.enter .terminate)
  | freeChanResources (hpool : s.chan.segV.isSome) (hcalls : ∀ c ∈ s.calls, c.releases = false) :
      SectionStep s .freeChanResources (s.enter .freeChan)
  | allocChanResources (zalloc : Option (DmaAddr cfg)) (hpool : s.chan.segV = none) :
      SectionStep s (.allocChanResources zalloc)
        { s with chan := (xilinxDmaAllocChanResources zalloc s.chan).1 }
  | run (i : Nat) (env : CallEnv) (c : Call cfg) (s' : VxdmaSys cfg)
      (hc : s.calls[i]? = some c)
      (hleave : ({ s with calls := s.calls.eraseIdx i } : VxdmaSys cfg).leave
        (c.run env s.chan).1 (c.run env s.chan).2 = some s') :
      SectionStep s (.run i env) s'
  | tasklet (hidle : s.cleanup = .idle) (hsched : s.chan.tasklet = true) :
      SectionStep s .tasklet
        { s with
          chan := (xilinxDmaChanDescCleanup { s.chan with tasklet := false }).1
          cleanup := (xilinxDmaChanDescCleanup { s.chan with tasklet := false }).2 }
  | callbackReturn (hbusy : s.cleanup ≠ .idle) :
      SectionStep s .callbackReturn
        { s with
          chan := (cleanupResume s.cleanup s.chan).1
          cleanup := (cleanupResume s.cleanup s.chan).2 }
  | device (p : SegPtr) (status : BitVec 32) (app : AppWords)
      (hp : p ∈ segsOf s.chan.activeList) :
      SectionStep s (.device p status app)
        { s with
          chan := s.chan.setHw p { (s.chan.mem p).hw with status := status, app := app } }

/-- A prep that is refused changes nothing, and another one enters its first round. -/
theorem enterBuild_cases {s s' : VxdmaSys cfg} {e : PrepEntry cfg}
    (h : s.enterBuild e = some s') :
    (e = .null ∧ s' = s) ∨
      ∃ chunks b, e = .build chunks b ∧
        s' = { s with chan := kzallocDesc s.chan }.enter (.build chunks b) := by
  cases e with
  | null => exact Or.inl ⟨rfl, (Option.some.inj h).symm⟩
  | wild => cases h
  | build chunks b => exact Or.inr ⟨chunks, b, rfl, (Option.some.inj h).symm⟩

/-- **Inversion of `sectionStep`.** -/
theorem sectionStep_inv {s s' : VxdmaSys cfg} {a : Act cfg} (h : s.sectionStep a = some s') :
    s.chan.bug = false ∧ SectionStep s a s' := by
  unfold sectionStep at h
  cases hbug : s.chan.bug with
  | true => simp [hbug] at h
  | false =>
    simp only [hbug, Bool.false_eq_true, if_false] at h
    refine ⟨rfl, ?_⟩
    cases a with
    | prepSlaveSg args =>
      rcases enterBuild_cases h with ⟨he, rfl⟩ | ⟨chunks, b, he, rfl⟩
      · exact .prepNull _ (congrArg some he)
      · exact .prepBuild _ _ _ (congrArg some he)
    | prepDmaCyclic args =>
      rcases enterBuild_cases h with ⟨he, rfl⟩ | ⟨chunks, b, he, rfl⟩
      · exact .prepNull _ (congrArg some he)
      · exact .prepBuild _ _ _ (congrArg some he)
    | txSubmit i callback =>
      cases hd : s.prepared[i]? with
      | none => simp [hd] at h
      | some d =>
        simp only [hd, Option.some.injEq] at h
        subst h
        exact .txSubmit i callback d hd
    | issuePending =>
      cases h
      exact .issuePending
    | interrupt =>
      cases h
      exact .interrupt
    | terminateAll =>
      cases h
      exact .terminateAll
    | freeChanResources =>
      simp only at h
      split at h
      · rename_i hguard
        simp only [Bool.and_eq_true, List.all_eq_true, Bool.not_eq_true'] at hguard
        cases h
        exact .freeChanResources hguard.1 hguard.2
      · cases h
    | allocChanResources zalloc =>
      obtain ⟨hpool, rfl⟩ := doAlloc_cases h
      exact .allocChanResources zalloc hpool
    | run i env =>
      cases hc : s.calls[i]? with
      | none => simp [hc] at h
      | some c =>
        simp only [hc] at h
        exact .run i env c s' hc h
    | tasklet =>
      obtain ⟨hidle, hsched, rfl⟩ := doTasklet_cases h
      exact .tasklet hidle hsched
    | callbackReturn =>
      obtain ⟨hbusy, rfl⟩ := doCallbackReturn_cases h
      exact .callbackReturn hbusy
    | device p status app =>
      obtain ⟨hp, rfl⟩ := doDevice_cases h
      exact .device p status app hp

/-- What a call leaves behind in `calls` and in `prepared`: itself, or the descriptor it built. -/
theorem leave_eq {s s' : VxdmaSys cfg} {chan : XilinxDmaChan cfg} {after : After cfg}
    (h : s.leave chan after = some s') :
    s' = { s with
      chan := chan
      prepared := s.prepared ++ after.kept
      calls := after.calls ++ s.calls } := by
  cases after <;> cases h <;> simp [After.kept, After.calls]

/-- The end of a section leaves the channel to what the section made of it. -/
theorem leave_chan {s s' : VxdmaSys cfg} {chan : XilinxDmaChan cfg} {after : After cfg}
    (h : s.leave chan after = some s') : s'.chan = chan := by
  cases after <;> cases h <;> rfl

/-! ## One action of the machine of sections -/

/-- **One section of a call**: the call is in flight, the section is one of the cases of `Section`,
and the system is what it leaves. -/
theorem sectionStep_run {s s' : VxdmaSys cfg} {i : Nat} {env : CallEnv}
    (h : s.sectionStep (.run i env) = some s') :
    ∃ c, s.calls[i]? = some c ∧
      Section env s.chan c (c.run env s.chan).1 (c.run env s.chan).2 ∧
      s' = { s with
        chan := (c.run env s.chan).1
        prepared := s.prepared ++ (c.run env s.chan).2.kept
        calls := (c.run env s.chan).2.calls ++ s.calls.eraseIdx i } := by
  obtain ⟨hbug, hstep⟩ := sectionStep_inv h
  cases hstep with
  | run _ _ c _ hc hleave => exact ⟨c, hc, run_inv env hbug c, leave_eq hleave⟩
  | prepNull _ he => cases he
  | prepBuild _ _ _ he => cases he

/-- A release enters its first section. -/
theorem sectionStep_freeChanResources {s s' : VxdmaSys cfg}
    (h : s.sectionStep .freeChanResources = some s') : s' = s.enter .freeChan := by
  cases (sectionStep_inv h).2 with
  | freeChanResources => rfl
  | prepNull _ he => cases he
  | prepBuild _ _ _ he => cases he

/-- An allocation needs a channel without a pool, and is one section. -/
theorem sectionStep_allocChanResources {s s' : VxdmaSys cfg} {zalloc : Option (DmaAddr cfg)}
    (h : s.sectionStep (.allocChanResources zalloc) = some s') :
    s.chan.segV = none ∧
      s' = { s with chan := (xilinxDmaAllocChanResources zalloc s.chan).1 } := by
  cases (sectionStep_inv h).2 with
  | allocChanResources _ hpool => exact ⟨hpool, rfl⟩
  | prepNull _ he => cases he
  | prepBuild _ _ _ he => cases he

/-- When a callback returns, the cleanup goes on. -/
theorem sectionStep_callbackReturn {s s' : VxdmaSys cfg}
    (h : s.sectionStep .callbackReturn = some s') :
    s' = { s with
      chan := (cleanupResume s.cleanup s.chan).1
      cleanup := (cleanupResume s.cleanup s.chan).2 } := by
  cases (sectionStep_inv h).2 with
  | callbackReturn => rfl
  | prepNull _ he => cases he
  | prepBuild _ _ _ he => cases he

/-- The call that an action makes. -/
inductive Act.Makes : Act cfg → Call cfg → Prop
  | prepSlaveSg (args : PrepSlaveSgArgs cfg) (chunks : List (Chunk cfg)) (b : TxBuild) :
      Makes (.prepSlaveSg args) (.build chunks b)
  | prepDmaCyclic (args : PrepDmaCyclicArgs cfg) (chunks : List (Chunk cfg)) (b : TxBuild) :
      Makes (.prepDmaCyclic args) (.build chunks b)
  | txSubmit (i : Nat) (callback : Option Nat) (d : XilinxDmaTxDescriptor cfg) :
      Makes (.txSubmit i callback) (.submit d)
  | issuePending : Makes .issuePending .issue
  | interrupt : Makes .interrupt .irq
  | terminateAll : Makes .terminateAll .terminate
  | freeChanResources : Makes .freeChanResources .freeChan

/-- Where a call in flight comes from: it was in flight, the action made it, or it is what a call
goes on as. -/
theorem sectionStep_mem_calls {s s' : VxdmaSys cfg} {a : Act cfg} {e : Call cfg}
    (h : s.sectionStep a = some s') (he : e ∈ s'.calls) :
    e ∈ s.calls ∨ a.Makes e ∨
      ∃ i env c, a = .run i env ∧ s.calls[i]? = some c ∧
        Section env s.chan c s'.chan (.goesOn e) := by
  have henter : ∀ c : Call cfg, a.Makes c → e ∈ c :: s.calls → e ∈ s.calls ∨ a.Makes e := by
    intro c hmakes hmem
    rcases List.mem_cons.mp hmem with rfl | hold
    · exact Or.inr hmakes
    · exact Or.inl hold
  obtain ⟨hbug, hstep⟩ := sectionStep_inv h
  cases hstep with
  | prepBuild _ chunks b hentry =>
    cases a with
    | prepSlaveSg args => exact (henter _ (.prepSlaveSg args chunks b) he).imp_right Or.inl
    | prepDmaCyclic args => exact (henter _ (.prepDmaCyclic args chunks b) he).imp_right Or.inl
    | _ => cases hentry
  | txSubmit i callback d => exact (henter _ (.txSubmit i callback _) he).imp_right Or.inl
  | issuePending => exact (henter _ .issuePending he).imp_right Or.inl
  | interrupt => exact (henter _ .interrupt he).imp_right Or.inl
  | terminateAll => exact (henter _ .terminateAll he).imp_right Or.inl
  | freeChanResources => exact (henter _ .freeChanResources he).imp_right Or.inl
  | run i env c s' hc hleave =>
    rw [leave_eq hleave] at he
    rcases List.mem_append.mp he with hnew | hold
    · have hsection := run_inv env hbug c
      rw [After.mem_calls.mp hnew] at hsection
      rw [leave_chan hleave]
      exact Or.inr (Or.inr ⟨i, env, c, rfl, hc, hsection⟩)
    · exact Or.inl (List.mem_of_mem_eraseIdx hold)
  | _ => exact Or.inl he

/-- The call that went on last runs its next `n` sections. -/
def sections (n : Nat) (env : CallEnv) : List (Act cfg) := List.replicate n (.run 0 env)

/-! ## The machine of whole calls -/

/-- The builder that an action runs. -/
def Op.entry (s : XilinxDmaChan cfg) : Op cfg → Option (PrepEntry cfg)
  | .prepSlaveSg args => some (prepSlaveSgEntry args s)
  | .prepDmaCyclic args => some (prepDmaCyclicEntry args s)
  | _ => none

/-- A whole prep starts with the descriptor that it has just allocated, too. -/
theorem Op.entry_fresh {s : XilinxDmaChan cfg} {op : Op cfg} {e : PrepEntry cfg}
    (h : op.entry s = some e) : e.Fresh s := by
  cases op <;> cases h
  · exact prepSlaveSgEntry_fresh _ _
  · exact prepDmaCyclicEntry_fresh _ _

/-- The channel in which the locked section of a submit finds it, after the reset of a channel
with an error. -/
def resetFor (s : XilinxDmaChan cfg) (ctrlReg : BitVec 32) (writes : List Event) :
    XilinxDmaChan cfg :=
  { s with ctrlReg := ctrlReg, err := false, log := s.log ++ writes }

/-- What an action of `callStep` does. -/
inductive CallStep (s : VxdmaSys cfg) : Op cfg → VxdmaSys cfg → Prop
  | prepNull (op : Op cfg) (k : Nat) (mem : SegPtr → XilinxDmaTxSegment cfg)
      (hentry : (op.entry s.chan).isSome) (hk : s.chan.kzallocs ≤ k)
      (hmem : WordsChanged s.chan.freeSegList s.chan.mem mem) :
      CallStep s op { s with chan := { s.chan with kzallocs := k, mem := mem } }
  | prepDesc (op : Op cfg) (chunks : List (Chunk cfg)) (b : TxBuild)
      (d : XilinxDmaTxDescriptor cfg) (mem : SegPtr → XilinxDmaTxSegment cfg)
      (hentry : op.entry s.chan = some (.build chunks b)) (hbuilt : Built chunks b s.chan d mem) :
      CallStep s op
        { s with
          chan := { s.chan with
            kzallocs := s.chan.kzallocs + 1
            freeSegList := s.chan.freeSegList.drop chunks.length
            mem := mem
            ctrlReg := builtCtrl b s.chan
            log := s.chan.log ++ builtEvents b s.chan }
          prepared := s.prepared ++ [d] }
  /-- A submit was refused by the cyclic channel. -/
  | submitRefused (i : Nat) (callback : Option Nat) (env : ResetEnv)
      (d : XilinxDmaTxDescriptor cfg) (hd : s.prepared[i]? = some d)
      (hcyc : s.chan.cyclic = true) :
      CallStep s (.txSubmit i callback env)
        { s with
          chan := { s.chan with
            mem := cleanSegs d.segments s.chan.mem
            freeSegList := s.chan.freeSegList ++ d.segments }
          prepared := s.prepared.eraseIdx i }
  /-- A submit gave up because its reset failed. -/
  | submitFailed (i : Nat) (callback : Option Nat) (env : ResetEnv)
      (d : XilinxDmaTxDescriptor cfg) (w : List Event) (hd : s.prepared[i]? = some d)
      (hcyc : s.chan.cyclic = false) (herr : s.chan.err = true) (hok : env.ok = false)
      (hw : ∀ e ∈ w, e.isControlWrite s.chan.ctrlOffset = true) :
      CallStep s (.txSubmit i callback env)
        { s with
          chan := { s.chan with ctrlReg := env.dmacr, log := s.chan.log ++ w }
          prepared := s.prepared.eraseIdx i }
  /-- A submit got to its locked section. -/
  | submitQueue (i : Nat) (callback : Option Nat) (env : ResetEnv)
      (d : XilinxDmaTxDescriptor cfg) (c : BitVec 32) (w : List Event)
      (hd : s.prepared[i]? = some d) (hcyc : s.chan.cyclic = false)
      (hok : s.chan.err = true → env.ok = true) (hw : ∀ e ∈ w, e.isControlWrite s.chan.ctrlOffset = true) :
      CallStep s (.txSubmit i callback env)
        { s with
          chan := (submitLocked { d with callback := callback } (resetFor s.chan c w)).1
          prepared := s.prepared.eraseIdx i }
  | issuePending (startOk : Bool) :
      CallStep s (.issuePending startOk)
        { s with chan := xilinxDmaStartTransfer startOk s.chan }
  /-- An interrupt that is not from this channel. -/
  | irqNone (status : BitVec 32) (startOk : Bool)
      (hnone : hasBits status xilinxDmaXrIrqAllMask = false) :
      CallStep s (.interrupt status startOk) s
  /-- An interrupt without completion. -/
  | irqOther (status : BitVec 32) (startOk : Bool)
      (hsome : hasBits status xilinxDmaXrIrqAllMask = true)
      (hioc : hasBits status xilinxDmaXrIrqIocMask = false) :
      CallStep s (.interrupt status startOk)
        { s with chan := taskletSchedule (irqAck status s.chan) }
  | irqIoc (status : BitVec 32) (startOk : Bool)
      (hsome : hasBits status xilinxDmaXrIrqAllMask = true)
      (hioc : hasBits status xilinxDmaXrIrqIocMask = true) :
      CallStep s (.interrupt status startOk)
        { s with
          chan := taskletSchedule
            (xilinxDmaStartTransfer startOk (irqComplete (irqAck status s.chan))) }
  | terminateAll (haltOk : Bool) :
      CallStep s (.terminateAll haltOk)
        { s with chan := xilinxDmaTerminateAll haltOk s.chan }
  | freeChanResources (hpool : s.chan.segV.isSome) :
      CallStep s .freeChanResources { s with chan := xilinxDmaFreeChanResources s.chan }
  | allocChanResources (zalloc : Option (DmaAddr cfg)) (hpool : s.chan.segV = none) :
      CallStep s (.allocChanResources zalloc)
        { s with chan := (xilinxDmaAllocChanResources zalloc s.chan).1 }
  | tasklet (hidle : s.cleanup = .idle) (hsched : s.chan.tasklet = true) :
      CallStep s .tasklet
        { s with
          chan := (xilinxDmaChanDescCleanup { s.chan with tasklet := false }).1
          cleanup := (xilinxDmaChanDescCleanup { s.chan with tasklet := false }).2 }
  | callbackReturn (hbusy : s.cleanup ≠ .idle) :
      CallStep s .callbackReturn
        { s with
          chan := (cleanupResume s.cleanup s.chan).1
          cleanup := (cleanupResume s.cleanup s.chan).2 }
  | device (p : SegPtr) (status : BitVec 32) (app : AppWords)
      (hp : p ∈ segsOf s.chan.activeList) :
      CallStep s (.device p status app)
        { s with
          chan := s.chan.setHw p { (s.chan.mem p).hw with status := status, app := app } }

/-- A whole prep is one of the two preps of `CallStep`. -/
theorem keepPrepared_inv {s s' : VxdmaSys cfg} {op : Op cfg} {entry : PrepEntry cfg}
    (hentry : op.entry s.chan = some entry)
    (h : s.keepPrepared (runPrep entry s.chan) = some s') : CallStep s op s' := by
  rcases runPrep_cases (Op.entry_fresh hentry) with
    ⟨k, mem, hk, hmem, hrun⟩ | ⟨chan, hrun⟩ | ⟨chunks, b, d, mem, he, hbuilt, hrun⟩
  · rw [hrun] at h
    cases h
    exact .prepNull op k mem (by rw [hentry]; rfl) hk hmem
  · rw [hrun] at h
    cases h
  · rw [hrun] at h
    cases h
    exact .prepDesc op chunks b d mem (by rw [hentry, he]) hbuilt

/-- **Inversion of `callStep`.** -/
theorem callStep_inv {s s' : VxdmaSys cfg} {op : Op cfg} (h : s.callStep op = some s') :
    s.chan.bug = false ∧ CallStep s op s' := by
  unfold callStep at h
  cases hbug : s.chan.bug with
  | true => simp [hbug] at h
  | false =>
    simp only [hbug, Bool.false_eq_true, if_false] at h
    refine ⟨rfl, ?_⟩
    cases op with
    | prepSlaveSg args => exact keepPrepared_inv rfl h
    | prepDmaCyclic args => exact keepPrepared_inv rfl h
    | txSubmit i callback env =>
      cases hd : s.prepared[i]? with
      | none => simp [hd] at h
      | some d =>
        simp only [hd, Option.some.injEq] at h
        subst h
        rcases txSubmit_cases env { d with callback := callback } s.chan with
          ⟨hcyc, hsub⟩ | ⟨hcyc, herr, hok, w, hw, hsub⟩ | ⟨hcyc, hok, c, w, hw, hsub⟩
        · rw [hsub]
          exact .submitRefused i callback env d hd hcyc
        · rw [hsub]
          exact .submitFailed i callback env d w hd hcyc herr hok hw
        · rw [hsub]
          exact .submitQueue i callback env d c w hd hcyc hok hw
    | issuePending startOk =>
      cases h
      exact .issuePending startOk
    | interrupt status startOk =>
      cases h
      cases hsome : hasBits status xilinxDmaXrIrqAllMask with
      | false =>
        simp only [xilinxDmaIrqHandler, hsome]
        exact .irqNone status startOk hsome
      | true =>
        cases hioc : hasBits status xilinxDmaXrIrqIocMask with
        | false =>
          simp only [xilinxDmaIrqHandler, hsome, hioc]
          exact .irqOther status startOk hsome hioc
        | true =>
          simp only [xilinxDmaIrqHandler, hsome, hioc]
          exact .irqIoc status startOk hsome hioc
    | terminateAll haltOk =>
      cases h
      exact .terminateAll haltOk
    | freeChanResources =>
      simp only at h
      split at h
      · rename_i hpool
        cases h
        exact .freeChanResources hpool
      · cases h
    | allocChanResources zalloc =>
      obtain ⟨hpool, rfl⟩ := doAlloc_cases h
      exact .allocChanResources zalloc hpool
    | tasklet =>
      obtain ⟨hidle, hsched, rfl⟩ := doTasklet_cases h
      exact .tasklet hidle hsched
    | callbackReturn =>
      obtain ⟨hbusy, rfl⟩ := doCallbackReturn_cases h
      exact .callbackReturn hbusy
    | device p status app =>
      obtain ⟨hp, rfl⟩ := doDevice_cases h
      exact .device p status app hp

/-- An action that runs a builder starts nothing. -/
theorem startEntry_of_entry {s : VxdmaSys cfg} {op : Op cfg} (h : (op.entry s.chan).isSome) :
    s.startEntry op = none := by
  cases op <;> first | rfl | cases h

/-- What a whole `xilinx_dma_terminate_all` leaves. -/
theorem callStep_terminateAll {s s' : VxdmaSys cfg} {haltOk : Bool}
    (h : s.callStep (.terminateAll haltOk) = some s') :
    s' = { s with chan := xilinxDmaTerminateAll haltOk s.chan } := by
  cases (callStep_inv h).2 with
  | terminateAll => rfl
  | prepNull _ _ _ he => cases he
  | prepDesc _ _ _ _ _ he => cases he

/-- What a whole `xilinx_dma_free_chan_resources` leaves. -/
theorem callStep_freeChanResources {s s' : VxdmaSys cfg}
    (h : s.callStep .freeChanResources = some s') :
    s' = { s with chan := xilinxDmaFreeChanResources s.chan } := by
  cases (callStep_inv h).2 with
  | freeChanResources => rfl
  | prepNull _ _ _ he => cases he
  | prepDesc _ _ _ _ _ he => cases he

/-- What a whole `xilinx_dma_alloc_chan_resources` needs and leaves. -/
theorem callStep_allocChanResources {s s' : VxdmaSys cfg} {zalloc : Option (DmaAddr cfg)}
    (h : s.callStep (.allocChanResources zalloc) = some s') :
    s' = { s with chan := (xilinxDmaAllocChanResources zalloc s.chan).1 } := by
  cases (callStep_inv h).2 with
  | allocChanResources => rfl
  | prepNull _ _ _ he => cases he
  | prepDesc _ _ _ _ _ he => cases he

end VxdmaSys

end PetalinuxDriver
