import PetalinuxDriver.Analysis.FifoCompletion

/-!
# Whole calls are runs of sections

The two machines are about the same driver: an action of `callStep` is a run of `sectionStep` in
which a call is made and then runs alone until it returns. So every state that whole calls reach,
short of a `BUG()`, is reached by sections (`reachable_sections`), and what was shown for every
interleaving holds of whole calls; the completion order is carried over here.

A `BUG()` is left out because the interrupt handler may run into one in its locked section: the
machine of sections stops right there, and `callStep` only after the handler has returned.
-/

set_option autoImplicit false

namespace PetalinuxDriver

open Library

variable {cfg : PhysAddrConfig}

/-! ## A call that runs alone -/

/-- A call that runs alone gets from one state of the channel to another and returns, having
given `kept` to the client. -/
inductive RunsAlone (env : CallEnv) :
    Call cfg → XilinxDmaChan cfg → XilinxDmaChan cfg → List (XilinxDmaTxDescriptor cfg) → Prop
  | last {c : Call cfg} {s s' : XilinxDmaChan cfg} {after : After cfg} (hbug : s.bug = false)
      (hrun : c.run env s = (s', after)) (hend : after.calls = []) (hwild : after ≠ .wild) :
      RunsAlone env c s s' after.kept
  | next {c c' : Call cfg} {s s₁ s' : XilinxDmaChan cfg}
      {kept : List (XilinxDmaTxDescriptor cfg)} (hbug : s.bug = false)
      (hrun : c.run env s = (s₁, .goesOn c')) (hrest : RunsAlone env c' s₁ s' kept) :
      RunsAlone env c s s' kept

namespace RunsAlone

variable {env : CallEnv} {s s' : XilinxDmaChan cfg}

/-- The last section of a call that gives nothing to the client. -/
theorem returns {c : Call cfg} (hbug : s.bug = false) (hrun : c.run env s = (s', .returns)) :
    RunsAlone env c s s' [] :=
  .last hbug hrun rfl (by simp)

/-- The last section of a submit. -/
theorem submitted {c : Call cfg} {d : XilinxDmaTxDescriptor cfg} {r : SubmitResult}
    (hbug : s.bug = false) (hrun : c.run env s = (s', .submitted d r)) :
    RunsAlone env c s s' [] :=
  .last hbug hrun rfl (by simp)

end RunsAlone

/-! ## The calls one by one -/

/-- The descriptor that a builder returns. -/
def PrepResult.kept : PrepResult cfg → List (XilinxDmaTxDescriptor cfg)
  | .desc d => [d]
  | _ => []

/-- A round of a builder meets no `BUG()`. -/
theorem buildRound_bug {c : Chunk cfg} {b b' : TxBuild} {s t : XilinxDmaChan cfg}
    (h : buildRound c b s = some (b', t)) : t.bug = s.bug := by
  cases hfree : s.freeSegList with
  | nil => simp [buildRound_nil c b hfree] at h
  | cons p ps =>
    rw [buildRound_cons c b hfree] at h
    cases h
    rfl

/-- A builder whose rounds run one after the other does what `runBuild` does. -/
theorem runBuild_runsAlone (env : CallEnv) {cs : List (Chunk cfg)} {b : TxBuild}
    {s s' : XilinxDmaChan cfg} {r : PrepResult cfg} (hbug : s.bug = false)
    (h : runBuild cs b s = (s', r)) (hr : r ≠ .wild) :
    RunsAlone env (.build cs b) s s' r.kept := by
  induction cs generalizing b s with
  | nil =>
    replace h : finishBuild b s = (s', r) := h
    cases r with
    | null => exact .returns hbug (by simp only [Call.run, h])
    | desc d =>
      have hrun : Call.run env s (.build [] b) = (s', .prepared d) := by simp only [Call.run, h]
      exact .last hbug hrun rfl (by simp)
    | wild => exact absurd rfl hr
  | cons c cs ih =>
    cases hround : buildRound c b s with
    | none =>
      simp only [runBuild, buildLoop, hround, Prod.mk.injEq] at h
      obtain ⟨rfl, rfl⟩ := h
      have herror : RunsAlone env (.buildError b) s (xilinxDmaFreeTxDescriptor s b.segments) [] :=
        .returns hbug rfl
      exact .next hbug (by simp only [Call.run, hround]) herror
    | some round =>
      obtain ⟨b', t⟩ := round
      simp only [runBuild, buildLoop, hround] at h
      exact .next hbug (by simp only [Call.run, hround]) (ih ((buildRound_bug hround).trans hbug) h)

/-- A reset meets no `BUG()`. -/
theorem chanReset_bug (env : ResetEnv) (s : XilinxDmaChan cfg) :
    (xilinxDmaChanReset env s).1.bug = s.bug := by
  unfold xilinxDmaChanReset
  split <;> rfl

/-- The locked section of a submit is `submitLocked`. -/
theorem submitLock_runsAlone (env : CallEnv) (d : XilinxDmaTxDescriptor cfg)
    {s : XilinxDmaChan cfg} (hbug : s.bug = false) :
    RunsAlone env (.submitLock d) s (submitLocked d s).1 [] :=
  .submitted hbug rfl

/-- A submit whose sections run one after the other does what `xilinxDmaTxSubmit` does. -/
theorem txSubmit_runsAlone (env : CallEnv) (d : XilinxDmaTxDescriptor cfg)
    {s : XilinxDmaChan cfg} (hbug : s.bug = false) :
    RunsAlone env (.submit d) s (xilinxDmaTxSubmit env.reset d s).1 [] := by
  cases hcyc : s.cyclic with
  | true =>
    have hrefused : Call.run env s (.submit d) = (s, .goesOn (.submitRefused d)) := by
      simp [Call.run, hcyc]
    simp only [xilinxDmaTxSubmit, hcyc, if_true]
    exact .next hbug hrefused (.submitted hbug rfl)
  | false =>
    have hopen : Call.run env s (.submit d) = (s, .goesOn (.submitErr d)) := by
      simp [Call.run, hcyc]
    refine .next hbug hopen ?_
    cases herr : s.err with
    | false =>
      have hsound : Call.run env s (.submitErr d) = (s, .goesOn (.submitLock d)) := by
        simp [Call.run, herr]
      simp only [xilinxDmaTxSubmit, hcyc, herr, Bool.false_eq_true, if_false]
      exact .next hbug hsound (submitLock_runsAlone env d hbug)
    | true =>
      have hbroken : Call.run env s (.submitErr d) = (s, .goesOn (.submitReset d)) := by
        simp [Call.run, herr]
      refine .next hbug hbroken ?_
      simp only [xilinxDmaTxSubmit, hcyc, herr, Bool.false_eq_true, if_false, if_true]
      cases hreset : xilinxDmaChanReset env.reset s with
      | mk t failure =>
        have ht : t.bug = false := by
          rw [← hbug, ← chanReset_bug env.reset s, hreset]
        cases failure with
        | none =>
          exact .next hbug (by simp only [Call.run, hreset]) (submitLock_runsAlone env d ht)
        | some e => exact .submitted hbug (by simp only [Call.run, hreset]; rfl)

/-- The interrupt handler, when its locked section does not run into a `BUG()`. -/
theorem irqHandler_runsAlone (env : CallEnv) {s : XilinxDmaChan cfg} (hbug : s.bug = false)
    (hend : (xilinxDmaIrqHandler env.status env.startOk s).bug = false) :
    RunsAlone env .irq s (xilinxDmaIrqHandler env.status env.startOk s) [] := by
  have hack : (irqAck env.status s).bug = false := by
    rw [irqAck_eq]
    exact hbug
  cases hsome : hasBits env.status xilinxDmaXrIrqAllMask with
  | false =>
    simp only [xilinxDmaIrqHandler, hsome]
    exact .returns hbug (by simp only [Call.run, hsome]; rfl)
  | true =>
    cases hioc : hasBits env.status xilinxDmaXrIrqIocMask with
    | false =>
      have hfirst : Call.run env s .irq = (irqAck env.status s, .goesOn .irqSchedule) := by
        simp [Call.run, hsome, hioc]
      simp only [xilinxDmaIrqHandler, hsome, hioc]
      exact .next hbug hfirst (.returns hack rfl)
    | true =>
      have hfirst : Call.run env s .irq = (irqAck env.status s, .goesOn .irqLock) := by
        simp [Call.run, hsome, hioc]
      have hirq : xilinxDmaIrqHandler env.status env.startOk s = taskletSchedule
          (xilinxDmaStartTransfer env.startOk (irqComplete (irqAck env.status s))) := by
        simp [xilinxDmaIrqHandler, hsome, hioc]
      rw [hirq] at hend ⊢
      exact .next hbug hfirst (.next hack rfl (.returns hend rfl))

/-- A terminate whose sections run one after the other does what `xilinxDmaTerminateAll` does. -/
theorem terminateAll_runsAlone (env : CallEnv) {s : XilinxDmaChan cfg} (hbug : s.bug = false) :
    RunsAlone env .terminate s (xilinxDmaTerminateAll env.haltOk s) [] := by
  have hhalt : (xilinxDmaHalt env.haltOk s).bug = false := by
    rw [halt_eq]
    exact hbug
  have hfree : (xilinxDmaFreeDescriptors (xilinxDmaHalt env.haltOk s)).bug = false := by
    rw [freeDescriptors_eq]
    exact hhalt
  refine .next hbug rfl (.next hhalt rfl ?_)
  cases hcyc : (xilinxDmaFreeDescriptors (xilinxDmaHalt env.haltOk s)).cyclic with
  | true =>
    simp only [xilinxDmaTerminateAll, hcyc, if_true]
    exact .next hfree (by simp only [Call.run, hcyc, if_true]; rfl) (.returns hfree rfl)
  | false =>
    simp only [xilinxDmaTerminateAll, hcyc, Bool.false_eq_true, if_false]
    exact .returns hfree (by simp [Call.run, hcyc])

/-- A release whose sections run one after the other does what `xilinxDmaFreeChanResources` does. -/
theorem freeChanResources_runsAlone (env : CallEnv) {s : XilinxDmaChan cfg}
    (hbug : s.bug = false) :
    RunsAlone env .freeChan s (xilinxDmaFreeChanResources s) [] := by
  have hfree : (xilinxDmaFreeDescriptors s).bug = false := by
    rw [freeDescriptors_eq]
    exact hbug
  exact .next hbug rfl (.next hfree rfl (.returns hfree rfl))

namespace VxdmaSys

/-! ## One call as a run of sections -/

variable {ok : VxdmaSys cfg → Act cfg → Prop}

/-- A call that was made and then runs alone. -/
theorem reachable_of_runsAlone {env : CallEnv} {c : Call cfg} {t : XilinxDmaChan cfg}
    {kept : List (XilinxDmaTxDescriptor cfg)} {s : VxdmaSys cfg}
    (h : RunsAlone env c s.chan t kept) (hok : ∀ u, ok u (.run 0 env)) :
    Reachable sectionStep ok (s.enter c)
      { s with chan := t, prepared := s.prepared ++ kept } := by
  generalize hchan : s.chan = chan at h
  induction h generalizing s with
  | @last c _ t after hbug hrun hend hwild =>
    subst hchan
    refine (Reachable.refl _ _ _).tail (.run 0 env) (hok _) ?_
    cases after with
    | goesOn c' => cases hend
    | wild => exact absurd rfl hwild
    | returns => simp [sectionStep, enter, leave, hbug, hrun, After.kept]
    | submitted d r => simp [sectionStep, enter, leave, hbug, hrun, After.kept]
    | prepared d => simp [sectionStep, enter, leave, hbug, hrun, After.kept]
  | @next c c' _ s₁ t kept hbug hrun hrest ih =>
    subst hchan
    have hfirst : sectionStep (s.enter c) (.run 0 env) = some ({ s with chan := s₁ }.enter c') := by
      simp [sectionStep, enter, leave, hbug, hrun]
    have hone := (Reachable.refl sectionStep ok (s.enter c)).tail _ (hok _) hfirst
    exact hone.trans (ih rfl)

/-- A call that is made, and gives the client nothing. -/
theorem reachable_call {env : CallEnv} {a : Act cfg} {c : Call cfg} {t : XilinxDmaChan cfg}
    {s s₁ : VxdmaSys cfg} (ha : ok s a) (hok : ∀ u, ok u (.run 0 env))
    (hcall : s.sectionStep a = some (s₁.enter c)) (h : RunsAlone env c s₁.chan t []) :
    Reachable sectionStep ok s { s₁ with chan := t } := by
  have hrun := reachable_of_runsAlone h hok
  rw [List.append_nil] at hrun
  exact ((Reachable.refl _ _ _).tail a ha hcall).trans hrun

/-- A whole prep is a run of its sections. -/
theorem reachable_prep {env : CallEnv} {a : Act cfg} {e : PrepEntry cfg} {s s' : VxdmaSys cfg}
    (ha : ok s a) (hok : ∀ u, ok u (.run 0 env)) (hbug : s.chan.bug = false)
    (hcall : s.sectionStep a = s.enterBuild e)
    (h : s.keepPrepared (runPrep e s.chan) = some s') : Reachable sectionStep ok s s' := by
  have hfirst : ∀ {t : VxdmaSys cfg}, s.sectionStep a = some t → Reachable sectionStep ok s t :=
    (Reachable.refl sectionStep ok s).tail a ha
  cases e with
  | null =>
    cases h
    exact hfirst hcall
  | wild => cases h
  | build chunks b =>
    cases hrun : runBuild chunks b (kzallocDesc s.chan) with
    | mk t r =>
      replace h : s.keepPrepared (t, r) = some s' := by
        rw [← hrun]
        exact h
      have hwild : r ≠ .wild := by
        rintro rfl
        cases h
      have hend : s' = { s with chan := t, prepared := s.prepared ++ r.kept } := by
        cases r <;> cases h <;> simp [PrepResult.kept]
      have halone : RunsAlone env (.build chunks b) (kzallocDesc s.chan) t r.kept :=
        runBuild_runsAlone env hbug hrun hwild
      rw [hend]
      exact (hfirst hcall).trans (reachable_of_runsAlone halone hok)

/-- The action that makes a call. -/
def Op.act : Op cfg → Act cfg
  | .prepSlaveSg args => .prepSlaveSg args
  | .prepDmaCyclic args => .prepDmaCyclic args
  | .txSubmit i callback _ => .txSubmit i callback
  | .issuePending _ => .issuePending
  | .interrupt _ _ => .interrupt
  | .terminateAll _ => .terminateAll
  | .freeChanResources => .freeChanResources
  | .allocChanResources zalloc => .allocChanResources zalloc
  | .tasklet => .tasklet
  | .callbackReturn => .callbackReturn
  | .device p status app => .device p status app

/-- What the device answers during a call; where the call does not ask, anything. -/
def Op.callEnv : Op cfg → CallEnv
  | .txSubmit _ _ env => ⟨env, 0, true, true⟩
  | .issuePending startOk => ⟨⟨0, true⟩, 0, startOk, true⟩
  | .interrupt status startOk => ⟨⟨0, true⟩, status, startOk, true⟩
  | .terminateAll haltOk => ⟨⟨0, true⟩, 0, true, haltOk⟩
  | _ => ⟨⟨0, true⟩, 0, true, true⟩

/-- A whole call leaves no other call in flight. -/
theorem callStep_calls {s s' : VxdmaSys cfg} {op : Op cfg} (h : s.callStep op = some s') :
    s'.calls = s.calls := by
  cases (callStep_inv h).2 <;> rfl

/-- **One action of whole calls**, short of a `BUG()`, is a run of sections. -/
theorem callStep_sections {s s' : VxdmaSys cfg} {op : Op cfg} (hact : ok s op.act)
    (hok : ∀ u env, ok u (.run 0 env)) (h : s.callStep op = some s') (hcalls : s.calls = [])
    (hend : s'.chan.bug = false) : Reachable sectionStep ok s s' := by
  have hbug : s.chan.bug = false := (callStep_inv h).1
  have halone := fun u => hok u op.callEnv
  have hatomic : s.sectionStep op.act = some s' → Reachable sectionStep ok s s' :=
    (Reachable.refl sectionStep ok s).tail op.act hact
  simp only [callStep, hbug, Bool.false_eq_true, if_false] at h
  cases op with
  | prepSlaveSg args =>
    exact reachable_prep hact halone hbug (by simp [Op.act, sectionStep, hbug]) h
  | prepDmaCyclic args =>
    exact reachable_prep hact halone hbug (by simp [Op.act, sectionStep, hbug]) h
  | txSubmit i callback env =>
    cases hd : s.prepared[i]? with
    | none => simp [hd] at h
    | some d =>
      simp only [hd, Option.some.injEq] at h
      subst h
      have hcall : s.sectionStep (.txSubmit i callback) =
          some (({ s with prepared := s.prepared.eraseIdx i } : VxdmaSys cfg).enter
            (.submit { d with callback := callback })) := by
        simp [sectionStep, hbug, hd]
      exact reachable_call hact halone hcall (txSubmit_runsAlone _ _ hbug)
  | issuePending startOk =>
    cases h
    have hcall : s.sectionStep .issuePending = some (s.enter .issue) := by
      simp [sectionStep, hbug]
    exact reachable_call hact halone hcall (.returns hbug rfl)
  | interrupt status startOk =>
    cases h
    have hcall : s.sectionStep .interrupt = some (s.enter .irq) := by
      simp [sectionStep, hbug]
    exact reachable_call hact halone hcall (irqHandler_runsAlone _ hbug hend)
  | terminateAll haltOk =>
    cases h
    have hcall : s.sectionStep .terminateAll = some (s.enter .terminate) := by
      simp [sectionStep, hbug]
    exact reachable_call hact halone hcall (terminateAll_runsAlone _ hbug)
  | freeChanResources =>
    cases hpool : s.chan.segV.isSome with
    | false => simp [hpool] at h
    | true =>
      simp only [hpool, if_true, Option.some.injEq] at h
      subst h
      have hcall : s.sectionStep .freeChanResources = some (s.enter .freeChan) := by
        simp [sectionStep, hbug, hpool, hcalls]
      exact reachable_call hact halone hcall (freeChanResources_runsAlone _ hbug)
  | allocChanResources zalloc => exact hatomic (by simpa [Op.act, sectionStep, hbug] using h)
  | tasklet => exact hatomic (by simpa [Op.act, sectionStep, hbug] using h)
  | callbackReturn => exact hatomic (by simpa [Op.act, sectionStep, hbug] using h)
  | device p status app => exact hatomic (by simpa [Op.act, sectionStep, hbug] using h)

/-- **Whole calls are runs of sections**: what a run of whole calls reaches without a `BUG()` is
reached by sections, under every guard that looks at the actions by which calls are made. -/
theorem reachable_sections {s₀ s : VxdmaSys cfg}
    (h : Reachable callStep (fun t op => ok t op.act) s₀ s) (hok : ∀ t env, ok t (.run 0 env))
    (hcalls : s₀.calls = []) (hbug : s.chan.bug = false) : Reachable sectionStep ok s₀ s := by
  let Inv : VxdmaSys cfg → Prop := fun t =>
    t.calls = [] ∧ (t.chan.bug = false → Reachable sectionStep ok s₀ t)
  have hinv : Inv s := by
    refine h.invariant ⟨hcalls, fun _ => Reachable.refl _ _ _⟩ ?_
    rintro t op t' ⟨hcalls, hrun⟩ hact hstep
    have hbefore : Reachable sectionStep ok s₀ t := hrun (callStep_inv hstep).1
    exact ⟨(callStep_calls hstep).trans hcalls,
      fun hend => hbefore.trans (callStep_sections hact hok hstep hcalls hend)⟩
  exact hinv.2 hbug

/-- So completion is in order and exactly once when calls do not interleave, too. -/
theorem wholeCalls_fifoCompletion {hasSg : Bool} {ctrlOffset : Nat} {dmacr : BitVec 32}
    {segP : DmaAddr cfg} {s : VxdmaSys cfg}
    (h : Reachable callStep (fun t op => t.FifoGuard op.act)
      (allocated hasSg ctrlOffset dmacr segP) s)
    (hbug : s.chan.bug = false) : FifoCompletion s := by
  obtain ⟨p, hinv⟩ := reachable_fifoInv (reachable_sections h (fun _ _ => trivial) rfl hbug)
  exact hinv.fifoCompletion

end VxdmaSys

end PetalinuxDriver
