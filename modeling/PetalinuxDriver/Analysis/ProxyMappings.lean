import PetalinuxDriver.Analysis.ProxySteps

/-!
# The mappings of the proxy

With cached buffers a call maps the buffer in `transfer` and unmaps it in `wait_for_transfer`. The
two and `start_transfer` between them each read the length that user space keeps in the interface,
and a call whose submit fails returns without `wait_for_transfer`. So a call gives back what it
took exactly when it gets a descriptor, its submit goes through, and the three reads agree.

One fact carries this: a call in flight is *on track* (`ProxyCall.OnTrack`) when nothing has gone
wrong for it so far. A step keeps it on track, or returns with everything given back, exactly when
what it finds is right (`onTrack_goesOn_iff`, `onTrack_returns_iff`). The theorem about runs puts
these steps one behind the other.
-/

set_option autoImplicit false

namespace PetalinuxDriver

open Library LedgerEntry

variable {cfg : PhysAddrConfig}

/-! ## The ledger of one call -/

namespace ProxyCall

/-- All that this call has mapped was for that length. -/
def MapsLength (c : ProxyCall cfg) (length : BitVec 32) : Prop :=
  ∀ m, .acquire m ∈ c.mapped → m.length = length

instance (c : ProxyCall cfg) (length : BitVec 32) : Decidable (c.MapsLength length) :=
  decidable_of_iff (c.mapped.all fun e => match e with
      | .acquire m => m.length == length
      | .release _ => true) (by
    rw [List.all_eq_true]
    constructor
    · intro h m hm
      exact beq_iff_eq.mp (h (.acquire m) hm)
    · intro h e he
      cases e with
      | acquire m => exact beq_iff_eq.mpr (h m he)
      | release m => rfl)

/-- A call has mapped the buffer once when it is past the beginning of `transfer`, and unmapped
nothing. -/
def MapsOnce (s : ProxySys cfg) (c : ProxyCall cfg) : Prop :=
  if c.pc = .transfer then c.mapped = [] ∧ c.submitted = []
  else ∃ length, c.mapped = [.acquire (s.mapping s.ch.dmaHandle length)]

/-- Nothing has gone wrong: no error is on its way, and a descriptor is for the length mapped. -/
def OnTrack (s : ProxySys cfg) (c : ProxyCall cfg) : Prop :=
  (∀ length ∈ c.submitted, c.MapsLength length) ∧
    match c.pc with
    | .initCompletion length => c.MapsLength length
    | .submit length => c.MapsLength length
    | .issuePending cookie => dmaSubmitError cookie = false
    | .storeCookie cookie => dmaSubmitError cookie = false
    | .checkCookie => dmaSubmitError s.ch.cookie = false
    | _ => True

/-- What a step of a call finds is right: `start_transfer` a descriptor and the length mapped, the
submit no error, and `wait_for_transfer` the length mapped. -/
def FindsLength (env : ProxyEnv cfg) (s : ProxySys cfg) (c : ProxyCall cfg) : Prop :=
  match c.pc with
  | .startTransfer => (dmaenginePrepSlaveSingle s.ch.dmaHandle env.length s.ch.direction
      env.kzallocOk env.chan).2 ≠ .null ∧ c.MapsLength env.length
  | .submit _ => env.submitError = none
  | .unmap => c.MapsLength env.length
  | _ => True

instance (env : ProxyEnv cfg) (s : ProxySys cfg) (c : ProxyCall cfg) :
    Decidable (c.FindsLength env s) :=
  match hpc : c.pc with
  | .startTransfer => decidable_of_iff ((dmaenginePrepSlaveSingle s.ch.dmaHandle env.length
      s.ch.direction env.kzallocOk env.chan).2 ≠ .null ∧ c.MapsLength env.length) (by
    simp only [FindsLength, hpc])
  | .submit _ => decidable_of_iff (env.submitError = none) (by simp only [FindsLength, hpc])
  | .unmap => decidable_of_iff (c.MapsLength env.length) (by simp only [FindsLength, hpc])
  | .transfer | .initCompletion _ | .issuePending _ | .storeCookie _ | .checkCookie
  | .waitForTransfer | .wait | .isTxComplete _ | .storeStatus _ _ =>
    isTrue (by simp only [FindsLength, hpc])

/-- The call has unmapped what it mapped, and submitted descriptors for that length only. -/
def GaveBack (c : ProxyCall cfg) : Prop :=
  LedgerEntry.Balanced c.mapped ∧ ∀ length ∈ c.submitted, c.MapsLength length

/-- What a single mapping has mapped. -/
theorem mapsLength_singleton {c : ProxyCall cfg} {m : DmaMapping cfg} {length : BitVec 32}
    (h : c.mapped = [.acquire m]) : c.MapsLength length ↔ m.length = length := by
  simp [MapsLength, h]

/-- An unmapping does not count. -/
theorem mapsLength_append_release {c c' : ProxyCall cfg} {m : DmaMapping cfg}
    (h : c'.mapped = c.mapped ++ [.release m]) (length : BitVec 32) :
    c'.MapsLength length ↔ c.MapsLength length := by
  simp [MapsLength, h]

/-! ## One step of a call -/

/-- Past the beginning of `transfer` only the last step of a call enters something. -/
theorem run_mapped {env : ProxyEnv cfg} {s t : ProxySys cfg} {c c' : ProxyCall cfg}
    (hpc : c.pc ≠ .transfer) (h : c.run env s = (t, .goesOn c')) :
    c'.pc ≠ .transfer ∧ c'.mapped = c.mapped := by
  unfold run at h
  split at h
  · contradiction
  all_goals (try split at h) <;> cases h <;> exact ⟨by simp, rfl⟩

/-- A call maps once. -/
theorem mapsOnce_goesOn {env : ProxyEnv cfg} {s t : ProxySys cfg} {c c' : ProxyCall cfg}
    (hcached : s.ch.cachedBuffers = true) (hmaps : c.MapsOnce s)
    (h : c.run env s = (t, .goesOn c')) : c'.MapsOnce t := by
  by_cases hpc : c.pc = .transfer
  · simp only [MapsOnce, hpc, if_true] at hmaps
    simp only [run, hpc, hcached, if_true, hmaps.1] at h
    cases h
    exact ⟨env.length, rfl⟩
  · obtain ⟨hpc', hmapped⟩ := run_mapped hpc h
    have hhandle := run_dmaHandle env s hpc
    have hconfig := run_config env s c
    rw [h] at hhandle hconfig
    simp only [MapsOnce, hpc, hpc', if_false] at hmaps ⊢
    obtain ⟨length, hlength⟩ := hmaps
    refine ⟨length, ?_⟩
    rw [hmapped, hlength, ProxySys.mapping, ProxySys.mapping, hhandle, hconfig.2.1]

/-- A negative error number is one. -/
theorem errno_isError (e : Errno) : dmaSubmitError (-e.code) = true := by
  cases e <;> decide

/-- A step that does not return keeps a call on track exactly when it finds what is right. -/
theorem onTrack_goesOn_iff {env : ProxyEnv cfg} {s t : ProxySys cfg} {c c' : ProxyCall cfg}
    (hmaps : c.MapsOnce s) (h : c.run env s = (t, .goesOn c')) :
    c'.OnTrack t ↔ c.OnTrack s ∧ c.FindsLength env s := by
  cases hpc : c.pc with
  | transfer =>
    simp only [MapsOnce, hpc, if_true] at hmaps
    simp only [run, hpc] at h
    split at h
    · cases h
      simp [OnTrack, FindsLength, hpc, hmaps.2]
    · cases h
      simp [OnTrack, FindsLength, hpc, hmaps.2]
  | startTransfer =>
    simp only [run, hpc] at h
    split at h
    · rename_i hnull
      cases h
      simp [OnTrack, FindsLength, hpc, hnull, errno_isError]
    · rename_i d hdesc
      cases h
      simp [OnTrack, FindsLength, hpc, hdesc, MapsLength]
    · cases h
  | initCompletion length =>
    simp only [run, hpc] at h
    cases h
    simp [OnTrack, FindsLength, hpc, MapsLength]
  | submit length =>
    simp only [run, hpc] at h
    split at h
    · rename_i err herr
      cases h
      simp [OnTrack, FindsLength, hpc, herr, errno_isError]
    · rename_i hok
      cases h
      have hcookie : dmaSubmitError (↑s.txs.length + 1) = false := by
        simp only [dmaSubmitError, decide_eq_false_iff_not]
        omega
      simp only [OnTrack, FindsLength, hpc, MapsLength, hcookie, hok, List.forall_mem_append,
        List.forall_mem_singleton, and_true]
  | issuePending cookie =>
    simp only [run, hpc] at h
    cases h
    simp [OnTrack, FindsLength, hpc, MapsLength]
  | storeCookie cookie =>
    simp only [run, hpc] at h
    cases h
    simp [OnTrack, FindsLength, hpc, MapsLength]
  | checkCookie =>
    simp only [run, hpc] at h
    split at h
    · cases h
    · rename_i hok
      cases h
      simp [OnTrack, FindsLength, hpc, MapsLength, hok]
  | waitForTransfer =>
    simp only [run, hpc] at h
    cases h
    simp [OnTrack, FindsLength, hpc, MapsLength]
  | wait =>
    simp only [run, hpc] at h
    split at h <;> cases h <;> simp [OnTrack, FindsLength, hpc, MapsLength]
  | isTxComplete woken =>
    simp only [run, hpc] at h
    cases h
    simp [OnTrack, FindsLength, hpc, MapsLength]
  | storeStatus woken complete =>
    simp only [run, hpc] at h
    cases h
    simp [OnTrack, FindsLength, hpc, MapsLength]
  | unmap =>
    simp only [run, hpc] at h
    split at h <;> cases h

/-- A call returns with everything given back exactly when it was on track and finds what is
right. -/
theorem onTrack_returns_iff {env : ProxyEnv cfg} {s t : ProxySys cfg} {c c' : ProxyCall cfg}
    (hcached : s.ch.cachedBuffers = true) (hmaps : c.MapsOnce s)
    (h : c.run env s = (t, .returns c')) : c'.GaveBack ↔ c.OnTrack s ∧ c.FindsLength env s := by
  have hreturns : c.pc = .checkCookie ∨ c.pc = .unmap := by
    unfold run at h
    split at h
    all_goals first
      | exact Or.inl ‹_›
      | exact Or.inr ‹_›
      | ((try split at h) <;> cases h)
  rcases hreturns with hpc | hpc
  · simp only [MapsOnce, hpc] at hmaps
    obtain ⟨length, hmapped⟩ := hmaps
    simp only [run, hpc] at h
    split at h
    · rename_i herr
      cases h
      have hnot : ¬ c.GaveBack := by
        rintro ⟨hbal, -⟩
        rw [hmapped] at hbal
        exact not_balanced_acquire _ hbal
      simp [OnTrack, hpc, herr, hnot]
    · cases h
  · simp only [MapsOnce, hpc] at hmaps
    obtain ⟨length, hmapped⟩ := hmaps
    simp only [run, hpc, hcached, if_true] at h
    have hbal : LedgerEntry.Balanced
        (c.mapped ++ [release (s.mapping s.ch.dmaHandle env.length)]) ↔
          c.MapsLength env.length := by
      rw [mapsLength_singleton hmapped, hmapped]
      refine (balanced_pair _ _).trans ?_
      simp [ProxySys.mapping]
    obtain ⟨hmapped', hsubmitted⟩ : c'.mapped =
        c.mapped ++ [release (s.mapping s.ch.dmaHandle env.length)] ∧
          c'.submitted = c.submitted := by
      cases h
      exact ⟨rfl, rfl⟩
    rw [GaveBack, hmapped', hsubmitted, hbal]
    simp only [mapsLength_append_release hmapped', OnTrack, FindsLength, hpc, and_true]
    exact and_comm

end ProxyCall

/-! ## Runs -/

namespace ProxySys

/-- No call is made while one is in flight. -/
def OneAtATime (s : ProxySys cfg) : ProxyAct cfg → Prop
  | .ioctl => s.calls = []
  | _ => True

/-- A call that returns in this step has unmapped what it mapped, and has submitted descriptors for
that length only. -/
def Balances (s : ProxySys cfg) : ProxyAct cfg → Prop
  | .run i env => ∀ c ∈ s.calls[i]?, ∀ t c', c.run env (s.without i) = (t, .returns c') →
      c'.GaveBack
  | _ => True

/-- `start_transfer` gets a descriptor for the length that was mapped, its submit goes through, and
`wait_for_transfer` finds that length again. -/
def LengthKept (s : ProxySys cfg) : ProxyAct cfg → Prop
  | .run i env => ∀ c ∈ s.calls[i]?, c.FindsLength env s
  | _ => True

instance (s : ProxySys cfg) : ∀ a, Decidable (s.OneAtATime a)
  | .open => isTrue trivial
  | .mmap _ _ _ => isTrue trivial
  | .ioctl => inferInstanceAs (Decidable (s.calls = []))
  | .run _ _ => isTrue trivial
  | .complete _ => isTrue trivial
  | .callback _ => isTrue trivial

instance (s : ProxySys cfg) : ∀ a, Decidable (s.LengthKept a)
  | .open => isTrue trivial
  | .mmap _ _ _ => isTrue trivial
  | .ioctl => isTrue trivial
  | .run i env => inferInstanceAs (Decidable (∀ c ∈ s.calls[i]?, c.FindsLength env s))
  | .complete _ => isTrue trivial
  | .callback _ => isTrue trivial

/-- The buffers are cached, and there is no call in flight or one. -/
structure OneCall (s : ProxySys cfg) : Prop where
  cached : s.ch.cachedBuffers = true
  one : s.calls.length ≤ 1
  maps : ∀ c ∈ s.calls, c.MapsOnce s

/-- Every call in flight is on track. -/
def AllOnTrack (s : ProxySys cfg) : Prop := ∀ c ∈ s.calls, c.OnTrack s

/-- The call that makes a step is the only one. -/
theorem OneCall.without_calls {s : ProxySys cfg} (h : s.OneCall) {i : Nat} {c : ProxyCall cfg}
    (hc : s.calls[i]? = some c) : (s.without i).calls = [] ∧ s.calls = [c] := by
  have hone := h.one
  match hcalls : s.calls with
  | [] => simp [hcalls] at hc
  | [d] =>
    rw [hcalls] at hc
    obtain ⟨hi, rfl⟩ := List.getElem?_eq_some_iff.mp hc
    obtain rfl : i = 0 := by simpa using hi
    simp [without, hcalls]
  | _ :: _ :: _ => simp [hcalls] at hone

/-- At first no call is in flight. -/
theorem oneCall_created (direction : DmaTransferDirection) (addr : DmaAddr cfg) :
    (created true direction addr).OneCall := by
  refine ⟨rfl, Nat.zero_le 1, ?_⟩
  intro c hc
  cases hc

/-- Only a call that enters and a step of a call change the calls in flight or the channel they
look at. -/
theorem oneCall_step {s s' : ProxySys cfg} {a : ProxyAct cfg} (hinv : s.OneCall)
    (hok : s.OneAtATime a) (h : s.proxyStep a = some s') : s'.OneCall := by
  cases a with
  | «open» =>
    cases h
    exact hinv
  | mmap vmaPages pgoff remapOk =>
    cases h
    exact hinv
  | ioctl =>
    cases h
    refine ⟨hinv.cached, ?_, ?_⟩
    · simp [enterIoctl, show s.calls = [] from hok]
    · intro c hc
      rcases List.mem_cons.mp hc with rfl | hc
      · exact ⟨rfl, rfl⟩
      · exact hinv.maps c hc
  | run i env =>
    obtain ⟨c, t, hc, hend⟩ := proxyStep_run h
    obtain ⟨hothers, hcalls⟩ := hinv.without_calls hc
    have hmaps : c.MapsOnce (s.without i) := hinv.maps c (List.mem_of_getElem? hc)
    have hconfig := ProxyCall.run_config env (s.without i) c
    rcases hend with ⟨c', hrun, rfl⟩ | ⟨c', hrun, rfl⟩
    · rw [hrun] at hconfig
      refine ⟨hconfig.1.trans hinv.cached, ?_, ?_⟩
      · simp [hothers]
      · intro d hd
        simp only [hothers, List.mem_singleton] at hd
        subst hd
        have hmaps' : d.MapsOnce t :=
          ProxyCall.mapsOnce_goesOn (s := s.without i) hinv.cached hmaps hrun
        exact hmaps'
    · rw [hrun] at hconfig
      have hnone : s'.calls = [] := hconfig.2.2.2.1.trans hothers
      refine ⟨hconfig.1.trans hinv.cached, ?_, ?_⟩
      · simp [hnone]
      · simp [hnone]
  | complete k =>
    obtain ⟨tx, -, -, rfl⟩ := proxyStep_complete h
    exact ⟨hinv.cached, hinv.one, hinv.maps⟩
  | callback k =>
    obtain ⟨tx, -, -, -, rfl⟩ := proxyStep_callback h
    exact ⟨hinv.cached, hinv.one, hinv.maps⟩

/-- A step keeps the calls in flight on track, and returns from one that was, exactly when it finds
what is right. -/
theorem step_onTrack_iff {s s' : ProxySys cfg} {a : ProxyAct cfg} (hinv : s.OneCall)
    (hok : s.OneAtATime a) (h : s.proxyStep a = some s') :
    s.Balances a ∧ s'.AllOnTrack ↔ s.AllOnTrack ∧ s.LengthKept a := by
  cases a with
  | «open» =>
    cases h
    simp [Balances, LengthKept]
  | mmap vmaPages pgoff remapOk =>
    cases h
    simp [Balances, LengthKept]
  | ioctl =>
    cases h
    have hnone : s.calls = [] := hok
    refine iff_of_true ⟨trivial, ?_⟩ ⟨?_, trivial⟩
    · intro c hc
      rcases List.mem_cons.mp hc with rfl | hc
      · exact ⟨fun length hlength => absurd hlength List.not_mem_nil, trivial⟩
      · rw [hnone] at hc
        cases hc
    · intro c hc
      rw [hnone] at hc
      cases hc
  | run i env =>
    obtain ⟨c, t, hc, hend⟩ := proxyStep_run h
    obtain ⟨hothers, hcalls⟩ := hinv.without_calls hc
    have hmaps : c.MapsOnce (s.without i) := hinv.maps c (List.mem_of_getElem? hc)
    have htrack : s.AllOnTrack ↔ c.OnTrack (s.without i) := by
      rw [AllOnTrack, hcalls]
      exact List.forall_mem_singleton
    have hkept : s.LengthKept (.run i env) ↔ c.FindsLength env (s.without i) := by
      simp only [LengthKept, hc, Option.mem_some_iff, forall_eq']
      exact Iff.rfl
    rw [htrack, hkept]
    rcases hend with ⟨c', hrun, rfl⟩ | ⟨c', hrun, rfl⟩
    · have hnext : AllOnTrack { t with calls := c' :: (s.without i).calls } ↔ c'.OnTrack t := by
        rw [AllOnTrack, hothers]
        exact List.forall_mem_singleton
      have hbalances : s.Balances (.run i env) := by
        intro d hd t' d' hreturns
        obtain rfl : c = d := Option.some.inj (hc.symm.trans hd)
        rw [hrun] at hreturns
        cases hreturns
      rw [hnext, ← ProxyCall.onTrack_goesOn_iff hmaps hrun]
      exact and_iff_right hbalances
    · have hnext : s'.AllOnTrack := by
        have hnone : s'.calls = [] := by
          have hconfig := ProxyCall.run_config env (s.without i) c
          rw [hrun] at hconfig
          exact hconfig.2.2.2.1.trans hothers
        simp [AllOnTrack, hnone]
      have hbalances : s.Balances (.run i env) ↔ c'.GaveBack := by
        simp only [Balances, hc, Option.mem_some_iff, forall_eq', hrun]
        simp
      rw [hbalances, ProxyCall.onTrack_returns_iff (s := s.without i) hinv.cached hmaps hrun]
      exact and_iff_left hnext
  | complete k =>
    obtain ⟨tx, -, -, rfl⟩ := proxyStep_complete h
    simp only [Balances, LengthKept, true_and, and_true]
    exact Iff.rfl
  | callback k =>
    obtain ⟨tx, -, -, -, rfl⟩ := proxyStep_callback h
    simp only [Balances, LengthKept, true_and, and_true]
    exact Iff.rfl

/-- A step with no defined end returns from no call. -/
theorem balances_of_none {s : ProxySys cfg} {a : ProxyAct cfg} (h : s.proxyStep a = none) :
    s.Balances a := by
  cases a with
  | run i env =>
    intro c hc t c' hrun
    rw [Option.mem_def] at hc
    simp only [proxyStep, hc] at h
    change (c.run env (s.without i)).1.leave (c.run env (s.without i)).2 = none at h
    rw [hrun] at h
    cases h
  | _ => trivial

/-- A run keeps its calls on track and has every return balanced when what it finds is right at
each step. -/
theorem balances_of_kept {s : ProxySys cfg} {as : List (ProxyAct cfg)} (hinv : s.OneCall)
    (hseq : ExecOk proxyStep OneAtATime s as) (htrack : s.AllOnTrack)
    (hkept : ExecOk proxyStep LengthKept s as) : ExecOk proxyStep Balances s as := by
  induction as generalizing s with
  | nil => trivial
  | cons a as ih =>
    cases hstep : s.proxyStep a with
    | none =>
      refine ⟨balances_of_none hstep, ?_⟩
      intro s' hs'
      rw [hstep] at hs'
      cases hs'
    | some s' =>
      obtain ⟨hbalances, hnext⟩ := (step_onTrack_iff hinv hseq.1 hstep).mpr ⟨htrack, hkept.1⟩
      refine ⟨hbalances, ?_⟩
      intro s'' hs''
      obtain rfl : s' = s'' := Option.some.inj (hstep.symm.trans hs'')
      exact ih (oneCall_step hinv hseq.1 hstep) (hseq.2 s' hstep) hnext (hkept.2 s' hstep)

/-- In a run at whose end all calls have returned, what went wrong shows at a return. -/
theorem kept_of_balances {s s' : ProxySys cfg} {as : List (ProxyAct cfg)} (hinv : s.OneCall)
    (hseq : ExecOk proxyStep OneAtATime s as) (hrun : exec proxyStep s as = some s')
    (hidle : s'.calls = []) (hbal : ExecOk proxyStep Balances s as) :
    s.AllOnTrack ∧ ExecOk proxyStep LengthKept s as := by
  induction as generalizing s with
  | nil =>
    cases hrun
    refine ⟨?_, trivial⟩
    intro c hc
    rw [hidle] at hc
    cases hc
  | cons a as ih =>
    obtain ⟨s₁, hstep, hrest⟩ := Option.bind_eq_some_iff.mp hrun
    have hlater := ih (oneCall_step hinv hseq.1 hstep) (hseq.2 s₁ hstep) hrest (hbal.2 s₁ hstep)
    obtain ⟨htrack, hkept⟩ := (step_onTrack_iff hinv hseq.1 hstep).mp ⟨hbal.1, hlater.1⟩
    refine ⟨htrack, hkept, ?_⟩
    intro s₂ hs₂
    obtain rfl : s₁ = s₂ := Option.some.inj (hstep.symm.trans hs₂)
    exact hlater.2

/-- **The mappings balance** in every run of calls one after the other in which `start_transfer`
gets a descriptor for the length that was mapped, its submit goes through, and `wait_for_transfer`
finds that length again. When all calls have returned it takes no less. -/
theorem mappings_balanced {direction : DmaTransferDirection} {addr : DmaAddr cfg}
    {as : List (ProxyAct cfg)} (hseq : ExecOk proxyStep OneAtATime (created true direction addr) as) :
    (ExecOk proxyStep LengthKept (created true direction addr) as →
        ExecOk proxyStep Balances (created true direction addr) as) ∧
      ∀ s, exec proxyStep (created true direction addr) as = some s → s.calls = [] →
        ExecOk proxyStep Balances (created true direction addr) as →
          ExecOk proxyStep LengthKept (created true direction addr) as := by
  have hinv := oneCall_created direction addr
  constructor
  · apply balances_of_kept hinv hseq
    intro c hc
    cases hc
  · intro s hrun hidle hbal
    exact (kept_of_balances hinv hseq hrun hidle hbal).2

/-- A call that finds one length before its transaction completes and another one after. -/
def callWithLengths (before after : BitVec 32) : List (ProxyAct .addr32) :=
  [.ioctl] ++ List.replicate 8 (.run 0 (.serving before)) ++ [.complete 0, .callback 0] ++
    List.replicate 4 (.run 0 (.serving after))

/-- One call that reads the same length twice. -/
theorem mappings_balanced_sameLength :
    ExecOk proxyStep Balances (created true .devToMem 0) (callWithLengths 16 16) :=
  (mappings_balanced (by decide +kernel)).1 (by decide +kernel)

/-- A call that gets no descriptor. -/
def callWithoutDescriptor : List (ProxyAct .addr32) :=
  [.ioctl, .run 0 (.serving 16), .run 0 { ProxyEnv.serving 16 with kzallocOk := false },
    .run 0 (.serving 16), .run 0 (.serving 16)]

/-- A run in which a length changed under a call is out of balance in the end. -/
theorem unbalanced_of_notKept {direction : DmaTransferDirection} {addr : DmaAddr cfg}
    {as : List (ProxyAct cfg)} (hseq : ExecOk proxyStep OneAtATime (created true direction addr) as)
    (hidle : (exec proxyStep (created true direction addr) as).map (fun s => s.calls.length) =
      some 0)
    (hnot : ¬ ExecOk proxyStep LengthKept (created true direction addr) as) :
    ¬ ExecOk proxyStep Balances (created true direction addr) as := by
  intro hbal
  apply hnot
  obtain ⟨s, hrun, hlength⟩ := Option.map_eq_some_iff.mp hidle
  have hnone : s.calls = [] := List.length_eq_zero_iff.mp hlength
  exact (kept_of_balances (oneCall_created direction addr) hseq hrun hnone hbal).2

/-- A call that gets no descriptor leaves its mapping behind, and so does one that finds another
length at its end. -/
theorem mappings_unbalanced :
    (ExecOk proxyStep OneAtATime (created true .devToMem 0) callWithoutDescriptor ∧
        ¬ ExecOk proxyStep Balances (created true .devToMem 0) callWithoutDescriptor) ∧
      ExecOk proxyStep OneAtATime (created true .devToMem 0) (callWithLengths 16 8) ∧
        ¬ ExecOk proxyStep Balances (created true .devToMem 0) (callWithLengths 16 8) := by
  refine ⟨⟨by decide +kernel, ?_⟩, by decide +kernel, ?_⟩
  · apply unbalanced_of_notKept
    · decide +kernel
    · decide +kernel
    · decide +kernel
  · apply unbalanced_of_notKept
    · decide +kernel
    · decide +kernel
    · decide +kernel

end ProxySys

end PetalinuxDriver
