import PetalinuxDriver.Analysis.ClientSteps

/-!
# Waiting for the own transfer

A client initialises its completion after it has submitted, and the interrupt handler of a channel
that is still running an earlier transfer starts whatever is pending. So the callback that the
client is going to wait for may run before `init_completion`, which forgets it; and the callback of
the earlier transfer may end the wait.

A wait ends right when it times out only if the callback of the submitted descriptor has not run,
and is woken only by that callback. This holds of every wait of a run in which callbacks come in
turn: none of the submitted descriptor before `init_completion`, and from there on none of another
descriptor first (`waits_end_right`). A callback out of turn spoils the wait (`outOfTurn_spoils`).
-/

set_option autoImplicit false

namespace PetalinuxDriver

open Library

variable {cfg : PhysAddrConfig}

/-! ## Programs that wait -/

/-- The operation comes at this stage of the latest transfer, if it is about it. -/
def ChannelOp.comesAt (stage : TransferStage) : ChannelOp → Bool
  | .initCompletion => stage = .submitted
  | .wait => stage = .initialised
  | _ => true

/-- How far the latest transfer has come after an operation. -/
def ChannelOp.stageAfter (stage : TransferStage) : ChannelOp → TransferStage
  | .submit _ => .submitted
  | .initCompletion => .initialised
  | .wait => .idle
  | _ => stage

/-- A transfer is submitted, its completion is initialised, and only then it is waited for. -/
def waitTypestate : Typestate ClientOp ClientCheck (DmaSide → TransferStage) where
  allowed stage
    | .on side o => o.comesAt (stage side)
    | _ => true
  after stage
    | .on side o => Function.update stage side (o.stageAfter (stage side))
    | _ => stage
  outcome stage _ _ := stage
  final _ := true

namespace ClientProg

/-- Every wait of the client is for a transfer of its own. -/
def WaitsForOwn (test : ClientProg) : Prop := test.conforms waitTypestate (fun _ => .idle) = true

/-- The client may wait on this side before it submits there again. -/
def awaits (side : DmaSide) : ClientProg → Bool
  | .done => false
  | .op (.on other .wait) next => decide (other = side) || awaits side next
  | .op (.on other (.submit _)) next => decide (other ≠ side) && awaits side next
  | .op _ next => awaits side next
  | .check _ failed next => awaits side failed || awaits side next

/-- What the client does on the other side does not matter to a wait. -/
theorem awaits_op_of_ne {side other : DmaSide} (h : other ≠ side) (o : ChannelOp)
    (next : ClientProg) : awaits side (.op (.on other o) next) = awaits side next := by
  cases o <;> simp [awaits, h]

/-- A branch may wait when the way that it takes may. -/
theorem awaits_branch {side : DmaSide} {c : ClientCheck} {failed next : ClientProg} {b : Bool}
    (h : awaits side (if b then next else failed) = true) :
    awaits side (.check c failed next) = true := by
  rw [awaits, Bool.or_eq_true]
  cases b with
  | false => exact Or.inl h
  | true => exact Or.inr h

end ClientProg

/-- The loopback test waits for transfers of its own. -/
theorem vxaxidmaTest_waitsForOwn : vxaxidmaTest.WaitsForOwn := by
  show vxaxidmaTest.conforms waitTypestate (fun _ => .idle) = true
  decide

/-- The matrix test waits for transfers of its own. -/
theorem xhlsTest_waitsForOwn : xhlsTest.WaitsForOwn := by
  show xhlsTest.conforms waitTypestate (fun _ => .idle) = true
  decide

/-! ## How waits should end -/

namespace ClientSide

/-- The descriptor of the latest transfer. -/
def descriptor (c : ClientSide cfg) : Option Nat := c.submitted.map Prod.fst

/-- A wait that ended now would time out only if the callback of the transfer has not run, and
would be woken by that callback only. -/
def EndsRight (c : ClientSide cfg) : Prop :=
  match c.cmp with
  | [] => ∀ id ∈ c.descriptor, id ∉ c.calledBack
  | id :: _ => c.descriptor = some id

instance (c : ClientSide cfg) : Decidable c.EndsRight := by
  unfold EndsRight
  split <;> infer_instance

/-- A wait that a callback has ended was for the transfer of this callback. -/
theorem endsRight_of_cons {c : ClientSide cfg} {id : Nat} {tl : List Nat} (h : c.cmp = id :: tl) :
    c.EndsRight ↔ c.descriptor = some id := by
  rw [EndsRight, h]

/-- The callback of this descriptor may run: after its `init_completion` if it is that of the
transfer, and not before the transfer's if it is another one. -/
def InTurn (c : ClientSide cfg) (id : Nat) : Prop :=
  match c.stage with
  | .idle => True
  | .submitted => c.descriptor ≠ some id
  | .initialised => c.cmp = [] → c.descriptor = some id

instance (c : ClientSide cfg) (id : Nat) : Decidable (c.InTurn id) := by
  unfold InTurn
  split <;> infer_instance

end ClientSide

namespace ClientSys

/-- An operation that ends a wait ends it right. -/
def EndsRight (s : ClientSys cfg) : ClientOp → Prop
  | .on side .wait => (s.side side).EndsRight
  | _ => True

instance (s : ClientSys cfg) (o : ClientOp) : Decidable (s.EndsRight o) := by
  unfold EndsRight
  split <;> infer_instance

/-- Where the action ends a wait, it ends right. -/
def WaitsEndRight (s : ClientSys cfg) : ClientAct cfg → Prop
  | .client _ => s.resting = true → ∀ o ∈ s.prog.head, s.EndsRight o
  | _ => True

/-- A callback on a side that the client is going to wait on, or waits on, comes in turn. -/
def CallbacksInTurn (s : ClientSys cfg) : ClientAct cfg → Prop
  | .callback side =>
    ClientProg.awaits side s.prog = true → ∀ d ∈ (s.side side).sys.held, (s.side side).InTurn d.id
  | _ => True

instance (s : ClientSys cfg) : ∀ a, Decidable (s.WaitsEndRight a)
  | .client _ => inferInstanceAs (Decidable (s.resting = true →
      ∀ o ∈ s.prog.head, s.EndsRight o))
  | .ioctl => isTrue trivial
  | .channel _ _ => isTrue trivial
  | .callback _ => isTrue trivial

instance (s : ClientSys cfg) : ∀ a, Decidable (s.CallbacksInTurn a)
  | .callback side => inferInstanceAs (Decidable (ClientProg.awaits side s.prog = true →
      ∀ d ∈ (s.side side).sys.held, (s.side side).InTurn d.id))
  | .ioctl => isTrue trivial
  | .client _ => isTrue trivial
  | .channel _ _ => isTrue trivial

end ClientSys

/-! ## The ledger of callbacks -/

/-- Each accepted descriptor is on a queue, or held before its callback, or was called back, and
only one of these. -/
structure CallbackLedger (sys : VxdmaSys cfg) (called : Bool) (calledBack : List Nat) : Prop where
  names : VxdmaSys.NamesOnce sys
  traced : idsOf sys.chan.queues + (if called then 0 else idsOf sys.held) + ↑calledBack ≤
    ↑(submittedIds sys.chan)

namespace CallbackLedger

variable {sys sys' : VxdmaSys cfg} {called : Bool} {calledBack : List Nat}

/-- At first nothing was accepted. -/
theorem probed (hasSg : Bool) (ctrlOffset : Nat) (dmacr : BitVec 32) :
    CallbackLedger (VxdmaSys.probed hasSg ctrlOffset dmacr : VxdmaSys cfg) false [] := by
  have hnames : (VxdmaSys.probed hasSg ctrlOffset dmacr : VxdmaSys cfg).names = 0 := rfl
  exact ⟨⟨by simp [hnames], by simp [hnames]⟩, Multiset.zero_le _⟩

/-- What was called back was accepted. -/
theorem calledBack_le (h : CallbackLedger sys called calledBack) :
    (↑calledBack : Multiset Nat) ≤ ↑(submittedIds sys.chan) :=
  (Multiset.le_add_left _ _).trans h.traced

/-- A descriptor that is being submitted was not called back. -/
theorem notMem_calledBack (h : CallbackLedger sys called calledBack) {call : Call cfg} {id : Nat}
    (hcall : call ∈ sys.calls) (hid : id ∈ call.ids) : id ∉ calledBack := by
  intro hmem
  apply h.names.notMem_submittedIds hcall hid
  exact Multiset.mem_coe.mp (Multiset.mem_of_le h.calledBack_le (Multiset.mem_coe.mpr hmem))

/-- An action other than the return of a callback keeps the ledger. -/
theorem act {a : VxdmaSys.Act cfg} (h : CallbackLedger sys called calledBack)
    (hstep : sys.sectionStep a = some sys') (ha : a ≠ .callbackReturn) :
    CallbackLedger sys' called calledBack := by
  refine ⟨VxdmaSys.sectionStep_namesOnce h.names hstep, ?_⟩
  obtain ⟨hunderway, hheld⟩ := VxdmaSys.sectionStep_underway hstep ha
  apply le_of_add_le_add_right (a := (↑(submittedIds sys.chan) : Multiset Nat))
  have htraced := h.traced
  cases called with
  | false =>
    simp only [Bool.false_eq_true, if_false] at htraced ⊢
    calc idsOf sys'.chan.queues + idsOf sys'.held + ↑calledBack + ↑(submittedIds sys.chan)
        = idsOf sys'.chan.queues + idsOf sys'.held + ↑(submittedIds sys.chan) + ↑calledBack := by
          abel
      _ ≤ idsOf sys.chan.queues + idsOf sys.held + ↑(submittedIds sys'.chan) + ↑calledBack :=
        add_le_add_left hunderway _
      _ = idsOf sys.chan.queues + idsOf sys.held + ↑calledBack + ↑(submittedIds sys'.chan) := by
        abel
      _ ≤ ↑(submittedIds sys.chan) + ↑(submittedIds sys'.chan) := add_le_add_left htraced _
      _ = ↑(submittedIds sys'.chan) + ↑(submittedIds sys.chan) := add_comm _ _
  | true =>
    simp only [if_true, add_zero] at htraced ⊢
    -- what the cleanup holds is the same before and after, and was counted as called back
    apply le_of_add_le_add_right (a := idsOf sys.held)
    calc idsOf sys'.chan.queues + ↑calledBack + ↑(submittedIds sys.chan) + idsOf sys.held
        = idsOf sys'.chan.queues + idsOf sys.held + ↑(submittedIds sys.chan) + ↑calledBack := by
          abel
      _ ≤ idsOf sys'.chan.queues + idsOf sys'.held + ↑(submittedIds sys.chan) + ↑calledBack :=
        add_le_add_left (add_le_add_left (add_le_add_right hheld _) _) _
      _ ≤ idsOf sys.chan.queues + idsOf sys.held + ↑(submittedIds sys'.chan) + ↑calledBack :=
        add_le_add_left hunderway _
      _ = idsOf sys.chan.queues + ↑calledBack + (↑(submittedIds sys'.chan) + idsOf sys.held) := by
        abel
      _ ≤ ↑(submittedIds sys.chan) + (↑(submittedIds sys'.chan) + idsOf sys.held) :=
        add_le_add_left htraced _
      _ = ↑(submittedIds sys'.chan) + ↑(submittedIds sys.chan) + idsOf sys.held := by abel

/-- When a callback returns, what the cleanup held is gone, and what it holds next was on a
queue. -/
theorem returned (h : CallbackLedger sys called calledBack)
    (hstep : sys.sectionStep .callbackReturn = some sys') :
    CallbackLedger sys' false calledBack := by
  refine ⟨VxdmaSys.sectionStep_namesOnce h.names hstep, ?_⟩
  obtain ⟨hunderway, hids⟩ := VxdmaSys.sectionStep_returned hstep
  rw [hids]
  calc idsOf sys'.chan.queues + idsOf sys'.held + ↑calledBack
      ≤ idsOf sys.chan.queues + ↑calledBack := add_le_add_left hunderway _
    _ ≤ idsOf sys.chan.queues + (if called then 0 else idsOf sys.held) + ↑calledBack :=
      add_le_add_left (Multiset.le_add_right _ _) _
    _ ≤ ↑(submittedIds sys.chan) := h.traced

/-- A callback runs once for each descriptor. -/
theorem callsBack (h : CallbackLedger sys false calledBack) {d : XilinxDmaTxDescriptor cfg}
    (hd : sys.held = [d]) :
    d.id ∉ calledBack ∧ CallbackLedger sys true (calledBack ++ [d.id]) := by
  have htraced := h.traced
  simp only [hd, Bool.false_eq_true, if_false, idsOf_cons, idsOf_nil, add_zero] at htraced
  have hnodup : (↑(submittedIds sys.chan) : Multiset Nat).Nodup :=
    Multiset.nodup_of_le (Multiset.le_add_left _ _) h.names.nodup
  refine ⟨fun hmem => ?_, h.names, ?_⟩
  · have hsub : ({d.id} + ↑calledBack : Multiset Nat) ≤ ↑(submittedIds sys.chan) := by
      refine le_trans ?_ htraced
      rw [add_assoc]
      exact Multiset.le_add_left _ _
    have hcons := Multiset.nodup_of_le hsub hnodup
    rw [Multiset.singleton_add, Multiset.nodup_cons] at hcons
    exact hcons.1 (Multiset.mem_coe.mpr hmem)
  · refine le_trans (le_of_eq ?_) htraced
    simp only [if_true, add_zero, ← Multiset.coe_add, Multiset.coe_singleton]
    abel

end CallbackLedger

/-! ## The invariant of one side -/

/-- What holds of a side of a client with this program left: before `init_completion` the callback
of the transfer has not run, and from then on a wait would end right. -/
structure WakeInv (prog : ClientProg) (side : DmaSide) (c : ClientSide cfg) : Prop where
  ledger : CallbackLedger c.sys c.called c.calledBack
  noSubmit : c.stage = .initialised → c.sys.NoSubmit
  before : ClientProg.awaits side prog = true → c.stage = .submitted →
    ∀ id ∈ c.descriptor, id ∉ c.calledBack
  after : ClientProg.awaits side prog = true → c.stage = .initialised → c.EndsRight

namespace WakeInv

variable {prog next : ClientProg} {side : DmaSide} {c c' : ClientSide cfg}

/-- A program that does not await more needs no more. -/
theorem mono (h : WakeInv prog side c)
    (himp : ClientProg.awaits side next = true → ClientProg.awaits side prog = true) :
    WakeInv next side c :=
  ⟨h.ledger, h.noSubmit, fun hawaits => h.before (himp hawaits),
    fun hawaits => h.after (himp hawaits)⟩

/-- With no transfer under way there is nothing to wait for. -/
theorem ofIdle (hledger : CallbackLedger c.sys c.called c.calledBack) (hidle : c.stage = .idle) :
    WakeInv prog side c := by
  refine ⟨hledger, ?_, ?_, ?_⟩
  · intro hstage
    cases hidle.symm.trans hstage
  · intro _ hstage
    cases hidle.symm.trans hstage
  · intro _ hstage
    cases hidle.symm.trans hstage

/-- A transfer whose submit has not returned cannot have been called back. -/
theorem ofSubmitted (hledger : CallbackLedger c.sys c.called c.calledBack)
    (hsubmitted : c.stage = .submitted) (hnone : c.descriptor = none) : WakeInv prog side c := by
  refine ⟨hledger, ?_, ?_, ?_⟩
  · intro hstage
    cases hsubmitted.symm.trans hstage
  · intro _ _ id hid
    cases hnone.symm.trans hid
  · intro _ hstage
    cases hsubmitted.symm.trans hstage

/-- An action that is neither a submit nor the return of a callback. -/
theorem act {a : VxdmaSys.Act cfg} {sys : VxdmaSys cfg} (h : WakeInv prog side c)
    (hstep : c.sys.sectionStep a = some sys) (ha : a ≠ .callbackReturn)
    (hsubmit : ∀ i callback, a ≠ .txSubmit i callback) :
    WakeInv prog side { c with sys := sys } :=
  ⟨h.ledger.act hstep ha,
    fun hstage => VxdmaSys.sectionStep_noSubmit (h.noSubmit hstage) hsubmit hstep, h.before, h.after⟩

/-- **An operation of the client** on this side. -/
theorem run {ans : ClientAnswer cfg} {o : ChannelOp} (h : WakeInv (.op (.on side o) next) side c)
    (hrest : c.resting = true) (hat : o.comesAt c.stage = true) (hrun : c.run ans o = some c') :
    WakeInv next side c' ∧ c'.stage = o.stageAfter c.stage := by
  cases o with
  | request =>
    obtain rfl : c.request ans = c' := Option.some.inj hrun
    rcases c.request_cases ans with heq | ⟨sys, hsys, heq⟩
    · rw [heq]
      exact ⟨⟨h.ledger, h.noSubmit, h.before, h.after⟩, rfl⟩
    · have hact := h.act hsys (by simp) (by simp)
      rw [heq]
      exact ⟨⟨hact.ledger, hact.noSubmit, hact.before, hact.after⟩, rfl⟩
  | map =>
    cases hrun
    exact ⟨⟨h.ledger, h.noSubmit, h.before, h.after⟩, rfl⟩
  | prep dir len =>
    obtain ⟨sys, hsys, rfl⟩ := ClientSide.act_cases hrun
    exact ⟨(h.act hsys (by simp) (by simp)).mono id, rfl⟩
  | submit buf =>
    rcases ClientSide.submit_cases hrun with ⟨-, rfl⟩ | ⟨d, ds, sys, -, hsys, rfl⟩
    · exact ⟨ofSubmitted h.ledger rfl rfl, rfl⟩
    · exact ⟨ofSubmitted (h.ledger.act hsys (by simp)) rfl rfl, rfl⟩
  | initCompletion =>
    have hstage : c.stage = .submitted := by simpa [ChannelOp.comesAt] using hat
    cases hrun
    refine ⟨⟨h.ledger, ?_, ?_, ?_⟩, rfl⟩
    · exact fun _ => ClientSide.noSubmit_of_resting hrest
    · intro _ hstage'
      cases hstage'
    · -- the completion is empty, and the callback has not run
      exact fun hawaits _ => h.before hawaits hstage
  | issuePending =>
    obtain ⟨sys, hsys, rfl⟩ := ClientSide.act_cases hrun
    exact ⟨(h.act hsys (by simp) (by simp)).mono id, rfl⟩
  | wait =>
    cases hrun
    exact ⟨ofIdle h.ledger rfl, rfl⟩
  | release =>
    simp only [ClientSide.run] at hrun
    split at hrun
    · obtain ⟨sys, hsys, rfl⟩ := ClientSide.act_cases hrun
      have hact := h.act hsys (by simp) (by simp)
      exact ⟨⟨hact.ledger, hact.noSubmit, hact.before, hact.after⟩, rfl⟩
    · cases hrun
      exact ⟨h.mono id, rfl⟩

/-- **What happens without the client.** -/
theorem outside {a : VxdmaSys.Act cfg} (h : WakeInv prog side c)
    (hbug : c.sys.chan.bug = false) (hstep : ClientSide.OutsideStep c a c') :
    WakeInv prog side c' ∧ c'.stage = c.stage := by
  cases hstep with
  | interrupt sys hsys => exact ⟨h.act hsys (by simp) (by simp), rfl⟩
  | run i env sys hsys =>
    have hact := h.act hsys (by simp) (by simp)
    refine ⟨⟨hact.ledger, hact.noSubmit, ?_, ?_⟩, rfl⟩
    · intro hawaits hstage id hid
      cases hret : c.submitReturns i env with
      | none =>
        apply h.before hawaits hstage id
        simpa [ClientSide.descriptor, hret] using hid
      | some p =>
        -- a submit returned: its descriptor was in its hands until now
        obtain ⟨call, d, hcall, hid', hsection⟩ := ClientSide.submitReturns_some hbug hret
        have hmem := (h.ledger.notMem_calledBack (List.mem_of_getElem? hcall)
          hsection.submitted_mem.1)
        have heq : p.1 = id := by simpa [ClientSide.descriptor, hret] using hid
        rw [← heq, ← hid']
        exact hmem
    · intro hawaits hstage
      rw [ClientSide.submitReturns_none hbug (h.noSubmit hstage), Option.none_or]
      exact h.after hawaits hstage
  | tasklet sys hsys => exact ⟨h.act hsys (by simp) (by simp), rfl⟩
  | callbackReturn sys hcalled hsys =>
    refine ⟨⟨h.ledger.returned hsys, ?_, h.before, h.after⟩, rfl⟩
    exact fun hstage => VxdmaSys.sectionStep_noSubmit (h.noSubmit hstage) (by simp) hsys
  | device p status app sys hsys => exact ⟨h.act hsys (by simp) (by simp), rfl⟩

/-- **A callback in turn.** -/
theorem callback (h : WakeInv prog side c) (hstep : c.axidmaSyncCallback = some c')
    (hok : ClientProg.awaits side prog = true → ∀ d ∈ c.sys.held, c.InTurn d.id) :
    WakeInv prog side c' ∧ c'.stage = c.stage := by
  obtain ⟨d, hpc, hcalled, rfl⟩ := ClientSide.axidmaSyncCallback_cases hstep
  have hheld : c.sys.held = [d] := by
    rw [VxdmaSys.held_eq, hpc]
    rfl
  have hledger := h.ledger
  rw [hcalled] at hledger
  have hturn : ClientProg.awaits side prog = true → c.InTurn d.id := fun hawaits => by
    apply hok hawaits
    simp [hheld]
  refine ⟨⟨(hledger.callsBack hheld).2, h.noSubmit, ?_, ?_⟩, rfl⟩
  · intro hawaits hstage id hid hmem
    have hne := hturn hawaits
    simp only [ClientSide.InTurn, show c.stage = .submitted from hstage] at hne
    rcases List.mem_append.mp hmem with hmem | hmem
    · exact h.before hawaits hstage id hid hmem
    · obtain rfl : id = d.id := List.mem_singleton.mp hmem
      exact hne hid
  · intro hawaits hstage
    have hfirst := hturn hawaits
    simp only [ClientSide.InTurn, show c.stage = .initialised from hstage] at hfirst
    have hends := h.after hawaits hstage
    cases hcmp : c.cmp with
    | nil =>
      apply (ClientSide.endsRight_of_cons rfl).mpr
      exact hfirst hcmp
    | cons k tl =>
      -- the wait is over, later callbacks come behind
      apply (ClientSide.endsRight_of_cons rfl).mpr
      exact (ClientSide.endsRight_of_cons hcmp).mp hends

end WakeInv

/-- A callback out of turn leaves a wait that would not end right, at once or after the
`init_completion` that comes before it. -/
theorem ClientSide.outOfTurn_spoils {c c' : ClientSide cfg}
    (hstep : c.axidmaSyncCallback = some c') {d : XilinxDmaTxDescriptor cfg} (hd : d ∈ c.sys.held)
    (hturn : ¬ c.InTurn d.id) :
    (c.stage = .initialised → ¬ c'.EndsRight) ∧
      (c.stage = .submitted → ¬ { c' with cmp := [] }.EndsRight) := by
  obtain ⟨e, hpc, hcalled, rfl⟩ := ClientSide.axidmaSyncCallback_cases hstep
  obtain rfl : d = e := by simpa [VxdmaSys.held_eq, hpc, CleanupPc.held] using hd
  constructor
  · intro hstage
    simp only [ClientSide.InTurn, hstage, Classical.not_imp] at hturn
    obtain ⟨hnil, hne⟩ := hturn
    simp only [ClientSide.EndsRight, hnil, List.nil_append]
    exact hne
  · intro hstage
    simp only [ClientSide.InTurn, hstage, not_not] at hturn
    simp only [ClientSide.EndsRight]
    intro hends
    refine hends d.id hturn ?_
    simp

/-! ## Runs -/

namespace ClientSys

/-- What holds along a run. -/
structure WakesInv (s : ClientSys cfg) : Prop where
  waits : s.prog.conforms waitTypestate (fun side => (s.side side).stage) = true
  sides : ∀ side, WakeInv s.prog side (s.side side)

/-- One side goes on, and the other one stays. -/
theorem WakesInv.setSide {s : ClientSys cfg} {prog : ClientProg} {side : DmaSide}
    {c : ClientSide cfg} {stage : TransferStage} (hc : WakeInv prog side c)
    (hstage : c.stage = stage) (hothers : ∀ other, other ≠ side → WakeInv prog other (s.side other))
    (hwaits : prog.conforms waitTypestate
      (Function.update (fun side => (s.side side).stage) side stage) = true) :
    ({ s with prog := prog }.setSide side c).WakesInv := by
  have hstages : (fun other => (({ s with prog := prog } : ClientSys cfg).setSide side c).side other
      |>.stage) = Function.update (fun side => (s.side side).stage) side stage := by
    funext other
    by_cases hother : other = side
    · subst hother
      simp [hstage]
    · rw [setSide_side_of_ne _ c hother, Function.update_of_ne hother]
  refine ⟨?_, fun other => ?_⟩
  · rw [setSide_prog, hstages]
    exact hwaits
  · rw [setSide_prog]
    by_cases hother : other = side
    · subst hother
      rw [setSide_side]
      exact hc
    · rw [setSide_side_of_ne _ c hother]
      exact hothers other hother

/-- **One step of a run** whose callbacks come in turn. -/
theorem clientStep_wakesInv {test : ClientProg} {s s' : ClientSys cfg} {a : ClientAct cfg}
    (htest : test.WaitsForOwn) (hs : s.WakesInv) (hok : s.CallbacksInTurn a)
    (h : clientStep test s a = some s') : s'.WakesInv := by
  obtain ⟨hbug, hstep⟩ := clientStep_inv h
  have hsame : ∀ side, Function.update (fun side => (s.side side).stage) side (s.side side).stage =
      fun side => (s.side side).stage := fun side => Function.update_eq_self side _
  cases hstep with
  | ioctl hdone => exact ⟨htest, fun side => WakeInv.ofIdle (hs.sides side).ledger rfl⟩
  | check ans c failed next hrest hprog =>
    have hwaits := hs.waits
    rw [hprog] at hwaits
    refine ⟨Script.conforms_check hwaits _, fun side => (hs.sides side).mono fun hawaits => ?_⟩
    rw [hprog]
    exact ClientProg.awaits_branch hawaits
  | on ans side o next c hrest hprog hrun =>
    have hwaits := hs.waits
    rw [hprog, Script.conforms_op] at hwaits
    have hsides : ∀ other, WakeInv (.op (.on side o) next) other (s.side other) := fun other =>
      hprog ▸ hs.sides other
    obtain ⟨hc, hstage⟩ := (hsides side).run (resting_iff.mp hrest side) hwaits.1 hrun
    apply WakesInv.setSide hc hstage _ hwaits.2
    intro other hother
    apply (hsides other).mono
    rw [ClientProg.awaits_op_of_ne (Ne.symm hother)]
    exact id
  | buffer ans o next hrest hprog ho =>
    have hwaits := hs.waits
    rw [hprog, Script.conforms_op] at hwaits
    have hsides : ∀ side, WakeInv (.op o next) side (s.side side) := fun side =>
      hprog ▸ hs.sides side
    cases o with
    | on side o => exact absurd rfl (ho side o)
    | _ => exact ⟨hwaits.2, fun side => (hsides side).mono id⟩
  | channel side a c hout =>
    obtain ⟨hc, hstage⟩ := (hs.sides side).outside (hbug side) hout
    apply WakesInv.setSide hc hstage fun other _ => hs.sides other
    rw [hsame]
    exact hs.waits
  | callback side c hc =>
    obtain ⟨hc, hstage⟩ := (hs.sides side).callback hc hok
    apply WakesInv.setSide hc hstage fun other _ => hs.sides other
    rw [hsame]
    exact hs.waits

/-- The invariant holds after the probe. -/
theorem probed_wakesInv (hasSg : DmaSide → Bool) (ctrlOffset : DmaSide → Nat)
    (dmacr : DmaSide → BitVec 32) : (probed hasSg ctrlOffset dmacr : ClientSys cfg).WakesInv :=
  ⟨rfl, fun _ => WakeInv.ofIdle (CallbackLedger.probed _ _ _) rfl⟩

/-- At a wait the completion of its side is initialised. -/
theorem WakesInv.waitsEndRight {s : ClientSys cfg} (hs : s.WakesInv) (a : ClientAct cfg) :
    s.WaitsEndRight a := by
  cases a with
  | client ans =>
    intro hrest o ho
    unfold EndsRight
    split
    · rename_i side
      have hat := Script.allowed_of_head hs.waits ho
      have hstage : (s.side side).stage = .initialised := by
        simpa [waitTypestate, ChannelOp.comesAt] using hat
      have hawaits : ClientProg.awaits side s.prog = true := by
        cases hprog : s.prog with
        | done => simp [hprog, Script.head] at ho
        | check c failed next => simp [hprog, Script.head] at ho
        | op o' next =>
          obtain rfl : o' = .on side .wait := by simpa [hprog, Script.head] using ho
          simp [ClientProg.awaits]
      exact (hs.sides side).after hawaits hstage
    · trivial
  | _ => trivial

/-- **No wake-up is lost or stolen** in the runs whose callbacks come in turn, of any client that
waits for its own transfers. -/
theorem waits_end_right {test : ClientProg} {hasSg : DmaSide → Bool} {ctrlOffset : DmaSide → Nat}
    {dmacr : DmaSide → BitVec 32} {as : List (ClientAct cfg)}
    (htest : test.WaitsForOwn)
    (h : ExecOk (clientStep test) CallbacksInTurn (probed hasSg ctrlOffset dmacr) as) :
    ExecOk (clientStep test) WaitsEndRight (probed hasSg ctrlOffset dmacr) as :=
  Reachable.execOk_of_invariant h (probed_wakesInv hasSg ctrlOffset dmacr)
    (fun _ a hs _ => hs.waitsEndRight a)
    fun _ _ _ hs hok hstep => clientStep_wakesInv htest hs hok hstep

/-- `xhls_test` times out on its first transfer, which completes before the second one is submitted;
the second one completes in time. -/
def lateCallback : List (ClientAct .addr32) :=
  [.ioctl] ++ clientSteps 5 ++ prepSteps .tx ++ clientSteps 1 ++ startSteps .tx ++ clientSteps 2 ++
  irqSteps .tx ++ [.channel .tx .tasklet] ++ callbackSteps .tx ++
  clientSteps 1 ++ prepSteps .tx ++ clientSteps 1 ++ startSteps .tx ++
  irqSteps .tx ++ [.channel .tx .tasklet] ++ callbackSteps .tx ++ clientSteps 1

/-- The callback of the first input is late, and still ends no other wait. -/
theorem waits_end_right_lateCallback :
    ExecOk (clientStep xhlsTest) WaitsEndRight sgProbed lateCallback ∧
      ((exec (clientStep xhlsTest) sgProbed lateCallback).map
        fun s => (s.side .tx).calledBack) = some [0, 1] := by
  constructor
  · apply waits_end_right xhlsTest_waitsForOwn
    decide +kernel
  · decide +kernel

/-- `xhls_test` times out on its first transfer. When the second one is submitted the interrupt
handler starts it, and both callbacks run before `init_completion`. -/
def earlyCallback : List (ClientAct .addr32) :=
  [.ioctl] ++ clientSteps 5 ++ prepSteps .tx ++ clientSteps 1 ++ startSteps .tx ++ clientSteps 2 ++
  clientSteps 1 ++ prepSteps .tx ++ irqSteps .tx ++ irqSteps .tx ++ [.channel .tx .tasklet] ++
  callbackSteps .tx ++ callbackSteps .tx ++ clientSteps 1 ++ startSteps .tx ++ clientSteps 1

/-- The second wait of `xhls_test` can time out after the callback that it waits for has run. -/
theorem waits_end_wrong :
    ¬ ∀ as : List (ClientAct .addr32), ExecOk (clientStep xhlsTest) WaitsEndRight sgProbed as := by
  intro h
  have hrun := h earlyCallback
  revert hrun
  decide +kernel

end ClientSys

end PetalinuxDriver
