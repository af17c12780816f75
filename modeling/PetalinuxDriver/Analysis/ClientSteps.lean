import PetalinuxDriver.Analysis.CompletionOrder
import PetalinuxDriver.Model.DmaClients

/-!
# What one step of a client system does

The inversion of `clientStep`, and what an action of a channel means to its client: every accepted
descriptor is on one queue, or in the hands of the cleanup, or was called back, and only once; a
submit returns a descriptor that was not accepted before; and nothing comes onto a list when no
submit is in flight.
-/

set_option autoImplicit false

namespace PetalinuxDriver

open Library

variable {cfg : PhysAddrConfig}

/-! ## Descriptors under way -/

/-- The names of the descriptors on a list. -/
def idsOf (ds : List (XilinxDmaTxDescriptor cfg)) : Multiset Nat :=
  ↑(ds.map XilinxDmaTxDescriptor.id)

/-- No descriptors have no names. -/
@[simp] theorem idsOf_nil : idsOf ([] : List (XilinxDmaTxDescriptor cfg)) = 0 := rfl

/-- The names of two lists, together. -/
theorem idsOf_append (ds es : List (XilinxDmaTxDescriptor cfg)) :
    idsOf (ds ++ es) = idsOf ds + idsOf es := by
  simp [idsOf]

/-- The name of the first, and the others. -/
theorem idsOf_cons (d : XilinxDmaTxDescriptor cfg) (ds : List (XilinxDmaTxDescriptor cfg)) :
    idsOf (d :: ds) = {d.id} + idsOf ds := by
  simp [idsOf]

/-- Completion leaves the names. -/
@[simp] theorem idsOf_map_completedDesc (ds : List (XilinxDmaTxDescriptor cfg)) :
    idsOf (ds.map completedDesc) = idsOf ds := by
  have hcomp : XilinxDmaTxDescriptor.id ∘ @completedDesc cfg = XilinxDmaTxDescriptor.id :=
    funext completedDesc_id
  simp [idsOf, hcomp]

/-- The queues are the three lists. -/
theorem queues_ids (s : XilinxDmaChan cfg) :
    idsOf s.queues = idsOf s.doneList + idsOf s.activeList + idsOf s.pendingList := by
  rw [XilinxDmaChan.queues, idsOf_append, idsOf_append, add_assoc]

/-- What the cleanup holds afterwards was on `done_list`, and is not there any more. -/
theorem cleanup_ids (s : XilinxDmaChan cfg) :
    idsOf (xilinxDmaChanDescCleanup s).1.queues + idsOf (xilinxDmaChanDescCleanup s).2.held ≤
      idsOf s.queues := by
  obtain ⟨freed, rest, hsplit, -, hcases⟩ := cleanupLoop_cases s.doneList s rfl
  have hdone : idsOf rest ≤ idsOf s.doneList := by
    rw [hsplit, idsOf_append]
    exact Multiset.le_add_left _ _
  have hrest : idsOf rest + idsOf s.activeList + idsOf s.pendingList ≤ idsOf s.queues := by
    rw [queues_ids]
    exact add_le_add_left (add_le_add_left hdone _) _
  refine le_trans (le_of_eq ?_) hrest
  unfold xilinxDmaChanDescCleanup
  rcases hcases with ⟨-, h⟩ | ⟨d, tl, -, -, -, h⟩ | ⟨d, tl, -, -, h⟩ | ⟨d, tl, htl, -, h⟩ <;>
    rw [h, queues_ids]
  · exact add_zero _
  · exact add_zero _
  · exact add_zero _
  · rw [htl, idsOf_cons]
    change idsOf tl + idsOf s.activeList + idsOf s.pendingList + {d.id} = _
    abel

/-- The rest of a cleanup names nothing new. -/
theorem cleanupResume_ids {pc : CleanupPc cfg} (s : XilinxDmaChan cfg) :
    idsOf (cleanupResume pc s).1.queues + idsOf (cleanupResume pc s).2.held ≤ idsOf s.queues := by
  cases pc with
  | idle => exact le_of_eq (add_zero _)
  | cyclicCallback => exact le_of_eq (add_zero _)
  | callback d =>
    have hfree := freeTxDescriptor_sameHistory s d.segments
    rw [← hfree.queues]
    exact cleanup_ids _

namespace VxdmaSys

/-- A section puts only accepted descriptors on the queues, each of them once. -/
theorem Section.accepts {env : CallEnv} {s t : XilinxDmaChan cfg} {c : Call cfg}
    {after : After cfg} (h : Section env s c t after) :
    idsOf t.queues + ↑(submittedIds s) ≤ idsOf s.queues + ↑(submittedIds t) := by
  have hle : assigned t = assigned s → idsOf t.queues ≤ idsOf s.queues →
      idsOf t.queues + ↑(submittedIds s) ≤ idsOf s.queues + ↑(submittedIds t) := by
    intro hassigned hqueues
    rw [submittedIds, submittedIds, hassigned]
    exact add_le_add_left hqueues _
  by_cases hchanges : c.changesQueues = false
  · have hhistory := h.sameHistory hchanges
    exact hle hhistory.filterMap_log.1 (le_of_eq (by rw [hhistory.queues]))
  · have hnone : xilinxDmaFreeDescriptors s = t →
        idsOf t.queues + ↑(submittedIds s) ≤ idsOf s.queues + ↑(submittedIds t) := by
      rintro rfl
      apply hle (freeDescriptors_sameNames s).2
      rw [freeDescriptors_eq]
      exact Multiset.zero_le _
    cases h with
    | queued d =>
      apply le_of_eq
      rw [queues_ids, queues_ids, idsOf_append, idsOf_cons, idsOf_nil]
      simp only [submittedIds, assigned, List.filterMap_append, List.map_append,
        List.filterMap_cons, Event.assigned, List.filterMap_nil, List.map_cons, List.map_nil,
        ← Multiset.coe_add, Multiset.coe_singleton]
      abel
    | queuedBug d =>
      apply le_of_eq
      rw [queues_ids, queues_ids, idsOf_append, idsOf_cons, idsOf_nil]
      simp only [submittedIds, assigned, List.filterMap_append, List.map_append,
        List.filterMap_cons, Event.assigned, List.filterMap_nil, List.map_cons, List.map_nil,
        ← Multiset.coe_add, Multiset.coe_singleton]
      abel
    | issue =>
      apply hle (startTransfer_sameNames env.startOk s).2
      rw [(startTransfer_queues env.startOk s).1]
    | irqLock =>
      have hstart := (startTransfer_sameNames env.startOk (irqComplete s)).2
      apply hle (hstart.trans (irqComplete_sameNames s).2)
      rw [(startTransfer_queues env.startOk (irqComplete s)).1, irqComplete_eq, queues_ids,
        queues_ids, idsOf_append, idsOf_map_completedDesc]
      apply le_of_eq
      rw [idsOf_nil, add_zero]
    | terminateFree => exact hnone rfl
    | freeChan => exact hnone rfl
    | _ => exact absurd rfl hchanges

/-- An allocation leaves queues and history. -/
theorem alloc_sameQueues (zalloc : Option (DmaAddr cfg)) (s : XilinxDmaChan cfg) :
    (xilinxDmaAllocChanResources zalloc s).1.queues = s.queues ∧
      assigned (xilinxDmaAllocChanResources zalloc s).1 = assigned s ∧
      completedIds (xilinxDmaAllocChanResources zalloc s).1 = completedIds s := by
  cases zalloc with
  | none => exact ⟨rfl, rfl, rfl⟩
  | some segP =>
    refine ⟨rfl, ?_, ?_⟩
    · simp [xilinxDmaAllocChanResources, assigned, XilinxDmaChan.dmaCtrlWrite, XilinxDmaChan.emit,
        Event.assigned]
    · simp [xilinxDmaAllocChanResources, completedIds, XilinxDmaChan.dmaCtrlWrite,
        XilinxDmaChan.emit, Event.completed]

/-- The descriptors on the queues and in the hands of the cleanup, against those accepted: an
action brings in what it accepts, and what the cleanup held stays until its callback returns. -/
theorem sectionStep_underway {s s' : VxdmaSys cfg} {a : Act cfg} (h : s.sectionStep a = some s')
    (ha : a ≠ .callbackReturn) :
    idsOf s'.chan.queues + idsOf s'.held + ↑(submittedIds s.chan) ≤
        idsOf s.chan.queues + idsOf s.held + ↑(submittedIds s'.chan) ∧
      idsOf s.held ≤ idsOf s'.held := by
  obtain ⟨hbug, hstep⟩ := sectionStep_inv h
  cases hstep with
  | allocChanResources zalloc =>
    obtain ⟨hsame, hassigned, -⟩ := alloc_sameQueues zalloc s.chan
    refine ⟨le_of_eq ?_, le_rfl⟩
    change idsOf (xilinxDmaAllocChanResources zalloc s.chan).1.queues + idsOf s.held + _ = _
    rw [hsame, submittedIds, submittedIds, hassigned]
  | run i env c s' hc hleave =>
    have hsection := (run_inv env hbug c).accepts
    rw [leave_eq hleave]
    refine ⟨?_, le_rfl⟩
    calc idsOf (c.run env s.chan).1.queues + idsOf s.held + ↑(submittedIds s.chan)
        = idsOf (c.run env s.chan).1.queues + ↑(submittedIds s.chan) + idsOf s.held := by abel
      _ ≤ idsOf s.chan.queues + ↑(submittedIds (c.run env s.chan).1) + idsOf s.held :=
        add_le_add_left hsection _
      _ = idsOf s.chan.queues + idsOf s.held + ↑(submittedIds (c.run env s.chan).1) := by abel
  | tasklet hidle =>
    have hheld : s.held = [] := by
      rw [held_eq, hidle]
      rfl
    have hassigned := (cleanup_sameNames { s.chan with tasklet := false }).2
    have hcleanup := cleanup_ids { s.chan with tasklet := false }
    rw [hheld, held_eq]
    refine ⟨?_, Multiset.zero_le _⟩
    rw [submittedIds, submittedIds, hassigned]
    exact add_le_add_left (hcleanup.trans (le_of_eq (add_zero _).symm)) _
  | callbackReturn => exact absurd rfl ha
  | _ => exact ⟨le_rfl, le_rfl⟩

/-- After a callback the cleanup names nothing new, and nothing is submitted. -/
theorem sectionStep_returned {s s' : VxdmaSys cfg} (h : s.sectionStep .callbackReturn = some s') :
    idsOf s'.chan.queues + idsOf s'.held ≤ idsOf s.chan.queues ∧
      submittedIds s'.chan = submittedIds s.chan := by
  have hassigned := (cleanupResume_sameNames s.cleanup s.chan).2
  rw [sectionStep_callbackReturn h, held_eq]
  exact ⟨cleanupResume_ids s.chan, by rw [submittedIds, submittedIds, hassigned]⟩

/-! ## Submits -/

/-- No submit is in flight. -/
def NoSubmit (s : VxdmaSys cfg) : Prop := ∀ c ∈ s.calls, c.submitting = []

/-- When only interrupt handlers are in flight no submit is. -/
theorem noSubmit_of_ofIrq {s : VxdmaSys cfg} (h : ∀ c ∈ s.calls, c.ofIrq = true) : s.NoSubmit := by
  intro c hc
  have hirq := h c hc
  cases c <;> first | rfl | cases hirq

/-- A section does not begin a submit. -/
theorem Section.noSubmit {env : CallEnv} {s t : XilinxDmaChan cfg} {c c' : Call cfg}
    (h : Section env s c t (.goesOn c')) (hc : c.submitting = []) : c'.submitting = [] := by
  cases h <;> first | rfl | cases hc

/-- Only a submit brings one into flight. -/
theorem sectionStep_noSubmit {s s' : VxdmaSys cfg} {a : Act cfg} (hs : s.NoSubmit)
    (ha : ∀ i callback, a ≠ .txSubmit i callback) (h : s.sectionStep a = some s') :
    s'.NoSubmit := by
  intro e he
  rcases sectionStep_mem_calls h he with hold | hmakes | ⟨i, env, c, -, hc, hsection⟩
  · exact hs e hold
  · cases hmakes with
    | txSubmit i callback => exact absurd rfl (ha i callback)
    | _ => rfl
  · exact hsection.noSubmit (hs c (List.mem_of_getElem? hc))

/-- A submit returns to the client that made it. -/
theorem Section.submitted_mem {env : CallEnv} {s t : XilinxDmaChan cfg} {c : Call cfg}
    {d : XilinxDmaTxDescriptor cfg} {r : SubmitResult} (h : Section env s c t (.submitted d r)) :
    d.id ∈ c.ids ∧ c.submitting ≠ [] := by
  cases h <;> simp [Call.ids, Call.submitting]

/-- A descriptor that a call has in its hands was not accepted before. -/
theorem NamesOnce.notMem_submittedIds {s : VxdmaSys cfg} (h : NamesOnce s) {c : Call cfg} {id : Nat}
    (hc : c ∈ s.calls) (hid : id ∈ c.ids) : id ∉ submittedIds s.chan := by
  intro hmem
  have hdisjoint := (Multiset.nodup_add.mp h.nodup).2.2
  refine Multiset.disjoint_left.mp hdisjoint ?_ (Multiset.mem_coe.mpr hmem)
  exact Multiset.mem_add.mpr (Or.inr (Multiset.mem_coe.mpr (List.mem_flatMap.mpr ⟨c, hc, hid⟩)))

end VxdmaSys

/-! ## One side -/

namespace ClientSide

/-- An action of one side is a section of its driver. -/
theorem act_cases {a : VxdmaSys.Act cfg} {c c' : ClientSide cfg} (h : c.act a = some c') :
    ∃ sys, c.sys.sectionStep a = some sys ∧ c' = { c with sys := sys } := by
  obtain ⟨sys, hsys, hc'⟩ := Option.map_eq_some_iff.mp h
  exact ⟨sys, hsys, hc'.symm⟩

/-- A request fails, or it allocates the channel. -/
theorem request_cases (ans : ClientAnswer cfg) (c : ClientSide cfg) :
    c.request ans = { c with requested := false } ∨
      ∃ sys, c.sys.sectionStep (.allocChanResources (some ans.addr)) = some sys ∧
        c.request ans = { c with sys := sys, requested := true } := by
  unfold request
  cases hok : ans.ok with
  | false => exact Or.inl rfl
  | true =>
    cases hact : c.act (.allocChanResources (some ans.addr)) with
    | none => exact Or.inl rfl
    | some c' =>
      obtain ⟨sys, hsys, rfl⟩ := act_cases hact
      exact Or.inr ⟨sys, hsys, rfl⟩

/-- A submit of nothing leaves the driver alone. -/
theorem submit_cases {buf : ClientBuffer} {c c' : ClientSide cfg} (h : c.submit buf = some c') :
    (c.sys.prepared = [] ∧ c' = { c with submitted := none, stage := .submitted }) ∨
      ∃ d ds sys, c.sys.prepared = d :: ds ∧
        c.sys.sectionStep (.txSubmit 0 (some 0)) = some sys ∧
        c' = { c with
          sys := sys
          submitted := none
          stage := .submitted
          buffers := (d.id, buf) :: c.buffers } := by
  unfold submit at h
  cases hprep : c.sys.prepared with
  | nil =>
    simp only [hprep, Option.some.injEq] at h
    exact Or.inl ⟨rfl, h.symm⟩
  | cons d ds =>
    simp only [hprep] at h
    obtain ⟨sys, hsys, rfl⟩ := act_cases h
    exact Or.inr ⟨d, ds, sys, rfl, hsys, rfl⟩

/-- What happens on a channel without the client is an action that is no call of the client. -/
inductive OutsideStep (c : ClientSide cfg) : VxdmaSys.Act cfg → ClientSide cfg → Prop
  | interrupt (sys : VxdmaSys cfg) (h : c.sys.sectionStep .interrupt = some sys) :
      OutsideStep c .interrupt { c with sys := sys }
  | run (i : Nat) (env : CallEnv) (sys : VxdmaSys cfg)
      (h : c.sys.sectionStep (.run i env) = some sys) :
      OutsideStep c (.run i env)
        { c with sys := sys, submitted := (c.submitReturns i env).or c.submitted }
  | tasklet (sys : VxdmaSys cfg) (h : c.sys.sectionStep .tasklet = some sys) :
      OutsideStep c .tasklet { c with sys := sys }
  | callbackReturn (sys : VxdmaSys cfg) (hcalled : c.called = true)
      (h : c.sys.sectionStep .callbackReturn = some sys) :
      OutsideStep c .callbackReturn { c with sys := sys, called := false }
  | device (p : SegPtr) (status : BitVec 32) (app : AppWords) (sys : VxdmaSys cfg)
      (h : c.sys.sectionStep (.device p status app) = some sys) :
      OutsideStep c (.device p status app) { c with sys := sys }

/-- What happens to a side from outside is one of the cases of `OutsideStep`. -/
theorem outside_inv {a : VxdmaSys.Act cfg} {c c' : ClientSide cfg} (h : c.outside a = some c') :
    OutsideStep c a c' := by
  cases a with
  | interrupt =>
    obtain ⟨sys, hsys, rfl⟩ := act_cases h
    exact .interrupt sys hsys
  | run i env =>
    obtain ⟨sys, hsys, rfl⟩ := act_cases h
    exact .run i env sys hsys
  | tasklet =>
    obtain ⟨sys, hsys, rfl⟩ := act_cases h
    exact .tasklet sys hsys
  | callbackReturn =>
    simp only [outside] at h
    split at h
    · obtain ⟨sys, hsys, rfl⟩ := act_cases h
      exact .callbackReturn sys ‹_› hsys
    · cases h
  | device p status app =>
    obtain ⟨sys, hsys, rfl⟩ := act_cases h
    exact .device p status app sys hsys
  | _ => cases h

/-- The callback runs once each time the cleanup makes it. -/
theorem axidmaSyncCallback_cases {c c' : ClientSide cfg} (h : c.axidmaSyncCallback = some c') :
    ∃ d, c.sys.cleanup = .callback d ∧ c.called = false ∧
      c' = { c with
        cmp := c.cmp ++ [d.id]
        calledBack := c.calledBack ++ [d.id]
        called := true } := by
  unfold axidmaSyncCallback at h
  cases hpc : c.sys.cleanup with
  | idle => simp [hpc] at h
  | cyclicCallback => simp [hpc] at h
  | callback d =>
    cases hcalled : c.called with
    | true => simp [hpc, hcalled] at h
    | false =>
      simp only [hpc, hcalled, Bool.false_eq_true, if_false, Option.some.injEq] at h
      exact ⟨d, rfl, rfl, h.symm⟩

/-- A side rests when only interrupt handlers are in flight. -/
theorem resting_iff {c : ClientSide cfg} :
    c.resting = true ↔ ∀ call ∈ c.sys.calls, call.ofIrq = true := by
  simp [resting]

/-- While a client rests it has no submit in flight. -/
theorem noSubmit_of_resting {c : ClientSide cfg} (h : c.resting = true) : c.sys.NoSubmit :=
  VxdmaSys.noSubmit_of_ofIrq (resting_iff.mp h)

/-- What a submit returns comes from a submit in flight. -/
theorem submitReturns_some {c : ClientSide cfg} {i : Nat} {env : CallEnv} {id : Nat}
    {r : SubmitResult} (hbug : c.sys.chan.bug = false)
    (h : c.submitReturns i env = some (id, r)) :
    ∃ call d, c.sys.calls[i]? = some call ∧ d.id = id ∧
      VxdmaSys.Section env c.sys.chan call (call.run env c.sys.chan).1 (.submitted d r) := by
  unfold submitReturns at h
  cases hc : c.sys.calls[i]? with
  | none => simp [hc] at h
  | some call =>
    simp only [hc] at h
    have hsection := VxdmaSys.run_inv env hbug call
    split at h
    · rename_i d r' hafter
      rw [hafter] at hsection
      cases h
      exact ⟨call, d, rfl, rfl, hsection⟩
    · cases h

/-- Without a submit in flight none returns. -/
theorem submitReturns_none {c : ClientSide cfg} {i : Nat} {env : CallEnv}
    (hbug : c.sys.chan.bug = false) (hs : c.sys.NoSubmit) : c.submitReturns i env = none := by
  cases hr : c.submitReturns i env with
  | none => rfl
  | some p =>
    obtain ⟨id, r⟩ := p
    obtain ⟨call, d, hc, -, hsection⟩ := submitReturns_some hbug hr
    exact absurd (hs call (List.mem_of_getElem? hc)) hsection.submitted_mem.2

end ClientSide

/-! ## The system -/

namespace ClientSys

/-- A side that goes on leaves the program of the client. -/
@[simp] theorem setSide_prog (s : ClientSys cfg) (side : DmaSide) (c : ClientSide cfg) :
    (s.setSide side c).prog = s.prog := rfl

/-- The side that is put in. -/
@[simp] theorem setSide_side (s : ClientSys cfg) (side : DmaSide) (c : ClientSide cfg) :
    (s.setSide side c).side side = c := Function.update_self ..

/-- The other side stays. -/
theorem setSide_side_of_ne (s : ClientSys cfg) {side other : DmaSide} (c : ClientSide cfg)
    (h : other ≠ side) : (s.setSide side c).side other = s.side other :=
  Function.update_of_ne h ..

/-- What an action of `clientStep` does. -/
inductive ClientStep (test : ClientProg) (s : ClientSys cfg) :
    ClientAct cfg → ClientSys cfg → Prop
  | ioctl (hdone : s.prog = .done) :
      ClientStep test s .ioctl ⟨fun side => { s.side side with stage := .idle }, test⟩
  | check (ans : ClientAnswer cfg) (c : ClientCheck) (failed next : ClientProg)
      (hrest : s.resting = true) (hprog : s.prog = .check c failed next) :
      ClientStep test s (.client ans)
        { s with prog := if s.finds ans c then next else failed }
  | on (ans : ClientAnswer cfg) (side : DmaSide) (op : ChannelOp) (next : ClientProg)
      (c : ClientSide cfg) (hrest : s.resting = true) (hprog : s.prog = .op (.on side op) next)
      (hrun : (s.side side).run ans op = some c) :
      ClientStep test s (.client ans) ({ s with prog := next }.setSide side c)
  /-- An operation on a buffer. -/
  | buffer (ans : ClientAnswer cfg) (o : ClientOp) (next : ClientProg) (hrest : s.resting = true)
      (hprog : s.prog = .op o next) (ho : ∀ side op, o ≠ .on side op) :
      ClientStep test s (.client ans) { s with prog := next }
  | channel (side : DmaSide) (a : VxdmaSys.Act cfg) (c : ClientSide cfg)
      (h : ClientSide.OutsideStep (s.side side) a c) :
      ClientStep test s (.channel side a) (s.setSide side c)
  | callback (side : DmaSide) (c : ClientSide cfg)
      (h : (s.side side).axidmaSyncCallback = some c) :
      ClientStep test s (.callback side) (s.setSide side c)

/-- No `BUG()` on either side. -/
theorem bug_false_iff {s : ClientSys cfg} :
    s.bug = false ↔ ∀ side, (s.side side).sys.chan.bug = false := by
  rw [bug, Bool.or_eq_false_iff]
  constructor
  · rintro ⟨htx, hrx⟩ (_ | _)
    · exact htx
    · exact hrx
  · intro h
    exact ⟨h .tx, h .rx⟩

/-- The client rests when both sides do. -/
theorem resting_iff {s : ClientSys cfg} :
    s.resting = true ↔ ∀ side, (s.side side).resting = true := by
  rw [resting, Bool.and_eq_true]
  constructor
  · rintro ⟨htx, hrx⟩ (_ | _)
    · exact htx
    · exact hrx
  · intro h
    exact ⟨h .tx, h .rx⟩

/-- **Inversion of `clientStep`.** -/
theorem clientStep_inv {test : ClientProg} {s s' : ClientSys cfg} {a : ClientAct cfg}
    (h : clientStep test s a = some s') :
    (∀ side, (s.side side).sys.chan.bug = false) ∧ ClientStep test s a s' := by
  unfold clientStep at h
  cases hbug : s.bug with
  | true => simp [hbug] at h
  | false =>
    simp only [hbug, Bool.false_eq_true, if_false] at h
    refine ⟨bug_false_iff.mp hbug, ?_⟩
    cases a with
    | ioctl =>
      cases hprog : s.prog with
      | done =>
        simp only [hprog, Option.some.injEq] at h
        subst h
        exact .ioctl hprog
      | op => simp [hprog] at h
      | check => simp [hprog] at h
    | client ans =>
      cases hrest : s.resting with
      | false => simp [hrest] at h
      | true =>
        simp only [hrest, if_true, advance] at h
        cases hprog : s.prog with
        | done => simp [hprog] at h
        | check c failed next =>
          simp only [hprog, Option.some.injEq] at h
          subst h
          exact .check ans c failed next hrest hprog
        | op o next =>
          cases o with
          | on side op =>
            simp only [hprog] at h
            obtain ⟨c, hc, rfl⟩ := Option.map_eq_some_iff.mp h
            exact .on ans side op next c hrest hprog hc
          | _ =>
            simp only [hprog, Option.some.injEq] at h
            subst h
            exact .buffer ans _ next hrest hprog (by simp)
    | channel side a =>
      obtain ⟨c, hc, rfl⟩ := Option.map_eq_some_iff.mp h
      exact .channel side a c (ClientSide.outside_inv hc)
    | callback side =>
      obtain ⟨c, hc, rfl⟩ := Option.map_eq_some_iff.mp h
      exact .callback side c hc

/-! ## Pieces of runs -/

/-- The client takes `n` steps, and nothing that it asks for fails. -/
def clientSteps (n : Nat) : List (ClientAct .addr32) := List.replicate n (.client ⟨true, 0⟩)

/-- The call that went on last on this side runs its next `n` sections. -/
def sectionsOn (side : DmaSide) (n : Nat) : List (ClientAct .addr32) :=
  List.replicate n (.channel side (.run 0 ⟨⟨0, true⟩, xilinxDmaXrIrqIocMask, true, true⟩))

/-- `axidma_prep_buffer`. -/
def prepSteps (side : DmaSide) : List (ClientAct .addr32) :=
  clientSteps 1 ++ sectionsOn side 2 ++ clientSteps 1 ++ sectionsOn side 3

/-- `axidma_start_transfer`, up to the wait. -/
def startSteps (side : DmaSide) : List (ClientAct .addr32) := clientSteps 2 ++ sectionsOn side 1

/-- The interrupt handler. -/
def irqSteps (side : DmaSide) : List (ClientAct .addr32) :=
  .channel side .interrupt :: sectionsOn side 3

/-- A callback runs and returns. -/
def callbackSteps (side : DmaSide) : List (ClientAct .addr32) :=
  [.callback side, .channel side .callbackReturn]

/-- Two channels with scatter-gather. -/
def sgProbed : ClientSys .addr32 := probed (fun _ => true) (fun _ => 0) (fun _ => 0)

end ClientSys

end PetalinuxDriver
