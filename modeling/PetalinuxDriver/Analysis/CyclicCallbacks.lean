import PetalinuxDriver.Analysis.BoundedWork
import PetalinuxDriver.Analysis.CompletionLatency

/-!
# The callbacks of a cyclic transfer

A cyclic descriptor stays on `done_list`, and the cleanup calls it back every time it comes to it.
The handler only schedules the tasklet, a tasklet that is scheduled twice runs once, and the cleanup
drops the lock for the callbacks of what stands in front. So there are not as many callbacks as
interrupts. But there are no more of them, and none is missing at the end: when the tasklet has
nothing left to do, the last scheduling since the first period was followed by a callback, and
until something is terminated the descriptor neither completes nor leaves the queues
(`cyclic_callbacks`).
-/

set_option autoImplicit false

namespace PetalinuxDriver

open Library

variable {cfg : PhysAddrConfig}

/-! ## The first cyclic descriptor -/

/-- The first cyclic descriptor of a list. -/
def firstCyclic (list : List (XilinxDmaTxDescriptor cfg)) : Option (XilinxDmaTxDescriptor cfg) :=
  list.find? fun d => d.cyclic

/-- A cyclic descriptor at the front is the first one. -/
@[simp] theorem firstCyclic_cons_of_cyclic {d : XilinxDmaTxDescriptor cfg} (h : d.cyclic = true)
    (l : List (XilinxDmaTxDescriptor cfg)) : firstCyclic (d :: l) = some d :=
  List.find?_cons_of_pos h

/-- A descriptor at the front that is not cyclic does not count. -/
@[simp] theorem firstCyclic_cons_of_not {d : XilinxDmaTxDescriptor cfg} (h : d.cyclic = false)
    (l : List (XilinxDmaTxDescriptor cfg)) : firstCyclic (d :: l) = firstCyclic l :=
  List.find?_cons_of_neg (by simp [h])

/-- The first of two lists, if it has one, and the second otherwise. -/
theorem firstCyclic_append (l r : List (XilinxDmaTxDescriptor cfg)) :
    firstCyclic (l ++ r) = (firstCyclic l).or (firstCyclic r) :=
  List.find?_append

/-- What is appended does not matter when there is one before. -/
theorem firstCyclic_append_left {l : List (XilinxDmaTxDescriptor cfg)}
    {d : XilinxDmaTxDescriptor cfg} (h : firstCyclic l = some d)
    (r : List (XilinxDmaTxDescriptor cfg)) : firstCyclic (l ++ r) = some d := by
  rw [firstCyclic_append, h]
  rfl

/-- What is in front does not matter when nothing of it is cyclic. -/
theorem firstCyclic_append_right {l : List (XilinxDmaTxDescriptor cfg)}
    (h : ∀ d ∈ l, d.cyclic = false) (r : List (XilinxDmaTxDescriptor cfg)) :
    firstCyclic (l ++ r) = firstCyclic r := by
  have hnone : firstCyclic l = none := List.find?_eq_none.mpr fun d hd => by simp [h d hd]
  rw [firstCyclic_append, hnone]
  rfl

/-- The first cyclic descriptor is in the list, and cyclic. -/
theorem firstCyclic_mem {l : List (XilinxDmaTxDescriptor cfg)} {d : XilinxDmaTxDescriptor cfg}
    (h : firstCyclic l = some d) : d ∈ l ∧ d.cyclic = true :=
  ⟨List.mem_of_find?_eq_some h, List.find?_some h⟩

/-- Completing changes the cookies of the others. -/
theorem firstCyclic_map_completedDesc (l : List (XilinxDmaTxDescriptor cfg)) :
    firstCyclic (l.map completedDesc) = firstCyclic l := by
  have hkeeps : (l.find? fun d => d.cyclic).map completedDesc = l.find? fun d => d.cyclic := by
    cases h : l.find? fun d => d.cyclic with
    | none => rfl
    | some d =>
      have hcyc : d.cyclic = true := (firstCyclic_mem h).2
      simp [completedDesc, hcyc]
  rw [firstCyclic, List.find?_map, firstCyclic]
  simp only [Function.comp_def, completedDesc_cyclic]
  exact hkeeps

/-! ## One section -/

/-- What a section does to a cyclic descriptor and to the callbacks, when it does not drop the
lists. -/
structure Onward (s t : XilinxDmaChan cfg) : Prop where
  first : ∀ d, firstCyclic s.queues = some d → firstCyclic t.queues = some d
  done : ∀ d ∈ s.doneList, d ∈ t.doneList
  called : calledIds t = calledIds s

/-- Two steps onward are one. -/
theorem Onward.trans {s t u : XilinxDmaChan cfg} (h : Onward s t) (h' : Onward t u) :
    Onward s u :=
  ⟨fun d hd => h'.first d (h.first d hd), fun d hd => h'.done d (h.done d hd),
    h'.called.trans h.called⟩

/-- The queues may get longer at the end. -/
theorem Onward.of_append {s t : XilinxDmaChan cfg} {l : List (XilinxDmaTxDescriptor cfg)}
    (hqueues : t.queues = s.queues ++ l) (hdone : t.doneList = s.doneList)
    (hcalled : calledIds t = calledIds s) : Onward s t := by
  refine ⟨fun d hd => ?_, fun d hd => ?_, hcalled⟩
  · rw [hqueues]
    exact firstCyclic_append_left hd l
  · rw [hdone]
    exact hd

/-- A step that leaves no trace drops no descriptor and calls nothing back. -/
theorem SameHistory.onward {s t : XilinxDmaChan cfg} (h : SameHistory s t) : Onward s t :=
  .of_append (l := []) (by rw [h.queues, List.append_nil]) h.doneList h.filterMap_log.2.2.1

/-- A start calls nothing back. -/
theorem startTransfer_calledIds (startOk : Bool) (s : XilinxDmaChan cfg) :
    calledIds (xilinxDmaStartTransfer startOk s) = calledIds s := by
  have hquiet : ∀ {w : List Event}, (∀ e ∈ w, e.isBusWrite = true) →
      w.filterMap Event.called = [] := fun hw =>
    List.filterMap_eq_nil_iff.mpr fun e he => (quiet_of_isBusWrite (hw e he)).2.2.1
  rcases startTransfer_cases startOk s with ⟨-, h⟩ | ⟨-, -, c, w, hw, h⟩ | ⟨-, -, c, w, hw, h⟩ <;>
    rw [h]
  · simp only [calledIds, List.filterMap_append, hquiet hw, List.append_nil]
  · simp only [calledIds, List.filterMap_append, hquiet hw, List.append_nil]

/-- A start drops no cyclic descriptor and calls nothing back. -/
theorem startTransfer_onward (startOk : Bool) (s : XilinxDmaChan cfg) :
    Onward s (xilinxDmaStartTransfer startOk s) := by
  obtain ⟨hqueues, hdone, -⟩ := startTransfer_queues startOk s
  exact .of_append (l := []) (by rw [hqueues, List.append_nil]) hdone
    (startTransfer_calledIds startOk s)

/-- The completion drops no cyclic descriptor and calls nothing back. -/
theorem irqComplete_onward (s : XilinxDmaChan cfg) : Onward s (irqComplete s) := by
  have hactive : firstCyclic (irqComplete s).queues = firstCyclic s.queues := by
    rw [irqComplete_eq]
    simp only [XilinxDmaChan.queues, List.nil_append, List.append_assoc, firstCyclic_append,
      firstCyclic_map_completedDesc]
  refine ⟨fun d hd => hactive.trans hd, fun d hd => ?_, ?_⟩
  · rw [irqComplete_eq]
    exact List.mem_append_left _ hd
  · have hnone : (s.activeList.flatMap completeEvents).filterMap Event.called = [] := by
      refine List.filterMap_eq_nil_iff.mpr fun e he => ?_
      rcases mem_completeEvents he with rfl | ⟨d, -, rfl⟩ <;> rfl
    rw [irqComplete_eq, calledIds, calledIds, List.filterMap_append, hnone, List.append_nil]

/-- The section schedules the tasklet. -/
def Call.schedules : Call cfg → Bool
  | .irqSchedule => true
  | _ => false

/-- **One section** leaves the first cyclic descriptor where it is and calls nothing back, and only
the handler's last one schedules the tasklet. -/
theorem VxdmaSys.Section.onward {env : CallEnv} {s t : XilinxDmaChan cfg} {c : Call cfg}
    {after : After cfg} (h : VxdmaSys.Section env s c t after) (hdrop : c.dropsLists = false) :
    Onward s t ∧ t.tasklet = (c.schedules || s.tasklet) := by
  have hsame : c.changesQueues = false → Onward s t := fun hc => (h.sameHistory hc).onward
  cases h with
  | queued d =>
    refine ⟨.of_append (l := [{ d with cookie := nextCookie s }]) ?_ rfl ?_, rfl⟩
    · simp [XilinxDmaChan.queues]
    · simp [calledIds, Event.called]
  | queuedBug d =>
    refine ⟨.of_append (l := [{ d with cookie := nextCookie s }]) ?_ rfl ?_, rfl⟩
    · simp [XilinxDmaChan.queues]
    · simp [calledIds, Event.called]
  | issue =>
    exact ⟨startTransfer_onward env.startOk s, (startTransfer_queues env.startOk s).2.2⟩
  | irqLock =>
    refine ⟨(irqComplete_onward s).trans (startTransfer_onward env.startOk _), ?_⟩
    rw [(startTransfer_queues env.startOk _).2.2, irqComplete_eq]
    rfl
  | terminate => cases hdrop
  | terminateFree => cases hdrop
  | freeChan => cases hdrop
  | buildError => exact ⟨hsame rfl, by rw [freeTxDescriptor_eq]; rfl⟩
  | submitRefused => exact ⟨hsame rfl, by rw [freeTxDescriptor_eq]; rfl⟩
  | irqIoc => exact ⟨hsame rfl, by rw [irqAck_eq]; rfl⟩
  | irqOther => exact ⟨hsame rfl, by rw [irqAck_eq]; rfl⟩
  | terminateClear => exact ⟨hsame rfl, by rw [clearCyclic_eq]; rfl⟩
  | _ => exact ⟨hsame rfl, rfl⟩

/-! ## The cleanup -/

/-- The cleanup holds a descriptor and has the rest of `done_list` before it. -/
def CleanupPc.goesOn : CleanupPc cfg → Bool
  | .callback _ => true
  | _ => false

/-- What the cleanup does with the first cyclic descriptor of the queues, which has a callback: it
calls it back and is over, or it stops before it, with a descriptor of another name that it calls
back, or it does not find it on `done_list`. -/
structure ComesTo (d : XilinxDmaTxDescriptor cfg) (s t : XilinxDmaChan cfg)
    (pc : CleanupPc cfg) : Prop where
  first : firstCyclic t.queues = some d
  count : (calledIds t).count d.id + pc.goesOn.toNat ≤ (calledIds s).count d.id + 1
  comes : d ∈ s.doneList →
    (calledIds s).count d.id < (calledIds t).count d.id ∨ pc.goesOn = true ∧ d ∈ t.doneList

/-- Where a cleanup comes to depends on the history only. -/
theorem ComesTo.congr_left {d : XilinxDmaTxDescriptor cfg} {s u t : XilinxDmaChan cfg}
    {pc : CleanupPc cfg} (h : ComesTo d u t pc) (hsame : SameHistory s u) : ComesTo d s t pc := by
  have hcount := h.count
  have hcomes := h.comes
  rw [hsame.filterMap_log.2.2.1] at hcount hcomes
  rw [hsame.doneList] at hcomes
  exact ⟨h.first, hcount, hcomes⟩

/-- This is what a whole cleanup does. -/
theorem cleanup_comesTo {d : XilinxDmaTxDescriptor cfg} {s : XilinxDmaChan cfg}
    (hfirst : firstCyclic s.queues = some d) (hcb : d.callback.isSome = true)
    (hnames : (s.queues.map XilinxDmaTxDescriptor.id).Nodup) :
    ComesTo d s (xilinxDmaChanDescCleanup s).1 (xilinxDmaChanDescCleanup s).2 := by
  obtain ⟨freed, rest, hsplit, hfreed, hcases⟩ := cleanupLoop_cases s.doneList s rfl
  have hqueues : s.queues = freed ++ (rest ++ (s.activeList ++ s.pendingList)) := by
    rw [XilinxDmaChan.queues, hsplit, List.append_assoc]
  have hrest : firstCyclic (rest ++ (s.activeList ++ s.pendingList)) = some d := by
    rw [← hfirst, hqueues, firstCyclic_append_right fun e he => (hfreed e he).1]
  have hcyc : d.cyclic = true := (firstCyclic_mem hfirst).2
  have hmem : d ∈ s.doneList → d ∈ rest := by
    intro hd
    rw [hsplit] at hd
    refine (List.mem_append.mp hd).resolve_left fun hd => ?_
    rw [(hfreed d hd).1] at hcyc
    cases hcyc
  have hcomesTo : ∀ {e : XilinxDmaTxDescriptor cfg} {tl : List (XilinxDmaTxDescriptor cfg)},
      e.cyclic = true → rest = e :: tl → e = d := by
    intro e tl he htl
    rw [htl, List.cons_append, firstCyclic_cons_of_cyclic he] at hrest
    exact Option.some.inj hrest
  unfold xilinxDmaChanDescCleanup
  rcases hcases with ⟨hnil, h⟩ | ⟨e, tl, htl, hcyce, hnone, h⟩ | ⟨e, tl, htl, hcyce, h⟩ |
      ⟨e, tl, htl, hcyce, h⟩ <;> rw [h]
  · refine ⟨hrest, Nat.le_succ _, fun hd => ?_⟩
    have hd := hmem hd
    rw [hnil] at hd
    cases hd
  · -- the cyclic descriptor that the cleanup has come to is the first one, which has a callback
    rw [← hcomesTo hcyce htl, hnone] at hcb
    cases hcb
  · have hed := hcomesTo hcyce htl
    have hcalled : calledIds ({ s with
        mem := cleanSegs (segsOf freed) s.mem
        freeSegList := s.freeSegList ++ segsOf freed
        doneList := rest }.emit (.callback e.id)) = calledIds s ++ [d.id] := by
      simp [calledIds, XilinxDmaChan.emit, Event.called, hed]
    refine ⟨hrest, ?_, fun _ => Or.inl ?_⟩
    · rw [hcalled]
      simp [CleanupPc.goesOn]
    · rw [hcalled]
      simp
  · have hne : e.id ≠ d.id := by
      intro hid
      have hin : d ∈ tl ++ (s.activeList ++ s.pendingList) := by
        have hd := (firstCyclic_mem hrest).1
        rw [htl, List.cons_append, List.mem_cons] at hd
        refine hd.resolve_left ?_
        rintro rfl
        rw [hcyce] at hcyc
        cases hcyc
      rw [hqueues, htl, List.map_append, List.nodup_append] at hnames
      have htail := hnames.2.1
      rw [List.cons_append, List.map_cons, List.nodup_cons, hid] at htail
      exact htail.1 (List.mem_map_of_mem hin)
    have hcalled : calledIds ({ s with
        mem := cleanSegs (segsOf freed) s.mem
        freeSegList := s.freeSegList ++ segsOf freed
        doneList := tl }.emit (.callback e.id)) = calledIds s ++ [e.id] := by
      simp [calledIds, XilinxDmaChan.emit, Event.called]
    have htail : firstCyclic (tl ++ (s.activeList ++ s.pendingList)) = some d := by
      rw [← hrest, htl, List.cons_append, firstCyclic_cons_of_not hcyce]
    refine ⟨htail, ?_, fun hd => Or.inr ⟨rfl, ?_⟩⟩
    · rw [hcalled, List.count_append, List.count_singleton]
      simp [CleanupPc.goesOn, hne]
    · have hd := hmem hd
      rw [htl, List.mem_cons] at hd
      refine hd.resolve_left ?_
      rintro rfl
      exact hne rfl

namespace VxdmaSys

/-! ## Runs -/

/-- What the tasklet has left to do: a run that is scheduled, and the rest of one after a
callback. -/
def due (s : VxdmaSys cfg) : Nat := s.chan.tasklet.toNat + s.cleanup.goesOn.toNat

/-- The action schedules the tasklet. -/
def schedulesTasklet (s : VxdmaSys cfg) : Act cfg → Bool
  | .run i _ =>
    match s.calls[i]? with
    | some c => c.schedules
    | none => false
  | _ => false

/-- What the handler asked for: how often it has scheduled the tasklet, and whether it has done so
with a descriptor on `done_list` that was not called back since. -/
structure Periods where
  scheduled : Nat
  owed : Bool
deriving DecidableEq

/-- The account for the descriptor with a name. -/
def periods (id : Nat) (g : Periods) (s : VxdmaSys cfg) (a : Act cfg) (s' : VxdmaSys cfg) :
    Periods :=
  if s.schedulesTasklet a then
    ⟨g.scheduled + 1, g.owed || s.chan.doneList.any fun d => d.id == id⟩
  else if (calledIds s.chan).count id < (calledIds s'.chan).count id then ⟨g.scheduled, false⟩
  else g

/-- What an action other than a step of the cleanup does. -/
theorem sectionStep_onward {s s' : VxdmaSys cfg} {a : Act cfg} (h : s.sectionStep a = some s')
    (hquiet : ∀ c ∈ s.calls, c.dropsLists = false) (ha : a ≠ .tasklet ∧ a ≠ .callbackReturn) :
    Onward s.chan s'.chan ∧ s'.chan.tasklet = (s.schedulesTasklet a || s.chan.tasklet) ∧
      s'.cleanup = s.cleanup := by
  obtain ⟨hbug, hstep⟩ := sectionStep_inv h
  have hsame : ∀ {t : XilinxDmaChan cfg}, t.queues = s.chan.queues → t.doneList = s.chan.doneList →
      calledIds t = calledIds s.chan → Onward s.chan t := fun hqueues hdone hcalled =>
    .of_append (l := []) (by rw [hqueues, List.append_nil]) hdone hcalled
  cases hstep with
  | prepNull a hentry =>
    refine ⟨hsame rfl rfl rfl, ?_, rfl⟩
    cases a <;> first | rfl | cases hentry
  | prepBuild a chunks b hentry =>
    refine ⟨hsame rfl rfl rfl, ?_, rfl⟩
    cases a <;> first | rfl | cases hentry
  | allocChanResources zalloc =>
    cases zalloc with
    | none => exact ⟨hsame rfl rfl rfl, rfl, rfl⟩
    | some segP =>
      refine ⟨hsame rfl rfl ?_, rfl, rfl⟩
      simp [xilinxDmaAllocChanResources, calledIds, XilinxDmaChan.dmaCtrlWrite,
        XilinxDmaChan.emit, Event.called]
  | run i env c s' hc hleave =>
    obtain ⟨honward, htasklet⟩ :=
      (run_inv env hbug c).onward (hquiet c (List.mem_of_getElem? hc))
    rw [leave_eq hleave]
    refine ⟨honward, ?_, rfl⟩
    simp only [schedulesTasklet, hc]
    exact htasklet
  | tasklet => exact absurd rfl ha.1
  | callbackReturn => exact absurd rfl ha.2
  | _ => exact ⟨hsame rfl rfl rfl, rfl, rfl⟩

/-- No two descriptors on the queues have one name. -/
theorem queues_nodup_of_reachable {hasSg : Bool} {ctrlOffset : Nat} {dmacr : BitVec 32}
    {s : VxdmaSys cfg} (h : Reachable sectionStep always (probed hasSg ctrlOffset dmacr) s) :
    (s.chan.queues.map XilinxDmaTxDescriptor.id).Nodup := by
  have hsubmitted := Multiset.coe_nodup.mpr (namesOnce_of_reachable h).submittedIds_nodup
  have hle := (Multiset.le_add_right _ _).trans (underway_of_reachable h)
  exact Multiset.coe_nodup.mp (Multiset.nodup_of_le hle hsubmitted)

/-- The account of a cyclic descriptor: `n` callbacks were made or due when it began. -/
structure CallbackInv (n : Nat) (d : XilinxDmaTxDescriptor cfg) (s : VxdmaSys cfg) (g : Periods) :
    Prop where
  quiet : ∀ c ∈ s.calls, c.dropsLists = false
  first : firstCyclic s.chan.queues = some d
  count : (calledIds s.chan).count d.id + s.due ≤ n + g.scheduled
  owed : g.owed = true → 1 ≤ s.due ∧ d ∈ s.chan.doneList

variable {n : Nat} {d : XilinxDmaTxDescriptor cfg} {s s' : VxdmaSys cfg} {g : Periods} {a : Act cfg}

/-- An action other than a step of the cleanup keeps the account. -/
theorem CallbackInv.onward (hs : CallbackInv n d s g)
    (hnames : (s.chan.queues.map XilinxDmaTxDescriptor.id).Nodup)
    (hquiet : ∀ c ∈ s'.calls, c.dropsLists = false) (h : Onward s.chan s'.chan)
    (htasklet : s'.chan.tasklet = (s.schedulesTasklet a || s.chan.tasklet))
    (hcleanup : s'.cleanup.goesOn = s.cleanup.goesOn) :
    CallbackInv n d s' (periods d.id g s a s') := by
  have hcount := hs.count
  cases ha : s.schedulesTasklet a with
  | false =>
    have hdue : s'.due = s.due := by rw [due, due, htasklet, hcleanup, ha, Bool.false_or]
    have hperiods : periods d.id g s a s' = g := by
      rw [periods, ha, h.called]
      simp
    rw [hperiods]
    refine ⟨hquiet, h.first d hs.first, ?_, fun howed => ?_⟩
    · rw [h.called, hdue]
      exact hcount
    · obtain ⟨hpos, hdone⟩ := hs.owed howed
      rw [hdue]
      exact ⟨hpos, h.done d hdone⟩
  | true =>
    have hdue : 1 ≤ s'.due ∧ s'.due ≤ s.due + 1 := by
      rw [due, due, htasklet, hcleanup, ha, Bool.true_or, Bool.toNat_true]
      omega
    have hperiods : periods d.id g s a s' =
        ⟨g.scheduled + 1, g.owed || s.chan.doneList.any fun e => e.id == d.id⟩ := by
      rw [periods, ha, if_pos rfl]
    rw [hperiods]
    refine ⟨hquiet, h.first d hs.first, ?_, fun howed => ⟨hdue.1, h.done d ?_⟩⟩
    · rw [h.called]
      simp only
      omega
    · rcases Bool.or_eq_true_iff.mp howed with howed | hany
      · exact (hs.owed howed).2
      · obtain ⟨e, he, hid⟩ := List.any_eq_true.mp hany
        have hmem : ∀ f ∈ s.chan.doneList, f ∈ s.chan.queues := fun f hf =>
          List.mem_append_left _ hf
        have heq : e = d := List.inj_on_of_nodup_map hnames (hmem e he) (firstCyclic_mem hs.first).1
          (beq_iff_eq.mp hid)
        exact heq ▸ he

/-- A step of the cleanup takes one of what is due, and comes to the descriptor or goes on. -/
theorem CallbackInv.cleanup (hs : CallbackInv n d s g)
    (hquiet : ∀ c ∈ s'.calls, c.dropsLists = false) (ha : s.schedulesTasklet a = false)
    (h : ComesTo d s.chan s'.chan s'.cleanup) (hdue : s.due = s'.chan.tasklet.toNat + 1) :
    CallbackInv n d s' (periods d.id g s a s') := by
  have hcount := hs.count
  have hcomes := h.count
  have hafter : s'.due = s'.chan.tasklet.toNat + s'.cleanup.goesOn.toNat := rfl
  have hle : (calledIds s'.chan).count d.id + s'.due ≤ n + g.scheduled := by omega
  by_cases hcalled : (calledIds s.chan).count d.id < (calledIds s'.chan).count d.id
  · have hperiods : periods d.id g s a s' = ⟨g.scheduled, false⟩ := by
      rw [periods, ha, if_neg Bool.false_ne_true, if_pos hcalled]
    rw [hperiods]
    exact ⟨hquiet, h.first, hle, fun howed => absurd howed Bool.false_ne_true⟩
  · have hperiods : periods d.id g s a s' = g := by
      rw [periods, ha, if_neg Bool.false_ne_true, if_neg hcalled]
    rw [hperiods]
    refine ⟨hquiet, h.first, hle, fun howed => ?_⟩
    obtain ⟨hgoes, hdone⟩ := (h.comes (hs.owed howed).2).resolve_left hcalled
    rw [hafter, hgoes, Bool.toNat_true]
    exact ⟨Nat.le_add_left 1 _, hdone⟩

/-- **One action keeps the account.** -/
theorem sectionStep_callbackInv (hs : CallbackInv n d s g) (hcb : d.callback.isSome = true)
    (hnames : (s.chan.queues.map XilinxDmaTxDescriptor.id).Nodup) (hok : s.NoDrop a)
    (h : s.sectionStep a = some s') : CallbackInv n d s' (periods d.id g s a s') := by
  have hquiet := sectionStep_keepsLists h hok.ne hs.quiet
  have hother : a ≠ .tasklet ∧ a ≠ .callbackReturn →
      CallbackInv n d s' (periods d.id g s a s') := by
    intro ha
    obtain ⟨honward, htasklet, hcleanup⟩ := sectionStep_onward h hs.quiet ha
    exact hs.onward hnames hquiet honward htasklet (by rw [hcleanup])
  obtain ⟨hbug, hstep⟩ := sectionStep_inv h
  cases hstep with
  | prepNull a hentry => exact hother (by constructor <;> rintro rfl <;> cases hentry)
  | prepBuild a chunks b hentry => exact hother (by constructor <;> rintro rfl <;> cases hentry)
  | tasklet hidle hsched =>
    have hcomes := cleanup_comesTo (s := { s.chan with tasklet := false }) hs.first hcb hnames
    have hflag : SameHistory s.chan { s.chan with tasklet := false } :=
      ⟨rfl, rfl, rfl, rfl, rfl, [], by simp, by simp⟩
    refine hs.cleanup hquiet rfl (hcomes.congr_left hflag) ?_
    rw [due, hidle, hsched, (cleanup_work { s.chan with tasklet := false }).2]
    rfl
  | callbackReturn hbusy =>
    cases hpc : s.cleanup with
    | idle => exact absurd hpc hbusy
    | cyclicCallback =>
      exact hs.onward hnames hquiet (SameHistory.refl s.chan).onward rfl (by rw [hpc]; rfl)
    | callback e =>
      have hfree := freeTxDescriptor_sameHistory s.chan e.segments
      have hcomes := cleanup_comesTo (s := xilinxDmaFreeTxDescriptor s.chan e.segments)
        (by rw [hfree.queues]; exact hs.first) hcb (by rw [hfree.queues]; exact hnames)
      refine hs.cleanup hquiet rfl (hcomes.congr_left hfree) ?_
      rw [due, hpc]
      simp only [cleanupResume, (cleanup_work _).2]
      rw [freeTxDescriptor_eq]
      rfl
  | _ => exact hother ⟨by simp, by simp⟩

/-! ## A cyclic descriptor does not complete -/

/-- Only what is not cyclic gets its cookie completed. -/
theorem mem_completeEvents_completed {ds : List (XilinxDmaTxDescriptor cfg)} {id : Nat}
    (h : id ∈ (ds.flatMap completeEvents).filterMap Event.completed) :
    ∃ d ∈ ds, d.cyclic = false ∧ d.id = id := by
  obtain ⟨e, he, hid⟩ := List.mem_filterMap.mp h
  obtain ⟨d, hd, he⟩ := List.mem_flatMap.mp he
  cases hcyc : d.cyclic with
  | true =>
    have hevents : completeEvents d = [] := if_pos hcyc
    rw [hevents] at he
    cases he
  | false =>
    have hmem : id ∈ (completeEvents d).filterMap Event.completed :=
      List.mem_filterMap.mpr ⟨e, he, hid⟩
    rw [completeEvents_completed hcyc] at hmem
    exact ⟨d, hd, hcyc, (List.mem_singleton.mp hmem).symm⟩

/-- A section completes no cyclic descriptor, and accepts none that was completed. -/
theorem Section.uncompleted {env : CallEnv} {s t : XilinxDmaChan cfg} {c : Call cfg}
    {after : After cfg} (h : Section env s c t after)
    (hnames : (s.queues.map XilinxDmaTxDescriptor.id).Nodup)
    (hfresh : ∀ id ∈ c.ids, id ∉ completedIds s)
    (hs : ∀ d ∈ s.queues, d.cyclic = true → d.id ∉ completedIds s) :
    ∀ d ∈ t.queues, d.cyclic = true → d.id ∉ completedIds t := by
  have hqueued : ∀ {t : XilinxDmaChan cfg} {d : XilinxDmaTxDescriptor cfg}, d.id ∈ c.ids →
      t.queues = s.queues ++ [d] → completedIds t = completedIds s →
      ∀ d ∈ t.queues, d.cyclic = true → d.id ∉ completedIds t := by
    intro t d hd hqueues hcompleted e he hcyc
    rw [hcompleted]
    rw [hqueues] at he
    rcases List.mem_append.mp he with he | he
    · exact hs e he hcyc
    · rw [List.mem_singleton.mp he]
      exact hfresh d.id hd
  have hnil : t.queues = [] → ∀ d ∈ t.queues, d.cyclic = true → d.id ∉ completedIds t := by
    intro hnil d hd
    rw [hnil] at hd
    cases hd
  by_cases hchanges : c.changesQueues = false
  · have hsame := h.sameHistory hchanges
    rw [hsame.queues, hsame.filterMap_log.2.1]
    exact hs
  · cases h with
    | queued d =>
      refine hqueued (d := { d with cookie := nextCookie s }) (by simp [Call.ids]) ?_ ?_
      · simp [XilinxDmaChan.queues]
      · simp [completedIds, Event.completed]
    | queuedBug d =>
      refine hqueued (d := { d with cookie := nextCookie s }) (by simp [Call.ids]) ?_ ?_
      · simp [XilinxDmaChan.queues]
      · simp [completedIds, Event.completed]
    | issue =>
      rw [(startTransfer_queues env.startOk s).1, startTransfer_completedIds]
      exact hs
    | irqLock =>
      rw [(startTransfer_queues env.startOk _).1, startTransfer_completedIds, irqComplete_eq]
      intro d hd hcyc hmem
      obtain ⟨e, he, hid, hecyc⟩ : ∃ e ∈ s.queues, e.id = d.id ∧ e.cyclic = true := by
        simp only [XilinxDmaChan.queues, List.nil_append, List.mem_append, List.mem_map] at hd
        rcases hd with (hd | ⟨e, he, rfl⟩) | hd
        · exact ⟨d, by simp [XilinxDmaChan.queues, hd], rfl, hcyc⟩
        · rw [completedDesc_cyclic] at hcyc
          exact ⟨e, by simp [XilinxDmaChan.queues, he], (completedDesc_id e).symm, hcyc⟩
        · exact ⟨d, by simp [XilinxDmaChan.queues, hd], rfl, hcyc⟩
      rw [completedIds, List.filterMap_append, ← hid] at hmem
      rcases List.mem_append.mp hmem with hold | hnew
      · exact hs e he hecyc hold
      · -- what is completed now has the name of one that is not cyclic
        obtain ⟨f, hf, hfcyc, hfid⟩ := mem_completeEvents_completed hnew
        have heq : f = e :=
          List.inj_on_of_nodup_map hnames (by simp [XilinxDmaChan.queues, hf]) he hfid
        rw [heq, hecyc] at hfcyc
        cases hfcyc
    | terminateFree => exact hnil (by rw [freeDescriptors_eq]; rfl)
    | freeChan => exact hnil (by rw [freeDescriptors_eq]; rfl)
    | _ => exact absurd rfl hchanges

/-- Only a section of a call brings descriptors onto the queues. -/
theorem sectionStep_queues_subset {s s' : VxdmaSys cfg} {a : Act cfg}
    (h : s.sectionStep a = some s') (ha : ∀ i env, a ≠ .run i env) :
    s'.chan.queues ⊆ s.chan.queues := by
  obtain ⟨hbug, hstep⟩ := sectionStep_inv h
  cases hstep with
  | allocChanResources zalloc =>
    change (xilinxDmaAllocChanResources zalloc s.chan).1.queues ⊆ s.chan.queues
    rw [(alloc_sameQueues zalloc s.chan).1]
    exact List.Subset.refl _
  | run i env => exact absurd rfl (ha i env)
  | tasklet => exact cleanup_queues { s.chan with tasklet := false }
  | callbackReturn => exact cleanupResume_queues s.cleanup s.chan
  | _ => exact List.Subset.refl _

/-- In every run, a cyclic descriptor in the queues is not complete. -/
theorem uncompleted_of_reachable {hasSg : Bool} {ctrlOffset : Nat} {dmacr : BitVec 32}
    {s : VxdmaSys cfg} (h : Reachable sectionStep always (probed hasSg ctrlOffset dmacr) s) :
    ∀ d ∈ s.chan.queues, d.cyclic = true → d.id ∉ completedIds s.chan := by
  induction h with
  | refl =>
    intro d hd
    cases hd
  | tail hreach hlast ih =>
    obtain ⟨a, -, hstep⟩ := hlast
    by_cases ha : ∃ i env, a = .run i env
    · obtain ⟨i, env, rfl⟩ := ha
      obtain ⟨c, hc, hsection, rfl⟩ := sectionStep_run hstep
      refine hsection.uncompleted (queues_nodup_of_reachable hreach) ?_ ih
      intro id hid hmem
      have hsubmitted := Multiset.mem_of_le
        ((Multiset.le_add_left _ _).trans (completed_of_reachable hreach))
        (Multiset.mem_coe.mpr hmem)
      exact (namesOnce_of_reachable hreach).notMem_submittedIds (List.mem_of_getElem? hc) hid
        (Multiset.mem_coe.mp hsubmitted)
    · have hother : ∀ i env, a ≠ .run i env := fun i env heq => ha ⟨i, env, heq⟩
      intro d hd hcyc
      rw [(sectionStep_quiet hstep hother).2]
      exact ih d (sectionStep_queues_subset hstep hother hd) hcyc

/-! ## The result -/

/-- **The callbacks of a cyclic transfer.** In every run in which nothing is terminated or released,
however calls, interrupts, callbacks and racing submits interleave: the first cyclic descriptor of
the queues, if it has a callback, stays on the queues and does not complete; it is called back no
more often than the handler has scheduled the tasklet, but for what was due when the run began; and
when the tasklet has nothing left to do, every scheduling that found it on `done_list` was followed
by a callback of it. -/
theorem cyclic_callbacks {hasSg : Bool} {ctrlOffset : Nat} {dmacr : BitVec 32}
    {s₀ s : VxdmaSys cfg} {d : XilinxDmaTxDescriptor cfg} {g : Periods}
    (hused : Reachable sectionStep always (probed hasSg ctrlOffset dmacr) s₀)
    (hquiet : ∀ c ∈ s₀.calls, c.dropsLists = false)
    (hfirst : firstCyclic s₀.chan.queues = some d) (hcb : d.callback.isSome = true)
    (h : Reachable (withGhost sectionStep (periods d.id)) (fun sg a => sg.1.NoDrop a)
      (s₀, ⟨0, false⟩) (s, g)) :
    d ∈ s.chan.queues ∧ d.id ∉ completedIds s.chan ∧
      (calledIds s.chan).count d.id + s.due ≤
        (calledIds s₀.chan).count d.id + s₀.due + g.scheduled ∧
      (s.due = 0 → g.owed = false) := by
  let n := (calledIds s₀.chan).count d.id + s₀.due
  let Inv : VxdmaSys cfg → Periods → Prop := fun s g =>
    Reachable sectionStep always (probed hasSg ctrlOffset dmacr) s ∧ CallbackInv n d s g
  have hinv : Inv s g := by
    refine h.ghost_invariant ⟨hused, hquiet, hfirst, Nat.le_refl _, ?_⟩ ?_
    · exact fun howed => absurd howed Bool.false_ne_true
    · rintro s g a s' ⟨hreach, hs⟩ hok hstep
      exact ⟨hreach.tail a trivial hstep,
        sectionStep_callbackInv hs hcb (queues_nodup_of_reachable hreach) hok hstep⟩
  obtain ⟨hreach, hs⟩ := hinv
  obtain ⟨hmem, hcyc⟩ := firstCyclic_mem hs.first
  refine ⟨hmem, uncompleted_of_reachable hreach d hmem hcyc, hs.count, fun hdue => ?_⟩
  cases howed : g.owed with
  | false => rfl
  | true =>
    have hpos := (hs.owed howed).1
    omega

/-- A cyclic descriptor is queued behind another one, both with a callback. -/
def behindPlain : List (Act .addr32) :=
  let env : CallEnv := ⟨⟨0, true⟩, 0, true, true⟩
  [.allocChanResources (some 0), .prepSlaveSg ⟨[⟨0, 4⟩], .memToDev, none, true⟩] ++ sections 2 env ++
  [.txSubmit 0 (some 0)] ++ sections 3 env ++ [.prepDmaCyclic ⟨64, 8, 4, .memToDev, true⟩] ++
  sections 3 env ++ [.txSubmit 0 (some 0)] ++ sections 3 env

/-- Two interrupts, the second one during the callback of the descriptor in front, and the tasklet
runs for each. -/
def twoPeriods : List (Act .addr32) :=
  let env : CallEnv := ⟨⟨0, true⟩, xilinxDmaXrIrqIocMask, true, true⟩
  [.issuePending] ++ sections 1 env ++ [.interrupt] ++ sections 3 env ++ [.tasklet, .interrupt] ++
  sections 3 env ++ [.callbackReturn, .callbackReturn, .tasklet, .callbackReturn]

/-- Two periods behind a plain descriptor, with a callback after each. -/
theorem cyclic_callbacks_twoPeriods :
    ∃ s₀ s d, exec sectionStep (probed true 0 0) behindPlain = some s₀ ∧
      firstCyclic s₀.chan.queues = some d ∧ d.id = 1 ∧
      exec (withGhost sectionStep (periods 1)) (s₀, ⟨0, false⟩) twoPeriods = some (s, ⟨2, false⟩) ∧
      calledIds s.chan = [0, 1, 1] ∧ s.due = 0 ∧ d ∈ s.chan.queues ∧
      d.id ∉ completedIds s.chan := by
  have hexec : ((exec sectionStep (probed true 0 0) behindPlain).bind fun s₀ =>
      (firstCyclic s₀.chan.queues).bind fun d =>
        (exec (withGhost sectionStep (periods 1)) (s₀, ⟨0, false⟩) twoPeriods).map fun sg =>
          ((d.id, d.callback.isSome, s₀.calls.length), sg.2, calledIds sg.1.chan, sg.1.due)) =
      some ((1, true, 0), ⟨2, false⟩, [0, 1, 1], 0) := by
    decide +kernel
  obtain ⟨s₀, hs₀, hrest⟩ := Option.bind_eq_some_iff.mp hexec
  obtain ⟨d, hd, hrest⟩ := Option.bind_eq_some_iff.mp hrest
  obtain ⟨⟨s, g⟩, hs, hfacts⟩ := Option.map_eq_some_iff.mp hrest
  obtain ⟨⟨hid, hcb, hnone⟩, rfl, hcalled, hdue⟩ :
      (d.id = 1 ∧ d.callback.isSome = true ∧ s₀.calls.length = 0) ∧ g = ⟨2, false⟩ ∧
        calledIds s.chan = [0, 1, 1] ∧ s.due = 0 := by
    simpa using hfacts
  have hcalls := List.length_eq_zero_iff.mp hnone
  have hused : Reachable sectionStep always (probed true 0 0) s₀ :=
    Reachable.of_exec (Reachable.execOk_of_forall fun _ _ _ => trivial) hs₀
  have hok : ∀ s₀ ∈ exec sectionStep (probed true 0 0) behindPlain,
      ExecOk (withGhost sectionStep (periods 1)) (fun sg a => sg.1.NoDrop a) (s₀, ⟨0, false⟩)
        twoPeriods := by
    decide +kernel
  have hrun := Reachable.of_exec (hok s₀ hs₀) hs
  rw [← hid] at hrun
  obtain ⟨hmem, hcompleted, -, -⟩ :=
    cyclic_callbacks hused (by simp [hcalls]) hd hcb hrun
  exact ⟨s₀, s, d, hs₀, hd, hid, hs, hcalled, hdue, hmem, hcompleted⟩

end VxdmaSys

end PetalinuxDriver
