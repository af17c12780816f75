import PetalinuxDriver.Analysis.ControlRegister
import PetalinuxDriver.Analysis.History

/-!
# Starting a batch is all or nothing

The write that makes the engine go is the last one of `xilinx_dma_start_transfer`, and there is
one or none: all early exits come before it, and nothing that can fail comes after
(`startTransfer_outcome`). So what waits on `pending_list` is exactly what was accepted since the
last such write, however often a start was given up in between (`sectionStep_waiting`), and the
next one takes all of it along.
-/

set_option autoImplicit false

namespace PetalinuxDriver

open Library

variable {cfg : PhysAddrConfig}

/-! ## One start -/

/-- The event is a write of `TAILDESC` or of `BTT`, which makes the engine go. -/
def Event.startsEngine (ctrlOffset : Nat) : Event → Bool
  | .iowrite32 offset _ =>
    offset == ctrlOffset + xilinxDmaRegTaildesc || offset == ctrlOffset + xilinxDmaRegBtt
  | .writeq offset _ =>
    offset == ctrlOffset + xilinxDmaRegTaildesc || offset == ctrlOffset + xilinxDmaRegBtt
  | _ => false

/-- An address starts the engine when it is written to TAILDESC or to BTT. -/
theorem addrWrite_startsEngine {n : Nat} (ctrlOffset reg : Nat) (value : BitVec n) :
    (addrWrite cfg (ctrlOffset + reg) value).startsEngine ctrlOffset =
      (reg == xilinxDmaRegTaildesc || reg == xilinxDmaRegBtt) := by
  rw [Bool.eq_iff_iff]
  cases cfg <;> simp [addrWrite, Event.startsEngine]

/-- A word starts the engine when it is written to TAILDESC or to BTT. -/
theorem iowrite32_startsEngine (ctrlOffset reg : Nat) (value : BitVec 32) :
    (Event.iowrite32 (ctrlOffset + reg) value).startsEngine ctrlOffset =
      (reg == xilinxDmaRegTaildesc || reg == xilinxDmaRegBtt) := by
  rw [Bool.eq_iff_iff]
  simp [Event.startsEngine]

/-- Nothing of a start is visible: the engine was not made to go, and the queues are as before. -/
structure StartNone (s t : XilinxDmaChan cfg) (w : List Event) : Prop where
  log : t.log = s.log ++ w
  noGo : ∀ e ∈ w, e.startsEngine s.ctrlOffset = false
  pendingList : t.pendingList = s.pendingList
  activeList : t.activeList = s.activeList
  idle : t.idle = s.idle
  descPendingcount : t.descPendingcount = s.descPendingcount

/-- The engine was made to go by one write, after the control register was written with the run
bit, and the whole queue is with it. -/
structure StartAll (s t : XilinxDmaChan cfg) (pre : List Event) (go : Event) : Prop where
  log : t.log = s.log ++ (pre ++ [go])
  noGo : ∀ e ∈ pre, e.startsEngine s.ctrlOffset = false
  goes : go.startsEngine s.ctrlOffset = true
  running : ∃ v, .iowrite32 (s.ctrlOffset + xilinxDmaRegControl) v ∈ pre ∧
    hasBits v xilinxDmaCrRunstopMask = true
  batch : s.pendingList ≠ []
  activeList : t.activeList = s.activeList ++ s.pendingList
  pendingList : t.pendingList = []
  descPendingcount : t.descPendingcount = 0
  idle : t.idle = false
  /-- With scatter-gather the engine is given the two ends of the queue. -/
  ends : s.hasSg = true → ∃ headDesc tailDesc, s.pendingList.head? = some headDesc ∧
    s.pendingList.getLast? = some tailDesc ∧
    addrWrite cfg (s.ctrlOffset + xilinxDmaRegCurdesc) headDesc.phys ∈ pre ∧
    go = addrWrite cfg (s.ctrlOffset + xilinxDmaRegTaildesc) (s.mem tailDesc.lastSegment).phys

/-- What comes before does not start it. -/
theorem startEvents_noGo (s : XilinxDmaChan cfg) (headDesc : XilinxDmaTxDescriptor cfg) :
    ∀ e ∈ startEvents s headDesc, e.startsEngine s.ctrlOffset = false := by
  intro e he
  simp only [startEvents, List.mem_append, List.mem_singleton] at he
  rcases he with (he | he) | rfl
  · split at he
    · rw [List.mem_singleton.mp he, iowrite32_startsEngine]
      decide
    · cases he
  · split at he
    · rw [List.mem_singleton.mp he, addrWrite_startsEngine]
      decide
    · cases he
  · rw [iowrite32_startsEngine]
    decide

/-- The run bit is set before. -/
theorem startEvents_running (s : XilinxDmaChan cfg) (headDesc : XilinxDmaTxDescriptor cfg) :
    .iowrite32 (s.ctrlOffset + xilinxDmaRegControl) (startCtrl s) ∈ startEvents s headDesc ∧
      hasBits (startCtrl s) xilinxDmaCrRunstopMask = true := by
  refine ⟨?_, ?_⟩
  · exact List.mem_append_right _ (List.mem_singleton_self _)
  · rw [hasBits, startCtrl_runstop]
    decide

/-- With scatter-gather CURDESC is written before. -/
theorem startEvents_curdesc {s : XilinxDmaChan cfg} (headDesc : XilinxDmaTxDescriptor cfg)
    (hsg : s.hasSg = true) :
    addrWrite cfg (s.ctrlOffset + xilinxDmaRegCurdesc) headDesc.phys ∈ startEvents s headDesc := by
  simp [startEvents, hsg]

/-- The last of the writes that hand over the batch makes the engine go, and it is the only one. -/
theorem goEvents_eq (s : XilinxDmaChan cfg) (headDesc tailDesc : XilinxDmaTxDescriptor cfg) :
    ∃ pre go, goEvents s headDesc tailDesc = pre ++ [go] ∧
      (∀ e ∈ pre, e.startsEngine s.ctrlOffset = false) ∧ go.startsEngine s.ctrlOffset = true ∧
      (s.hasSg = true → go = addrWrite cfg (s.ctrlOffset + xilinxDmaRegTaildesc)
        (s.mem tailDesc.lastSegment).phys) := by
  unfold goEvents
  cases s.hasSg with
  | true =>
    refine ⟨[], _, rfl, by simp, ?_, fun _ => rfl⟩
    rw [addrWrite_startsEngine]
    decide
  | false =>
    refine ⟨[_], _, rfl, ?_, ?_, by simp⟩
    · intro e he
      rw [List.mem_singleton.mp he, addrWrite_startsEngine]
      decide
    · rw [iowrite32_startsEngine]
      decide

/-- **A start does nothing or all of it**, in every state and for every outcome of its poll. -/
theorem startTransfer_outcome (startOk : Bool) (s : XilinxDmaChan cfg) :
    (∃ w, StartNone s (xilinxDmaStartTransfer startOk s) w) ∨
      ∃ pre go, StartAll s (xilinxDmaStartTransfer startOk s) pre go := by
  cases hstart : canStart s with
  | false =>
    rw [startTransfer_blocked startOk hstart]
    exact Or.inl ⟨[], by simp, by simp, rfl, rfl, rfl, rfl⟩
  | true =>
    obtain ⟨-, hne, -⟩ := (canStart_iff s).mp hstart
    obtain ⟨headDesc, rest, hp⟩ := List.exists_cons_of_ne_nil hne
    cases startOk with
    | false =>
      rw [startTransfer_timeout hp hstart]
      exact Or.inl ⟨startEvents s headDesc, rfl, startEvents_noGo s headDesc, rfl, rfl, rfl, rfl⟩
    | true =>
      rw [startTransfer_started hp hstart]
      obtain ⟨pre, go, hgo, hpre, hlast, htail⟩ := goEvents_eq s headDesc
        ((headDesc :: rest).getLast (List.cons_ne_nil _ _))
      obtain ⟨hmem, hrun⟩ := startEvents_running s headDesc
      refine Or.inr ⟨startEvents s headDesc ++ pre, go, ?_, ?_, hlast, ?_, hne, rfl, rfl, rfl, rfl,
        ?_⟩
      · simp only [hgo, List.append_assoc]
      · intro e he
        rcases List.mem_append.mp he with he | he
        · exact startEvents_noGo s headDesc e he
        · exact hpre e he
      · exact ⟨startCtrl s, List.mem_append_left _ hmem, hrun⟩
      · intro hsg
        refine ⟨headDesc, (headDesc :: rest).getLast (List.cons_ne_nil _ _), ?_, ?_, ?_, htail hsg⟩
        · rw [hp]
          rfl
        · rw [hp]
          exact List.getLast?_eq_some_getLast _
        · exact List.mem_append_left _ (startEvents_curdesc headDesc hsg)

/-! ## The queue -/

/-- What waits: the descriptors on `pending_list` with their cookies, in list order. -/
def XilinxDmaChan.waiting (s : XilinxDmaChan cfg) : List (Nat × Int) :=
  s.pendingList.map fun d => (d.id, d.cookie)

/-- The descriptors accepted since the engine was last made to go, after those that waited
before. -/
def acceptedSince (ctrlOffset : Nat) (before : List (Nat × Int)) (events : List Event) :
    List (Nat × Int) :=
  events.foldl (fun accepted e =>
    if e.startsEngine ctrlOffset then [] else accepted ++ e.assigned.toList) before

/-- What was accepted since is found piece by piece. -/
theorem acceptedSince_append (ctrlOffset : Nat) (before : List (Nat × Int)) (v w : List Event) :
    acceptedSince ctrlOffset before (v ++ w) =
      acceptedSince ctrlOffset (acceptedSince ctrlOffset before v) w :=
  List.foldl_append

/-- Without a start, what is accepted comes on top. -/
theorem acceptedSince_noGo {ctrlOffset : Nat} (before : List (Nat × Int)) {w : List Event}
    (h : ∀ e ∈ w, e.startsEngine ctrlOffset = false) :
    acceptedSince ctrlOffset before w = before ++ w.filterMap Event.assigned := by
  induction w generalizing before with
  | nil => simp [acceptedSince]
  | cons e w ih =>
    have hfirst := h e List.mem_cons_self
    have hrest := ih (before ++ e.assigned.toList) fun e' he' => h e' (List.mem_cons_of_mem e he')
    unfold acceptedSince at hrest ⊢
    rw [List.foldl_cons, hfirst]
    simp only [Bool.false_eq_true, if_false]
    rw [hrest, List.append_assoc]
    cases hassigned : e.assigned <;> simp [hassigned]

/-- After a start nothing waits. -/
theorem acceptedSince_go {ctrlOffset : Nat} (before : List (Nat × Int)) {go : Event}
    (h : go.startsEngine ctrlOffset = true) (pre : List Event) :
    acceptedSince ctrlOffset before (pre ++ [go]) = [] := by
  rw [acceptedSince_append]
  simp [acceptedSince, h]

/-- What is accepted since the last start was accepted at some time, or waited before. -/
theorem acceptedSince_sublist (ctrlOffset : Nat) (before : List (Nat × Int)) (w : List Event) :
    (acceptedSince ctrlOffset before w).Sublist (before ++ w.filterMap Event.assigned) := by
  induction w generalizing before with
  | nil => simp [acceptedSince]
  | cons e w ih =>
    unfold acceptedSince at ih ⊢
    rw [List.foldl_cons]
    cases hgo : e.startsEngine ctrlOffset with
    | true =>
      simp only [if_true]
      refine (ih []).trans ?_
      rw [List.nil_append]
      exact ((List.sublist_cons_self e w).filterMap _).trans (List.sublist_append_right _ _)
    | false =>
      simp only [Bool.false_eq_true, if_false]
      refine (ih _).trans ?_
      cases hassigned : e.assigned <;> simp [hassigned]

namespace VxdmaSys

/-- The action terminates transfers or releases the channel. -/
def Act.drops : Act cfg → Bool
  | .terminateAll => true
  | .freeChanResources => true
  | _ => false

/-- The caller does neither. -/
def NoDrop (_ : VxdmaSys cfg) (a : Act cfg) : Prop := a.drops = false

instance (s : VxdmaSys cfg) (a : Act cfg) : Decidable (s.NoDrop a) :=
  inferInstanceAs (Decidable (a.drops = false))

/-- An action that drops nothing is no terminate and no release. -/
theorem NoDrop.ne {s : VxdmaSys cfg} {a : Act cfg} (h : s.NoDrop a) :
    a ≠ .terminateAll ∧ a ≠ .freeChanResources := by
  constructor <;> rintro rfl <;> cases h

/-- What an action does to the queue: it accepts descriptors at its end, or it makes the engine go
with all of it. -/
inductive QueueStep (s s' : XilinxDmaChan cfg) : Prop
  | waits (w : List Event) (hlog : s'.log = s.log ++ w)
      (hnoGo : ∀ e ∈ w, e.startsEngine s.ctrlOffset = false)
      (hwaiting : s'.waiting = s.waiting ++ w.filterMap Event.assigned)
  | goes (pre : List Event) (go : Event) (hlog : s'.log = s.log ++ (pre ++ [go]))
      (hnoGo : ∀ e ∈ pre, e.startsEngine s.ctrlOffset = false)
      (hgo : go.startsEngine s.ctrlOffset = true)
      (hactive : ∃ old, s'.activeList = old ++ s.pendingList) (hpending : s'.pendingList = [])

/-- A control write does not start the engine. -/
theorem noGo_of_isControlWrite {ctrlOffset : Nat} {e : Event}
    (h : e.isControlWrite ctrlOffset = true) : e.startsEngine ctrlOffset = false := by
  cases e with
  | iowrite32 offset value =>
    simp only [Event.isControlWrite, beq_iff_eq] at h
    rw [h, iowrite32_startsEngine]
    decide
  | _ => cases h

/-- A control write, an acknowledgement or a completed cookie leaves the queue waiting. -/
theorem QueueStep.of_quiet {s t : XilinxDmaChan cfg} {w : List Event}
    (hpending : t.pendingList = s.pendingList) (hlog : t.log = s.log ++ w)
    (hw : ∀ e ∈ w, e.startsEngine s.ctrlOffset = false ∧ e.assigned = none) : QueueStep s t := by
  refine .waits w hlog (fun e he => (hw e he).1) ?_
  rw [List.filterMap_eq_nil_iff.mpr fun e he => (hw e he).2, List.append_nil,
    XilinxDmaChan.waiting, hpending]
  rfl

/-- The completion starts and assigns nothing. -/
theorem completeEvents_quiet (ds : List (XilinxDmaTxDescriptor cfg)) (ctrlOffset : Nat) :
    ∀ e ∈ ds.flatMap completeEvents, e.startsEngine ctrlOffset = false ∧ e.assigned = none := by
  intro e he
  rcases mem_completeEvents he with rfl | ⟨d, -, rfl⟩
  · exact ⟨rfl, rfl⟩
  · exact ⟨rfl, rfl⟩

/-- What a start does to the queue, after events that do nothing to it. -/
theorem QueueStep.of_start {s u : XilinxDmaChan cfg} {w : List Event} (startOk : Bool)
    (hpending : u.pendingList = s.pendingList) (hoffset : u.ctrlOffset = s.ctrlOffset)
    (hlog : u.log = s.log ++ w)
    (hw : ∀ e ∈ w, e.startsEngine s.ctrlOffset = false ∧ e.assigned = none) :
    QueueStep s (xilinxDmaStartTransfer startOk u) := by
  rcases startTransfer_outcome startOk u with ⟨v, hnone⟩ | ⟨pre, go, hall⟩
  · have hquiet : v.filterMap Event.assigned = [] := by
      have hnames := (startTransfer_sameNames startOk u).2
      rw [assigned, hnone.log, List.filterMap_append] at hnames
      exact List.append_right_eq_self.mp hnames
    refine QueueStep.of_quiet (w := w ++ v) (hnone.pendingList.trans hpending) ?_ ?_
    · rw [hnone.log, hlog, List.append_assoc]
    · intro e he
      rcases List.mem_append.mp he with he | he
      · exact hw e he
      · refine ⟨?_, List.filterMap_eq_nil_iff.mp hquiet e he⟩
        rw [← hoffset]
        exact hnone.noGo e he
  · refine .goes (w ++ pre) go ?_ ?_ ?_ ⟨u.activeList, ?_⟩ hall.pendingList
    · rw [hall.log, hlog]
      simp only [List.append_assoc]
    · intro e he
      rcases List.mem_append.mp he with he | he
      · exact (hw e he).1
      · rw [← hoffset]
        exact hall.noGo e he
    · rw [← hoffset]
      exact hall.goes
    · rw [hall.activeList, hpending]

/-- **What one section does to the queue**, when it does not drop it. -/
theorem Section.queueStep {env : CallEnv} {s t : XilinxDmaChan cfg} {c : Call cfg}
    {after : After cfg} (h : Section env s c t after) (hdrop : c.dropsLists = false) :
    QueueStep s t := by
  have hcontrol : ∀ {t : XilinxDmaChan cfg} {w : List Event}, t.pendingList = s.pendingList →
      t.log = s.log ++ w → (∀ e ∈ w, e.isControlWrite s.ctrlOffset = true) → QueueStep s t :=
    fun hp hlog hw => .of_quiet hp hlog fun e he =>
      ⟨noGo_of_isControlWrite (hw e he), (quiet_of_isControlWrite (hw e he)).1⟩
  have hsame : ∀ {t : XilinxDmaChan cfg}, t.pendingList = s.pendingList → t.log = s.log →
      QueueStep s t :=
    fun hp hlog => hcontrol (w := []) hp (by rw [hlog, List.append_nil]) (by simp)
  have hack : QueueStep s (irqAck env.status s) := by
    rw [irqAck_eq]
    refine .of_quiet rfl rfl fun e he => ?_
    rw [List.mem_singleton.mp he, iowrite32_startsEngine]
    exact ⟨by decide, rfl⟩
  cases h with
  | buildDone b => exact hcontrol rfl rfl (builtEvents_isControlWrite b s)
  | buildError =>
    rw [freeTxDescriptor_eq]
    exact hsame rfl rfl
  | submitRefused =>
    rw [freeTxDescriptor_eq]
    exact hsame rfl rfl
  | resetOk d w hok hw => exact hcontrol rfl rfl hw
  | resetFailed d w hok hw => exact hcontrol rfl rfl hw
  | queued d =>
    refine .waits [.cookieAssign d.id (nextCookie s)] rfl ?_ ?_
    · intro e he
      rw [List.mem_singleton.mp he]
      rfl
    · simp [XilinxDmaChan.waiting, Event.assigned]
  | queuedBug d =>
    refine .waits [.cookieAssign d.id (nextCookie s), .bug] rfl ?_ ?_
    · intro e he
      simp only [List.mem_cons, List.not_mem_nil, or_false] at he
      rcases he with rfl | rfl <;> rfl
    · simp [XilinxDmaChan.waiting, Event.assigned]
  | issue => exact .of_start (w := []) env.startOk rfl rfl (by simp) (by simp)
  | irqIoc => exact hack
  | irqOther => exact hack
  | irqLock =>
    refine .of_start (w := s.activeList.flatMap completeEvents) env.startOk ?_ ?_ ?_
      (completeEvents_quiet s.activeList s.ctrlOffset)
    · rw [irqComplete_eq]
    · rw [irqComplete_eq]
    · rw [irqComplete_eq]
  | terminate => cases hdrop
  | terminateFree => cases hdrop
  | terminateClear =>
    rw [clearCyclic_eq]
    exact hcontrol rfl rfl (by simp)
  | freeChan => cases hdrop
  | _ => exact hsame rfl rfl

/-- The cleanup calls back, and leaves the queue waiting. -/
theorem cleanup_queueStep (s : XilinxDmaChan cfg) : QueueStep s (xilinxDmaChanDescCleanup s).1 := by
  obtain ⟨freed, rest, -, -, hcases⟩ := cleanupLoop_cases s.doneList s rfl
  unfold xilinxDmaChanDescCleanup
  rcases hcases with ⟨-, h⟩ | ⟨d, tl, -, -, -, h⟩ | ⟨d, tl, -, -, h⟩ | ⟨d, tl, -, -, h⟩ <;> rw [h]
  · exact .of_quiet (w := []) rfl (by simp) (by simp)
  · exact .of_quiet (w := []) rfl (by simp) (by simp)
  · exact .of_quiet (w := [.callback d.id]) rfl rfl (by simp [Event.startsEngine, Event.assigned])
  · exact .of_quiet (w := [.callback d.id]) rfl rfl (by simp [Event.startsEngine, Event.assigned])

/-- What one step does to a queue, it does to one that is the same and has the same log. -/
theorem QueueStep.congr_left {s s₁ t : XilinxDmaChan cfg} (h : QueueStep s₁ t)
    (hpending : s₁.pendingList = s.pendingList) (hlog : s₁.log = s.log)
    (hoffset : s₁.ctrlOffset = s.ctrlOffset) : QueueStep s t := by
  cases h with
  | waits w hlog' hnoGo hwaiting =>
    rw [hlog] at hlog'
    rw [hoffset] at hnoGo
    refine .waits w hlog' hnoGo ?_
    rw [hwaiting, XilinxDmaChan.waiting, XilinxDmaChan.waiting, hpending]
  | goes pre go hlog' hnoGo hgo hactive hpending' =>
    rw [hlog] at hlog'
    rw [hoffset] at hnoGo hgo
    rw [hpending] at hactive
    exact .goes pre go hlog' hnoGo hgo hactive hpending'

/-- The rest of a cleanup leaves what waits. -/
theorem cleanupResume_queueStep (pc : CleanupPc cfg) (s : XilinxDmaChan cfg) :
    QueueStep s (cleanupResume pc s).1 := by
  cases pc with
  | idle => exact .of_quiet (w := []) rfl (by simp [cleanupResume]) (by simp)
  | cyclicCallback => exact .of_quiet (w := []) rfl (by simp [cleanupResume]) (by simp)
  | callback d =>
    apply (cleanup_queueStep (xilinxDmaFreeTxDescriptor s d.segments)).congr_left
    · rw [freeTxDescriptor_eq]
    · rw [freeTxDescriptor_eq]
    · rw [freeTxDescriptor_eq]

/-- **What one action does to the queue.** -/
theorem sectionStep_queueStep {s s' : VxdmaSys cfg} {a : Act cfg} (h : s.sectionStep a = some s')
    (hquiet : ∀ c ∈ s.calls, c.dropsLists = false) : QueueStep s.chan s'.chan := by
  have hsame : ∀ {t : XilinxDmaChan cfg}, t.pendingList = s.chan.pendingList →
      t.log = s.chan.log → QueueStep s.chan t :=
    fun hp hlog => .of_quiet (w := []) hp (by rw [hlog, List.append_nil]) (by simp)
  obtain ⟨hbug, hstep⟩ := sectionStep_inv h
  cases hstep with
  | allocChanResources zalloc =>
    cases zalloc with
    | none => exact hsame rfl rfl
    | some segP =>
      refine .of_quiet rfl rfl fun e he => ?_
      rw [List.mem_singleton.mp he]
      exact ⟨noGo_of_isControlWrite (iowrite32_isControlWrite _ _), rfl⟩
  | run i env c s' hc hleave =>
    rw [leave_chan hleave]
    exact (run_inv env hbug c).queueStep (hquiet c (List.mem_of_getElem? hc))
  | tasklet =>
    exact (cleanup_queueStep { s.chan with tasklet := false }).congr_left rfl rfl rfl
  | callbackReturn => exact cleanupResume_queueStep s.cleanup s.chan
  | _ => exact hsame rfl rfl

/-- The registers of a channel stay where they are. -/
theorem sectionStep_ctrlOffset {s s' : VxdmaSys cfg} {a : Act cfg}
    (h : s.sectionStep a = some s') : s'.chan.ctrlOffset = s.chan.ctrlOffset := by
  rcases sectionStep_pool h with ⟨zalloc, rfl⟩ | ⟨i, env, -, -, hchan⟩ | hsame
  · obtain ⟨-, rfl⟩ := sectionStep_allocChanResources h
    cases zalloc <;> rfl
  · rw [hchan]
    rfl
  · exact hsame.ctrlOffset

/-- What waits is what was accepted since the engine was last made to go. -/
structure WaitingInv (s₀ s : VxdmaSys cfg) (w : List Event) : Prop where
  log : s.chan.log = s₀.chan.log ++ w
  ctrlOffset : s.chan.ctrlOffset = s₀.chan.ctrlOffset
  quiet : ∀ c ∈ s.calls, c.dropsLists = false
  waiting : s.chan.waiting = acceptedSince s₀.chan.ctrlOffset s₀.chan.waiting w

/-- **One action keeps the account of the queue.** -/
theorem sectionStep_waiting {s₀ s s' : VxdmaSys cfg} {w : List Event} {a : Act cfg}
    (hs : WaitingInv s₀ s w) (ha : s.NoDrop a) (h : s.sectionStep a = some s') :
    ∃ w', WaitingInv s₀ s' w' := by
  have hoffset := (sectionStep_ctrlOffset h).trans hs.ctrlOffset
  have hquiet := sectionStep_keepsLists h ha.ne hs.quiet
  cases sectionStep_queueStep h hs.quiet with
  | waits v hlog hnoGo hwaiting =>
    rw [hs.ctrlOffset] at hnoGo
    refine ⟨w ++ v, ?_, hoffset, hquiet, ?_⟩
    · rw [hlog, hs.log, List.append_assoc]
    · rw [acceptedSince_append, acceptedSince_noGo _ hnoGo, hwaiting, hs.waiting]
  | goes pre go hlog hnoGo hgo hactive hpending =>
    rw [hs.ctrlOffset] at hgo
    refine ⟨w ++ (pre ++ [go]), ?_, hoffset, hquiet, ?_⟩
    · rw [hlog, hs.log, List.append_assoc]
    · rw [acceptedSince_append, acceptedSince_go _ hgo, XilinxDmaChan.waiting, hpending]
      rfl

/-- Over a whole run. -/
theorem waitingInv_of_reachable {s₀ s : VxdmaSys cfg}
    (hquiet : ∀ c ∈ s₀.calls, c.dropsLists = false) (h : Reachable sectionStep NoDrop s₀ s) :
    ∃ w, WaitingInv s₀ s w := by
  let Inv : VxdmaSys cfg → Prop := fun s => ∃ w, WaitingInv s₀ s w
  have hinv : Inv s := by
    refine h.invariant ⟨[], by simp, rfl, hquiet, rfl⟩ ?_
    rintro s a s' ⟨w, hs⟩ ha hstep
    exact sectionStep_waiting hs ha hstep
  exact hinv

/-- The action makes the engine go. -/
def Launches (s s' : VxdmaSys cfg) : Prop :=
  ∃ w, s'.chan.log = s.chan.log ++ w ∧ ∃ e ∈ w, e.startsEngine s.chan.ctrlOffset = true

/-- The action makes exactly this batch active: what was accepted since the last start, in order,
and each descriptor once. -/
structure LaunchesBatch (s₀ s s' : VxdmaSys cfg) (batch : List (XilinxDmaTxDescriptor cfg)) :
    Prop where
  active : ∃ old, s'.chan.activeList = old ++ batch
  pending : s'.chan.pendingList = []
  accepted : ∃ events, s.chan.log = s₀.chan.log ++ events ∧
    batch.map (fun d => (d.id, d.cookie)) = acceptedSince s₀.chan.ctrlOffset [] events
  once : (batch.map XilinxDmaTxDescriptor.id).Nodup

/-- A list of events is split off a log in one way only. -/
theorem QueueStep.launches {s s' : VxdmaSys cfg} (h : QueueStep s.chan s'.chan)
    (hgo : s.Launches s') :
    (∃ old, s'.chan.activeList = old ++ s.chan.pendingList) ∧ s'.chan.pendingList = [] := by
  obtain ⟨w, hlog, e, he, hstarts⟩ := hgo
  cases h with
  | waits v hlog' hnoGo hwaiting =>
    rw [hlog'] at hlog
    obtain rfl := List.append_cancel_left hlog
    rw [hnoGo e he] at hstarts
    cases hstarts
  | goes pre go hlog' hnoGo hgo hactive hpending => exact ⟨hactive, hpending⟩

/-- The batch of a start, in a run from a state in which nothing waits. -/
theorem launches_batch {hasSg : Bool} {ctrlOffset : Nat} {dmacr : BitVec 32}
    {s₀ s s' : VxdmaSys cfg} {a : Act cfg}
    (h₀ : Reachable sectionStep always (probed hasSg ctrlOffset dmacr) s₀)
    (hquiet : ∀ c ∈ s₀.calls, c.dropsLists = false) (hempty : s₀.chan.pendingList = [])
    (h : Reachable sectionStep NoDrop s₀ s) (hstep : s.sectionStep a = some s')
    (hgo : s.Launches s') : LaunchesBatch s₀ s s' s.chan.pendingList := by
  obtain ⟨w, hs⟩ := waitingInv_of_reachable hquiet h
  obtain ⟨hactive, hpending⟩ := (sectionStep_queueStep hstep hs.quiet).launches hgo
  have hnone : s₀.chan.waiting = [] := by rw [XilinxDmaChan.waiting, hempty]; rfl
  have hwaiting : s.chan.waiting = acceptedSince s₀.chan.ctrlOffset [] w := by
    rw [hs.waiting, hnone]
  refine ⟨hactive, hpending, ⟨w, hs.log, hwaiting⟩, ?_⟩
  have hall : Reachable sectionStep always (probed hasSg ctrlOffset dmacr) s :=
    h₀.trans (h.mono fun _ _ _ => trivial)
  have hsub : s.chan.waiting.Sublist (assigned s.chan) := by
    rw [hwaiting, assigned, hs.log, List.filterMap_append]
    exact (acceptedSince_sublist s₀.chan.ctrlOffset [] w).trans (List.sublist_append_right _ _)
  have hids : s.chan.pendingList.map XilinxDmaTxDescriptor.id = s.chan.waiting.map Prod.fst := by
    simp [XilinxDmaChan.waiting]
  rw [hids]
  exact (namesOnce_of_reachable hall).submittedIds_nodup.sublist (hsub.map Prod.fst)

end VxdmaSys

open VxdmaSys in
/-- **Starting a batch is all or nothing**, and what a failed start left over goes with the next
one. The run may begin in any state in which nothing waits, as after a start, and may have any
number of failed starts, resets and interrupts in it. -/
theorem start_all_or_nothing :
    (∀ (startOk : Bool) (s : XilinxDmaChan cfg),
      (∃ w, StartNone s (xilinxDmaStartTransfer startOk s) w) ∨
        ∃ pre go, StartAll s (xilinxDmaStartTransfer startOk s) pre go) ∧
    ∀ (hasSg : Bool) (ctrlOffset : Nat) (dmacr : BitVec 32) (s₀ s s' : VxdmaSys cfg) (a : Act cfg),
      Reachable sectionStep always (probed hasSg ctrlOffset dmacr) s₀ →
      (∀ c ∈ s₀.calls, c.dropsLists = false) → s₀.chan.pendingList = [] →
      Reachable sectionStep NoDrop s₀ s → s.sectionStep a = some s' → s.Launches s' →
      LaunchesBatch s₀ s s' s.chan.pendingList := by
  refine ⟨startTransfer_outcome, ?_⟩
  intro hasSg ctrlOffset dmacr s₀ s s' a h₀ hquiet hempty h hstep hgo
  exact launches_batch h₀ hquiet hempty h hstep hgo

namespace VxdmaSys

/-- A start that times out, and then a submit that resets the channel and appends. -/
def failedStart : List (Act .addr32) :=
  let env (startOk : Bool) : CallEnv := ⟨⟨0, true⟩, 0, startOk, true⟩
  [.prepSlaveSg ⟨[⟨0, 1⟩], .memToDev, none, true⟩] ++ sections 2 (env true) ++
  [.prepSlaveSg ⟨[⟨64, 1⟩], .memToDev, none, true⟩] ++ sections 2 (env true) ++
  [.txSubmit 0 none] ++ sections 3 (env true) ++ [.issuePending] ++ sections 1 (env false) ++
  [.txSubmit 0 none] ++ sections 4 (env true) ++ [.issuePending]

end VxdmaSys

open VxdmaSys in

/-- A failed start, and one that launches both descriptors. -/
theorem start_all_or_nothing_failedStart :
    ∃ s s' : VxdmaSys .addr32,
      exec sectionStep (allocated true 0 0 0) failedStart = some s ∧
      s.sectionStep (.run 0 ⟨⟨0, true⟩, 0, true, true⟩) = some s' ∧ s.chan.waiting = [(0, 2), (1, 3)] ∧
      LaunchesBatch (allocated true 0 0 0) s s' s.chan.pendingList := by
  have hexec : (exec sectionStep (allocated true 0 0 0 : VxdmaSys .addr32) failedStart).bind
      (fun s => (s.sectionStep (.run 0 ⟨⟨0, true⟩, 0, true, true⟩)).map fun s' =>
        (s.chan.waiting,
          decide (s'.chan.log = s.chan.log ++ s'.chan.log.drop s.chan.log.length),
          (s'.chan.log.drop s.chan.log.length).any fun e =>
            e.startsEngine s.chan.ctrlOffset)) =
      some ([(0, 2), (1, 3)], true, true) := by
    decide +kernel
  obtain ⟨s, hs, hlast⟩ := Option.bind_eq_some_iff.mp hexec
  obtain ⟨s', hs', hfacts⟩ := Option.map_eq_some_iff.mp hlast
  obtain ⟨hwaiting, hrest⟩ := Prod.mk.inj hfacts
  obtain ⟨hlog, hgo⟩ := Prod.mk.inj hrest
  have hgoes : s.Launches s' := ⟨_, of_decide_eq_true hlog, List.any_eq_true.mp hgo⟩
  have hfirst : Reachable sectionStep always (probed true 0 0)
      (allocated true 0 0 0 : VxdmaSys .addr32) :=
    (Reachable.refl sectionStep always (probed true 0 0)).tail (.allocChanResources (some 0))
      trivial rfl
  have hrun : Reachable sectionStep NoDrop (allocated true 0 0 0) s :=
    Reachable.of_exec (by decide +kernel) hs
  have hquiet : ∀ c ∈ (allocated true 0 0 0 : VxdmaSys .addr32).calls, c.dropsLists = false := by
    intro c hc
    cases hc
  exact ⟨s, s', hs, hs', hwaiting,
    start_all_or_nothing.2 true 0 0 _ s s' _ hfirst hquiet rfl hrun hs' hgoes⟩

end PetalinuxDriver
