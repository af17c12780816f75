import PetalinuxDriver.Analysis.History
import PetalinuxDriver.Analysis.IdleFlag

/-!
# Transfers in simple mode

Without scatter-gather the engine takes one address and one length at a time. A start programs
those of the first segment of the first pending descriptor, and then moves the whole pending list
to `active_list`, whose descriptors the next IOC interrupt completes, all of them and with all their
segments.

What was programmed is read off the register writes (`Programmed`), and what was completed is kept
next to the state (`completed`). In a run whose starts find one descriptor with one segment the two
agree at every completion (`programmed_eq_completed`).
-/

set_option autoImplicit false

namespace PetalinuxDriver

open Library

variable {cfg : PhysAddrConfig}

/-! ## What was programmed -/

/-- The value of a write of SRCDSTADDR. -/
def Event.srcdstaddr (ctrlOffset : Nat) : Event → Option (BitVec 64)
  | .iowrite32 offset value =>
    if offset = ctrlOffset + xilinxDmaRegSrcdstaddr then some (value.setWidth 64) else none
  | .writeq offset value =>
    if offset = ctrlOffset + xilinxDmaRegSrcdstaddr then some value else none
  | _ => none

/-- The value of a write of BTT. -/
def Event.btt (ctrlOffset : Nat) : Event → Option (BitVec 32)
  | .iowrite32 offset value =>
    if offset = ctrlOffset + xilinxDmaRegBtt then some value else none
  | _ => none

/-- These pairs of SRCDSTADDR and BTT were programmed, in this order, and nothing else was written
to either register. -/
def Programmed (s : XilinxDmaChan cfg) (pairs : List (BitVec 64 × BitVec 32)) : Prop :=
  s.log.filterMap (Event.srcdstaddr s.ctrlOffset) = pairs.map Prod.fst ∧
    s.log.filterMap (Event.btt s.ctrlOffset) = pairs.map Prod.snd

instance (s : XilinxDmaChan cfg) (pairs : List (BitVec 64 × BitVec 32)) :
    Decidable (Programmed s pairs) :=
  inferInstanceAs (Decidable (_ ∧ _))

/-- The pair that a segment asks for. -/
def segPair (mem : SegPtr → XilinxDmaTxSegment cfg) (p : SegPtr) : BitVec 64 × BitVec 32 :=
  ((mem p).hw.bufAddr.setWidth 64, (mem p).hw.control &&& xilinxDmaMaxTransLen)

/-- The pairs of all segments of some descriptors, in order. -/
def segPairs (mem : SegPtr → XilinxDmaTxSegment cfg) (ds : List (XilinxDmaTxDescriptor cfg)) :
    List (BitVec 64 × BitVec 32) :=
  (segsOf ds).map (segPair mem)

/-- The event neither writes SRCDSTADDR nor BTT. -/
def Event.Silent (ctrlOffset : Nat) (e : Event) : Prop :=
  e.srcdstaddr ctrlOffset = none ∧ e.btt ctrlOffset = none

/-- A write to the control register programs nothing. -/
theorem silent_of_isControlWrite {ctrlOffset : Nat} {e : Event}
    (h : e.isControlWrite ctrlOffset = true) : e.Silent ctrlOffset := by
  cases e with
  | iowrite32 offset value =>
    obtain rfl : offset = ctrlOffset := by
      simpa [Event.isControlWrite, xilinxDmaRegControl] using h
    simp [Event.Silent, Event.srcdstaddr, Event.btt, xilinxDmaRegSrcdstaddr, xilinxDmaRegBtt]
  | _ => cases h

/-- A write to the status register programs nothing. -/
theorem silent_status (ctrlOffset : Nat) (value : BitVec 32) :
    (Event.iowrite32 (ctrlOffset + xilinxDmaRegStatus) value).Silent ctrlOffset := by
  simp [Event.Silent, Event.srcdstaddr, Event.btt, xilinxDmaRegStatus, xilinxDmaRegSrcdstaddr,
    xilinxDmaRegBtt]

/-- The channel went on from `s` to `s'` with silent events only. -/
def SilentStep (s s' : XilinxDmaChan cfg) : Prop :=
  s'.ctrlOffset = s.ctrlOffset ∧ ∃ w, s'.log = s.log ++ w ∧ ∀ e ∈ w, e.Silent s.ctrlOffset

namespace SilentStep

/-- Nothing is programmed when nothing is done. -/
theorem refl (s : XilinxDmaChan cfg) : SilentStep s s := ⟨rfl, [], by simp, by simp⟩

/-- What leaves the log programs nothing. -/
theorem of_log_eq {s s' : XilinxDmaChan cfg} (hoff : s'.ctrlOffset = s.ctrlOffset)
    (hlog : s'.log = s.log) : SilentStep s s' :=
  ⟨hoff, [], by simp [hlog], by simp⟩

/-- Two silent steps are one. -/
theorem trans {s₁ s₂ s₃ : XilinxDmaChan cfg} (h : SilentStep s₁ s₂) (h' : SilentStep s₂ s₃) :
    SilentStep s₁ s₃ := by
  obtain ⟨hoff, w, hlog, hw⟩ := h
  obtain ⟨hoff', w', hlog', hw'⟩ := h'
  refine ⟨hoff'.trans hoff, w ++ w', by rw [hlog', hlog, List.append_assoc], fun e he => ?_⟩
  rcases List.mem_append.mp he with he | he
  · exact hw e he
  · exact hoff ▸ hw' e he

/-- Silent events do not show in what was programmed. -/
theorem programmed {s s' : XilinxDmaChan cfg} {pairs : List (BitVec 64 × BitVec 32)}
    (h : SilentStep s s') (hs : Programmed s pairs) : Programmed s' pairs := by
  obtain ⟨hoff, w, hlog, hw⟩ := h
  have hsrc : w.filterMap (Event.srcdstaddr s.ctrlOffset) = [] :=
    List.filterMap_eq_nil_iff.mpr fun e he => (hw e he).1
  have hbtt : w.filterMap (Event.btt s.ctrlOffset) = [] :=
    List.filterMap_eq_nil_iff.mpr fun e he => (hw e he).2
  rw [Programmed, hoff, hlog, List.filterMap_append, List.filterMap_append, hsrc, hbtt,
    List.append_nil, List.append_nil]
  exact hs

/-- A silent step only appends to the log. -/
theorem log_prefix {s s' : XilinxDmaChan cfg} (h : SilentStep s s') : s.log <+: s'.log := by
  obtain ⟨-, w, hlog, -⟩ := h
  rw [hlog]
  exact List.prefix_append s.log w

end SilentStep

/-! ## The functions that program nothing -/

/-- A freed descriptor programs nothing. -/
theorem freeTxDescriptor_silent (s : XilinxDmaChan cfg) (segments : List SegPtr) :
    SilentStep s (xilinxDmaFreeTxDescriptor s segments) := by
  rw [freeTxDescriptor_eq]
  exact SilentStep.of_log_eq rfl rfl

/-- Freed lists program nothing. -/
theorem freeDescriptors_silent (s : XilinxDmaChan cfg) :
    SilentStep s (xilinxDmaFreeDescriptors s) := by
  rw [freeDescriptors_eq]
  refine ⟨rfl, _, rfl, fun e he => ?_⟩
  obtain ⟨d, -, rfl⟩ := List.mem_map.mp he
  exact ⟨rfl, rfl⟩

/-- A halt programs nothing. -/
theorem halt_silent (haltOk : Bool) (s : XilinxDmaChan cfg) :
    SilentStep s (xilinxDmaHalt haltOk s) := by
  rw [halt_eq]
  refine ⟨rfl, _, rfl, fun e he => ?_⟩
  rw [List.mem_singleton.mp he]
  exact silent_of_isControlWrite (by simp)

/-- Leaving the cyclic mode programs nothing. -/
theorem clearCyclic_silent (s : XilinxDmaChan cfg) : SilentStep s (clearCyclic s) := by
  rw [clearCyclic_eq]
  refine ⟨rfl, _, rfl, fun e he => ?_⟩
  rw [List.mem_singleton.mp he]
  exact silent_of_isControlWrite (by simp)

/-- A terminate programs nothing. -/
theorem terminateAll_silent (haltOk : Bool) (s : XilinxDmaChan cfg) :
    SilentStep s (xilinxDmaTerminateAll haltOk s) := by
  have hfree := (halt_silent haltOk s).trans (freeDescriptors_silent _)
  unfold xilinxDmaTerminateAll
  simp only
  split
  · exact hfree.trans (clearCyclic_silent _)
  · exact hfree

/-- The acknowledgement programs nothing. -/
theorem irqAck_silent (status : BitVec 32) (s : XilinxDmaChan cfg) :
    SilentStep s (irqAck status s) := by
  rw [irqAck_eq]
  refine ⟨rfl, _, rfl, fun e he => ?_⟩
  rw [List.mem_singleton.mp he]
  exact silent_status _ _

/-- The completion programs nothing. -/
theorem irqComplete_silent (s : XilinxDmaChan cfg) : SilentStep s (irqComplete s) := by
  rw [irqComplete_eq]
  refine ⟨rfl, _, rfl, fun e he => ?_⟩
  rcases mem_completeEvents he with rfl | ⟨d, -, rfl⟩
  · exact ⟨rfl, rfl⟩
  · exact ⟨rfl, rfl⟩

/-- The log of a submit: a cookie, and a `BUG()` at most. -/
theorem submitLocked_log (d : XilinxDmaTxDescriptor cfg) {s : XilinxDmaChan cfg}
    (hbug : s.bug = false) :
    ∃ w, (submitLocked d s).1.log = s.log ++ .cookieAssign d.id (nextCookie s) :: w ∧
      ∀ e ∈ w, e = .bug := by
  by_cases h : s.descPendingcount < xilinxDmaCoalesceMax
  · rw [submitLocked_queued d hbug h]
    exact ⟨[], rfl, by simp⟩
  · rw [submitLocked_bug d (by omega)]
    exact ⟨[.bug], rfl, by simp⟩

/-- A submit programs nothing. -/
theorem submitLocked_silent (d : XilinxDmaTxDescriptor cfg) {s : XilinxDmaChan cfg}
    (hbug : s.bug = false) : SilentStep s (submitLocked d s).1 := by
  obtain ⟨w, hlog, hw⟩ := submitLocked_log d hbug
  refine ⟨(submitLocked_samePool d hbug).ctrlOffset, _, hlog, fun e he => ?_⟩
  rcases List.mem_cons.mp he with rfl | he
  · exact ⟨rfl, rfl⟩
  · rw [hw e he]
    exact ⟨rfl, rfl⟩

/-- A cleanup programs nothing. -/
theorem cleanup_silent (s : XilinxDmaChan cfg) : SilentStep s (xilinxDmaChanDescCleanup s).1 := by
  obtain ⟨freed, rest, -, -, hcases⟩ := cleanupLoop_cases s.doneList s rfl
  unfold xilinxDmaChanDescCleanup
  have hcallback : ∀ d : XilinxDmaTxDescriptor cfg,
      ∀ e ∈ [Event.callback d.id], e.Silent s.ctrlOffset := fun d e he => by
    rw [List.mem_singleton.mp he]
    exact ⟨rfl, rfl⟩
  rcases hcases with ⟨-, h⟩ | ⟨d, tl, -, -, -, h⟩ | ⟨d, tl, -, -, h⟩ | ⟨d, tl, -, -, h⟩ <;> rw [h]
  · exact SilentStep.of_log_eq rfl rfl
  · exact SilentStep.of_log_eq rfl rfl
  · exact ⟨rfl, _, rfl, hcallback d⟩
  · exact ⟨rfl, _, rfl, hcallback d⟩

/-- The rest of a cleanup programs nothing. -/
theorem cleanupResume_silent (pc : CleanupPc cfg) (s : XilinxDmaChan cfg) :
    SilentStep s (cleanupResume pc s).1 := by
  cases pc with
  | idle => exact SilentStep.refl s
  | cyclicCallback => exact SilentStep.refl s
  | callback d => exact (freeTxDescriptor_silent s d.segments).trans (cleanup_silent _)

namespace VxdmaSys

/-- Only a start programs a transfer. -/
theorem callStep_silent {s s' : VxdmaSys cfg} {op : Op cfg} (hentry : s.startEntry op = none)
    (h : s.callStep op = some s') : SilentStep s.chan s'.chan := by
  obtain ⟨hbug, hstep⟩ := callStep_inv h
  have hcontrol : ∀ {w : List Event}, (∀ e ∈ w, e.isControlWrite s.chan.ctrlOffset = true) →
      ∀ e ∈ w, e.Silent s.chan.ctrlOffset := fun hw e he => silent_of_isControlWrite (hw e he)
  cases hstep with
  | prepNull => exact SilentStep.of_log_eq rfl rfl
  | prepDesc _ _ b => exact ⟨rfl, _, rfl, hcontrol (builtEvents_isControlWrite b s.chan)⟩
  | submitRefused => exact SilentStep.of_log_eq rfl rfl
  | submitFailed i callback env d w _ _ _ _ hw => exact ⟨rfl, w, rfl, hcontrol hw⟩
  | submitQueue i callback env d c w _ _ _ hw =>
    have hreset : SilentStep s.chan (resetFor s.chan c w) := ⟨rfl, w, rfl, hcontrol hw⟩
    exact hreset.trans (submitLocked_silent _ hbug)
  | issuePending => cases hentry
  | irqNone => exact SilentStep.refl _
  | irqOther status => exact (irqAck_silent status s.chan).trans (SilentStep.of_log_eq rfl rfl)
  | irqIoc status startOk hsome hioc => simp [startEntry, hsome, hioc] at hentry
  | terminateAll => exact terminateAll_silent _ _
  | freeChanResources =>
    exact (freeDescriptors_silent s.chan).trans (SilentStep.of_log_eq rfl rfl)
  | allocChanResources zalloc =>
    cases zalloc with
    | none => exact SilentStep.of_log_eq rfl rfl
    | some segP =>
      refine ⟨rfl, _, rfl, fun e he => ?_⟩
      rw [List.mem_singleton.mp he]
      exact silent_of_isControlWrite (by simp)
  | tasklet =>
    have hflag : SilentStep s.chan { s.chan with tasklet := false } :=
      SilentStep.of_log_eq rfl rfl
    exact hflag.trans (cleanup_silent _)
  | callbackReturn => exact cleanupResume_silent _ _
  | device => exact SilentStep.of_log_eq rfl rfl

/-- Between two starts the words of the active segments stay as they were. -/
theorem callStep_segPair {s s' : VxdmaSys cfg} {op : Op cfg} (hs : OwnedOnce s) {p : SegPtr}
    (hp : p ∈ segsOf s.chan.activeList) (hentry : s.startEntry op = none)
    (hdrop : op.dropsLists = false) (h : s.callStep op = some s') :
    segPair s'.chan.mem p = segPair s.chan.mem p := by
  obtain ⟨hfree, hdone, hheld, hprepared⟩ := hs.active hp
  obtain ⟨hbug, hstep⟩ := callStep_inv h
  have hsame : ∀ {mem : SegPtr → XilinxDmaTxSegment cfg}, mem p = s.chan.mem p →
      segPair mem p = segPair s.chan.mem p := fun hmem => by rw [segPair, hmem, segPair]
  cases hstep with
  | prepNull _ _ mem _ _ hmem => exact hsame (hmem.2 p hfree)
  | prepDesc _ chunks b d mem _ hbuilt =>
    refine hsame (hbuilt.words.2 p fun hd => hfree ?_)
    rw [hbuilt.segments] at hd
    exact List.mem_of_mem_take hd
  | submitRefused i callback env d hd =>
    have hnot : p ∉ d.segments := fun hmem =>
      hprepared (mem_segsOf.mpr ⟨d, List.mem_of_getElem? hd, hmem⟩)
    exact hsame (cleanSegs_of_notMem hnot _)
  | submitFailed => rfl
  | submitQueue i callback env d c w =>
    have hmem := submitLocked_mem { d with callback := callback } (s := resetFor s.chan c w) hbug
    obtain ⟨next, hwords⟩ := linkTail_words s.chan.pendingList d.phys s.chan.mem p
    rw [hmem, segPair, segPair]
    simp only [resetFor, hwords]
  | issuePending => cases hentry
  | irqNone => rfl
  | irqOther status =>
    simp only [irqAck_eq]
    rfl
  | irqIoc status startOk hsome hioc => simp [startEntry, hsome, hioc] at hentry
  | terminateAll => cases hdrop
  | freeChanResources => cases hdrop
  | allocChanResources zalloc =>
    cases zalloc with
    | none => rfl
    | some segP =>
      -- the new pool has a number that no segment in use has
      have hlt : p.pool < s.chan.pools := by
        refine hs.allocated p ?_
        simp only [owned, XilinxDmaChan.owned, Multiset.mem_add, Multiset.mem_coe]
        simp [hp]
      exact hsame (if_neg (by omega))
  | tasklet => exact hsame (cleanup_mem { s.chan with tasklet := false } hdone)
  | callbackReturn => exact hsame (cleanupResume_mem _ _ hdone (by rwa [← held_eq]))
  | device q status app =>
    by_cases hq : p = q
    · subst hq
      simp [segPair, XilinxDmaChan.setHw]
    · exact hsame (Function.update_of_ne hq _ _)

end VxdmaSys

/-! ## What was completed -/

/-- A completed descriptor: its name and the pairs of its segments. -/
abbrev Completed := Nat × List (BitVec 64 × BitVec 32)

/-- What an IOC interrupt completes now. -/
def completedNow (s : XilinxDmaChan cfg) : List Completed :=
  s.activeList.map fun d => (d.id, d.segments.map (segPair s.mem))

/-- What completes now are the segments of the active list. -/
theorem completedNow_pairs (s : XilinxDmaChan cfg) :
    (completedNow s).flatMap Prod.snd = segPairs s.mem s.activeList := by
  simp [completedNow, segPairs, segsOf, List.flatMap_map, List.map_flatMap]

/-- Each active descriptor completes once. -/
theorem completedNow_ids (s : XilinxDmaChan cfg) :
    (completedNow s).map Prod.fst = s.activeList.map XilinxDmaTxDescriptor.id := by
  simp [completedNow, Function.comp_def]

/-- The account of a channel in simple mode: what was programmed is what was completed and what is
active, and the descriptors were completed, started and queued in the order of submission. -/
structure Accounted (s : XilinxDmaChan cfg) (done : List Completed) : Prop where
  simple : s.hasSg = false
  idle : VxdmaSys.IdleInv s
  programmed : Programmed s (done.flatMap Prod.snd ++ segPairs s.mem s.activeList)
  order : (done.map Prod.fst ++ (s.activeList ++ s.pendingList).map XilinxDmaTxDescriptor.id).Sublist
    (submittedIds s)

/-- An interrupt moves the active batch to what was completed. -/
theorem Accounted.irqComplete {s : XilinxDmaChan cfg} {done : List Completed}
    (h : Accounted s done) (status : BitVec 32) :
    Accounted (irqComplete (irqAck status s)) (done ++ completedNow s) := by
  have hsilent := (irqAck_silent status s).trans (irqComplete_silent (irqAck status s))
  have hlists : (PetalinuxDriver.irqComplete (irqAck status s)).activeList = [] ∧
      (PetalinuxDriver.irqComplete (irqAck status s)).pendingList = s.pendingList ∧
      (PetalinuxDriver.irqComplete (irqAck status s)).idle = true ∧
      (PetalinuxDriver.irqComplete (irqAck status s)).hasSg = s.hasSg := by
    rw [irqComplete_eq, irqAck_eq]
    exact ⟨rfl, rfl, rfl, rfl⟩
  obtain ⟨hactive, hpending, hidle, hsg⟩ := hlists
  refine ⟨hsg.trans h.simple, ?_, ?_, ?_⟩
  · simp [VxdmaSys.IdleInv, hactive, hidle]
  · have hpairs : (done ++ completedNow s).flatMap Prod.snd =
        done.flatMap Prod.snd ++ segPairs s.mem s.activeList := by
      rw [List.flatMap_append, completedNow_pairs]
    rw [hactive, hpairs]
    simpa [segPairs] using hsilent.programmed h.programmed
  · rw [hactive, hpending, List.map_append, completedNow_ids, List.nil_append, List.append_assoc,
      ← List.map_append]
    exact h.order.trans (submittedIds_sublist hsilent.log_prefix)

/-- In simple mode the writes up to the start of the engine program nothing. -/
theorem startEvents_silent {s : XilinxDmaChan cfg} (hsg : s.hasSg = false)
    (headDesc : XilinxDmaTxDescriptor cfg) :
    ∀ e ∈ startEvents s headDesc, e.Silent s.ctrlOffset := by
  intro e he
  apply silent_of_isControlWrite
  unfold startEvents at he
  rw [hsg] at he
  simp only [Bool.false_eq_true, if_false, List.append_nil, List.mem_append,
    List.mem_singleton] at he
  rcases he with he | rfl
  · split at he
    · rw [List.mem_singleton.mp he]
      simp
    · cases he
  · simp

/-- The writes that hand the batch over program the pair of its first segment. -/
theorem goEvents_programmed {s : XilinxDmaChan cfg} (hsg : s.hasSg = false)
    (headDesc tailDesc : XilinxDmaTxDescriptor cfg) :
    (goEvents s headDesc tailDesc).filterMap (Event.srcdstaddr s.ctrlOffset) =
        [(segPair s.mem headDesc.firstSegment).1] ∧
      (goEvents s headDesc tailDesc).filterMap (Event.btt s.ctrlOffset) =
        [(segPair s.mem headDesc.firstSegment).2] := by
  unfold goEvents
  rw [hsg]
  cases cfg <;>
    simp [List.filterMap_cons, Event.srcdstaddr, Event.btt, addrWrite, segPair,
      xilinxDmaRegSrcdstaddr, xilinxDmaRegBtt]

/-- A start programs the pair of the first pending segment, whatever else is pending. -/
theorem startTransfer_programmed {t : XilinxDmaChan cfg} {pairs : List (BitVec 64 × BitVec 32)}
    (hsg : t.hasSg = false) (ht : Programmed t pairs) {headDesc : XilinxDmaTxDescriptor cfg}
    {rest : List (XilinxDmaTxDescriptor cfg)} (hp : t.pendingList = headDesc :: rest)
    (hstart : canStart t = true) :
    Programmed (xilinxDmaStartTransfer true t) (pairs ++ [segPair t.mem headDesc.firstSegment]) := by
  have hsilent := startEvents_silent hsg headDesc
  have hsrc : (startEvents t headDesc).filterMap (Event.srcdstaddr t.ctrlOffset) = [] :=
    List.filterMap_eq_nil_iff.mpr fun e he => (hsilent e he).1
  have hbtt : (startEvents t headDesc).filterMap (Event.btt t.ctrlOffset) = [] :=
    List.filterMap_eq_nil_iff.mpr fun e he => (hsilent e he).2
  obtain ⟨hgosrc, hgobtt⟩ := goEvents_programmed hsg headDesc
    ((headDesc :: rest).getLast (List.cons_ne_nil _ _))
  rw [startTransfer_started hp hstart]
  unfold Programmed at ht ⊢
  simp only [List.filterMap_append, hsrc, hbtt, hgosrc, hgobtt, ht.1, ht.2, List.append_nil,
    List.map_append, List.map_cons, List.map_nil, and_self]

/-- A start that finds one descriptor with one segment keeps the account. -/
theorem Accounted.startTransfer {t : XilinxDmaChan cfg} {done : List Completed} {startOk : Bool}
    (h : Accounted t done)
    (hone : canStart t = true → startOk = true → (segsOf t.pendingList).length = 1) :
    Accounted (xilinxDmaStartTransfer startOk t) done := by
  have hidle := VxdmaSys.startTransfer_idleInv startOk h.idle
  cases hstart : canStart t with
  | false => rwa [startTransfer_blocked startOk hstart]
  | true =>
    obtain ⟨headDesc, rest, hp⟩ := List.exists_cons_of_ne_nil ((canStart_iff t).mp hstart).2.1
    have hsilent := startEvents_silent h.simple headDesc
    cases startOk with
    | false =>
      rw [startTransfer_timeout hp hstart] at hidle ⊢
      have hstep : SilentStep t
          { t with
            ctrlReg := startCtrl t
            err := true
            log := t.log ++ startEvents t headDesc } := ⟨rfl, _, rfl, hsilent⟩
      exact ⟨h.simple, hidle, hstep.programmed h.programmed,
        h.order.trans (submittedIds_sublist hstep.log_prefix)⟩
    | true =>
      have hactive : t.activeList = [] := h.idle.mp ((canStart_iff t).mp hstart).2.2
      have hsegs : segsOf t.pendingList = [headDesc.firstSegment] := by
        obtain ⟨p, hone⟩ := List.length_eq_one_iff.mp (hone hstart rfl)
        rw [hone]
        rw [hp, segsOf_cons] at hone
        have hmem : headDesc.firstSegment ∈ headDesc.segments := List.head_mem _
        have hfirst : headDesc.firstSegment ∈ [p] := by
          rw [← hone]
          exact List.mem_append_left _ hmem
        rw [List.mem_singleton.mp hfirst]
      have hprogrammed := startTransfer_programmed h.simple h.programmed hp hstart
      rw [startTransfer_started hp hstart] at hidle hprogrammed ⊢
      refine ⟨h.simple, hidle, ?_, ?_⟩
      · simpa [segPairs, hactive, hsegs] using hprogrammed
      · have hprefix : t.log <+: t.log ++ startEvents t headDesc ++
            goEvents t headDesc ((headDesc :: rest).getLast (List.cons_ne_nil _ _)) := by
          rw [List.append_assoc]
          exact List.prefix_append _ _
        simp only [List.append_nil]
        exact h.order.trans (submittedIds_sublist hprefix)

/-- The condition on a start is exact: one that succeeds keeps the account only if it finds one
descriptor with one segment. -/
theorem startTransfer_accounted_iff {t : XilinxDmaChan cfg} {done : List Completed}
    (h : Accounted t done) (hstart : canStart t = true) :
    Accounted (xilinxDmaStartTransfer true t) done ↔ (segsOf t.pendingList).length = 1 := by
  constructor
  · intro hnext
    obtain ⟨headDesc, rest, hp⟩ := List.exists_cons_of_ne_nil ((canStart_iff t).mp hstart).2.1
    have hactive : t.activeList = [] := h.idle.mp ((canStart_iff t).mp hstart).2.2
    have hone := (startTransfer_programmed h.simple h.programmed hp hstart).1
    have hall := hnext.programmed.1
    have hmoved : (xilinxDmaStartTransfer true t).activeList = t.pendingList := by
      rw [startTransfer_started hp hstart, hactive, List.nil_append]
    rw [hone, hmoved, hactive] at hall
    have hlen := congrArg List.length hall
    simp only [segPairs, segsOf_nil, List.map_nil, List.append_nil, List.map_append,
      List.length_append, List.length_map, List.map_cons, List.length_cons, List.length_nil] at hlen
    omega
  · intro hone
    exact h.startTransfer fun _ _ => hone

namespace VxdmaSys

/-- What was completed so far, after an action. -/
def completed (done : List Completed) (s : VxdmaSys cfg) (op : Op cfg) (_ : VxdmaSys cfg) :
    List Completed :=
  match op with
  | .interrupt status _ =>
    if hasBits status xilinxDmaXrIrqAllMask && hasBits status xilinxDmaXrIrqIocMask then
      done ++ completedNow s.chan
    else done
  | _ => done

/-- A start that succeeds finds one descriptor with one segment, and the lists are dropped only
with nothing active. -/
structure SimpleGuard (s : VxdmaSys cfg) (op : Op cfg) : Prop where
  started : ∀ r ∈ s.startEntry op, canStart r.1 = true → r.2 = true →
    (segsOf r.1.pendingList).length = 1
  dropped : s.NothingActive op

instance (s : VxdmaSys cfg) (op : Op cfg) : Decidable (s.SimpleGuard op) :=
  decidable_of_iff ((∀ r ∈ s.startEntry op, canStart r.1 = true → r.2 = true →
      (segsOf r.1.pendingList).length = 1) ∧ s.NothingActive op)
    ⟨fun h => ⟨h.1, h.2⟩, fun h => ⟨h.started, h.dropped⟩⟩

/-- Only an action that enters `xilinx_dma_start_transfer` completes anything. -/
theorem completed_of_startEntry {s s' : VxdmaSys cfg} {op : Op cfg} {done : List Completed}
    (h : s.startEntry op = none) : completed done s op s' = done := by
  cases op with
  | interrupt status startOk =>
    simp only [completed]
    split
    · rename_i hioc
      simp [startEntry, hioc] at h
    · rfl
  | _ => rfl

/-- An action that does not start anything keeps the account. -/
theorem callStep_accounted_silent {s s' : VxdmaSys cfg} {op : Op cfg} {done : List Completed}
    (honce : OwnedOnce s) (hs : Accounted s.chan done) (hok : s.SimpleGuard op)
    (hentry : s.startEntry op = none) (h : s.callStep op = some s') : Accounted s'.chan done := by
  have hsilent := callStep_silent hentry h
  have hsg := callStep_hasSg h
  have hpairs : segPairs s'.chan.mem s'.chan.activeList =
      segPairs s.chan.mem s.chan.activeList := by
    cases hdrop : op.dropsLists with
    | true =>
      have hactive : s'.chan.activeList = [] := (callStep_dropsLists hdrop h).activeList
      rw [hactive, hok.dropped hdrop]
      rfl
    | false =>
      have hactive : s'.chan.activeList = s.chan.activeList := by
        rcases callStep_queues h with
          hsame | ⟨i, callback, env, d, c, w, -, -, -, -, hchan⟩ | ⟨t, ok, hstart, -⟩ | ⟨hdrop', -⟩
        · exact hsame.activeList
        · rw [hchan]
          exact (submitLocked_idle _ (s := resetFor s.chan c w) (callStep_inv h).1).1
        · rw [hentry] at hstart
          cases hstart
        · rw [hdrop] at hdrop'
          cases hdrop'
      rw [hactive]
      exact List.map_congr_left fun p hp => callStep_segPair honce hp hentry hdrop h
  refine ⟨hsg.trans hs.simple, callStep_idleInv hs.idle hok.dropped h, ?_, ?_⟩
  · rw [hpairs]
    exact hsilent.programmed hs.programmed
  · rcases callStep_queues h with
      hsame | ⟨i, callback, env, d, c, w, -, -, -, -, hchan⟩ | ⟨t, ok, hstart, -⟩ | ⟨hdrop, hsame⟩
    · rw [hsame.activeList, hsame.pendingList]
      exact hs.order.trans (submittedIds_sublist hsilent.log_prefix)
    · -- the new descriptor is the last on the queue and the last that was given a cookie
      have hbug : (resetFor s.chan c w).bug = false := (callStep_inv h).1
      obtain ⟨-, hpending, hactive, -⟩ := submitLocked_lists { d with callback := callback } hbug
      obtain ⟨w', hlog, -⟩ := submitLocked_log { d with callback := callback } hbug
      have hids : (submittedIds s.chan ++ [d.id]).Sublist (submittedIds s'.chan) := by
        rw [hchan, submittedIds, submittedIds, assigned, assigned, hlog, resetFor,
          List.filterMap_append, List.filterMap_append, List.filterMap_cons, List.map_append,
          List.map_append]
        refine List.Sublist.append (List.sublist_append_left _ _) ?_
        exact List.Sublist.cons_cons d.id (List.nil_sublist _)
      rw [hchan, hactive, hpending] at *
      refine List.Sublist.trans ?_ hids
      simpa [resetFor] using hs.order.append (List.Sublist.refl [d.id])
    · rw [hentry] at hstart
      cases hstart
    · rw [hsame.activeList, hsame.pendingList]
      refine List.Sublist.trans ?_ (hs.order.trans (submittedIds_sublist hsilent.log_prefix))
      simp

/-- One guarded action keeps the account. -/
theorem callStep_accounted {s s' : VxdmaSys cfg} {op : Op cfg} {done : List Completed}
    (honce : OwnedOnce s) (hs : Accounted s.chan done) (hok : s.SimpleGuard op)
    (h : s.callStep op = some s') : Accounted s'.chan (completed done s op s') := by
  cases hentry : s.startEntry op with
  | none =>
    rw [completed_of_startEntry hentry]
    exact callStep_accounted_silent honce hs hok hentry h
  | some r =>
    obtain ⟨t, startOk⟩ := r
    have hone := hok.started (t, startOk) (Option.mem_def.mpr hentry)
    have ht : Accounted t (completed done s op s') := by
      rcases startEntry_cases hentry with ⟨rfl, rfl⟩ | ⟨status, rfl, hioc, rfl⟩
      · exact hs
      · have hdone : completed done s (.interrupt status startOk) s' =
            done ++ completedNow s.chan := by
          simp only [startEntry] at hentry
          simp only [completed]
          split at hentry
          · rename_i hbits
            rw [if_pos hbits]
          · cases hentry
        rw [hdone]
        exact hs.irqComplete status
    obtain ⟨tasklet, rfl⟩ := callStep_start hentry h
    have hstarted := ht.startTransfer hone
    exact ⟨hstarted.simple, hstarted.idle, hstarted.programmed, hstarted.order⟩

/-- Nothing is lost: when the next IOC interrupt completes the active descriptors, what was
programmed since the start is what the completed descriptors asked for, in order, and they
completed in the order of submission. -/
def NothingLost (s : VxdmaSys cfg) (done : List Completed) : Prop :=
  ∀ status, hasBits status xilinxDmaXrIrqIocMask = true →
    Programmed (irqComplete (irqAck status s.chan))
        ((done ++ completedNow s.chan).flatMap Prod.snd) ∧
      ((done ++ completedNow s.chan).map Prod.fst).Sublist
        (submittedIds (irqComplete (irqAck status s.chan)))

/-- An account in order has lost nothing. -/
theorem Accounted.nothingLost {s : VxdmaSys cfg} {done : List Completed}
    (h : Accounted s.chan done) : s.NothingLost done := by
  intro status hioc
  have hnext := h.irqComplete status
  have hactive : (irqComplete (irqAck status s.chan)).activeList = [] := by
    rw [irqComplete_eq]
  refine ⟨?_, ?_⟩
  · have hprog := hnext.programmed
    rw [hactive] at hprog
    simpa [segPairs] using hprog
  · exact (List.sublist_append_left _ _).trans hnext.order

/-- **No transfer is lost in simple mode**, in every run from the first allocation in which each
start that succeeds finds one descriptor with one segment and the lists are dropped only with
nothing active. -/
theorem programmed_eq_completed {ctrlOffset : Nat} {dmacr : BitVec 32} {segP : DmaAddr cfg}
    {s : VxdmaSys cfg} {done : List Completed}
    (h : Reachable (withGhost callStep completed) (fun sg op => sg.1.SimpleGuard op)
      (allocated false ctrlOffset dmacr segP, []) (s, done)) : s.NothingLost done := by
  have hallocated : OwnedOnce (allocated false ctrlOffset dmacr segP) ∧
      Accounted (allocated false ctrlOffset dmacr segP).chan [] := by
    refine ⟨allocated_ownedOnce _ _ _ _, rfl, ⟨fun _ => rfl, fun _ => rfl⟩, ?_, List.nil_sublist _⟩
    have hprobed : SilentStep (kzallocChan false ctrlOffset : XilinxDmaChan cfg)
        (probedChan false ctrlOffset dmacr) := by
      refine ⟨rfl, _, rfl, fun e he => ?_⟩
      rw [List.mem_singleton.mp he]
      exact silent_of_isControlWrite (by simp [kzallocChan])
    have halloc : SilentStep (probedChan false ctrlOffset dmacr)
        (allocated false ctrlOffset dmacr segP).chan := by
      refine ⟨rfl, _, rfl, fun e he => ?_⟩
      rw [List.mem_singleton.mp he]
      exact silent_of_isControlWrite (by simp)
    exact (hprobed.trans halloc).programmed ⟨rfl, rfl⟩
  let Inv : VxdmaSys cfg → List Completed → Prop := fun s done =>
    OwnedOnce s ∧ Accounted s.chan done
  have hinv : Inv s done := h.ghost_invariant hallocated
    fun s done op s' hs hok hstep =>
      ⟨callStep_ownedOnce hs.1 hstep, callStep_accounted hs.1 hs.2 hok hstep⟩
  exact Accounted.nothingLost hinv.2

/-- Two transfers after each other. -/
def oneByOne : List (Op .addr32) :=
  [.prepSlaveSg ⟨[⟨64, 8⟩], .memToDev, none, true⟩, .txSubmit 0 none ⟨0, true⟩, .issuePending true,
    .prepSlaveSg ⟨[⟨128, 16⟩], .memToDev, none, true⟩, .txSubmit 0 none ⟨0, true⟩,
    .interrupt xilinxDmaXrIrqIocMask true]

/-- Two transfers, the second started when the first is complete. -/
theorem programmed_eq_completed_oneByOne :
    ∃ s done, exec (withGhost callStep completed) (allocated false 0 0 0, []) oneByOne =
      some (s, done) ∧ s.NothingLost done := by
  obtain ⟨⟨s, done⟩, hs⟩ := Option.isSome_iff_exists.mp
    (show (exec (withGhost callStep completed) (allocated false 0 0 0, []) oneByOne).isSome by
      decide +kernel)
  have hrun : Reachable (withGhost callStep completed) (fun sg op => sg.1.SimpleGuard op)
      (allocated false 0 0 0, []) (s, done) := Reachable.of_exec (by decide +kernel) hs
  exact ⟨s, done, hs, programmed_eq_completed hrun⟩

/-- Two descriptors that are queued before an issue complete together, and the second one was
never programmed. -/
theorem programmed_ne_completed :
    ¬ ∀ (s : VxdmaSys .addr32) done, Reachable (withGhost callStep completed) always
      (allocated false 0 0 0, []) (s, done) → s.NothingLost done := by
  intro hclaim
  have hrun : (exec (withGhost callStep completed) (allocated false 0 0 0, [])
      [.prepSlaveSg ⟨[⟨64, 8⟩], .memToDev, none, true⟩,
        .prepSlaveSg ⟨[⟨128, 16⟩], .memToDev, none, true⟩, .txSubmit 0 none ⟨0, true⟩,
        .txSubmit 0 none ⟨0, true⟩, .issuePending true]).map (fun sg : VxdmaSys .addr32 × _ =>
          decide (Programmed (irqComplete (irqAck xilinxDmaXrIrqIocMask sg.1.chan))
            ((sg.2 ++ completedNow sg.1.chan).flatMap Prod.snd))) = some false := by
    decide +kernel
  obtain ⟨⟨s, done⟩, hs, hprog⟩ := Option.map_eq_some_iff.mp hrun
  simp only [decide_eq_false_iff_not] at hprog
  have hreach : Reachable (withGhost callStep completed) always (allocated false 0 0 0, [])
      (s, done) := Reachable.of_exec (Reachable.execOk_of_forall fun _ _ _ => trivial) hs
  exact hprog (hclaim s done hreach xilinxDmaXrIrqIocMask (by decide)).1

end VxdmaSys

end PetalinuxDriver
