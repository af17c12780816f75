import PetalinuxDriver.Analysis.FifoCompletion
import PetalinuxDriver.Analysis.IdleFlag

/-!
# What becomes of a batch with an error

The interrupt handler looks at the error bits and at the completion bit of its status word
independently, and completion is by cookie: what is completed later makes everything before it look
complete. So a descriptor that was active when the handler saw an error is reported as successful
as soon as the same interrupt, or a later one, completes anything.

`ErrorHistory` remembers next to the state which cookies saw an error, and whether the channel has
been in error since its batch was started. In a run in which nothing is completed after an error
until the next allocation, none of these cookies is ever reported complete, and a cookie is
completed only by an interrupt without error, of a batch that saw none (`errors_reported`).
-/

set_option autoImplicit false

namespace PetalinuxDriver

open Library

variable {cfg : PhysAddrConfig}

/-! ## The cookies in flight -/

/-- `n` cookies were handed out since the allocation and `m` of them are done with; those of the
descriptors that are active or pending, and `es`, come after `m`. -/
structure CookieWindow (s : XilinxDmaChan cfg) (es : List Int) (n m : Nat) (ks : List Nat) :
    Prop where
  common : s.common = ⟨cookieOf n, cookieOf m⟩
  le : m ≤ n
  window : n - m < cookiePeriod
  queued : (s.activeList ++ s.pendingList).map XilinxDmaTxDescriptor.cookie = ks.map cookieOf
  sorted : ks.Pairwise (· < ·)
  after : ∀ k ∈ ks, m < k ∧ k ≤ n
  errors : ∀ e ∈ es, ∃ k, m < k ∧ k ≤ n ∧ e = cookieOf k

namespace CookieWindow

variable {s t : XilinxDmaChan cfg} {es : List Int} {n m : Nat} {ks : List Nat}

/-- Only the last cookie and the queued descriptors matter. -/
theorem of_eq (h : CookieWindow s es n m ks) (hcommon : t.common = s.common)
    (hqueued : t.activeList ++ t.pendingList = s.activeList ++ s.pendingList) :
    CookieWindow t es n m ks := by
  refine ⟨hcommon.trans h.common, h.le, h.window, ?_, h.sorted, h.after, h.errors⟩
  rw [hqueued]
  exact h.queued

/-- With nothing queued, nothing but the cookie fields counts. -/
theorem of_empty (h : CookieWindow s es n m ks) (hcommon : t.common = s.common)
    (hqueued : t.activeList ++ t.pendingList = []) : CookieWindow t es n m [] := by
  refine ⟨hcommon.trans h.common, h.le, h.window, ?_, List.Pairwise.nil, ?_, h.errors⟩
  · rw [hqueued]
    rfl
  · intro k hk
    cases hk

/-- A cookie of the window is not reported complete. -/
theorem inProgress (h : CookieWindow s es n m ks) {e : Int} (he : e ∈ es) :
    dmaCookieStatus s.common e ≠ .complete := by
  obtain ⟨k, hmk, hkn, rfl⟩ := h.errors e he
  have hwindow := h.window
  rw [dmaCookieStatus, h.common]
  intro hcomplete
  have hkm := (dmaAsyncIsComplete_cookieOf h.le hwindow hkn (by omega)).mp hcomplete
  omega

/-- A submit hands out the next cookie, which must not be the one that was completed last. -/
theorem submitLocked (h : CookieWindow s es n m ks) (d : XilinxDmaTxDescriptor cfg)
    (hbug : s.bug = false) (hnew : nextCookie s ≠ s.common.completedCookie) :
    CookieWindow (submitLocked d s).1 es (n + 1) m (ks ++ [n + 1]) := by
  have hassign : dmaCookieAssign s.common = (⟨cookieOf (n + 1), cookieOf m⟩, cookieOf (n + 1)) := by
    rw [h.common]
    exact dmaCookieAssign_cookieOf n _
  have hcookie : nextCookie s = cookieOf (n + 1) := by rw [nextCookie, hassign]
  have hwindow : n + 1 - m < cookiePeriod := by
    by_contra hfull
    have hperiod : n + 1 = m + cookiePeriod := by
      have := h.window
      have := h.le
      omega
    apply hnew
    rw [hcookie, h.common, hperiod]
    simp [cookieOf]
  have hcommon : (PetalinuxDriver.submitLocked d s).1.common = (dmaCookieAssign s.common).1 := by
    by_cases hroom : s.descPendingcount < xilinxDmaCoalesceMax
    · rw [submitLocked_queued d hbug hroom]
    · rw [submitLocked_bug d (by omega)]
  obtain ⟨-, hpending, hactive, -⟩ := submitLocked_lists d hbug
  refine ⟨?_, ?_, hwindow, ?_, ?_, ?_, ?_⟩
  · rw [hcommon, hassign]
  · have := h.le
    omega
  · rw [hactive, hpending, ← List.append_assoc, List.map_append, h.queued, List.map_append]
    simp [hcookie]
  · rw [List.pairwise_append]
    refine ⟨h.sorted, List.pairwise_singleton _ _, ?_⟩
    intro a ha b hb
    rw [List.mem_singleton.mp hb]
    have := (h.after a ha).2
    omega
  · intro k hk
    have hle := h.le
    rcases List.mem_append.mp hk with hk | hk
    · have := h.after k hk
      omega
    · rw [List.mem_singleton.mp hk]
      omega
  · intro e he
    obtain ⟨k, hmk, hkn, hcookie⟩ := h.errors e he
    exact ⟨k, hmk, by omega, hcookie⟩

/-- The descriptors that are active are among those in flight, so they may be remembered. -/
theorem remember (h : CookieWindow s es n m ks) :
    CookieWindow s (es ++ s.activeList.map XilinxDmaTxDescriptor.cookie) n m ks := by
  refine ⟨h.common, h.le, h.window, h.queued, h.sorted, h.after, ?_⟩
  intro e he
  rcases List.mem_append.mp he with he | he
  · exact h.errors e he
  · have hmem : e ∈ (s.activeList ++ s.pendingList).map XilinxDmaTxDescriptor.cookie := by
      rw [List.map_append]
      exact List.mem_append_left _ he
    rw [h.queued] at hmem
    obtain ⟨k, hk, rfl⟩ := List.mem_map.mp hmem
    exact ⟨k, (h.after k hk).1, (h.after k hk).2, rfl⟩

end CookieWindow

/-- An allocation starts a new window. -/
theorem allocChanResources_window (segP : DmaAddr cfg) {s : XilinxDmaChan cfg}
    (hactive : s.activeList = []) (hpending : s.pendingList = []) :
    CookieWindow (xilinxDmaAllocChanResources (some segP) s).1 [] 0 0 [] := by
  have hqueued : (xilinxDmaAllocChanResources (some segP) s).1.activeList ++
      (xilinxDmaAllocChanResources (some segP) s).1.pendingList = [] := by
    show s.activeList ++ s.pendingList = []
    rw [hactive, hpending]
    rfl
  refine ⟨rfl, le_refl 0, by decide, ?_, List.Pairwise.nil, ?_, ?_⟩
  · rw [hqueued]
    rfl
  · intro k hk
    cases hk
  · intro e he
    cases he

/-- Completing some descriptors in order leaves the cookie of the last one that is not cyclic. -/
theorem foldl_completeCookie_window {ds : List (XilinxDmaTxDescriptor cfg)} {ks : List Nat}
    (hds : ds.map XilinxDmaTxDescriptor.cookie = ks.map cookieOf) (c : Int) (m : Nat) :
    ∃ m', (m' = m ∨ m' ∈ ks) ∧ ((∀ d ∈ ds, d.cyclic = true) → m' = m) ∧
      ds.foldl completeCookie ⟨c, cookieOf m⟩ = ⟨c, cookieOf m'⟩ := by
  induction ds generalizing ks m with
  | nil => exact ⟨m, Or.inl rfl, fun _ => rfl, rfl⟩
  | cons d ds ih =>
    cases ks with
    | nil => cases hds
    | cons k ks =>
      obtain ⟨hk, hks⟩ := List.cons.inj hds
      rw [List.foldl_cons]
      cases hcyc : d.cyclic with
      | true =>
        have hfirst : completeCookie ⟨c, cookieOf m⟩ d = ⟨c, cookieOf m⟩ := by
          simp [completeCookie, hcyc]
        obtain ⟨m', hm', hnone, hfold⟩ := ih hks m
        rw [hfirst]
        refine ⟨m', ?_, ?_, hfold⟩
        · rcases hm' with rfl | hmem
          · exact Or.inl rfl
          · exact Or.inr (List.mem_cons_of_mem k hmem)
        · intro hall
          exact hnone fun e he => hall e (List.mem_cons_of_mem d he)
      | false =>
        have hfirst : completeCookie ⟨c, cookieOf m⟩ d = ⟨c, cookieOf k⟩ := by
          simp only [completeCookie, hcyc, Bool.false_eq_true, if_false]
          rw [← hk]
        obtain ⟨m', hm', -, hfold⟩ := ih hks k
        rw [hfirst]
        refine ⟨m', Or.inr ?_, ?_, hfold⟩
        · rcases hm' with rfl | hmem
          · exact List.mem_cons_self
          · exact List.mem_cons_of_mem k hmem
        · intro hall
          have hd := hall d List.mem_cons_self
          rw [hcyc] at hd
          cases hd

/-- An interrupt moves the window past what it completes. -/
theorem CookieWindow.irqComplete {s : XilinxDmaChan cfg} {es : List Int} {n m : Nat}
    {ks : List Nat} (h : CookieWindow s es n m ks)
    (hes : es ≠ [] → ∀ d ∈ s.activeList, d.cyclic = true) :
    ∃ m' ks', CookieWindow (irqComplete s) es n m' ks' := by
  have hqueued := h.queued
  rw [List.map_append] at hqueued
  obtain ⟨active, pending, rfl, hactive, hpending⟩ := List.append_eq_map_iff.mp hqueued
  obtain ⟨m', hm', hnone, hfold⟩ := foldl_completeCookie_window hactive.symm (cookieOf n) m
  have hle : m ≤ m' ∧ m' ≤ n := by
    have := h.le
    rcases hm' with rfl | hmem
    · omega
    · have := h.after m' (List.mem_append_left _ hmem)
      omega
  have hwindow := h.window
  refine ⟨m', pending, ?_⟩
  rw [irqComplete_eq]
  refine ⟨?_, hle.2, by omega, ?_, ?_, ?_, ?_⟩
  · rw [← hfold, ← h.common]
  · simpa using hpending.symm
  · exact (List.pairwise_append.mp h.sorted).2.1
  · intro k hk
    have hk' := h.after k (List.mem_append_right _ hk)
    rcases hm' with rfl | hmem
    · exact hk'
    · exact ⟨(List.pairwise_append.mp h.sorted).2.2 m' hmem k hk, hk'.2⟩
  · intro e he
    rw [hnone (hes (List.ne_nil_of_mem he))]
    exact h.errors e he

/-! ## What leaves the batches alone -/

/-- The batches and what is known of them are the same. -/
structure SameBatch (s t : XilinxDmaChan cfg) : Prop where
  activeList : t.activeList = s.activeList
  pendingList : t.pendingList = s.pendingList
  common : t.common = s.common
  idle : t.idle = s.idle
  completedIds : completedIds t = completedIds s

/-- Two steps that keep a batch are one. -/
theorem SameBatch.trans {s₁ s₂ s₃ : XilinxDmaChan cfg} (h : SameBatch s₁ s₂)
    (h' : SameBatch s₂ s₃) : SameBatch s₁ s₃ :=
  ⟨h'.activeList.trans h.activeList, h'.pendingList.trans h.pendingList,
    h'.common.trans h.common, h'.idle.trans h.idle, h'.completedIds.trans h.completedIds⟩

/-- Writes of the control register complete nothing. -/
theorem completedIds_controlWrites {ctrlOffset : Nat} (log : List Event) {w : List Event}
    (hw : ∀ e ∈ w, e.isControlWrite ctrlOffset = true) :
    (log ++ w).filterMap Event.completed = log.filterMap Event.completed := by
  rw [List.filterMap_append, List.filterMap_eq_nil_iff.mpr fun e he =>
    (quiet_of_isControlWrite (hw e he)).2.1, List.append_nil]

/-- A step that leaves no trace keeps the batch. -/
theorem SameBatch.of_sameHistory {s t : XilinxDmaChan cfg} (h : SameHistory s t)
    (hidle : t.idle = s.idle) : SameBatch s t :=
  ⟨h.activeList, h.pendingList, h.common, hidle, h.filterMap_log.2.1⟩

/-- A cleanup keeps the batch and `err`. -/
theorem cleanup_sameBatch (s : XilinxDmaChan cfg) :
    SameBatch s (xilinxDmaChanDescCleanup s).1 ∧ (xilinxDmaChanDescCleanup s).1.err = s.err := by
  obtain ⟨freed, rest, -, -, hcases⟩ := cleanupLoop_cases s.doneList s rfl
  unfold xilinxDmaChanDescCleanup
  rcases hcases with ⟨-, h⟩ | ⟨d, tl, -, -, -, h⟩ | ⟨d, tl, -, -, h⟩ | ⟨d, tl, -, -, h⟩ <;> rw [h]
  · exact ⟨⟨rfl, rfl, rfl, rfl, rfl⟩, rfl⟩
  · exact ⟨⟨rfl, rfl, rfl, rfl, rfl⟩, rfl⟩
  · refine ⟨⟨rfl, rfl, rfl, rfl, ?_⟩, rfl⟩
    simp [completedIds, XilinxDmaChan.emit, Event.completed]
  · refine ⟨⟨rfl, rfl, rfl, rfl, ?_⟩, rfl⟩
    simp [completedIds, XilinxDmaChan.emit, Event.completed]

/-- The rest of a cleanup keeps the batch and `err`. -/
theorem cleanupResume_sameBatch (pc : CleanupPc cfg) (s : XilinxDmaChan cfg) :
    SameBatch s (cleanupResume pc s).1 ∧ (cleanupResume pc s).1.err = s.err := by
  cases pc with
  | idle => exact ⟨⟨rfl, rfl, rfl, rfl, rfl⟩, rfl⟩
  | cyclicCallback => exact ⟨⟨rfl, rfl, rfl, rfl, rfl⟩, rfl⟩
  | callback d =>
    have hfree := freeTxDescriptor_sameHistory s d.segments
    have hidle : (xilinxDmaFreeTxDescriptor s d.segments).idle = s.idle := by
      rw [freeTxDescriptor_eq]
    have herr : (xilinxDmaFreeTxDescriptor s d.segments).err = s.err := by rw [freeTxDescriptor_eq]
    obtain ⟨hsame, hkeep⟩ := cleanup_sameBatch (xilinxDmaFreeTxDescriptor s d.segments)
    exact ⟨(SameBatch.of_sameHistory hfree hidle).trans hsame, hkeep.trans herr⟩

/-- A start completes nothing and keeps the order of what is active and pending. -/
theorem startTransfer_batch (startOk : Bool) (t : XilinxDmaChan cfg) :
    (xilinxDmaStartTransfer startOk t).common = t.common ∧
      (xilinxDmaStartTransfer startOk t).activeList ++
        (xilinxDmaStartTransfer startOk t).pendingList = t.activeList ++ t.pendingList ∧
      completedIds (xilinxDmaStartTransfer startOk t) = completedIds t := by
  have hquiet : ∀ w : List Event, (∀ e ∈ w, e.isBusWrite = true) →
      (t.log ++ w).filterMap Event.completed = t.log.filterMap Event.completed := by
    intro w hw
    rw [List.filterMap_append, List.filterMap_eq_nil_iff.mpr fun e he =>
      (quiet_of_isBusWrite (hw e he)).2.1, List.append_nil]
  rcases startTransfer_cases startOk t with ⟨-, h⟩ | ⟨-, -, c, w, hw, h⟩ | ⟨-, -, c, w, hw, h⟩ <;>
    rw [h]
  · exact ⟨rfl, rfl, rfl⟩
  · exact ⟨rfl, rfl, hquiet w hw⟩
  · exact ⟨rfl, List.append_nil _, hquiet w hw⟩

/-- The locked part of a submit leaves `err`. -/
theorem submitLocked_err (d : XilinxDmaTxDescriptor cfg) {s : XilinxDmaChan cfg}
    (hbug : s.bug = false) : (submitLocked d s).1.err = s.err := by
  by_cases hroom : s.descPendingcount < xilinxDmaCoalesceMax
  · rw [submitLocked_queued d hbug hroom]
  · rw [submitLocked_bug d (by omega)]

/-- The locked part of a submit completes nothing. -/
theorem submitLocked_completedIds (d : XilinxDmaTxDescriptor cfg) {s : XilinxDmaChan cfg}
    (hbug : s.bug = false) : completedIds (submitLocked d s).1 = completedIds s := by
  by_cases hroom : s.descPendingcount < xilinxDmaCoalesceMax
  · rw [submitLocked_queued d hbug hroom]
    simp [completedIds, Event.completed, List.filterMap_cons]
  · rw [submitLocked_bug d (by omega)]
    simp [completedIds, Event.completed, List.filterMap_cons]

/-- Dropping the lists completes nothing. -/
theorem freeDescriptors_completedIds (s : XilinxDmaChan cfg) :
    completedIds (xilinxDmaFreeDescriptors s) = completedIds s := by
  rw [freeDescriptors_eq]
  have hnone : ((s.pendingList ++ s.doneList ++ s.activeList).map
      fun d => Event.freeDescList d.id).filterMap Event.completed = [] := by
    refine List.filterMap_eq_nil_iff.mpr fun e he => ?_
    obtain ⟨d, -, rfl⟩ := List.mem_map.mp he
    rfl
  simp only [completedIds, List.filterMap_append, hnone, List.append_nil]

/-- A terminate completes nothing, and leaves the last completed cookie. -/
theorem terminateAll_batch (haltOk : Bool) (s : XilinxDmaChan cfg) :
    (xilinxDmaTerminateAll haltOk s).common = s.common ∧
      completedIds (xilinxDmaTerminateAll haltOk s) = completedIds s := by
  have hhalt := halt_sameHistory haltOk s
  have hfree := freeDescriptors_completedIds (xilinxDmaHalt haltOk s)
  have hcommon : (xilinxDmaFreeDescriptors (xilinxDmaHalt haltOk s)).common = s.common := by
    rw [freeDescriptors_eq]
    exact hhalt.common
  unfold xilinxDmaTerminateAll
  simp only
  split
  · have hclear := clearCyclic_sameHistory (xilinxDmaFreeDescriptors (xilinxDmaHalt haltOk s))
    exact ⟨hclear.common.trans hcommon,
      hclear.filterMap_log.2.1.trans (hfree.trans hhalt.filterMap_log.2.1)⟩
  · exact ⟨hcommon, hfree.trans hhalt.filterMap_log.2.1⟩

/-- Nothing is completed of a batch whose descriptors are all cyclic. -/
theorem irqComplete_completedIds {s : XilinxDmaChan cfg}
    (h : ∀ d ∈ s.activeList, d.cyclic = true) : completedIds (irqComplete s) = completedIds s := by
  have hnone : s.activeList.flatMap completeEvents = [] := by
    rw [List.flatMap_eq_nil_iff]
    intro d hd
    simp [completeEvents, h d hd]
  rw [irqComplete_eq]
  simp only [completedIds, hnone, List.append_nil]

namespace VxdmaSys

/-! ## Errors and what was active -/

/-- The cookies of the descriptors that were active when the handler saw an error, since the last
allocation, and whether the channel has been in error since its batch was started. -/
structure ErrorHistory where
  cookies : List Int
  broken : Bool

/-- The history after an action. -/
def ErrorHistory.next (g : ErrorHistory) (s : VxdmaSys cfg) (op : Op cfg) (s' : VxdmaSys cfg) :
    ErrorHistory where
  cookies := match op with
    | .interrupt status _ =>
      if hasBits status xilinxDmaXrIrqErrorMask then
        g.cookies ++ s.chan.activeList.map XilinxDmaTxDescriptor.cookie
      else g.cookies
    | .allocChanResources (some _) => []
    | _ => g.cookies
  broken := match s.startEntry op with
    | some (t, startOk) => !(canStart t && startOk) && (g.broken || s'.chan.err)
    | none => g.broken || s'.chan.err

/-- Nothing is completed by an interrupt with an error, or after an error until the next allocation.
An allocation finds nothing queued, and no submit is given the cookie that was completed last,
which is a whole period ago. -/
def ErrorGuard (sg : VxdmaSys cfg × ErrorHistory) (op : Op cfg) : Prop :=
  match op with
  | .interrupt status _ => hasBits status xilinxDmaXrIrqIocMask = true →
    (hasBits status xilinxDmaXrIrqErrorMask = true ∨ sg.2.cookies ≠ []) →
      ∀ d ∈ sg.1.chan.activeList, d.cyclic = true
  | .txSubmit _ _ _ => sg.1.chan.cyclic = false →
    nextCookie sg.1.chan ≠ sg.1.chan.common.completedCookie
  | .allocChanResources (some _) => sg.1.chan.activeList ++ sg.1.chan.pendingList = []
  | _ => True

instance (sg : VxdmaSys cfg × ErrorHistory) : (op : Op cfg) → Decidable (ErrorGuard sg op)
  | .interrupt status _ => inferInstanceAs (Decidable
      (hasBits status xilinxDmaXrIrqIocMask = true →
        (hasBits status xilinxDmaXrIrqErrorMask = true ∨ sg.2.cookies ≠ []) →
          ∀ d ∈ sg.1.chan.activeList, d.cyclic = true))
  | .txSubmit _ _ _ => inferInstanceAs (Decidable (sg.1.chan.cyclic = false →
      nextCookie sg.1.chan ≠ sg.1.chan.common.completedCookie))
  | .allocChanResources (some _) =>
    inferInstanceAs (Decidable (sg.1.chan.activeList ++ sg.1.chan.pendingList = []))
  | .allocChanResources none => isTrue trivial
  | .prepSlaveSg _ => isTrue trivial
  | .prepDmaCyclic _ => isTrue trivial
  | .issuePending _ => isTrue trivial
  | .terminateAll _ => isTrue trivial
  | .freeChanResources => isTrue trivial
  | .tasklet => isTrue trivial
  | .callbackReturn => isTrue trivial
  | .device _ _ _ => isTrue trivial

/-- The invariant. -/
structure ErrorInv (s : XilinxDmaChan cfg) (g : ErrorHistory) : Prop where
  window : ∃ n m ks, CookieWindow s g.cookies n m ks
  idle : s.idle = true → s.activeList = []
  err : s.err = true → s.activeList = [] ∨ g.cookies ≠ []
  broken : s.activeList ≠ [] → g.cookies = [] → g.broken = false

/-! ## One action -/

variable {s s' : VxdmaSys cfg} {g : ErrorHistory} {op : Op cfg}

/-- A prep does not change what is to be reported. -/
theorem next_cookies_of_entry (h : (op.entry s.chan).isSome) :
    (g.next s op s').cookies = g.cookies := by
  cases op <;> first | rfl | cases h

/-- An action that starts nothing and adds nothing to what is active. -/
theorem ErrorInv.quiet (hs : ErrorInv s.chan g) (hentry : s.startEntry op = none)
    (hwindow : ∃ n m ks, CookieWindow s'.chan (g.next s op s').cookies n m ks)
    (hidle : s'.chan.idle = true → s'.chan.activeList = [])
    (herr : s'.chan.err = true → s'.chan.activeList = [] ∨ (g.next s op s').cookies ≠ [])
    (hbefore : s'.chan.activeList ≠ [] → s.chan.activeList ≠ [] ∧
      ((g.next s op s').cookies = [] → g.cookies = [])) :
    ErrorInv s'.chan (g.next s op s') := by
  refine ⟨hwindow, hidle, herr, ?_⟩
  intro hne hnil
  have hsound : s'.chan.err = false := by
    by_contra hset
    rcases herr (by simpa using hset) with hempty | hcookies
    · exact hne hempty
    · exact hcookies hnil
  have hbroken : g.broken = false := hs.broken (hbefore hne).1 ((hbefore hne).2 hnil)
  simp [ErrorHistory.next, hentry, hsound, hbroken]

/-- An action that leaves the batches alone and sets no error. -/
theorem ErrorInv.of_sameBatch (hs : ErrorInv s.chan g) (hentry : s.startEntry op = none)
    (hcookies : (g.next s op s').cookies = g.cookies) (hsame : SameBatch s.chan s'.chan)
    (herr : s'.chan.err = true → s.chan.err = true) : ErrorInv s'.chan (g.next s op s') := by
  obtain ⟨n, m, ks, hw⟩ := hs.window
  refine hs.quiet hentry ⟨n, m, ks, ?_⟩ ?_ ?_ ?_
  · rw [hcookies]
    exact hw.of_eq hsame.common (by rw [hsame.activeList, hsame.pendingList])
  · rw [hsame.idle, hsame.activeList]
    exact hs.idle
  · rw [hcookies, hsame.activeList]
    exact fun hset => hs.err (herr hset)
  · rw [hcookies, hsame.activeList]
    exact fun hne => ⟨hne, id⟩

/-- An action that drops the lists. -/
theorem ErrorInv.of_dropped (hs : ErrorInv s.chan g) (hentry : s.startEntry op = none)
    (hcookies : (g.next s op s').cookies = g.cookies) (hcommon : s'.chan.common = s.chan.common)
    (hactive : s'.chan.activeList = []) (hpending : s'.chan.pendingList = []) :
    ErrorInv s'.chan (g.next s op s') := by
  obtain ⟨n, m, ks, hw⟩ := hs.window
  refine hs.quiet hentry ⟨n, m, [], ?_⟩ (fun _ => hactive) (fun _ => Or.inl hactive)
    (fun hne => absurd hactive hne)
  rw [hcookies]
  exact hw.of_empty hcommon (by rw [hactive, hpending, List.append_nil])

/-- An action that enters `xilinx_dma_start_transfer`. -/
theorem ErrorInv.start {t : XilinxDmaChan cfg} {startOk : Bool}
    (hentry : s.startEntry op = some (t, startOk)) (h : s.callStep op = some s')
    (hwindow : ∃ n m ks, CookieWindow t (g.next s op s').cookies n m ks)
    (hidle : t.idle = true → t.activeList = [])
    (herr : t.err = true → t.activeList = [] ∨ (g.next s op s').cookies ≠ [])
    (hbroken : t.activeList ≠ [] → (g.next s op s').cookies = [] → g.broken = false) :
    ErrorInv s'.chan (g.next s op s') := by
  obtain ⟨n, m, ks, hw⟩ := hwindow
  obtain ⟨hcommon, hqueued, -⟩ := startTransfer_batch startOk t
  have hnext : (g.next s op s').broken =
      (!(canStart t && startOk) && (g.broken || s'.chan.err)) := by
    simp [ErrorHistory.next, hentry]
  have hwindow' : ∃ n m ks, CookieWindow s'.chan (g.next s op s').cookies n m ks := by
    obtain ⟨tasklet, hs'⟩ := callStep_start hentry h
    refine ⟨n, m, ks, ?_⟩
    apply hw.of_eq
    · rw [hs']
      exact hcommon
    · rw [hs']
      exact hqueued
  have hchan : s'.chan.activeList = (xilinxDmaStartTransfer startOk t).activeList ∧
      s'.chan.idle = (xilinxDmaStartTransfer startOk t).idle ∧
      s'.chan.err = (xilinxDmaStartTransfer startOk t).err := by
    obtain ⟨tasklet, rfl⟩ := callStep_start hentry h
    exact ⟨rfl, rfl, rfl⟩
  obtain ⟨hactive, hidle', herr'⟩ := hchan
  rcases startTransfer_cases startOk t with
    ⟨hstart, hst⟩ | ⟨hstart, rfl, c, w, -, hst⟩ | ⟨hstart, rfl, c, w, -, hst⟩ <;>
    rw [hst] at hactive hidle' herr'
  · refine ⟨hwindow', ?_, ?_, ?_⟩
    · rw [hidle', hactive]
      exact hidle
    · rw [herr', hactive]
      exact herr
    · rw [hactive]
      intro hne hnil
      have hsound : t.err = false := by
        by_contra hset
        rcases herr (by simpa using hset) with hempty | hcookies
        · exact hne hempty
        · exact hcookies hnil
      rw [hnext, herr', hsound, hbroken hne hnil]
      simp
  · -- the start timed out: it was entered with nothing active
    have hempty : t.activeList = [] := hidle ((canStart_iff t).mp hstart).2.2
    refine ⟨hwindow', fun _ => hactive.trans hempty, fun _ => Or.inl (hactive.trans hempty), ?_⟩
    exact fun hne _ => absurd (hactive.trans hempty) hne
  · have hsound : t.err = false := ((canStart_iff t).mp hstart).1
    refine ⟨hwindow', ?_, ?_, ?_⟩
    · intro hset
      rw [hidle'] at hset
      cases hset
    · intro hset
      rw [herr', hsound] at hset
      cases hset
    · intro _ _
      rw [hnext, hstart]
      rfl

/-- A status word that is not from this channel shows no error. -/
theorem error_of_none {status : BitVec 32} (h : hasBits status xilinxDmaXrIrqAllMask = false) :
    hasBits status xilinxDmaXrIrqErrorMask = false := by
  have hmask : xilinxDmaXrIrqAllMask &&& xilinxDmaXrIrqErrorMask = xilinxDmaXrIrqErrorMask := by
    decide
  have hzero : status &&& xilinxDmaXrIrqAllMask = 0#32 := by simpa [hasBits] using h
  have herror : status &&& xilinxDmaXrIrqErrorMask = 0#32 := by
    rw [← hmask, ← BitVec.and_assoc, hzero]
    simp
  simp [hasBits, herror]

/-- A submit that is queued gets the next cookie and starts nothing. -/
theorem ErrorInv.submitQueue {i : Nat} {callback : Option Nat} {env : ResetEnv}
    {d : XilinxDmaTxDescriptor cfg} {c : BitVec 32} {w : List Event} (hs : ErrorInv s.chan g)
    (hbug : s.chan.bug = false) (hcookie : nextCookie s.chan ≠ s.chan.common.completedCookie)
    (hchan : s'.chan = (submitLocked { d with callback := callback } (resetFor s.chan c w)).1) :
    ErrorInv s'.chan (g.next s (.txSubmit i callback env) s') := by
  obtain ⟨n, m, ks, hw⟩ := hs.window
  have hreset : CookieWindow (resetFor s.chan c w) g.cookies n m ks := hw.of_eq rfl rfl
  have hsubmit := hreset.submitLocked { d with callback := callback } hbug hcookie
  obtain ⟨-, -, hactive, -⟩ := submitLocked_lists { d with callback := callback }
    (s := resetFor s.chan c w) hbug
  have hidle := (submitLocked_idle { d with callback := callback }
    (s := resetFor s.chan c w) hbug).2
  have herr := submitLocked_err { d with callback := callback } (s := resetFor s.chan c w) hbug
  rw [← hchan] at hsubmit hactive hidle herr
  apply hs.quiet rfl
  · exact ⟨_, _, _, hsubmit⟩
  · intro hset
    exact hactive.trans (hs.idle (hidle.symm.trans hset))
  · intro hset
    have hclear : false = true := herr.symm.trans hset
    cases hclear
  · intro hne
    exact ⟨fun hempty => hne (hactive.trans hempty), id⟩

/-- An interrupt without completion leaves the batches alone, and remembers the cookies that are
active at an error. -/
theorem ErrorInv.irqOther {status : BitVec 32} (startOk : Bool) (hs : ErrorInv s.chan g)
    (hioc : hasBits status xilinxDmaXrIrqIocMask = false)
    (hchan : s'.chan = taskletSchedule (irqAck status s.chan)) :
    ErrorInv s'.chan (g.next s (.interrupt status startOk) s') := by
  obtain ⟨n, m, ks, hw⟩ := hs.window
  have hnone : s.startEntry (.interrupt status startOk) = none := by simp [startEntry, hioc]
  have hack := SameBatch.of_sameHistory (irqAck_sameHistory status s.chan) (by rw [irqAck_eq])
  have hsame : SameBatch s.chan s'.chan := by
    rw [hchan]
    exact ⟨hack.activeList, hack.pendingList, hack.common, hack.idle, hack.completedIds⟩
  cases herror : hasBits status xilinxDmaXrIrqErrorMask with
  | false =>
    apply hs.of_sameBatch hnone (by simp [ErrorHistory.next, herror]) hsame
    simp [hchan, taskletSchedule, irqAck_eq, herror]
  | true =>
    have hcookies : (g.next s (.interrupt status startOk) s').cookies =
        g.cookies ++ s.chan.activeList.map XilinxDmaTxDescriptor.cookie := by
      simp [ErrorHistory.next, herror]
    refine hs.quiet hnone ⟨n, m, ks, ?_⟩ ?_ ?_ ?_
    · rw [hcookies]
      exact hw.remember.of_eq hsame.common (by rw [hsame.activeList, hsame.pendingList])
    · rw [hsame.idle, hsame.activeList]
      exact hs.idle
    · rw [hcookies, hsame.activeList]
      intro _
      cases hactive : s.chan.activeList <;> simp
    · rw [hcookies, hsame.activeList]
      exact fun hne => ⟨hne, fun hnil => (List.append_eq_nil_iff.mp hnil).1⟩

/-- An interrupt with completion completes nothing that saw an error. -/
theorem ErrorInv.irqIoc {status : BitVec 32} {startOk : Bool} (hs : ErrorInv s.chan g)
    (hok : ErrorGuard (s, g) (.interrupt status startOk))
    (hsome : hasBits status xilinxDmaXrIrqAllMask = true)
    (hioc : hasBits status xilinxDmaXrIrqIocMask = true)
    (h : s.callStep (.interrupt status startOk) = some s') :
    ErrorInv s'.chan (g.next s (.interrupt status startOk) s') := by
  obtain ⟨n, m, ks, hw⟩ := hs.window
  have hentry : s.startEntry (.interrupt status startOk) =
      some (irqComplete (irqAck status s.chan), startOk) := by
    simp [startEntry, hsome, hioc]
  have hack := SameBatch.of_sameHistory (irqAck_sameHistory status s.chan) (by rw [irqAck_eq])
  have hempty : (irqComplete (irqAck status s.chan)).activeList = [] := by rw [irqComplete_eq]
  refine ErrorInv.start hentry h ⟨n, ?_⟩ (fun _ => hempty) (fun _ => Or.inl hempty)
    (fun hne => absurd hempty hne)
  have hcyc : (hasBits status xilinxDmaXrIrqErrorMask = true ∨ g.cookies ≠ []) →
      ∀ d ∈ (irqAck status s.chan).activeList, d.cyclic = true := by
    rw [hack.activeList]
    exact hok hioc
  -- the batch is remembered first and completed after that
  cases herror : hasBits status xilinxDmaXrIrqErrorMask with
  | false =>
    have hwack : CookieWindow (irqAck status s.chan) g.cookies n m ks :=
      hw.of_eq hack.common (by rw [hack.activeList, hack.pendingList])
    simp only [ErrorHistory.next, herror, Bool.false_eq_true, if_false]
    exact hwack.irqComplete fun hne => hcyc (Or.inr hne)
  | true =>
    have hwack : CookieWindow (irqAck status s.chan)
        (g.cookies ++ s.chan.activeList.map XilinxDmaTxDescriptor.cookie) n m ks :=
      hw.remember.of_eq hack.common (by rw [hack.activeList, hack.pendingList])
    simp only [ErrorHistory.next, herror, if_true]
    exact hwack.irqComplete fun _ => hcyc (Or.inl herror)

/-- One guarded action keeps the invariant. -/
theorem callStep_errorInv (hs : ErrorInv s.chan g) (hok : ErrorGuard (s, g) op)
    (h : s.callStep op = some s') : ErrorInv s'.chan (g.next s op s') := by
  obtain ⟨hbug, hstep⟩ := callStep_inv h
  obtain ⟨n, m, ks, hw⟩ := hs.window
  cases hstep with
  | prepNull op k mem hentry =>
    exact hs.of_sameBatch (startEntry_of_entry hentry) (next_cookies_of_entry hentry)
      ⟨rfl, rfl, rfl, rfl, rfl⟩ id
  | prepDesc op chunks b d mem hentry =>
    have hsome : (op.entry s.chan).isSome := by
      rw [hentry]
      rfl
    have hlog := completedIds_controlWrites s.chan.log (builtEvents_isControlWrite b s.chan)
    exact hs.of_sameBatch (startEntry_of_entry hsome) (next_cookies_of_entry hsome)
      ⟨rfl, rfl, rfl, rfl, hlog⟩ id
  | submitRefused i callback env d hd hcyc =>
    exact hs.of_sameBatch rfl rfl ⟨rfl, rfl, rfl, rfl, rfl⟩ id
  | submitFailed i callback env d w hd hcyc herr hfail hwrites =>
    have hlog := completedIds_controlWrites s.chan.log hwrites
    exact hs.of_sameBatch rfl rfl ⟨rfl, rfl, rfl, rfl, hlog⟩ id
  | submitQueue i callback env d c w hd hcyc hdone hwrites =>
    exact hs.submitQueue hbug (hok hcyc) rfl
  | issuePending startOk =>
    exact ErrorInv.start rfl h ⟨n, m, ks, hw⟩ hs.idle hs.err hs.broken
  | irqNone status startOk hnone =>
    have herror := error_of_none hnone
    exact hs.of_sameBatch (by simp [startEntry, hnone]) (by simp [ErrorHistory.next, herror])
      ⟨rfl, rfl, rfl, rfl, rfl⟩ id
  | irqOther status startOk hsome hioc => exact hs.irqOther startOk hioc rfl
  | irqIoc status startOk hsome hioc => exact hs.irqIoc hok hsome hioc h
  | terminateAll haltOk =>
    have hqueues := terminateAll_queues haltOk s.chan
    exact hs.of_dropped rfl rfl (terminateAll_batch haltOk s.chan).1 hqueues.activeList
      hqueues.pendingList
  | freeChanResources =>
    have hqueues := freeChanResources_queues s.chan
    have hcommon : (xilinxDmaFreeChanResources s.chan).common = s.chan.common := by
      simp [xilinxDmaFreeChanResources, dmaFreeCoherent, initFreeSegList, freeDescriptors_eq]
    exact hs.of_dropped rfl rfl hcommon hqueues.activeList hqueues.pendingList
  | allocChanResources zalloc =>
    cases zalloc with
    | none => exact hs.of_sameBatch rfl rfl ⟨rfl, rfl, rfl, rfl, rfl⟩ id
    | some segP =>
      obtain ⟨hactive, hpending⟩ := List.append_eq_nil_iff.mp (show _ ++ _ = [] from hok)
      refine hs.quiet rfl ⟨0, 0, [], ?_⟩ (fun _ => hactive) (fun _ => Or.inl hactive)
        (fun hne => absurd hactive hne)
      exact allocChanResources_window segP hactive hpending
  | tasklet =>
    have hsame := cleanup_sameBatch { s.chan with tasklet := false }
    have htasklet : SameBatch s.chan { s.chan with tasklet := false } :=
      ⟨rfl, rfl, rfl, rfl, rfl⟩
    refine hs.of_sameBatch rfl rfl (htasklet.trans hsame.1) ?_
    exact fun hset => hsame.2.symm.trans hset
  | callbackReturn =>
    have hsame := cleanupResume_sameBatch s.cleanup s.chan
    refine hs.of_sameBatch rfl rfl hsame.1 ?_
    exact fun hset => hsame.2.symm.trans hset
  | device => exact hs.of_sameBatch rfl rfl ⟨rfl, rfl, rfl, rfl, rfl⟩ id

/-! ## Runs -/

/-- A cookie is completed only by an interrupt that finds a descriptor active that is not cyclic. -/
theorem callStep_completedIds (h : s.callStep op = some s')
    (hne : completedIds s'.chan ≠ completedIds s.chan) :
    ∃ status startOk, op = .interrupt status startOk ∧
      hasBits status xilinxDmaXrIrqIocMask = true ∧ ∃ d ∈ s.chan.activeList, d.cyclic = false := by
  obtain ⟨hbug, hstep⟩ := callStep_inv h
  have hquiet : completedIds s'.chan = completedIds s.chan → False := fun heq => hne heq
  cases hstep with
  | prepNull => exact (hquiet rfl).elim
  | prepDesc op chunks b =>
    exact (hquiet (completedIds_controlWrites s.chan.log (builtEvents_isControlWrite b s.chan))).elim
  | submitRefused => exact (hquiet rfl).elim
  | submitFailed i callback env d w hd hcyc herr hfail hwrites =>
    exact (hquiet (completedIds_controlWrites s.chan.log hwrites)).elim
  | submitQueue i callback env d c w hd hcyc hdone hwrites =>
    have hsubmit := submitLocked_completedIds { d with callback := callback }
      (s := resetFor s.chan c w) hbug
    exact (hquiet (hsubmit.trans (completedIds_controlWrites s.chan.log hwrites))).elim
  | issuePending startOk => exact (hquiet (startTransfer_batch startOk s.chan).2.2).elim
  | irqNone => exact (hquiet rfl).elim
  | irqOther status =>
    exact (hquiet (irqAck_sameHistory status s.chan).filterMap_log.2.1).elim
  | irqIoc status startOk hsome hioc =>
    refine ⟨status, startOk, rfl, hioc, ?_⟩
    by_contra hnone
    have hack := irqAck_sameHistory status s.chan
    have hcyc : ∀ d ∈ (irqAck status s.chan).activeList, d.cyclic = true := by
      rw [hack.activeList]
      intro d hd
      by_contra hd'
      exact hnone ⟨d, hd, by simpa using hd'⟩
    apply hquiet
    calc completedIds (xilinxDmaStartTransfer startOk (irqComplete (irqAck status s.chan)))
        = completedIds (irqComplete (irqAck status s.chan)) := (startTransfer_batch startOk _).2.2
      _ = completedIds (irqAck status s.chan) := irqComplete_completedIds hcyc
      _ = completedIds s.chan := hack.filterMap_log.2.1
  | terminateAll haltOk => exact (hquiet (terminateAll_batch haltOk s.chan).2).elim
  | freeChanResources => exact (hquiet (freeDescriptors_completedIds s.chan)).elim
  | allocChanResources zalloc =>
    cases zalloc with
    | none => exact (hquiet rfl).elim
    | some segP =>
      refine (hquiet ?_).elim
      simp [xilinxDmaAllocChanResources, completedIds, XilinxDmaChan.dmaCtrlWrite,
        XilinxDmaChan.emit, Event.completed]
  | tasklet =>
    exact (hquiet (cleanup_sameBatch { s.chan with tasklet := false }).1.completedIds).elim
  | callbackReturn =>
    exact (hquiet (cleanupResume_sameBatch s.cleanup s.chan).1.completedIds).elim
  | device => exact (hquiet rfl).elim

/-- Errors are not reported as success. -/
structure ErrorsReported (s : VxdmaSys cfg) (g : ErrorHistory) : Prop where
  /-- No descriptor that was active at an error is reported complete. -/
  notComplete : ∀ e ∈ g.cookies, ∀ txstate, (xilinxDmaTxStatus e txstate s.chan).2.1 ≠ .complete
  /-- A cookie is completed only by an interrupt with completion and without error, and only when
  the channel has not been in error since the batch was started. -/
  completes : ∀ op s', ErrorGuard (s, g) op → s.callStep op = some s' →
    completedIds s'.chan ≠ completedIds s.chan →
      ∃ status startOk, op = .interrupt status startOk ∧
        hasBits status xilinxDmaXrIrqIocMask = true ∧
        hasBits status xilinxDmaXrIrqErrorMask = false ∧ s.chan.err = false ∧ g.broken = false

/-- The invariant is what is to be reported. -/
theorem ErrorInv.errorsReported (hs : ErrorInv s.chan g) : ErrorsReported s g := by
  constructor
  · intro e he txstate
    obtain ⟨n, m, ks, hw⟩ := hs.window
    rw [txStatus_ret]
    exact hw.inProgress he
  · intro op s' hok h hne
    obtain ⟨status, startOk, rfl, hioc, d, hd, hcyc⟩ := callStep_completedIds h hne
    have hnoError : ¬ (hasBits status xilinxDmaXrIrqErrorMask = true ∨ g.cookies ≠ []) := by
      intro herror
      rw [hok hioc herror d hd] at hcyc
      cases hcyc
    simp only [not_or, Bool.not_eq_true, not_not] at hnoError
    obtain ⟨hclear, hnil⟩ := hnoError
    have hactive : s.chan.activeList ≠ [] := List.ne_nil_of_mem hd
    refine ⟨status, startOk, rfl, hioc, hclear, ?_, hs.broken hactive hnil⟩
    by_contra hset
    rcases hs.err (by simpa using hset) with hempty | hcookies
    · exact hactive hempty
    · exact hcookies hnil

/-- The history before the first action. -/
def ErrorHistory.fresh : ErrorHistory := ⟨[], false⟩

/-- After the first allocation there is nothing to report. -/
theorem allocated_errorInv (hasSg : Bool) (ctrlOffset : Nat) (dmacr : BitVec 32)
    (segP : DmaAddr cfg) :
    ErrorInv (allocated hasSg ctrlOffset dmacr segP).chan ErrorHistory.fresh := by
  refine ⟨⟨0, 0, [], allocChanResources_window segP rfl rfl⟩, fun _ => rfl, fun _ => Or.inl rfl, ?_⟩
  exact fun _ _ => rfl

/-- **Errors are not reported as success.** In every run in which nothing is completed by an
interrupt with an error, or after an error until the next allocation, in which an allocation finds
nothing queued and no submit is given the cookie that was completed last: no descriptor that was
active at an error is reported complete, and a cookie is completed only by an interrupt without
error, of a batch since whose start the channel was not in error. -/
theorem errors_reported {hasSg : Bool} {ctrlOffset : Nat} {dmacr : BitVec 32} {segP : DmaAddr cfg}
    {s : VxdmaSys cfg} {g : ErrorHistory}
    (h : Reachable (withGhost callStep ErrorHistory.next) ErrorGuard
      (allocated hasSg ctrlOffset dmacr segP, .fresh) (s, g)) : ErrorsReported s g := by
  let Inv : VxdmaSys cfg → ErrorHistory → Prop := fun s g => ErrorInv s.chan g
  have hinv : Inv s g := h.ghost_invariant (allocated_errorInv hasSg ctrlOffset dmacr segP)
    fun _ _ _ _ hs hok hstep => callStep_errorInv hs hok hstep
  exact hinv.errorsReported

/-- A batch sees an error and is terminated. -/
def terminatedAfterError : List (Op .addr32) :=
  [.prepSlaveSg ⟨[⟨0, 1⟩], .memToDev, none, true⟩, .prepSlaveSg ⟨[⟨0, 1⟩], .memToDev, none, true⟩,
    .txSubmit 0 none ⟨0, true⟩, .issuePending true, .interrupt xilinxDmaXrIrqErrorMask true,
    .terminateAll true, .txSubmit 0 none ⟨0, true⟩]

/-- A batch fails and is terminated. -/
theorem errors_reported_terminated :
    ∃ s g, exec (withGhost callStep ErrorHistory.next) (allocated true 0 0 0, .fresh)
      terminatedAfterError = some (s, g) ∧ g.cookies = [2] ∧ ErrorsReported s g := by
  have hexec : (exec (withGhost callStep ErrorHistory.next) (allocated true 0 0 0, .fresh)
      terminatedAfterError).map (fun sg => sg.2.cookies) = some [2] := by
    decide +kernel
  obtain ⟨⟨s, g⟩, hs, hcookies⟩ := Option.map_eq_some_iff.mp hexec
  have hrun : Reachable (withGhost callStep ErrorHistory.next) ErrorGuard
      (allocated true 0 0 0, .fresh) (s, g) := Reachable.of_exec (by decide +kernel) hs
  exact ⟨s, g, hs, hcookies, errors_reported hrun⟩

/-- A batch is completed by the interrupt that shows its error. -/
def coalescedError : List (Op .addr32) :=
  [.prepSlaveSg ⟨[⟨0, 1⟩], .memToDev, none, true⟩, .txSubmit 0 none ⟨0, true⟩, .issuePending true,
    .interrupt (xilinxDmaXrIrqErrorMask ||| xilinxDmaXrIrqIocMask) true]

/-- Its descriptor is reported complete. -/
theorem errors_not_reported :
    ¬ ∀ (s : VxdmaSys .addr32) (g : ErrorHistory),
      Reachable (withGhost callStep ErrorHistory.next) always (allocated true 0 0 0, .fresh) (s, g) →
        ∀ e ∈ g.cookies, ∀ txstate, (xilinxDmaTxStatus e txstate s.chan).2.1 ≠ .complete := by
  intro hclaim
  have hexec : (exec (withGhost callStep ErrorHistory.next) (allocated true 0 0 0, .fresh)
      coalescedError).map (fun sg => (sg.2.cookies, (xilinxDmaTxStatus 2 false sg.1.chan).2.1)) =
        some ([2], .complete) := by
    decide +kernel
  obtain ⟨⟨s, g⟩, hs, hend⟩ := Option.map_eq_some_iff.mp hexec
  simp only [Prod.mk.injEq] at hend
  have hrun : Reachable (withGhost callStep ErrorHistory.next) always
      (allocated true 0 0 0, .fresh) (s, g) :=
    Reachable.of_exec (Reachable.execOk_of_forall fun _ _ _ => trivial) hs
  exact hclaim s g hrun 2 (by rw [hend.1]; exact List.mem_singleton.mpr rfl) false hend.2

end VxdmaSys

end PetalinuxDriver
