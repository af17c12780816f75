import PetalinuxDriver.Analysis.CompletionOrder
import PetalinuxDriver.Analysis.SegmentConservation

/-!
# Where a cyclic descriptor stands

A cyclic descriptor never completes: the cleanup stops in front of it, and what stands behind it on
`done_list` is never called back. So it has to be the last one in the queues, and `cyclic` has to
say that it is there, for `xilinx_dma_tx_submit` refuses everything else by that flag alone.

The flag is read before the lock is taken and set under it, and `xilinx_dma_terminate_all` empties
the lists under the lock and clears the flag outside. In a run in which a submit is queued, the
flag cleared, and the channel released only while no cyclic descriptor is queued, the placement is
right whenever no call is mid-way (`cyclic_placed`).
-/

set_option autoImplicit false

namespace PetalinuxDriver

open Library

variable {cfg : PhysAddrConfig}

/-! ## The marks of the queues -/

/-- Which descriptors of the queues are cyclic, front first. -/
def XilinxDmaChan.marks (s : XilinxDmaChan cfg) : List Bool :=
  s.queues.map XilinxDmaTxDescriptor.cyclic

/-- Only the last descriptor may be cyclic. -/
def CyclicLast (marks : List Bool) : Prop := true ∉ marks.dropLast

/-- The end of a list with nothing cyclic but its last has the same form. -/
theorem CyclicLast.of_append {l r : List Bool} (h : CyclicLast (l ++ r)) : CyclicLast r := by
  intro hmem
  apply h
  cases r with
  | nil => cases hmem
  | cons b r =>
    rw [List.dropLast_append_of_ne_nil (List.cons_ne_nil b r)]
    exact List.mem_append_right l hmem

/-- A descriptor at the end leaves the order right just when none of the others is cyclic. -/
theorem cyclicLast_concat {l : List Bool} {b : Bool} : CyclicLast (l ++ [b]) ↔ true ∉ l := by
  rw [CyclicLast, List.dropLast_concat]

/-- There is a mark exactly when a queued descriptor is cyclic. -/
theorem mem_marks {s : XilinxDmaChan cfg} :
    true ∈ s.marks ↔ ∃ d ∈ s.queues, d.cyclic = true := by
  simp [XilinxDmaChan.marks]

/-- A step that leaves no trace leaves the marks. -/
theorem SameHistory.marks {s s' : XilinxDmaChan cfg} (h : SameHistory s s') :
    s'.marks = s.marks := by
  rw [XilinxDmaChan.marks, h.queues, XilinxDmaChan.marks]

/-- A start leaves the marks. -/
theorem startTransfer_marks (startOk : Bool) (s : XilinxDmaChan cfg) :
    (xilinxDmaStartTransfer startOk s).marks = s.marks := by
  rw [XilinxDmaChan.marks, (startTransfer_queues startOk s).1, XilinxDmaChan.marks]

/-- The completion leaves the marks. -/
theorem irqComplete_marks (s : XilinxDmaChan cfg) : (irqComplete s).marks = s.marks := by
  rw [irqComplete_eq]
  simp [XilinxDmaChan.marks, XilinxDmaChan.queues, Function.comp_def]

/-- Freed lists have no marks. -/
theorem freeDescriptors_marks (s : XilinxDmaChan cfg) :
    (xilinxDmaFreeDescriptors s).marks = [] := by
  rw [freeDescriptors_eq]
  rfl

/-- A descriptor is queued at the end of the queues, `BUG()` or not. -/
theorem submitLocked_marks (d : XilinxDmaTxDescriptor cfg) {s : XilinxDmaChan cfg}
    (hbug : s.bug = false) : (submitLocked d s).1.marks = s.marks ++ [d.cyclic] := by
  obtain ⟨-, hpending, hactive, hdone⟩ := submitLocked_lists d hbug
  simp [XilinxDmaChan.marks, XilinxDmaChan.queues, hpending, hactive, hdone]

/-- The cleanup takes descriptors off the front that are not cyclic. -/
theorem cleanup_marks (s : XilinxDmaChan cfg) :
    ∃ l, true ∉ l ∧ s.marks = l ++ (xilinxDmaChanDescCleanup s).1.marks := by
  obtain ⟨freed, rest, hsplit, hfreed, hcases⟩ := cleanupLoop_cases s.doneList s rfl
  have hnone : true ∉ freed.map XilinxDmaTxDescriptor.cyclic := by
    intro hmem
    obtain ⟨d, hd, hcyc⟩ := List.mem_map.mp hmem
    rw [(hfreed d hd).1] at hcyc
    cases hcyc
  have hmarks : s.marks = freed.map XilinxDmaTxDescriptor.cyclic ++
      (rest ++ (s.activeList ++ s.pendingList)).map XilinxDmaTxDescriptor.cyclic := by
    rw [XilinxDmaChan.marks, XilinxDmaChan.queues, hsplit, List.append_assoc, List.map_append]
  unfold xilinxDmaChanDescCleanup
  rcases hcases with ⟨-, h⟩ | ⟨d, tl, -, -, -, h⟩ | ⟨d, tl, -, -, h⟩ | ⟨d, tl, htl, hd, h⟩ <;> rw [h]
  · exact ⟨_, hnone, hmarks⟩
  · exact ⟨_, hnone, hmarks⟩
  · exact ⟨_, hnone, hmarks⟩
  · -- the descriptor that is called back leaves the list as well
    refine ⟨freed.map XilinxDmaTxDescriptor.cyclic ++ [false], ?_, ?_⟩
    · simpa using hnone
    · rw [hmarks, htl]
      simp [XilinxDmaChan.marks, XilinxDmaChan.queues, XilinxDmaChan.emit, hd]

/-- The rest of a cleanup takes marks from the front only, and none of a cyclic descriptor. -/
theorem cleanupResume_marks (pc : CleanupPc cfg) (s : XilinxDmaChan cfg) :
    ∃ l, true ∉ l ∧ s.marks = l ++ (cleanupResume pc s).1.marks := by
  cases pc with
  | idle => exact ⟨[], by simp, rfl⟩
  | cyclicCallback => exact ⟨[], by simp, rfl⟩
  | callback d =>
    have hfree := freeTxDescriptor_sameHistory s d.segments
    rw [← hfree.marks]
    exact cleanup_marks _

/-! ## The flag -/

/-- The cyclic descriptor, if there is one, is last and marked by the flag. -/
structure Placed (s : XilinxDmaChan cfg) : Prop where
  last : CyclicLast s.marks
  marked : true ∈ s.marks → s.cyclic = true

/-- The flag is set for no descriptor. -/
def Unmarked (s : XilinxDmaChan cfg) : Prop := s.cyclic = true ∧ true ∉ s.marks

/-- The queues are empty, or only the last descriptor can be cyclic. -/
theorem Placed.queues_cases {s : XilinxDmaChan cfg} (h : Placed s) :
    s.queues = [] ∨ ∃ l e, s.queues = l ++ [e] ∧ ∀ d ∈ l, d.cyclic = false := by
  rcases List.eq_nil_or_concat' s.queues with hnil | ⟨l, e, hqueues⟩
  · exact Or.inl hnil
  · right
    have hlast := h.last
    rw [XilinxDmaChan.marks, hqueues, List.map_append, List.map_singleton,
      cyclicLast_concat] at hlast
    refine ⟨l, e, hqueues, fun d hd => ?_⟩
    by_contra hcyc
    apply hlast
    exact List.mem_map.mpr ⟨d, hd, by simpa using hcyc⟩

/-- Only the marks and the flag matter. -/
theorem Placed.of_eq {s t : XilinxDmaChan cfg} (hs : Placed s) (hmarks : t.marks = s.marks)
    (hcyc : t.cyclic = s.cyclic) : Placed t := by
  constructor
  · rw [hmarks]
    exact hs.last
  · rw [hmarks, hcyc]
    exact hs.marked

/-- Only the marks and the flag matter here, too. -/
theorem Unmarked.of_eq {s t : XilinxDmaChan cfg} (ht : Unmarked t) (hmarks : t.marks = s.marks)
    (hcyc : t.cyclic = s.cyclic) : Unmarked s := by
  constructor
  · rw [← hcyc]
    exact ht.1
  · rw [← hmarks]
    exact ht.2

/-- When something that is not cyclic leaves at the front, the placement stays right, and the flag
is for nobody only if it was before. -/
theorem Placed.of_front {s t : XilinxDmaChan cfg} {l : List Bool} (hs : Placed s) (hl : true ∉ l)
    (hmarks : s.marks = l ++ t.marks) (hcyc : t.cyclic = s.cyclic) :
    Placed t ∧ (Unmarked t → Unmarked s) := by
  have hmem : true ∈ s.marks ↔ true ∈ t.marks := by
    rw [hmarks, List.mem_append]
    simp [hl]
  refine ⟨⟨?_, ?_⟩, ?_⟩
  · have hlast := hs.last
    rw [hmarks] at hlast
    exact hlast.of_append
  · intro ht
    rw [hcyc]
    exact hs.marked (hmem.mpr ht)
  · intro ht
    exact ⟨hcyc ▸ ht.1, fun h => ht.2 (hmem.mp h)⟩

/-- A cleanup leaves the flag. -/
theorem cleanup_cyclic (s : XilinxDmaChan cfg) :
    (xilinxDmaChanDescCleanup s).1.cyclic = s.cyclic := by
  obtain ⟨freed, rest, -, -, hcases⟩ := cleanupLoop_cases s.doneList s rfl
  unfold xilinxDmaChanDescCleanup
  rcases hcases with ⟨-, h⟩ | ⟨d, tl, -, -, -, h⟩ | ⟨d, tl, -, -, h⟩ | ⟨d, tl, -, -, h⟩ <;>
    rw [h] <;> rfl

/-- The rest of a cleanup leaves the flag. -/
theorem cleanupResume_cyclic (pc : CleanupPc cfg) (s : XilinxDmaChan cfg) :
    (cleanupResume pc s).1.cyclic = s.cyclic := by
  cases pc with
  | idle => rfl
  | cyclicCallback => rfl
  | callback d => rw [cleanupResume, cleanup_cyclic, freeTxDescriptor_eq]

/-- A start leaves the flag. -/
theorem startTransfer_cyclic (startOk : Bool) (s : XilinxDmaChan cfg) :
    (xilinxDmaStartTransfer startOk s).cyclic = s.cyclic := by
  rcases startTransfer_cases startOk s with ⟨-, h⟩ | ⟨-, -, c, w, -, h⟩ | ⟨-, -, c, w, -, h⟩ <;>
    rw [h]

/-! ## One section -/

/-- The section acts on what was read of `cyclic` or of the queues some time ago. -/
def Call.actsOnCyclic : Call cfg → Bool
  | .submitLock _ => true
  | .terminateClear => true
  | .freeChan => true
  | _ => false

/-- The call is about to clear the flag. -/
def Call.clearsCyclic : Call cfg → Bool
  | .terminateCheck => true
  | .terminateClear => true
  | _ => false

/-- A section keeps the placement right if those that act on an old reading find no cyclic
descriptor; it leaves the flag for nobody only with a call that is about to clear it. -/
theorem VxdmaSys.Section.placed {env : CallEnv} {s t : XilinxDmaChan cfg} {c : Call cfg}
    {after : After cfg} (h : VxdmaSys.Section env s c t after) (hbug : s.bug = false)
    (hend : t.bug = false) (hs : Placed s) (hok : c.actsOnCyclic = true → true ∉ s.marks) :
    Placed t ∧ (Unmarked t →
      (∃ e ∈ after.calls, e.clearsCyclic = true) ∨ (c.clearsCyclic = false ∧ Unmarked s)) := by
  have hsame : t.marks = s.marks → t.cyclic = s.cyclic → c.clearsCyclic = false →
      Placed t ∧ (Unmarked t →
        (∃ e ∈ after.calls, e.clearsCyclic = true) ∨ (c.clearsCyclic = false ∧ Unmarked s)) :=
    fun hmarks hcyc hc => ⟨hs.of_eq hmarks hcyc, fun ht => Or.inr ⟨hc, ht.of_eq hmarks hcyc⟩⟩
  have hquiet : c.changesQueues = false → t.marks = s.marks :=
    fun hc => (h.sameHistory hc).marks
  cases h with
  | queued d hroom =>
    have hnone : true ∉ s.marks := hok rfl
    have hmarks := submitLocked_marks d hbug
    rw [submitLocked_queued d hbug hroom] at hmarks
    simp only at hmarks
    refine ⟨⟨?_, ?_⟩, ?_⟩
    · rw [hmarks]
      exact cyclicLast_concat.mpr hnone
    · intro hmem
      rw [hmarks] at hmem
      have hd : d.cyclic = true := by simpa [hnone] using hmem
      simp [hd]
    · rintro ⟨hcyc, hno⟩
      rw [hmarks] at hno
      have hd : d.cyclic = false := by simpa [hnone] using hno
      right
      refine ⟨rfl, ?_, hnone⟩
      simpa [hd] using hcyc
  | queuedBug => cases hend
  | issue => exact hsame (startTransfer_marks _ _) (startTransfer_cyclic _ _) rfl
  | irqLock =>
    apply hsame
    · rw [startTransfer_marks, irqComplete_marks]
    · rw [startTransfer_cyclic, irqComplete_eq]
    · rfl
  | terminateFree =>
    refine ⟨⟨?_, ?_⟩, ?_⟩
    · rw [freeDescriptors_marks]
      exact List.not_mem_nil
    · rw [freeDescriptors_marks]
      exact fun hmem => absurd hmem List.not_mem_nil
    · exact fun _ => Or.inl ⟨_, List.mem_singleton.mpr rfl, rfl⟩
  | terminateCyclic =>
    exact ⟨hs, fun _ => Or.inl ⟨_, List.mem_singleton.mpr rfl, rfl⟩⟩
  | terminateDone hcyc =>
    refine ⟨hs, fun ht => ?_⟩
    rw [ht.1] at hcyc
    cases hcyc
  | terminateClear =>
    have hnone : true ∉ s.marks := hok rfl
    have hmarks : (clearCyclic s).marks = s.marks := hquiet rfl
    refine ⟨⟨?_, ?_⟩, ?_⟩
    · rw [hmarks]
      exact hs.last
    · rw [hmarks]
      exact fun hmem => absurd hmem hnone
    · intro ht
      have hcyc := ht.1
      rw [clearCyclic_eq] at hcyc
      cases hcyc
  | freeChan =>
    have hmarks := freeDescriptors_marks s
    have hcyc : (xilinxDmaFreeDescriptors s).cyclic = s.cyclic := by rw [freeDescriptors_eq]
    refine ⟨⟨?_, ?_⟩, ?_⟩
    · rw [hmarks]
      exact List.not_mem_nil
    · rw [hmarks]
      exact fun hmem => absurd hmem List.not_mem_nil
    · exact fun ht => Or.inr ⟨rfl, hcyc ▸ ht.1, hok rfl⟩
  | buildError => exact hsame (hquiet rfl) (by rw [freeTxDescriptor_eq]) rfl
  | submitRefused => exact hsame (hquiet rfl) (by rw [freeTxDescriptor_eq]) rfl
  | irqIoc => exact hsame (hquiet rfl) (by rw [irqAck_eq]) rfl
  | irqOther => exact hsame (hquiet rfl) (by rw [irqAck_eq]) rfl
  | terminate => exact hsame (hquiet rfl) (by rw [halt_eq]) rfl
  | _ => exact hsame (hquiet rfl) rfl rfl

namespace VxdmaSys

/-! ## Runs -/

/-- A submit is queued, the flag cleared, and the channel released only while no cyclic descriptor
is queued. -/
def PlacementGuard (s : VxdmaSys cfg) (a : Act cfg) : Prop :=
  match a with
  | .run i _ => ∀ c ∈ s.calls[i]?, c.actsOnCyclic = true → true ∉ s.chan.marks
  | _ => True

instance (s : VxdmaSys cfg) : (a : Act cfg) → Decidable (s.PlacementGuard a)
  | .run i _ => inferInstanceAs (Decidable
      (∀ c ∈ s.calls[i]?, c.actsOnCyclic = true → true ∉ s.chan.marks))
  | .prepSlaveSg _ => isTrue trivial
  | .prepDmaCyclic _ => isTrue trivial
  | .txSubmit _ _ => isTrue trivial
  | .issuePending => isTrue trivial
  | .interrupt => isTrue trivial
  | .terminateAll => isTrue trivial
  | .freeChanResources => isTrue trivial
  | .allocChanResources _ => isTrue trivial
  | .tasklet => isTrue trivial
  | .callbackReturn => isTrue trivial
  | .device _ _ _ => isTrue trivial

/-- The invariant of a run. -/
structure PlacementInv (s : VxdmaSys cfg) : Prop where
  placed : Placed s.chan
  unmarked : Unmarked s.chan → ∃ c ∈ s.calls, c.clearsCyclic = true

/-- Only the marks, the flag and the calls in flight matter. -/
theorem PlacementInv.of_eq {s s' : VxdmaSys cfg} (hs : PlacementInv s)
    (hmarks : s'.chan.marks = s.chan.marks) (hcyc : s'.chan.cyclic = s.chan.cyclic)
    (hcalls : s.calls ⊆ s'.calls) : PlacementInv s' := by
  constructor
  · exact hs.placed.of_eq hmarks hcyc
  · intro ht
    obtain ⟨c, hc, hclears⟩ := hs.unmarked (ht.of_eq hmarks hcyc)
    exact ⟨c, hcalls hc, hclears⟩

/-- One guarded action keeps the placement right, unless it ends in a `BUG()`. -/
theorem sectionStep_placement {s s' : VxdmaSys cfg} {a : Act cfg} (hs : PlacementInv s)
    (hok : s.PlacementGuard a) (h : s.sectionStep a = some s') (hend : s'.chan.bug = false) :
    PlacementInv s' := by
  obtain ⟨hbug, h⟩ := sectionStep_inv h
  have henter : ∀ c : Call cfg, PlacementInv (s.enter c) := fun c =>
    hs.of_eq rfl rfl (List.subset_cons_self c s.calls)
  cases h with
  | prepNull => exact hs
  | prepBuild _ chunks b => exact hs.of_eq rfl rfl (List.subset_cons_self _ s.calls)
  | txSubmit i callback d => exact hs.of_eq rfl rfl (List.subset_cons_self _ s.calls)
  | issuePending => exact henter _
  | interrupt => exact henter _
  | terminateAll => exact henter _
  | freeChanResources => exact henter _
  | allocChanResources zalloc =>
    apply hs.of_eq
    · cases zalloc <;> rfl
    · cases zalloc <;> rfl
    · exact List.Subset.refl _
  | run i env c s' hc hleave =>
    have hchan := leave_chan hleave
    rw [leave_eq hleave] at hend ⊢
    obtain ⟨hplaced, hunmarked⟩ :=
      (run_inv env hbug c).placed hbug hend hs.placed (hok c hc)
    refine ⟨hplaced, fun ht => ?_⟩
    rcases hunmarked ht with ⟨e, he, hclears⟩ | ⟨hclears, hu⟩
    · exact ⟨e, List.mem_append_left _ he, hclears⟩
    · -- the call that is about to clear the flag is another one
      obtain ⟨e, he, heclears⟩ := hs.unmarked hu
      have hne : e ≠ c := by
        rintro rfl
        rw [hclears] at heclears
        cases heclears
      have hmem : e ∈ c :: s.calls.eraseIdx i := by
        obtain ⟨hi, rfl⟩ := List.getElem?_eq_some_iff.mp hc
        exact (List.getElem_cons_eraseIdx_perm hi).mem_iff.mpr he
      exact ⟨e, List.mem_append_right _ ((List.mem_cons.mp hmem).resolve_left hne), heclears⟩
  | tasklet =>
    obtain ⟨l, hl, hmarks⟩ := cleanup_marks { s.chan with tasklet := false }
    have hflag : Placed ({ s.chan with tasklet := false } : XilinxDmaChan cfg) :=
      ⟨hs.placed.last, hs.placed.marked⟩
    obtain ⟨hplaced, hunmarked⟩ := hflag.of_front hl hmarks (cleanup_cyclic _)
    exact ⟨hplaced, fun ht => hs.unmarked (hunmarked ht)⟩
  | callbackReturn =>
    obtain ⟨l, hl, hmarks⟩ := cleanupResume_marks s.cleanup s.chan
    obtain ⟨hplaced, hunmarked⟩ := hs.placed.of_front hl hmarks (cleanupResume_cyclic _ _)
    exact ⟨hplaced, fun ht => hs.unmarked (hunmarked ht)⟩
  | device => exact hs.of_eq rfl rfl (List.Subset.refl _)

/-- No call is mid-way; one that ran into a `BUG()` never returns. -/
def Quiescent (s : VxdmaSys cfg) : Prop := s.calls = [] ∧ s.chan.bug = false

/-- The cyclic descriptor is where it can do no harm. -/
structure CyclicPlaced (s : XilinxDmaChan cfg) : Prop where
  flag : s.cyclic = true ↔ ∃ d ∈ s.queues, d.cyclic = true
  one : s.queues.countP (fun d => d.cyclic) ≤ 1
  last : ∀ d ∈ s.queues, d.cyclic = true → s.queues.getLast? = some d
  /-- The `break` of the cleanup leaves nothing behind the cyclic descriptor. -/
  hidesNothing : ∀ l d r, s.doneList = l ++ d :: r → d.cyclic = true → r = []

/-- When no call is in flight the flag says where the cyclic descriptor is. -/
theorem PlacementInv.cyclicPlaced {s : VxdmaSys cfg} (hs : PlacementInv s)
    (hcalls : s.calls = []) : CyclicPlaced s.chan := by
  have hlast := hs.placed.queues_cases
  refine ⟨⟨?_, ?_⟩, ?_, ?_, ?_⟩
  · intro hcyc
    by_contra hnone
    obtain ⟨c, hc, -⟩ := hs.unmarked ⟨hcyc, fun hmem => hnone (mem_marks.mp hmem)⟩
    rw [hcalls] at hc
    cases hc
  · intro hmem
    exact hs.placed.marked (mem_marks.mpr hmem)
  · rcases hlast with hnil | ⟨l, e, hqueues, hl⟩
    · simp [hnil]
    · have hzero : l.countP (fun d => d.cyclic) = 0 :=
        List.countP_eq_zero.mpr fun d hd => by simp [hl d hd]
      rw [hqueues, List.countP_append, hzero, List.countP_singleton]
      split <;> omega
  · intro d hd hcyc
    rcases hlast with hnil | ⟨l, e, hqueues, hl⟩
    · rw [hnil] at hd
      cases hd
    · rw [hqueues] at hd ⊢
      rcases List.mem_append.mp hd with hd | hd
      · rw [hl d hd] at hcyc
        cases hcyc
      · rw [List.mem_singleton.mp hd, List.getLast?_concat]
  · intro l d r hdone hcyc
    by_contra hr
    apply hs.placed.last
    have hmarks : s.chan.marks = (l.map XilinxDmaTxDescriptor.cyclic ++ [true]) ++
        (r ++ (s.chan.activeList ++ s.chan.pendingList)).map XilinxDmaTxDescriptor.cyclic := by
      simp [XilinxDmaChan.marks, XilinxDmaChan.queues, hdone, hcyc]
    rw [hmarks, List.dropLast_append_of_ne_nil (by simp [hr])]
    simp

/-- **The placement of cyclic descriptors.** In every run from the probe, at the granularity of
locked sections and of the unlocked accesses to `cyclic`, in which a submit is queued, the flag
cleared and the channel released only while no cyclic descriptor is queued: whenever no call is
mid-way, `cyclic` says whether a cyclic descriptor is queued, and there is at most one, at the
end. -/
theorem cyclic_placed {hasSg : Bool} {ctrlOffset : Nat} {dmacr : BitVec 32} {s : VxdmaSys cfg}
    (h : Reachable sectionStep PlacementGuard (probed hasSg ctrlOffset dmacr) s)
    (hquiet : s.Quiescent) : CyclicPlaced s.chan := by
  let Inv : VxdmaSys cfg → Prop := fun s => s.chan.bug = false → PlacementInv s
  have hinv : Inv s := by
    refine h.invariant ?_ ?_
    · intro _
      have hmarks : (probed hasSg ctrlOffset dmacr : VxdmaSys cfg).chan.marks = [] := rfl
      refine ⟨⟨?_, ?_⟩, ?_⟩
      · rw [hmarks]
        exact List.not_mem_nil
      · rw [hmarks]
        exact fun hmem => absurd hmem List.not_mem_nil
      · rintro ⟨hcyc, -⟩
        cases hcyc
    · intro t a t' hs hok hstep hend
      exact sectionStep_placement (hs (sectionStep_inv hstep).1) hok hstep hend
  exact (hinv hquiet.2).cyclicPlaced hquiet.1

/-- A cyclic descriptor is queued behind another one, both complete, and a third one is refused. -/
def cyclicBehind : List (Act .addr32) :=
  let env : CallEnv := ⟨⟨0, true⟩, xilinxDmaXrIrqIocMask, true, true⟩
  [.allocChanResources (some 0)] ++
  [.prepSlaveSg ⟨[⟨0, 1⟩], .memToDev, none, true⟩] ++ sections 2 env ++
  [.prepDmaCyclic ⟨0, 1, 1, .memToDev, true⟩] ++ sections 2 env ++
  [.prepSlaveSg ⟨[⟨0, 1⟩], .memToDev, none, true⟩] ++ sections 2 env ++
  [.txSubmit 0 (some 0)] ++ sections 3 env ++ [.txSubmit 0 none] ++ sections 3 env ++
  [.issuePending] ++ sections 1 env ++ [.interrupt] ++ sections 3 env ++ [.tasklet] ++
  [.txSubmit 0 none] ++ sections 2 env

/-- A cyclic descriptor is queued behind a plain one. -/
theorem cyclic_placed_cyclicBehind :
    ∃ s, exec sectionStep (probed true 0 0) cyclicBehind = some s ∧ s.chan.cyclic = true ∧
      CyclicPlaced s.chan := by
  have hexec : (exec sectionStep (probed true 0 0) cyclicBehind).map
      (fun s => (s.chan.cyclic, s.calls.isEmpty, s.chan.bug)) = some (true, true, false) := by
    decide +kernel
  obtain ⟨s, hs, hend⟩ := Option.map_eq_some_iff.mp hexec
  simp only [Prod.mk.injEq, List.isEmpty_iff] at hend
  have hrun : Reachable sectionStep PlacementGuard (probed true 0 0) s :=
    Reachable.of_exec (by decide +kernel) hs
  exact ⟨s, hs, hend.1, cyclic_placed hrun ⟨hend.2.1, hend.2.2⟩⟩

/-- Two submits both read `cyclic` before either is queued, the cyclic one first. -/
def racingSubmits : List (Act .addr32) :=
  let env : CallEnv := ⟨⟨0, true⟩, 0, true, true⟩
  [.prepDmaCyclic ⟨0, 1, 1, .memToDev, true⟩] ++ sections 2 env ++
  [.prepSlaveSg ⟨[⟨0, 1⟩], .memToDev, none, true⟩] ++ sections 2 env ++
  [.txSubmit 0 none] ++ sections 2 env ++ [.txSubmit 0 none] ++ sections 2 env ++
  [.run 1 env, .run 0 env]

/-- The other one is queued behind the cyclic one, where the cleanup never gets to it. -/
theorem cyclic_misplaced :
    ¬ ∀ s : VxdmaSys .addr32,
      Reachable sectionStep (fun _ a => InUse a) (allocated true 0 0 0) s →
        s.Quiescent → CyclicPlaced s.chan := by
  intro hclaim
  have hexec : (exec sectionStep (allocated true 0 0 0) racingSubmits).map
      (fun s => (s.calls.isEmpty, s.chan.bug, s.chan.marks)) =
        some (true, false, [true, false]) := by
    decide +kernel
  obtain ⟨s, hs, hend⟩ := Option.map_eq_some_iff.mp hexec
  simp only [Prod.mk.injEq, List.isEmpty_iff] at hend
  have huse : ∀ a ∈ racingSubmits, InUse a := by
    simp [racingSubmits, sections, InUse, or_imp, forall_and]
  have hrun : Reachable sectionStep (fun _ a => InUse a) (allocated true 0 0 0) s :=
    Reachable.of_exec (Reachable.execOk_of_forall fun a ha _ => huse a ha) hs
  have hplaced := hclaim s hrun ⟨hend.1, hend.2.1⟩
  -- the first of the two is cyclic and not the last
  have hmarks : s.chan.queues.map XilinxDmaTxDescriptor.cyclic = [true, false] := hend.2.2
  obtain ⟨d, rest, hqueues, hd, hrest⟩ := List.map_eq_cons_iff.mp hmarks
  obtain ⟨e, rest', rfl, he, -⟩ := List.map_eq_cons_iff.mp hrest
  have hlast := hplaced.last d (by rw [hqueues]; exact List.mem_cons_self) hd
  have hcyc := congrArg (Option.map XilinxDmaTxDescriptor.cyclic) hlast
  rw [← List.getLast?_map, hmarks] at hcyc
  simp [hd] at hcyc

/-- What a submit leaves is in order just when it found no cyclic descriptor. -/
theorem submitLocked_cyclicLast_iff (d : XilinxDmaTxDescriptor cfg) {s : XilinxDmaChan cfg}
    (hbug : s.bug = false) : CyclicLast (submitLocked d s).1.marks ↔ true ∉ s.marks := by
  rw [submitLocked_marks d hbug]
  exact cyclicLast_concat

/-- Clearing the flag leaves a cyclic descriptor without it just when one is queued. -/
theorem clearCyclic_marked_iff (s : XilinxDmaChan cfg) :
    (true ∈ (clearCyclic s).marks → (clearCyclic s).cyclic = true) ↔ true ∉ s.marks := by
  rw [(clearCyclic_sameHistory s).marks]
  constructor
  · intro h hmem
    have hcyc := h hmem
    rw [clearCyclic_eq] at hcyc
    cases hcyc
  · exact fun hnone hmem => absurd hmem hnone

end VxdmaSys

end PetalinuxDriver
