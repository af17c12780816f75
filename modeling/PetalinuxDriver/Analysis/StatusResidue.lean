import PetalinuxDriver.Analysis.RingRotation
import PetalinuxDriver.Analysis.SegmentContents
import PetalinuxDriver.Analysis.SegmentWrites
import PetalinuxDriver.Library.WordFields
import PetalinuxDriver.Model.VxdmaStatus

/-!
# The residue that tx_status reports

`xilinx_dma_tx_status` is asked for a cookie and answers for whatever is last on `active_list`,
and it fetches that before it takes the lock. So its answer is right in a run in which the asked
cookie is the last active one whenever a call looks, nothing frees its descriptor before the call
has the lock, and the residue fits into its 32 bits (`StatusGuard`). In such a run the loop reads
the segments of the descriptor that was submitted under the cookie, although the interrupt handler
may have completed it meanwhile and the engine may still write to it, and what it adds up is the
number of bytes that are not transferred (`status_reads_carrier`).

For the engine we assume that it never reports more bytes of a segment than the segment has.
-/

set_option autoImplicit false

namespace PetalinuxDriver

open Library

variable {cfg : PhysAddrConfig}

/-! ## Bytes that are not transferred -/

namespace XilinxDmaDescHw

/-- The number of bytes that the engine has reported. -/
def transferred (hw : XilinxDmaDescHw) : Nat := (hw.status &&& xilinxDmaMaxTransLen).toNat

/-- The number of bytes that it has not. -/
def untransferred (hw : XilinxDmaDescHw) : Nat := hw.bufferLength - hw.transferred

/-- The engine has not reported more than there is. -/
def Honest (hw : XilinxDmaDescHw) : Prop := hw.transferred ≤ hw.bufferLength

instance (hw : XilinxDmaDescHw) : Decidable hw.Honest :=
  inferInstanceAs (Decidable (hw.transferred ≤ hw.bufferLength))

end XilinxDmaDescHw

/-- The loop subtracts whole control and status words; in the length field that is the number of
bytes left. -/
theorem residue_term {hw : XilinxDmaDescHw} (h : hw.Honest) :
    ((hw.control - hw.status) &&& xilinxDmaMaxTransLen).toNat = hw.untransferred := by
  unfold XilinxDmaDescHw.Honest at h
  unfold XilinxDmaDescHw.untransferred
  unfold XilinxDmaDescHw.transferred XilinxDmaDescHw.bufferLength at *
  simp only [and_maxTransLen_eq] at h ⊢
  exact toNat_sub_mod (by decide) h

/-- The bytes of some segments that are not transferred. -/
def XilinxDmaChan.owed (s : XilinxDmaChan cfg) (segments : List SegPtr) : Nat :=
  (segments.map fun p => (s.mem p).hw.untransferred).sum

/-- The accumulator of the residue loop behind some segments. -/
def residueAfter (s : XilinxDmaChan cfg) (segments : List SegPtr) : BitVec 32 :=
  segments.foldl (fun residue p =>
    residue + (((s.mem p).hw.control - (s.mem p).hw.status) &&& xilinxDmaMaxTransLen)) 0

/-- The residue of a descriptor is what the loop over its segments adds up. -/
theorem residueOf_eq_residueAfter (s : XilinxDmaChan cfg) (d : XilinxDmaTxDescriptor cfg) :
    residueOf s d = residueAfter s d.segments := rfl

/-- The loop adds up what is not transferred, in 32 bits. -/
theorem residueAfter_eq {s : XilinxDmaChan cfg} {segments : List SegPtr}
    (h : ∀ p ∈ segments, (s.mem p).hw.Honest) :
    residueAfter s segments = BitVec.ofNat 32 (s.owed segments) := by
  have hterms : segments.map (fun p =>
        (((s.mem p).hw.control - (s.mem p).hw.status) &&& xilinxDmaMaxTransLen).toNat) =
      segments.map fun p => (s.mem p).hw.untransferred :=
    List.map_congr_left fun p hp => residue_term (h p hp)
  rw [residueAfter, foldl_add_eq, hterms]
  exact BitVec.zero_add _

/-! ## The engine's promise -/

/-- No flag is in the length field. -/
theorem flags_maxTransLen (d : XilinxDmaTxDescriptor cfg) (p : SegPtr) :
    d.flags p &&& xilinxDmaMaxTransLen = 0 := by
  unfold XilinxDmaTxDescriptor.flags
  split <;> split <;> decide

/-- Flags leave a segment honest. -/
theorem flagged_honest {hw : XilinxDmaDescHw} {flag : BitVec 32}
    (hflag : flag &&& xilinxDmaMaxTransLen = 0) (h : hw.Honest) : (hw.flagged flag).Honest := by
  unfold XilinxDmaDescHw.Honest XilinxDmaDescHw.transferred XilinxDmaDescHw.bufferLength at *
  simpa only [XilinxDmaDescHw.flagged, or_and_maxTransLen _ hflag] using h

namespace VxdmaSys

/-- The engine reports no more than there is. -/
def HonestDevice (s : VxdmaSys cfg) : Act cfg → Prop
  | .device p status app => ({ (s.chan.mem p).hw with status := status, app := app }).Honest
  | _ => True

instance (s : VxdmaSys cfg) : (a : Act cfg) → Decidable (s.HonestDevice a)
  | .device p status app => inferInstanceAs (Decidable
      ({ (s.chan.mem p).hw with status := status, app := app } : XilinxDmaDescHw).Honest)
  | .prepSlaveSg _ => isTrue trivial
  | .prepDmaCyclic _ => isTrue trivial
  | .txSubmit _ _ => isTrue trivial
  | .issuePending => isTrue trivial
  | .interrupt => isTrue trivial
  | .terminateAll => isTrue trivial
  | .freeChanResources => isTrue trivial
  | .allocChanResources _ => isTrue trivial
  | .run _ _ => isTrue trivial
  | .tasklet => isTrue trivial
  | .callbackReturn => isTrue trivial

/-- With such an engine no segment ever has more bytes reported than it has. -/
theorem sectionStep_honest {s s' : VxdmaSys cfg} {a : Act cfg} (hclean : s.chan.PoolClean)
    (hs : ∀ p, (s.chan.mem p).hw.Honest) (hok : s.HonestDevice a) (h : s.sectionStep a = some s')
    (p : SegPtr) : (s'.chan.mem p).hw.Honest := by
  have hzero : ∀ {hw : XilinxDmaDescHw}, hw.status = 0 → hw.Honest := by
    intro hw hw0
    simp [XilinxDmaDescHw.Honest, XilinxDmaDescHw.transferred, hw0]
  cases sectionStep_write h p with
  | kept hmem =>
    rw [hmem]
    exact hs p
  | fresh segP _ _ hmem =>
    rw [hmem]
    apply hzero
    cases cfg <;> rfl
  | filled _ _ c _ b _ _ hfree hmem =>
    rw [hmem]
    apply hzero
    have hp : p ∈ s.chan.freeSegList := by
      rw [hfree]
      exact List.mem_cons_self
    have hstatus : (s.chan.mem p).hw.status = 0 := by
      rw [← hclean p hp]
      rfl
    rw [← hstatus]
    cases cfg <;> cases b.app <;> rfl
  | flagged _ _ _ d _ _ _ hmem =>
    rw [hmem]
    exact flagged_honest (flags_maxTransLen d p) (hs p)
  | linked _ _ _ _ _ _ _ _ hmem =>
    rw [hmem]
    exact hs p
  | device status app ha _ hmem =>
    subst ha
    rw [hmem]
    exact hok
  | cleaned _ hmem =>
    rw [hmem]
    apply hzero
    rfl

/-! ## Live descriptors -/

/-- The descriptors at the head of `done_list` that the cleanup frees without a stop. -/
def quickDone (done : List (XilinxDmaTxDescriptor cfg)) : List (XilinxDmaTxDescriptor cfg) :=
  done.takeWhile fun d => !d.cyclic && d.callback.isNone

/-- The submitted descriptors that an action frees. -/
def Act.frees (s : VxdmaSys cfg) : Act cfg → List (XilinxDmaTxDescriptor cfg)
  | .tasklet => quickDone s.chan.doneList
  | .callbackReturn =>
    match s.cleanup with
    | .callback d => d :: quickDone s.chan.doneList
    | _ => []
  | .run i _ =>
    match s.calls[i]? with
    | some .terminateFree => s.chan.pendingList ++ s.chan.activeList ++ s.chan.doneList
    | some .freeChan => s.chan.pendingList ++ s.chan.activeList ++ s.chan.doneList
    | _ => []
  | _ => []

end VxdmaSys

/-- The lists of the channel, as names with segments. -/
def XilinxDmaChan.tags (s : XilinxDmaChan cfg) : List (Nat × List SegPtr) :=
  (s.pendingList ++ s.activeList ++ s.doneList).map XilinxDmaTxDescriptor.tag

/-- Completion leaves name and segments. -/
@[simp] theorem completedDesc_tag (d : XilinxDmaTxDescriptor cfg) :
    (completedDesc d).tag = d.tag := by
  simp [XilinxDmaTxDescriptor.tag]

/-- A start keeps every descriptor on a list. -/
theorem startTransfer_tags (startOk : Bool) (s : XilinxDmaChan cfg) :
    s.tags ⊆ (xilinxDmaStartTransfer startOk s).tags := by
  rcases startTransfer_cases startOk s with ⟨-, h⟩ | ⟨-, -, c, w, -, h⟩ | ⟨-, -, c, w, -, h⟩ <;>
    rw [h]
  · exact List.Subset.refl _
  · exact List.Subset.refl _
  · intro x hx
    simp only [XilinxDmaChan.tags, List.map_append, List.mem_append, List.map_nil,
      List.not_mem_nil] at hx ⊢
    tauto

/-- An interrupt moves descriptors from one list to another. -/
theorem irqComplete_tags (s : XilinxDmaChan cfg) : s.tags ⊆ (irqComplete s).tags := by
  rw [irqComplete_eq]
  intro x hx
  have hmap : (s.activeList.map completedDesc).map XilinxDmaTxDescriptor.tag =
      s.activeList.map XilinxDmaTxDescriptor.tag := by
    simp
  simp only [XilinxDmaChan.tags, List.map_append, hmap, List.mem_append, List.map_nil,
    List.not_mem_nil] at hx ⊢
  tauto

/-- The cleanup keeps a descriptor on `done_list`, or holds it, or frees it. -/
theorem cleanup_tags (s : XilinxDmaChan cfg) :
    ∀ x ∈ s.tags, x ∈ (xilinxDmaChanDescCleanup s).1.tags ∨
      x ∈ (xilinxDmaChanDescCleanup s).2.held.map XilinxDmaTxDescriptor.tag ∨
      x ∈ (VxdmaSys.quickDone s.doneList).map XilinxDmaTxDescriptor.tag := by
  obtain ⟨freed, rest, hsplit, hquick, hcases⟩ := cleanupLoop_cases s.doneList s rfl
  have hfreed : ∀ x ∈ freed.map XilinxDmaTxDescriptor.tag,
      x ∈ (VxdmaSys.quickDone s.doneList).map XilinxDmaTxDescriptor.tag := by
    intro x hx
    obtain ⟨d, hd, rfl⟩ := List.mem_map.mp hx
    apply List.mem_map_of_mem
    rw [VxdmaSys.quickDone, hsplit, List.takeWhile_append_of_pos]
    · exact List.mem_append_left _ hd
    · intro e he
      simp [hquick e he]
  intro x hx
  simp only [XilinxDmaChan.tags, hsplit, List.map_append, List.mem_append] at hx
  unfold xilinxDmaChanDescCleanup
  rcases hx with hx | hx | hx
  · left
    rcases hcases with ⟨-, h⟩ | ⟨d, tl, -, -, -, h⟩ | ⟨d, tl, -, -, h⟩ | ⟨d, tl, -, -, h⟩ <;>
      rw [h] <;> simp only [XilinxDmaChan.tags, XilinxDmaChan.emit, List.map_append,
        List.mem_append] <;> tauto
  · exact Or.inr (Or.inr (hfreed x hx))
  · rcases hcases with ⟨-, h⟩ | ⟨d, tl, -, -, -, h⟩ | ⟨d, tl, -, -, h⟩ | ⟨d, tl, hrest, -, h⟩ <;>
      rw [h] <;> simp only [XilinxDmaChan.tags, XilinxDmaChan.emit, List.map_append,
        List.mem_append, CleanupPc.held]
    · tauto
    · tauto
    · tauto
    · rw [hrest, List.map_cons] at hx
      rcases List.mem_cons.mp hx with rfl | hx
      · exact Or.inr (Or.inl (List.mem_singleton_self _))
      · tauto

namespace VxdmaSys

/-- A section keeps the descriptors of the lists on a list, when it does not free all of them. -/
theorem Section.tags {env : CallEnv} {s t : XilinxDmaChan cfg} {c : Call cfg} {after : After cfg}
    (h : Section env s c t after) (hterm : c ≠ .terminateFree) (hfree : c ≠ .freeChan) :
    s.tags ⊆ t.tags := by
  have hqueue : ∀ {u : XilinxDmaChan cfg} {d : XilinxDmaTxDescriptor cfg},
      u.pendingList = s.pendingList ++ [d] → u.activeList = s.activeList →
      u.doneList = s.doneList → s.tags ⊆ u.tags := by
    intro u d hp ha hd x hx
    simp only [XilinxDmaChan.tags, hp, ha, hd, List.map_append, List.mem_append] at hx ⊢
    tauto
  cases h with
  | buildError =>
    rw [freeTxDescriptor_eq]
    exact List.Subset.refl _
  | submitRefused =>
    rw [freeTxDescriptor_eq]
    exact List.Subset.refl _
  | queued => exact hqueue rfl rfl rfl
  | queuedBug => exact hqueue rfl rfl rfl
  | issue => exact startTransfer_tags _ _
  | irqIoc =>
    rw [irqAck_eq]
    exact List.Subset.refl _
  | irqOther =>
    rw [irqAck_eq]
    exact List.Subset.refl _
  | irqLock => exact List.Subset.trans (irqComplete_tags s) (startTransfer_tags _ _)
  | terminate =>
    rw [halt_eq]
    exact List.Subset.refl _
  | terminateFree => exact absurd rfl hterm
  | terminateClear =>
    rw [clearCyclic_eq]
    exact List.Subset.refl _
  | freeChan => exact absurd rfl hfree
  | _ => exact List.Subset.refl _

/-- A live descriptor is in the queues or held up by a callback. -/
theorem mem_liveTags {s : VxdmaSys cfg} {x : Nat × List SegPtr} :
    x ∈ s.liveDescs.map XilinxDmaTxDescriptor.tag ↔
      x ∈ s.chan.tags ∨ x ∈ s.cleanup.held.map XilinxDmaTxDescriptor.tag := by
  rw [liveDescs, held_eq, List.map_append, List.mem_append]
  rfl

/-- **A live descriptor** stays live, with its segments, until an action frees it. -/
theorem sectionStep_live {s s' : VxdmaSys cfg} {a : Act cfg} (h : s.sectionStep a = some s') :
    ∀ x ∈ s.liveDescs.map XilinxDmaTxDescriptor.tag,
      x ∈ s'.liveDescs.map XilinxDmaTxDescriptor.tag ∨
        x ∈ (a.frees s).map XilinxDmaTxDescriptor.tag := by
  obtain ⟨hbug, hstep⟩ := sectionStep_inv h
  intro x hx
  cases hstep with
  | run i env c s' hc hleave =>
    have hcleanup : s'.cleanup = s.cleanup := by rw [leave_eq hleave]
    rw [mem_liveTags] at hx
    rw [mem_liveTags, hcleanup, leave_chan hleave]
    rcases hx with hx | hx
    · by_cases hterm : c = .terminateFree
      · subst hterm
        simp only [Act.frees, hc]
        exact Or.inr hx
      · by_cases hfree : c = .freeChan
        · subst hfree
          simp only [Act.frees, hc]
          exact Or.inr hx
        · exact Or.inl (Or.inl ((run_inv env hbug c).tags hterm hfree hx))
    · exact Or.inl (Or.inr hx)
  | tasklet hidle =>
    rw [mem_liveTags, hidle] at hx
    rw [mem_liveTags]
    rcases hx with hx | hx
    · rcases cleanup_tags { s.chan with tasklet := false } x hx with hx | hx | hx
      · exact Or.inl (Or.inl hx)
      · exact Or.inl (Or.inr hx)
      · exact Or.inr hx
    · cases hx
  | callbackReturn hbusy =>
    rw [mem_liveTags] at hx
    rw [mem_liveTags]
    simp only [Act.frees]
    cases hpc : s.cleanup with
    | idle => exact absurd hpc hbusy
    | cyclicCallback =>
      rw [hpc] at hx
      exact Or.inl hx
    | callback d =>
      rw [hpc] at hx
      simp only [cleanupResume]
      rcases hx with hx | hx
      · have hx : x ∈ (xilinxDmaFreeTxDescriptor s.chan d.segments).tags := by
          rw [freeTxDescriptor_eq]
          exact hx
        rcases cleanup_tags _ x hx with hx | hx | hx
        · exact Or.inl (Or.inl hx)
        · exact Or.inl (Or.inr hx)
        · rw [freeTxDescriptor_eq] at hx
          exact Or.inr (List.mem_cons_of_mem _ hx)
      · right
        rw [List.mem_singleton.mp hx]
        exact List.mem_cons_self
  | allocChanResources zalloc =>
    left
    rw [mem_liveTags] at hx ⊢
    cases zalloc <;> exact hx
  | _ => exact Or.inl hx

/-! ## The cookies of queued and active descriptors -/

/-- Every queued and every active descriptor was submitted under the cookie that it carries. -/
def CookiesKnown (s : XilinxDmaChan cfg) : Prop :=
  ∀ d ∈ s.pendingList ++ s.activeList, (d.id, d.cookie) ∈ assigned s

/-- The lists may lose descriptors, and the history stays. -/
theorem CookiesKnown.same {s t : XilinxDmaChan cfg} (hs : CookiesKnown s)
    (hlists : t.pendingList ++ t.activeList ⊆ s.pendingList ++ s.activeList)
    (hassigned : assigned t = assigned s) : CookiesKnown t ∧ assigned s ⊆ assigned t := by
  refine ⟨?_, hassigned ▸ List.Subset.refl _⟩
  intro d hd
  rw [hassigned]
  exact hs d (hlists hd)

/-- A descriptor is queued under its cookie. -/
theorem CookiesKnown.queue {s t : XilinxDmaChan cfg} {d : XilinxDmaTxDescriptor cfg}
    (hs : CookiesKnown s) (hpending : t.pendingList = s.pendingList ++ [d])
    (hactive : t.activeList = s.activeList)
    (hassigned : assigned t = assigned s ++ [(d.id, d.cookie)]) :
    CookiesKnown t ∧ assigned s ⊆ assigned t := by
  refine ⟨?_, ?_⟩
  · intro e he
    rw [hpending, hactive] at he
    simp only [List.mem_append, List.mem_singleton] at he
    rw [hassigned]
    rcases he with (he | rfl) | he
    · exact List.mem_append_left _ (hs e (List.mem_append_left _ he))
    · exact List.mem_append_right _ (List.mem_singleton_self _)
    · exact List.mem_append_left _ (hs e (List.mem_append_right _ he))
  · rw [hassigned]
    exact List.subset_append_left _ _

/-- A start keeps the cookies known. -/
theorem startTransfer_known (startOk : Bool) {s : XilinxDmaChan cfg} (hs : CookiesKnown s) :
    CookiesKnown (xilinxDmaStartTransfer startOk s) ∧
      assigned s ⊆ assigned (xilinxDmaStartTransfer startOk s) := by
  obtain ⟨hactive, hpending, -⟩ := startTransfer_lists startOk s
  refine hs.same ?_ (startTransfer_sameNames startOk s).2
  intro d hd
  rw [hactive, List.mem_append, List.mem_append] at hd
  rw [hpending, List.mem_append, List.mem_append]
  tauto

/-- A section forgets no cookie, and knows that of the descriptor it queues. -/
theorem Section.known {env : CallEnv} {s t : XilinxDmaChan cfg} {c : Call cfg} {after : After cfg}
    (h : Section env s c t after) (hs : CookiesKnown s) :
    CookiesKnown t ∧ assigned s ⊆ assigned t := by
  by_cases hc : c.changesQueues = false
  · have hsame := h.sameHistory hc
    refine hs.same ?_ hsame.filterMap_log.1
    rw [hsame.pendingList, hsame.activeList]
    exact List.Subset.refl _
  · cases h with
    | queued d =>
      refine hs.queue rfl rfl ?_
      simp [assigned, Event.assigned]
    | queuedBug d =>
      refine hs.queue rfl rfl ?_
      simp [assigned, Event.assigned, List.filterMap_cons]
    | issue => exact startTransfer_known _ hs
    | irqLock =>
      have hcomplete : CookiesKnown (irqComplete s) ∧ assigned s ⊆ assigned (irqComplete s) := by
        refine hs.same ?_ (irqComplete_sameNames s).2
        rw [irqComplete_eq]
        simp
      obtain ⟨hknown, hassigned⟩ := startTransfer_known env.startOk hcomplete.1
      exact ⟨hknown, List.Subset.trans hcomplete.2 hassigned⟩
    | terminateFree =>
      refine hs.same ?_ (freeDescriptors_sameNames s).2
      rw [freeDescriptors_eq]
      exact List.nil_subset _
    | freeChan =>
      refine hs.same ?_ (freeDescriptors_sameNames s).2
      rw [freeDescriptors_eq]
      exact List.nil_subset _
    | _ => exact absurd rfl hc

/-- Every action keeps the cookies of what is queued among the assigned ones. -/
theorem sectionStep_known {s s' : VxdmaSys cfg} {a : Act cfg} (hs : CookiesKnown s.chan)
    (h : s.sectionStep a = some s') :
    CookiesKnown s'.chan ∧ assigned s.chan ⊆ assigned s'.chan := by
  have hsame : ∀ {u : XilinxDmaChan cfg}, u.pendingList = s.chan.pendingList →
      u.activeList = s.chan.activeList → assigned u = assigned s.chan →
      CookiesKnown u ∧ assigned s.chan ⊆ assigned u := by
    intro u hp ha hassigned
    refine hs.same ?_ hassigned
    rw [hp, ha]
    exact List.Subset.refl _
  obtain ⟨hbug, hstep⟩ := sectionStep_inv h
  cases hstep with
  | run i env c s' hc hleave =>
    rw [leave_chan hleave]
    exact (run_inv env hbug c).known hs
  | allocChanResources zalloc =>
    cases zalloc with
    | none => exact hsame rfl rfl rfl
    | some segP =>
      refine hsame rfl rfl ?_
      simp [assigned, xilinxDmaAllocChanResources, XilinxDmaChan.dmaCtrlWrite,
        XilinxDmaChan.emit, Event.assigned]
  | tasklet =>
    have hqueues := cleanup_sameQueues { s.chan with tasklet := false }
    exact hsame hqueues.pendingList hqueues.activeList
      (cleanup_sameNames { s.chan with tasklet := false }).2
  | callbackReturn =>
    have hqueues := cleanupResume_sameQueues s.cleanup s.chan
    exact hsame hqueues.pendingList hqueues.activeList (cleanupResume_sameNames _ _).2
  | _ => exact hsame rfl rfl rfl

/-- No section changes how the channel was configured. -/
theorem sectionStep_hasSg {s s' : VxdmaSys cfg} {a : Act cfg} (h : s.sectionStep a = some s') :
    s'.chan.hasSg = s.chan.hasSg := by
  rcases sectionStep_pool h with ⟨zalloc, rfl⟩ | ⟨i, env, -, -, hchan⟩ | hpool
  · rw [(sectionStep_allocChanResources h).2]
    cases zalloc <;> rfl
  · rw [hchan]
    rfl
  · exact hpool.hasSg

/-! ## What a right answer is -/

end VxdmaSys

/-- The loop read the segments of this descriptor, and added up what is not transferred of them. -/
def StatusRead.Reports (s : XilinxDmaChan cfg) (d : XilinxDmaTxDescriptor cfg) :
    StatusRead → Prop
  | .segments read residue => read = d.segments ∧ residue.toNat = s.owed d.segments
  | .wild => False

instance (s : XilinxDmaChan cfg) (d : XilinxDmaTxDescriptor cfg) (read : StatusRead) :
    Decidable (read.Reports s d) := by
  cases read <;> unfold StatusRead.Reports <;> infer_instance

namespace VxdmaSys

/-- The loop read the live descriptor that was submitted under the cookie. -/
def ReadsCarrier (s : VxdmaSys cfg) (cookie : Int) (read : StatusRead) : Prop :=
  ∃ d ∈ s.liveDescs, (d.id, cookie) ∈ assigned s.chan ∧ read.Reports s.chan d

instance (s : VxdmaSys cfg) (cookie : Int) (read : StatusRead) :
    Decidable (s.ReadsCarrier cookie read) :=
  inferInstanceAs
    (Decidable (∃ d ∈ s.liveDescs, (d.id, cookie) ∈ assigned s.chan ∧ read.Reports s.chan d))

end VxdmaSys

namespace StatusSys

open VxdmaSys

/-- Without interruption, the call is `xilinx_dma_tx_status`. -/
theorem exec_txStatus {s : VxdmaSys cfg} (hbug : s.chan.bug = false) (cookie : Int)
    (txstate : Bool) :
    match (xilinxDmaTxStatus cookie txstate s.chan).2.2 with
    | .untouched =>
      exec statusStep ⟨s, none⟩ [.txStatus cookie txstate, .status] = some ⟨s, none⟩
    | .stored residue =>
      exec statusStep ⟨s, none⟩ [.txStatus cookie txstate, .status, .status, .status, .status] =
        some ⟨{ s with chan := { s.chan with residue := residue } }, none⟩
    | .wild =>
      exec statusStep ⟨s, none⟩ [.txStatus cookie txstate, .status, .status, .status] =
        some ⟨s, some (.store cookie .wild)⟩ := by
  have hquiet : ∀ {c : StatusCall cfg} {c' : Option (StatusCall cfg)},
      runStatus s c = some (c', s.chan.residue) → statusStep ⟨s, some c⟩ .status = some ⟨s, c'⟩ := by
    intro c c' hrun
    unfold statusStep
    rw [if_neg (by simp [hbug]), Option.bind_some, hrun]
    rfl
  have hentry : statusStep ⟨s, none⟩ (.txStatus cookie txstate) =
      some ⟨s, some (.check cookie txstate)⟩ := rfl
  have hpick : statusStep ⟨s, some (.pick cookie)⟩ .status =
      some ⟨s, some (.lock cookie s.chan.activeList.getLast?)⟩ := hquiet rfl
  have hlock : ∀ desc, statusStep ⟨s, some (.lock cookie desc)⟩ .status =
      some ⟨s, some (.store cookie (s.txStatusLocked desc))⟩ := fun _ => hquiet rfl
  have hstore : ∀ read residue,
      statusStep ⟨s, some (.store cookie (.segments read residue))⟩ .status =
        some ⟨{ s with chan := { s.chan with residue := residue } }, none⟩ := by
    intro read residue
    simp [statusStep, hbug, runStatus]
  unfold xilinxDmaTxStatus
  by_cases hdone : dmaCookieStatus s.chan.common cookie = .complete ∨ txstate = false
  · have hcheck : statusStep ⟨s, some (.check cookie txstate)⟩ .status = some ⟨s, none⟩ :=
      hquiet (by simp [runStatus, hdone])
    simp [hdone, exec, hentry, hcheck]
  · have hcheck : statusStep ⟨s, some (.check cookie txstate)⟩ .status =
        some ⟨s, some (.pick cookie)⟩ := hquiet (by simp [runStatus, hdone])
    cases hsg : s.chan.hasSg with
    | false =>
      have hread : ∀ desc, s.txStatusLocked desc = .segments [] 0 := by
        simp [txStatusLocked, hsg]
      simp [hdone, exec, hentry, hcheck, hpick, hlock, hread, hstore]
    | true =>
      cases hlast : s.chan.activeList.getLast? with
      | none =>
        have hread : s.txStatusLocked none = .wild := by simp [txStatusLocked, hsg]
        simp [hdone, exec, hentry, hcheck, hpick, hlast, hlock, hread]
      | some d =>
        have hlive : d.id ∈ s.liveDescs.map XilinxDmaTxDescriptor.id := by
          apply List.mem_map_of_mem
          simp only [liveDescs, List.mem_append]
          exact Or.inl (Or.inl (Or.inr (List.mem_of_getLast? hlast)))
        have hread : s.txStatusLocked (some d) = .segments d.segments (residueOf s.chan d) := by
          simp only [txStatusLocked, hsg, Bool.not_true, Bool.false_eq_true, if_false, if_pos hlive]
        simp [hdone, exec, hentry, hcheck, hpick, hlast, hlock, hread, hstore]

/-- Between its look and its lock, a call is not disturbed by an action that frees a descriptor
which was submitted under the asked cookie. -/
def Undisturbed (s : VxdmaSys cfg) (a : Act cfg) : StatusCall cfg → Prop
  | .lock cookie _ => ∀ d ∈ a.frees s, (d.id, cookie) ∉ assigned s.chan
  | _ => True

/-- When a call looks, the last active descriptor carries the asked cookie; and when it has the
lock, the bytes of the descriptor fit into the residue. -/
def Finds (s : VxdmaSys cfg) : StatusCall cfg → Prop
  | .pick cookie => s.chan.activeList.getLast?.map XilinxDmaTxDescriptor.cookie = some cookie
  | .lock cookie _ => ∀ d ∈ s.liveDescs, (d.id, cookie) ∈ assigned s.chan →
      s.chan.owed d.segments < 2 ^ 32
  | _ => True

/-- The steps after which an answer is right. -/
def StatusGuard (s : StatusSys cfg) : StatusAct cfg → Prop
  | .other a => s.sys.HonestDevice a ∧ ∀ c ∈ s.call, Undisturbed s.sys a c
  | .txStatus _ _ => True
  | .status => ∀ c ∈ s.call, Finds s.sys c

instance (s : VxdmaSys cfg) (a : Act cfg) (c : StatusCall cfg) : Decidable (Undisturbed s a c) := by
  cases c <;> unfold Undisturbed <;> infer_instance

instance (s : VxdmaSys cfg) (c : StatusCall cfg) : Decidable (Finds s c) := by
  cases c <;> unfold Finds <;> infer_instance

instance (s : StatusSys cfg) (a : StatusAct cfg) : Decidable (s.StatusGuard a) := by
  cases a <;> unfold StatusGuard <;> infer_instance

/-- What holds along such a run. -/
structure StatusInv (s : StatusSys cfg) : Prop where
  once : OwnedOnce s.sys
  clean : s.sys.chan.PoolClean
  hasSg : s.sys.chan.hasSg = true
  known : CookiesKnown s.sys.chan
  honest : ∀ p, (s.sys.chan.mem p).hw.Honest
  /-- Between the look and the lock, the call has the descriptor of its cookie, and it is live. -/
  carrier : ∀ cookie desc, s.call = some (.lock cookie desc) →
    ∃ d, desc = some d ∧ (d.id, cookie) ∈ assigned s.sys.chan ∧
      d.tag ∈ s.sys.liveDescs.map XilinxDmaTxDescriptor.tag

/-- A status query goes on by one of its parts. -/
theorem status_cases {s s' : StatusSys cfg} (h : s.statusStep .status = some s') :
    ∃ c r, s.call = some c ∧ runStatus s.sys c = some r ∧
      s' = { sys := { s.sys with chan := { s.sys.chan with residue := r.2 } }, call := r.1 } := by
  simp only [statusStep] at h
  split at h
  · cases h
  · obtain ⟨r, hr, rfl⟩ := Option.map_eq_some_iff.mp h
    obtain ⟨c, hc, hrun⟩ := Option.bind_eq_some_iff.mp hr
    exact ⟨c, r, hc, hrun, rfl⟩

/-- Every guarded step keeps the invariant. -/
theorem statusStep_inv {s s' : StatusSys cfg} {a : StatusAct cfg} (hs : StatusInv s)
    (hok : s.StatusGuard a) (h : s.statusStep a = some s') : StatusInv s' := by
  cases a with
  | other a =>
    obtain ⟨hdevice, hfrees⟩ := hok
    obtain ⟨sys, hstep, rfl⟩ := Option.map_eq_some_iff.mp h
    obtain ⟨hknown, hassigned⟩ := sectionStep_known hs.known hstep
    refine ⟨sectionStep_ownedOnce hs.once hstep, sectionStep_poolClean hs.once hs.clean hstep,
      (sectionStep_hasSg hstep).trans hs.hasSg, hknown,
      sectionStep_honest hs.clean hs.honest hdevice hstep, ?_⟩
    intro cookie desc hcall
    obtain ⟨d, hdesc, hcookie, hlive⟩ := hs.carrier cookie desc hcall
    refine ⟨d, hdesc, hassigned hcookie, ?_⟩
    rcases sectionStep_live hstep d.tag hlive with hlive | hfreed
    · exact hlive
    · -- the guard excludes that it was freed
      obtain ⟨e, he, htag⟩ := List.mem_map.mp hfreed
      have hid : e.id = d.id := (Prod.mk.inj htag).1
      refine absurd ?_ (hfrees _ hcall e he)
      rw [hid]
      exact hcookie
  | txStatus cookie txstate =>
    simp only [statusStep] at h
    split at h
    · cases h
      exact ⟨hs.once, hs.clean, hs.hasSg, hs.known, hs.honest, fun _ _ hcall => by cases hcall⟩
    · cases h
  | status =>
    obtain ⟨c, r, hc, hrun, rfl⟩ := status_cases h
    refine ⟨⟨hs.once.nodup, hs.once.allocated⟩, hs.clean, hs.hasSg, hs.known, hs.honest, ?_⟩
    intro cookie desc hcall
    simp only at hcall
    cases c with
    | check cookie' txstate =>
      simp only [runStatus] at hrun
      split at hrun
      · cases hrun
        cases hcall
      · cases hrun
        cases hcall
    | pick cookie' =>
      cases hrun
      cases hcall
      obtain ⟨d, hlast, hcookie⟩ := Option.map_eq_some_iff.mp (hok _ hc)
      have hactive : d ∈ s.sys.chan.activeList := List.mem_of_getLast? hlast
      refine ⟨d, hlast, ?_, ?_⟩
      · rw [← hcookie]
        exact hs.known d (List.mem_append_right _ hactive)
      · apply List.mem_map_of_mem
        simp only [liveDescs, List.mem_append]
        exact Or.inl (Or.inl (Or.inr hactive))
    | lock cookie' desc' =>
      cases hrun
      cases hcall
    | store cookie' read =>
      cases read with
      | segments =>
        cases hrun
        cases hcall
      | wild => cases hrun

/-- After the probe no cookie is known and none is queued. -/
theorem probed_inv (ctrlOffset : Nat) (dmacr : BitVec 32) :
    StatusInv (probed true ctrlOffset dmacr : StatusSys cfg) := by
  refine ⟨probed_ownedOnce true ctrlOffset dmacr, ?_, rfl, ?_, ?_, ?_⟩
  · intro p hp
    cases hp
  · intro d hd
    cases hd
  · intro p
    have hzero : zeroDescHw.Honest := by decide
    exact hzero
  · intro cookie desc hcall
    cases hcall

end StatusSys

open StatusSys VxdmaSys in
/-- **tx_status reports the residue of the asked transfer** in every run whose steps keep to
`StatusGuard`: whenever a call gets the lock, it reads the segments of the live descriptor of its
cookie and adds up what is not transferred of them, and that is what it stores when it returns. -/
theorem status_reads_carrier (ctrlOffset : Nat) (dmacr : BitVec 32) (s s' : StatusSys cfg)
    (h : Reachable statusStep StatusGuard (probed true ctrlOffset dmacr) s)
    (hok : s.StatusGuard .status) (hstep : s.statusStep .status = some s') :
    (∀ cookie, s.call = some (.pick cookie) → s.sys.chan.activeList ≠ []) ∧
    (∀ cookie desc, s.call = some (.lock cookie desc) →
      ∃ read, s'.call = some (.store cookie read) ∧ ReadsCarrier s.sys cookie read) ∧
    ∀ cookie read residue, s.call = some (.store cookie (.segments read residue)) →
      s'.call = none ∧ s'.sys.chan.residue = residue := by
  have hinv : StatusInv s :=
    h.invariant (probed_inv ctrlOffset dmacr) fun _ _ _ hs hok hstep => statusStep_inv hs hok hstep
  obtain ⟨c, r, hc, hrun, rfl⟩ := status_cases hstep
  refine ⟨?_, ?_, ?_⟩
  · intro cookie hcall hempty
    have hlast := hok _ hcall
    simp [Finds, hempty] at hlast
  · intro cookie desc hcall
    obtain rfl : c = .lock cookie desc := Option.some.inj (hc.symm.trans hcall)
    cases hrun
    obtain ⟨d, rfl, hcookie, hlive⟩ := hinv.carrier cookie desc hcall
    obtain ⟨e, he, htag⟩ := List.mem_map.mp hlive
    obtain ⟨hid, hsegments⟩ := Prod.mk.inj htag
    have hfits := hok _ hcall e he (hid ▸ hcookie)
    have hmem : d.id ∈ s.sys.liveDescs.map XilinxDmaTxDescriptor.id := by
      rw [← hid]
      exact List.mem_map_of_mem he
    have hread : s.sys.txStatusLocked (some d) =
        .segments e.segments (residueOf s.sys.chan d) := by
      rw [hsegments]
      simp [txStatusLocked, hinv.hasSg, hmem]
    refine ⟨_, rfl, e, he, hid ▸ hcookie, ?_⟩
    rw [hread]
    refine ⟨rfl, ?_⟩
    rw [residueOf_eq_residueAfter, residueAfter_eq fun p _ => hinv.honest p, BitVec.toNat_ofNat,
      ← hsegments]
    exact Nat.mod_eq_of_lt hfits
  · intro cookie read residue hcall
    obtain rfl : c = .store cookie (.segments read residue) := Option.some.inj (hc.symm.trans hcall)
    cases hrun
    exact ⟨rfl, rfl⟩

namespace StatusSys

open VxdmaSys

/-- `n` descriptors of `k` bytes are submitted, with cookies from 2 on. -/
def submits (n : Nat) (k : BitVec 32) : List (Act .addr32) :=
  let env : CallEnv := ⟨⟨0, true⟩, 0, true, true⟩
  .allocChanResources (some 0) :: (List.replicate n
    (.prepSlaveSg ⟨[⟨0x1000, k⟩], .memToDev, none, true⟩ :: sections 2 env ++ [.txSubmit 0 none] ++
      sections 3 env)).flatten

/-- The queue is started. -/
def started : List (Act .addr32) := .issuePending :: sections 1 ⟨⟨0, true⟩, 0, true, true⟩

/-- The batch completes, and the cleanup runs. -/
def finished : List (Act .addr32) :=
  .interrupt :: sections 3 ⟨⟨0, true⟩, xilinxDmaXrIrqIocMask, true, true⟩ ++ [.tasklet]

/-- A call for cookie 2 up to its lock, after some actions and with others before the lock. -/
def asks (before between : List (Act .addr32)) : List (StatusAct .addr32) :=
  before.map .other ++ [.txStatus 2 true, .status, .status] ++ between.map .other

/-- The cookie of a call that waits for the lock, and whether its answer will be right. -/
def answer (s : StatusSys cfg) : Option (Int × Bool) :=
  match s.call with
  | some (.lock cookie desc) =>
    some (cookie, decide (s.sys.ReadsCarrier cookie (s.sys.txStatusLocked desc)))
  | _ => none

/-- A run that ends before the loop of a query, with the answer that the loop gives. -/
theorem answer_eq_some {s₀ : StatusSys cfg} {as : List (StatusAct cfg)} {cookie : Int}
    (h : (exec statusStep s₀ as).bind answer = some (cookie, false)) :
    ∃ s desc, exec statusStep s₀ as = some s ∧ s.call = some (.lock cookie desc) ∧
      ¬ s.sys.ReadsCarrier cookie (s.sys.txStatusLocked desc) := by
  obtain ⟨s, hs, hanswer⟩ := Option.bind_eq_some_iff.mp h
  unfold answer at hanswer
  split at hanswer
  · rename_i cookie' desc hcall
    obtain ⟨rfl, hwrong⟩ := Prod.mk.inj (Option.some.inj hanswer)
    exact ⟨s, desc, hs, hcall, of_decide_eq_false hwrong⟩
  · cases hanswer

end StatusSys

open StatusSys VxdmaSys in
/-- A cookie that waits on `pending_list` with nothing active, a cookie that is not the last of its
batch, and a descriptor that the cleanup frees before the call has the lock: the answer is wrong
each time. -/
theorem status_reads_other :
    (∃ s desc, exec statusStep (probed true 0 0) (asks (submits 1 8) []) = some s ∧
      s.call = some (.lock 2 desc) ∧ ¬ s.sys.ReadsCarrier 2 (s.sys.txStatusLocked desc)) ∧
    (∃ s desc, exec statusStep (probed true 0 0) (asks (submits 2 8 ++ started) []) = some s ∧
      s.call = some (.lock 2 desc) ∧ ¬ s.sys.ReadsCarrier 2 (s.sys.txStatusLocked desc)) ∧
    ∃ s desc, exec statusStep (probed true 0 0) (asks (submits 1 8 ++ started) finished) = some s ∧
      s.call = some (.lock 2 desc) ∧ ¬ s.sys.ReadsCarrier 2 (s.sys.txStatusLocked desc) := by
  refine ⟨?_, ?_, ?_⟩
  · exact answer_eq_some (by decide +kernel)
  · exact answer_eq_some (by decide +kernel)
  · exact answer_eq_some (by decide +kernel)

namespace StatusSys

open VxdmaSys

/-- A transfer in two segments, of which one is reported, completes while a call waits for the
lock, and the cleanup is in its callback. -/
def completedMeanwhile : List (StatusAct .addr32) :=
  let env : CallEnv := ⟨⟨0, true⟩, 0, true, true⟩
  asks ([.allocChanResources (some 0),
      .prepSlaveSg ⟨[⟨0x1000, 100⟩, ⟨0x2000, 50⟩], .memToDev, none, true⟩] ++ sections 3 env ++
    [.txSubmit 0 (some 0)] ++ sections 3 env ++ started ++
    [.device ⟨0, 0⟩ 0x80000064 (Vector.replicate 5 0)]) finished

end StatusSys

open StatusSys VxdmaSys in

/-- A query whose descriptor completes between the look and the lock. -/
theorem status_reads_carrier_completed :
    ∃ s s' : StatusSys .addr32, exec statusStep (probed true 0 0) completedMeanwhile = some s ∧
      s.sys.held.map XilinxDmaTxDescriptor.cookie = [0] ∧ s.sys.chan.owed [⟨0, 0⟩, ⟨0, 1⟩] = 50 ∧
      s.statusStep .status = some s' ∧
      ∃ read, s'.call = some (.store 2 read) ∧ s.sys.ReadsCarrier 2 read := by
  have hexec : (exec statusStep (probed true 0 0) completedMeanwhile).bind (fun s =>
      (s.statusStep .status).map fun _ => (s.sys.held.map XilinxDmaTxDescriptor.cookie,
        s.sys.chan.owed [⟨0, 0⟩, ⟨0, 1⟩], s.answer.map Prod.fst, decide (s.StatusGuard .status))) =
      some ([0], 50, some 2, true) := by
    decide +kernel
  obtain ⟨s, hs, hlast⟩ := Option.bind_eq_some_iff.mp hexec
  obtain ⟨s', hs', hfacts⟩ := Option.map_eq_some_iff.mp hlast
  obtain ⟨hheld, hrest⟩ := Prod.mk.inj hfacts
  obtain ⟨howed, hrest⟩ := Prod.mk.inj hrest
  obtain ⟨hanswer, hok⟩ := Prod.mk.inj hrest
  obtain ⟨desc, hcall⟩ : ∃ desc, s.call = some (.lock 2 desc) := by
    unfold answer at hanswer
    split at hanswer
    · rename_i cookie desc hcall
      obtain rfl : cookie = 2 := Option.some.inj hanswer
      exact ⟨desc, hcall⟩
    · cases hanswer
  have hrun : Reachable statusStep StatusGuard (probed true 0 0) s :=
    Reachable.of_exec (by decide +kernel) hs
  have hright := status_reads_carrier 0 0 s s' hrun (of_decide_eq_true hok) hs'
  exact ⟨s, s', hs, hheld, howed, hs', hright.2.1 2 desc hcall⟩

end PetalinuxDriver
