import PetalinuxDriver.Analysis.RecycledSegments
import PetalinuxDriver.Analysis.StatusResidue

/-!
# The words that a descriptor carries

A builder that returns has made the words that its caller asked for (`FilledSoFar.returns`). From
then on other builders fill and flag segments, submits link the tail of the queue, the engine
writes statuses, and the cleanup wipes what it gives back, all of them between any two sections of
each other. None of this reaches the descriptor: as long as it waits its words, links apart, are
those of the request, and when the engine has it all of them stay but the ones that the engine
writes (`carried_words`). Every segment is in one place, so that is a case analysis over the six
kinds of writes.
-/

set_option autoImplicit false

namespace PetalinuxDriver

open Library

variable {cfg : PhysAddrConfig}

/-- What the engine reads of a segment: all words but the link and those that it writes itself. -/
def XilinxDmaDescHw.transfer (hw : XilinxDmaDescHw) : XilinxDmaDescHw :=
  { hw.unlinked with status := zeroDescHw.status, app := zeroDescHw.app }

/-- The links are not part of what is transferred. -/
theorem transfer_unlinked (hw : XilinxDmaDescHw) : hw.unlinked.transfer = hw.transfer := rfl

/-- A descriptor without its cookie and its callback, which a submit, its caller and the completion
set. -/
def XilinxDmaTxDescriptor.bare (d : XilinxDmaTxDescriptor cfg) : XilinxDmaTxDescriptor cfg :=
  { d with cookie := 0, callback := none }

/-- Completion changes nothing of a descriptor but its cookie and callback. -/
@[simp] theorem completedDesc_bare (d : XilinxDmaTxDescriptor cfg) :
    (completedDesc d).bare = d.bare := by
  unfold completedDesc
  split <;> rfl

/-- What two such descriptors have in common. -/
structure XilinxDmaTxDescriptor.SameBare (d e : XilinxDmaTxDescriptor cfg) : Prop where
  id : d.id = e.id
  segments : d.segments = e.segments
  firstSegment : d.firstSegment = e.firstSegment
  phys : d.phys = e.phys

/-- What is the same but for cookie and callback, field by field. -/
theorem XilinxDmaTxDescriptor.sameBare {d e : XilinxDmaTxDescriptor cfg} (h : d.bare = e.bare) :
    d.SameBare e := by
  have hid := congrArg XilinxDmaTxDescriptor.id h
  have hsegs := congrArg XilinxDmaTxDescriptor.segments h
  have hfirst := congrArg XilinxDmaTxDescriptor.firstSegment h
  have hphys := congrArg XilinxDmaTxDescriptor.phys h
  exact ⟨hid, hsegs, hfirst, hphys⟩

/-- The descriptors on the lists of the channel. -/
def XilinxDmaChan.onLists (s : XilinxDmaChan cfg) : List (XilinxDmaTxDescriptor cfg) :=
  s.pendingList ++ (s.activeList ++ s.doneList)

/-- A call holds the segments of a descriptor that it submits, or of one that it builds. -/
theorem Call.segs_eq (c : Call cfg) :
    c.segs = segsOf c.submitting ++ c.building.flatMap TxBuild.segments := by
  cases c <;> simp [Call.segs, Call.submitting, Call.building]

namespace VxdmaSys

/-! ## Descriptors on their way -/

/-- The descriptors that were prepared and not yet given to the engine. -/
def unstarted (s : VxdmaSys cfg) : List (XilinxDmaTxDescriptor cfg) :=
  s.unsubmitted ++ s.chan.pendingList

/-- The descriptors that were given to the engine and not yet freed. -/
def started (s : VxdmaSys cfg) : List (XilinxDmaTxDescriptor cfg) :=
  s.chan.activeList ++ (s.chan.doneList ++ s.held)

/-- Every segment is free, with a builder, or in a descriptor. -/
theorem owned_eq (s : VxdmaSys cfg) :
    s.owned = ↑s.chan.freeSegList + ↑(s.building.flatMap TxBuild.segments) +
      (↑(segsOf s.unstarted) + ↑(segsOf s.started)) := by
  have hcalls : (↑(s.calls.flatMap Call.segs) : Multiset SegPtr) =
      ↑(segsOf (s.calls.flatMap Call.submitting)) + ↑(s.building.flatMap TxBuild.segments) := by
    have hperm := (List.flatMap_append_perm s.calls (fun c => segsOf c.submitting)
      fun c => c.building.flatMap TxBuild.segments).symm
    have hsegs : s.calls.flatMap Call.segs = s.calls.flatMap fun c =>
        segsOf c.submitting ++ c.building.flatMap TxBuild.segments :=
      List.flatMap_congr fun c _ => c.segs_eq
    rw [hsegs, Multiset.coe_eq_coe.mpr hperm, ← Multiset.coe_add, building, segsOf,
      List.flatMap_assoc, List.flatMap_assoc]
    rfl
  simp only [owned, XilinxDmaChan.owned, hcalls, unstarted, started, unsubmitted, segsOf_append,
    ← Multiset.coe_add]
  abel

/-- What is in a descriptor is neither free nor with a builder, and comes from an allocated pool. -/
theorem OwnedOnce.carried {s : VxdmaSys cfg} (hs : OwnedOnce s) {p : SegPtr}
    (hp : p ∈ segsOf s.unstarted ∨ p ∈ segsOf s.started) :
    p ∉ s.chan.freeSegList ∧ p ∉ s.building.flatMap TxBuild.segments ∧ p.pool < s.chan.pools := by
  have hmem : p ∈ (↑(segsOf s.unstarted) + ↑(segsOf s.started) : Multiset SegPtr) := by
    simpa only [Multiset.mem_add, Multiset.mem_coe] using hp
  have hle : (↑(segsOf s.unstarted) + ↑(segsOf s.started) : Multiset SegPtr) +
      (↑s.chan.freeSegList + ↑(s.building.flatMap TxBuild.segments)) ≤ s.owned := by
    rw [owned_eq]
    exact le_of_eq (add_comm _ _)
  have hnot := hs.disjoint hle hmem
  simp only [Multiset.mem_add, Multiset.mem_coe, not_or] at hnot
  refine ⟨hnot.1, hnot.2, hs.allocated p ?_⟩
  exact Multiset.mem_of_le ((Multiset.le_add_right _ _).trans hle) hmem

/-- What waits is not active. -/
theorem OwnedOnce.unstarted_apart {s : VxdmaSys cfg} (hs : OwnedOnce s) {p : SegPtr}
    (hp : p ∈ segsOf s.unstarted) : p ∉ segsOf s.started := by
  have hle : (↑(segsOf s.unstarted) : Multiset SegPtr) + ↑(segsOf s.started) ≤ s.owned := by
    rw [owned_eq]
    exact Multiset.le_add_left _ _
  have hnot := hs.disjoint hle (Multiset.mem_coe.mpr hp)
  exact mt Multiset.mem_coe.mpr hnot

/-! ## What one action writes into a descriptor -/

/-- **The frame.** Nobody but the engine writes into a descriptor, links apart. -/
theorem sectionStep_carried {s s' : VxdmaSys cfg} {a : Act cfg} (hs : OwnedOnce s)
    (h : s.sectionStep a = some s') {p : SegPtr}
    (hp : p ∈ segsOf s.unstarted ∨ p ∈ segsOf s.started)
    (hp' : p ∈ segsOf s'.unstarted ∨ p ∈ segsOf s'.started) :
    (s'.chan.mem p).hw.transfer = (s.chan.mem p).hw.transfer ∧
      (p ∉ segsOf s.started → (s'.chan.mem p).hw.unlinked = (s.chan.mem p).hw.unlinked) := by
  obtain ⟨hfree, hbuild, hpool⟩ := hs.carried hp
  have hsame : (s'.chan.mem p).hw.unlinked = (s.chan.mem p).hw.unlinked →
      (s'.chan.mem p).hw.transfer = (s.chan.mem p).hw.transfer ∧
        (p ∉ segsOf s.started → (s'.chan.mem p).hw.unlinked = (s.chan.mem p).hw.unlinked) := by
    intro hwords
    refine ⟨?_, fun _ => hwords⟩
    rw [← transfer_unlinked, hwords, transfer_unlinked]
  cases sectionStep_write h p with
  | kept hmem => exact hsame (by rw [hmem])
  | fresh segP ha hnew => omega
  | filled i env c cs b ha hc hhead =>
    rw [hhead] at hfree
    exact absurd List.mem_cons_self hfree
  | flagged i env b d ha hc hb =>
    -- the segments that get flags are with their builder
    have hmem : b ∈ s.building := mem_building (List.mem_of_getElem? hc) (by simp [Call.building])
    exact absurd (List.mem_flatMap.mpr ⟨b, hmem, hb⟩) hbuild
  | linked i env d t ha hc ht hlast hlink =>
    apply hsame
    rw [hlink]
    rfl
  | device status app ha hactive hmem =>
    have hstarted : p ∈ segsOf s.started := by
      rw [started, segsOf_append]
      exact List.mem_append_left _ hactive
    refine ⟨?_, fun hnot => absurd hstarted hnot⟩
    rw [hmem]
    rfl
  | cleaned hback => exact absurd hback ((sectionStep_ownedOnce hs h).carried hp').1

/-! ## Where a descriptor comes from -/

/-- What a section leaves waiting waited before, or is what a builder returns. -/
theorem Section.waits {env : CallEnv} {s t : XilinxDmaChan cfg} {c : Call cfg} {after : After cfg}
    (h : Section env s c t after) :
    ∀ d ∈ (after.kept ++ after.calls.flatMap Call.submitting) ++ t.pendingList,
      d.bare ∈ (c.submitting ++ s.pendingList).map XilinxDmaTxDescriptor.bare ∨
        after = .prepared d ∧ ∃ b, c = .build [] b := by
  have hkept : ∀ {u : XilinxDmaChan cfg} {ds : List (XilinxDmaTxDescriptor cfg)},
      (∀ d ∈ u.pendingList, d ∈ s.pendingList) → (∀ d ∈ ds, d ∈ c.submitting) →
      ∀ d ∈ ds ++ u.pendingList,
        d.bare ∈ (c.submitting ++ s.pendingList).map XilinxDmaTxDescriptor.bare ∨
          after = .prepared d ∧ ∃ b, c = .build [] b := by
    intro u ds hu hds d hd
    refine Or.inl (List.mem_map_of_mem ?_)
    rcases List.mem_append.mp hd with hd | hd
    · exact List.mem_append_left _ (hds d hd)
    · exact List.mem_append_right _ (hu d hd)
  have hqueued : ∀ {d : XilinxDmaTxDescriptor cfg} {k : Int}, c = .submitLock d →
      ∀ e ∈ s.pendingList ++ [{ d with cookie := k }],
        e.bare ∈ (c.submitting ++ s.pendingList).map XilinxDmaTxDescriptor.bare := by
    rintro d k rfl e he
    rcases List.mem_append.mp he with he | he
    · exact List.mem_map_of_mem (List.mem_append_right _ he)
    · rw [List.mem_singleton.mp he]
      exact List.mem_cons_self
  intro d hd
  cases h with
  | buildDone b d' mem hne hbuilt =>
    rcases List.mem_append.mp hd with hd | hd
    · obtain rfl : d = d' := by simpa [After.kept, After.calls] using hd
      exact Or.inr ⟨rfl, b, rfl⟩
    · exact Or.inl (List.mem_map_of_mem (List.mem_append_right _ hd))
  | queued d' => exact Or.inl (hqueued rfl d hd)
  | queuedBug d' => exact Or.inl (hqueued rfl d hd)
  | issue =>
    refine hkept ?_ (by simp [After.kept, After.calls]) d hd
    intro e he
    rw [(startTransfer_lists env.startOk s).2.1]
    exact List.mem_append_right _ he
  | irqLock =>
    refine hkept ?_ (by simp [After.kept, After.calls, Call.submitting]) d hd
    intro e he
    have hlists := (startTransfer_lists env.startOk (irqComplete s)).2.1
    have hpending : (irqComplete s).pendingList = s.pendingList := by rw [irqComplete_eq]
    rw [← hpending, hlists]
    exact List.mem_append_right _ he
  | buildError =>
    rw [freeTxDescriptor_eq] at hd
    exact hkept (fun e he => he) (by simp [After.kept, After.calls]) d hd
  | submitRefused =>
    rw [freeTxDescriptor_eq] at hd
    exact hkept (fun e he => he) (by simp [After.kept, After.calls]) d hd
  | irqIoc =>
    rw [irqAck_eq] at hd
    exact hkept (fun e he => he) (by simp [After.kept, After.calls, Call.submitting]) d hd
  | irqOther =>
    rw [irqAck_eq] at hd
    exact hkept (fun e he => he) (by simp [After.kept, After.calls, Call.submitting]) d hd
  | terminate =>
    rw [halt_eq] at hd
    exact hkept (fun e he => he) (by simp [After.kept, After.calls, Call.submitting]) d hd
  | terminateFree =>
    rw [freeDescriptors_eq] at hd
    exact hkept (by simp) (by simp [After.kept, After.calls, Call.submitting]) d hd
  | freeChan =>
    rw [freeDescriptors_eq] at hd
    exact hkept (by simp) (by simp [After.kept, After.calls, Call.submitting]) d hd
  | terminateClear =>
    rw [clearCyclic_eq] at hd
    exact hkept (fun e he => he) (by simp [After.kept, After.calls]) d hd
  | _ => exact hkept (fun e he => he) (by simp [After.kept, After.calls, Call.submitting]) d hd

/-- **What waits after an action** waited before, or a builder has just returned it. -/
theorem sectionStep_unstarted {s s' : VxdmaSys cfg} {a : Act cfg} (h : s.sectionStep a = some s')
    {d : XilinxDmaTxDescriptor cfg} (hd : d ∈ s'.unstarted) :
    d.bare ∈ s.unstarted.map XilinxDmaTxDescriptor.bare ∨
      ∃ i env, a = .run i env ∧ s.Returns i env s' d := by
  have hsame : d ∈ s.unstarted → d.bare ∈ s.unstarted.map XilinxDmaTxDescriptor.bare :=
    List.mem_map_of_mem
  obtain ⟨hbug, hstep⟩ := sectionStep_inv h
  cases hstep with
  | txSubmit i callback d' hd' =>
    left
    rcases List.mem_append.mp hd with hd | hd
    · rcases List.mem_append.mp hd with hd | hd
      · exact hsame (List.mem_append_left _ (List.mem_append_left _ (List.mem_of_mem_eraseIdx hd)))
      · rcases List.mem_cons.mp hd with rfl | hd
        · -- the callback that the client sets is not in the words
          exact List.mem_map_of_mem (f := XilinxDmaTxDescriptor.bare) (a := d')
            (List.mem_append_left _ (List.mem_append_left _ (List.mem_of_getElem? hd')))
        · exact hsame (List.mem_append_left _ (List.mem_append_right _ hd))
    · exact hsame (List.mem_append_right _ hd)
  | run i env c s' hc hleave =>
    have hafter := leave_eq hleave
    have hwaits := (run_inv env hbug c).waits d
    by_cases hmoved : d ∈ ((c.run env s.chan).2.kept ++
        (c.run env s.chan).2.calls.flatMap Call.submitting) ++ (c.run env s.chan).1.pendingList
    · rcases hwaits hmoved with hold | ⟨hprepared, b, rfl⟩
      · left
        rw [List.map_append] at hold
        rw [unstarted, List.map_append]
        rcases List.mem_append.mp hold with hold | hold
        · obtain ⟨e, he, hbare⟩ := List.mem_map.mp hold
          rw [← hbare]
          refine List.mem_append_left _ (List.mem_map_of_mem (List.mem_append_right _ ?_))
          exact List.mem_flatMap.mpr ⟨c, List.mem_of_getElem? hc, he⟩
        · exact List.mem_append_right _ hold
      · exact Or.inr ⟨i, env, rfl, h, b, hc, hprepared⟩
    · left
      simp only [List.mem_append, not_or] at hmoved
      rcases List.mem_append.mp hd with hd | hd
      · rcases unsubmitted_of_run hleave d hd with hd | hd
        · exact hsame (List.mem_append_left _ hd)
        · exact absurd (List.mem_append.mp hd) (not_or.mpr hmoved.1)
      · rw [hafter] at hd
        exact absurd hd hmoved.2
  | tasklet =>
    left
    rw [unstarted, (cleanup_sameQueues { s.chan with tasklet := false }).pendingList] at hd
    exact hsame hd
  | callbackReturn =>
    left
    rw [unstarted, (cleanupResume_sameQueues s.cleanup s.chan).pendingList] at hd
    exact hsame hd
  | allocChanResources zalloc =>
    left
    cases zalloc <;> exact hsame hd
  | _ => exact Or.inl (hsame hd)

/-- What is active or done after a section was on a list before. -/
theorem Section.submitted {env : CallEnv} {s t : XilinxDmaChan cfg} {c : Call cfg}
    {after : After cfg} (h : Section env s c t after) :
    ∀ d ∈ t.activeList ++ t.doneList, d.bare ∈ s.onLists.map XilinxDmaTxDescriptor.bare := by
  have hsame : ∀ d ∈ s.activeList ++ s.doneList,
      d.bare ∈ s.onLists.map XilinxDmaTxDescriptor.bare := by
    intro d hd
    exact List.mem_map_of_mem (List.mem_append_right _ hd)
  have hstart : ∀ {u : XilinxDmaChan cfg} (startOk : Bool),
      (∀ d ∈ u.pendingList ++ (u.activeList ++ u.doneList),
        d.bare ∈ s.onLists.map XilinxDmaTxDescriptor.bare) →
      ∀ d ∈ (xilinxDmaStartTransfer startOk u).activeList ++
        (xilinxDmaStartTransfer startOk u).doneList,
          d.bare ∈ s.onLists.map XilinxDmaTxDescriptor.bare := by
    intro u startOk hu d hd
    apply hu
    rcases startTransfer_cases startOk u with ⟨-, h⟩ | ⟨-, -, c, w, -, h⟩ | ⟨-, -, c, w, -, h⟩ <;>
      rw [h] at hd <;> simp only [List.mem_append] at hd ⊢ <;> tauto
  cases h with
  | issue =>
    apply hstart
    intro d hd
    exact List.mem_map_of_mem hd
  | irqLock =>
    apply hstart
    rw [irqComplete_eq]
    intro d hd
    simp only [List.nil_append, List.mem_append, List.mem_map] at hd
    rcases hd with hd | hd | ⟨e, he, rfl⟩
    · exact List.mem_map_of_mem (by simp [XilinxDmaChan.onLists, hd])
    · exact List.mem_map_of_mem (by simp [XilinxDmaChan.onLists, hd])
    · rw [completedDesc_bare]
      exact List.mem_map_of_mem (by simp [XilinxDmaChan.onLists, he])
  | buildError =>
    rw [freeTxDescriptor_eq]
    exact hsame
  | submitRefused =>
    rw [freeTxDescriptor_eq]
    exact hsame
  | irqIoc =>
    rw [irqAck_eq]
    exact hsame
  | irqOther =>
    rw [irqAck_eq]
    exact hsame
  | terminate =>
    rw [halt_eq]
    exact hsame
  | terminateFree =>
    rw [freeDescriptors_eq]
    simp
  | freeChan =>
    rw [freeDescriptors_eq]
    simp
  | terminateClear =>
    rw [clearCyclic_eq]
    exact hsame
  | _ => exact hsame

/-- The cleanup takes what it leaves and what it holds from `done_list`. -/
theorem cleanup_done (s : XilinxDmaChan cfg) :
    ∀ d ∈ (xilinxDmaChanDescCleanup s).1.doneList ++ (xilinxDmaChanDescCleanup s).2.held,
      d ∈ s.doneList := by
  obtain ⟨freed, rest, hsplit, -, hcases⟩ := cleanupLoop_cases s.doneList s rfl
  unfold xilinxDmaChanDescCleanup
  rcases hcases with ⟨-, h⟩ | ⟨e, tl, -, -, -, h⟩ | ⟨e, tl, -, -, h⟩ | ⟨e, tl, hrest, -, h⟩ <;>
    rw [h] <;> intro d hd <;> rw [hsplit] <;>
    simp only [XilinxDmaChan.emit, CleanupPc.held, List.append_nil, List.mem_append,
      List.mem_singleton] at hd ⊢
  · exact Or.inr hd
  · exact Or.inr hd
  · exact Or.inr hd
  · rw [hrest, List.mem_cons]
    tauto

/-- **What the engine has had after an action** it had before, or it was queued. -/
theorem sectionStep_started {s s' : VxdmaSys cfg} {a : Act cfg} (h : s.sectionStep a = some s')
    {d : XilinxDmaTxDescriptor cfg} (hd : d ∈ s'.started) :
    d.bare ∈ (s.unstarted ++ s.started).map XilinxDmaTxDescriptor.bare := by
  have hlists : d.bare ∈ s.chan.onLists.map XilinxDmaTxDescriptor.bare →
      d.bare ∈ (s.unstarted ++ s.started).map XilinxDmaTxDescriptor.bare := by
    intro hmem
    simp only [XilinxDmaChan.onLists, unstarted, started, List.map_append, List.mem_append] at hmem ⊢
    tauto
  have hheld : d ∈ s.held → d.bare ∈ (s.unstarted ++ s.started).map XilinxDmaTxDescriptor.bare := by
    intro hmem
    refine List.mem_map_of_mem ?_
    simp only [started, List.mem_append]
    tauto
  have hcleaned : ∀ {u : XilinxDmaChan cfg}, u.activeList = s.chan.activeList →
      u.doneList = s.chan.doneList → d ∈ (xilinxDmaChanDescCleanup u).1.activeList ++
        ((xilinxDmaChanDescCleanup u).1.doneList ++ (xilinxDmaChanDescCleanup u).2.held) →
      d.bare ∈ (s.unstarted ++ s.started).map XilinxDmaTxDescriptor.bare := by
    intro u hactive hdone hmem
    apply hlists
    refine List.mem_map_of_mem ?_
    rcases List.mem_append.mp hmem with hmem | hmem
    · rw [(cleanup_sameQueues u).activeList, hactive] at hmem
      simp [XilinxDmaChan.onLists, hmem]
    · have hold := cleanup_done u d hmem
      rw [hdone] at hold
      simp [XilinxDmaChan.onLists, hold]
  have hsame : d ∈ s.started → d.bare ∈ (s.unstarted ++ s.started).map XilinxDmaTxDescriptor.bare :=
    fun hmem => List.mem_map_of_mem (List.mem_append_right _ hmem)
  obtain ⟨hbug, hstep⟩ := sectionStep_inv h
  cases hstep with
  | run i env c s' hc hleave =>
    have hheld' : s'.held = s.held := by
      rw [leave_eq hleave]
      rfl
    rw [started, hheld', leave_chan hleave, ← List.append_assoc] at hd
    rcases List.mem_append.mp hd with hd | hd
    · exact hlists ((run_inv env hbug c).submitted d hd)
    · exact hheld hd
  | tasklet =>
    rw [started, held_eq] at hd
    exact hcleaned (u := { s.chan with tasklet := false }) rfl rfl hd
  | callbackReturn =>
    rw [started, held_eq] at hd
    cases hpc : s.cleanup with
    | idle =>
      rw [hpc] at hd
      apply hlists
      refine List.mem_map_of_mem (List.mem_append_right _ ?_)
      simpa [cleanupResume, CleanupPc.held] using hd
    | cyclicCallback =>
      rw [hpc] at hd
      apply hlists
      refine List.mem_map_of_mem (List.mem_append_right _ ?_)
      simpa [cleanupResume, CleanupPc.held] using hd
    | callback e =>
      rw [hpc] at hd
      simp only [cleanupResume] at hd
      refine hcleaned ?_ ?_ hd
      · rw [freeTxDescriptor_eq]
      · rw [freeTxDescriptor_eq]
  | allocChanResources zalloc => cases zalloc <;> exact hsame hd
  | _ => exact hsame hd

/-! ## Runs -/

/-- The descriptor of this name was asked for by one prep, and by no other. -/
def AskedBy (g : List (Nat × Act cfg)) (id : Nat) (a : Act cfg) : Prop :=
  (id, a) ∈ g ∧ ∀ a', (id, a') ∈ g → a' = a

/-- A noted request is the only one of its name. -/
theorem RequestsOnce.askedBy {g : List (Nat × Act cfg)} {next id : Nat} {a : Act cfg}
    (h : RequestsOnce g next) (ha : (id, a) ∈ g) : AskedBy g id a :=
  ⟨ha, fun _ ha' => h.unique ha' ha⟩

/-- The words of the descriptors are those that were asked for: all but the links of what waits,
and all but the links and what the engine writes of the others. -/
structure CarriesWords (s : VxdmaSys cfg) (g : List (Nat × Act cfg)) : Prop where
  unstarted : ∀ d ∈ s.unstarted, ∃ a, (d.id, a) ∈ g ∧ d.words s.chan = a.newWords
  started : ∀ d ∈ s.started, ∃ a, (d.id, a) ∈ g ∧
    (d.words s.chan).map XilinxDmaDescHw.transfer = a.newWords.map XilinxDmaDescHw.transfer
  phys : ∀ d ∈ s.unstarted ++ s.started, d.phys = (s.chan.mem d.firstSegment).phys

/-- Words are those of the segments. -/
theorem words_congr {d e : XilinxDmaTxDescriptor cfg} {s t : XilinxDmaChan cfg}
    {f : XilinxDmaDescHw → XilinxDmaDescHw} (hbare : e.bare = d.bare)
    (hsame : ∀ p ∈ d.segments, f (t.mem p).hw.unlinked = f (s.mem p).hw.unlinked) :
    (d.words t).map f = (e.words s).map f := by
  simp only [XilinxDmaTxDescriptor.words, (XilinxDmaTxDescriptor.sameBare hbare).segments,
    List.map_map]
  exact List.map_congr_left hsame

/-- What a builder returns has the address of its first segment. -/
theorem Returns.phys {s s' : VxdmaSys cfg} {i : Nat} {env : CallEnv}
    {d : XilinxDmaTxDescriptor cfg} (h : s.Returns i env s' d) :
    d.phys = (s'.chan.mem d.firstSegment).phys := by
  obtain ⟨hstep, b, hc, hd⟩ := h
  obtain ⟨c, hc', hsection, rfl⟩ := sectionStep_run hstep
  rw [hc] at hc'
  cases hc'
  rw [hd] at hsection
  rcases hsection.submitting d (by simp [After.kept]) with hsub | hphys
  · cases hsub
  · exact hphys

/-- **One action keeps what waits as it was asked for.** -/
theorem sectionStep_waits_carries {s s' : VxdmaSys cfg} {a : Act cfg} {g : List (Nat × Act cfg)}
    (hinv : RecyclingInv s g) (hs : CarriesWords s g) (h : s.sectionStep a = some s')
    {d : XilinxDmaTxDescriptor cfg} (hd : d ∈ s'.unstarted) :
    (∃ req, (d.id, req) ∈ requests g s a s' ∧ d.words s'.chan = req.newWords) ∧
      d.phys = (s'.chan.mem d.firstSegment).phys := by
  have hmono := subset_requests g s s' a
  rcases sectionStep_unstarted h hd with hold | ⟨i, env, rfl, hreturns⟩
  · obtain ⟨e, he, hbare⟩ := List.mem_map.mp hold
    obtain ⟨hid, hsegs, hfirst, hphys⟩ := XilinxDmaTxDescriptor.sameBare hbare
    have hbefore : ∀ p ∈ d.segments, p ∈ segsOf s.unstarted := by
      intro p hp
      exact mem_segsOf.mpr ⟨e, he, hsegs ▸ hp⟩
    obtain ⟨req, hreq, hwords⟩ := hs.unstarted e he
    refine ⟨⟨req, hmono (hid ▸ hreq), ?_⟩, ?_⟩
    · have hkept : (d.words s'.chan).map id = (e.words s.chan).map id := by
        refine words_congr hbare fun p hp => ?_
        have hafter : p ∈ segsOf s'.unstarted := mem_segsOf.mpr ⟨d, hd, hp⟩
        exact (sectionStep_carried hinv.once h (Or.inl (hbefore p hp)) (Or.inl hafter)).2
          (hinv.once.unstarted_apart (hbefore p hp))
      rw [List.map_id, List.map_id] at hkept
      rw [hkept, hwords]
    · have hmem : d.firstSegment ∈ d.segments := List.head_mem d.segments_ne
      have hpool := (hinv.once.carried (Or.inl (hbefore _ hmem))).2.2
      rw [sectionStep_phys h hpool, ← hfirst, ← hphys]
      exact hs.phys e (List.mem_append_left _ he)
  · obtain ⟨req, hreq, hwords⟩ := FilledSoFar.returns hinv.once hinv.filled hreturns
    exact ⟨⟨req, hmono hreq, hwords⟩, hreturns.phys⟩

/-- ... and what the engine has had, but for what it writes. -/
theorem sectionStep_started_carries {s s' : VxdmaSys cfg} {a : Act cfg} {g : List (Nat × Act cfg)}
    (hinv : RecyclingInv s g) (hs : CarriesWords s g) (h : s.sectionStep a = some s')
    {d : XilinxDmaTxDescriptor cfg} (hd : d ∈ s'.started) :
    (∃ req, (d.id, req) ∈ requests g s a s' ∧
      (d.words s'.chan).map XilinxDmaDescHw.transfer =
        req.newWords.map XilinxDmaDescHw.transfer) ∧
      d.phys = (s'.chan.mem d.firstSegment).phys := by
  have hmono := subset_requests g s s' a
  obtain ⟨e, he, hbare⟩ := List.mem_map.mp (sectionStep_started h hd)
  obtain ⟨hid, hsegs, hfirst, hphys⟩ := XilinxDmaTxDescriptor.sameBare hbare
  have hbefore : ∀ p ∈ d.segments, p ∈ segsOf s.unstarted ∨ p ∈ segsOf s.started := by
    intro p hp
    rcases List.mem_append.mp he with he | he
    · exact Or.inl (mem_segsOf.mpr ⟨e, he, hsegs ▸ hp⟩)
    · exact Or.inr (mem_segsOf.mpr ⟨e, he, hsegs ▸ hp⟩)
  have hkept : (d.words s'.chan).map XilinxDmaDescHw.transfer =
      (e.words s.chan).map XilinxDmaDescHw.transfer := by
    refine words_congr hbare fun p hp => ?_
    rw [transfer_unlinked, transfer_unlinked]
    have hafter : p ∈ segsOf s'.started := mem_segsOf.mpr ⟨d, hd, hp⟩
    exact (sectionStep_carried hinv.once h (hbefore p hp) (Or.inr hafter)).1
  refine ⟨?_, ?_⟩
  · rcases List.mem_append.mp he with he | he
    · obtain ⟨req, hreq, hwords⟩ := hs.unstarted e he
      exact ⟨req, hmono (hid ▸ hreq), by rw [hkept, hwords]⟩
    · obtain ⟨req, hreq, hwords⟩ := hs.started e he
      exact ⟨req, hmono (hid ▸ hreq), by rw [hkept, hwords]⟩
  · have hmem : d.firstSegment ∈ d.segments := List.head_mem d.segments_ne
    have hpool := (hinv.once.carried (hbefore _ hmem)).2.2
    rw [sectionStep_phys h hpool, ← hfirst, ← hphys]
    exact hs.phys e he

/-- **One action keeps the words of the descriptors.** -/
theorem sectionStep_carriesWords {s s' : VxdmaSys cfg} {a : Act cfg} {g : List (Nat × Act cfg)}
    (hinv : RecyclingInv s g) (hs : CarriesWords s g) (h : s.sectionStep a = some s') :
    CarriesWords s' (requests g s a s') := by
  refine ⟨?_, ?_, ?_⟩
  · intro d hd
    exact (sectionStep_waits_carries hinv hs h hd).1
  · intro d hd
    exact (sectionStep_started_carries hinv hs h hd).1
  · intro d hd
    rcases List.mem_append.mp hd with hd | hd
    · exact (sectionStep_waits_carries hinv hs h hd).2
    · exact (sectionStep_started_carries hinv hs h hd).2

/-- Every action keeps the invariant. -/
theorem sectionStep_recyclingInv {s s' : VxdmaSys cfg} {a : Act cfg} {g : List (Nat × Act cfg)}
    (hs : RecyclingInv s g) (h : s.sectionStep a = some s') :
    RecyclingInv s' (requests g s a s') :=
  ⟨sectionStep_ownedOnce hs.once h, sectionStep_poolClean hs.once hs.clean h,
    sectionStep_requestsOnce hs.requests h, sectionStep_filledSoFar hs.once hs.clean hs.filled h⟩

/-- In every run from the probe the descriptors carry their words. -/
theorem carriesWords_of_reachable {hasSg : Bool} {ctrlOffset : Nat} {dmacr : BitVec 32}
    {s : VxdmaSys cfg} {g : List (Nat × Act cfg)}
    (h : Reachable (withGhost sectionStep VxdmaSys.requests) always
      (probed hasSg ctrlOffset dmacr, []) (s, g)) : CarriesWords s g := by
  let Inv : VxdmaSys cfg → List (Nat × Act cfg) → Prop := fun s g =>
    RecyclingInv s g ∧ CarriesWords s g
  have hinv : Inv s g := by
    refine h.ghost_invariant ⟨recyclingInv_of_reachable (Reachable.refl _ _ _), ?_, ?_, ?_⟩ ?_
    · intro d hd
      cases hd
    · intro d hd
      cases hd
    · intro d hd
      cases hd
    · rintro s g a s' ⟨hrec, hs⟩ - hstep
      exact ⟨sectionStep_recyclingInv hrec hstep, sectionStep_carriesWords hrec hs hstep⟩
  exact hinv.2

/-- Two builders take turns. The descriptor of the younger one is started and the engine writes to
it, and that of the older one waits. -/
def builtInTurns : List (Act .addr32) :=
  let env : CallEnv := ⟨⟨0, true⟩, 0, true, true⟩
  [.allocChanResources (some 0), .prepSlaveSg ⟨[⟨0, 4⟩, ⟨64, 8⟩], .memToDev, none, true⟩,
    .prepSlaveSg ⟨[⟨128, 16⟩], .devToMem, none, true⟩, .run 0 env, .run 1 env, .run 0 env,
    .run 1 env, .run 0 env, .txSubmit 0 none] ++ sections 3 env ++ [.issuePending] ++
  sections 1 env ++ [.device ⟨0, 0⟩ 0x80000010 zeroDescHw.app, .txSubmit 0 none] ++ sections 3 env

end VxdmaSys

end PetalinuxDriver
