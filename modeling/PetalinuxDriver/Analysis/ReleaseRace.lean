import PetalinuxDriver.Analysis.CompletionOrder
import PetalinuxDriver.Analysis.SegmentConservation

/-!
# The release and the completion callback

The cleanup drops the lock around a callback, with the descriptor on no list, and frees the
descriptor afterwards. The callback is what the client waits for, so the client may release the
channel before the cleanup comes back. `xilinx_dma_free_chan_resources` cannot see the descriptor:
when its second locked section runs at that time, the descriptor's segments come back on a free
list that is initialised already, or into a pool that is gone.

While nothing is held when that section runs, the cleanup touches segments of the live pool alone
and an allocation starts with exactly the new pool (`release_safe`), however interrupts, tasklet
and client interleave. The client is one that has no other call in flight when it releases the
channel and makes none until the release is over; it submits what it prepared since the
allocation.
-/

set_option autoImplicit false

namespace PetalinuxDriver

open Library

variable {cfg : PhysAddrConfig}

/-! ## The client and the interrupt -/

/-- A call that neither builds nor submits nor terminates. -/
def Call.passive (c : Call cfg) : Bool := c.ofIrq || c.releases

/-- A passive call has no segments. -/
theorem Call.segs_of_passive {c : Call cfg} (h : c.passive = true) : c.segs = [] := by
  cases c <;> simp_all [Call.passive, Call.ofIrq, Call.releases, Call.segs]

namespace VxdmaSys

/-- A passive call stays one. -/
theorem Section.passive {env : CallEnv} {s t : XilinxDmaChan cfg} {c c' : Call cfg}
    (h : Section env s c t (.goesOn c')) (hc : c.passive = true) : c'.passive = true := by
  cases h <;> first | rfl | cases hc

/-- A passive call puts nothing on the queues. -/
theorem Section.queues_nil {env : CallEnv} {s t : XilinxDmaChan cfg} {c : Call cfg}
    {after : After cfg} (h : Section env s c t after) (hc : c.passive = true)
    (hs : s.queues = []) : t.queues = [] := by
  have hparts : s.doneList = [] ∧ s.activeList = [] ∧ s.pendingList = [] := by
    simpa [XilinxDmaChan.queues] using hs
  obtain ⟨hdone, hactive, hpending⟩ := hparts
  cases h with
  | irqNone => exact hs
  | irqIoc =>
    rw [irqAck_eq]
    exact hs
  | irqOther =>
    rw [irqAck_eq]
    exact hs
  | irqLock =>
    rw [(startTransfer_queues env.startOk (irqComplete s)).1, irqComplete_eq]
    simp [XilinxDmaChan.queues, hdone, hactive, hpending]
  | irqSchedule => exact hs
  | freeChan =>
    rw [freeDescriptors_eq]
    rfl
  | freeChanInit => exact hs
  | freeChanCoherent => exact hs
  | _ => cases hc

/-- A release reaches its second locked section through its first. -/
theorem Section.to_freeChanInit {env : CallEnv} {s t : XilinxDmaChan cfg} {c : Call cfg}
    (h : Section env s c t (.goesOn .freeChanInit)) : t.queues = [] := by
  cases h
  rw [freeDescriptors_eq]
  rfl

/-- A release reaches its end through its second locked section. -/
theorem Section.to_freeChanCoherent {env : CallEnv} {s t : XilinxDmaChan cfg} {c : Call cfg}
    (h : Section env s c t (.goesOn .freeChanCoherent)) :
    c = .freeChanInit ∧ t = initFreeSegList s := by
  cases h
  exact ⟨rfl, rfl⟩

/-- No release is in flight. -/
def NoRelease (s : VxdmaSys cfg) : Prop := ∀ c ∈ s.calls, c.releases = false

/-- The client of a channel has no other call in flight when it releases the channel, makes none
until the release is over, and submits what it prepared since the allocation. -/
def OneClient (s : VxdmaSys cfg) : Act cfg → Prop
  | .prepSlaveSg _ => s.NoRelease
  | .prepDmaCyclic _ => s.NoRelease
  | .txSubmit i _ =>
    s.NoRelease ∧
      match s.prepared[i]? with
      | some d => s.FromPool [d]
      | none => True
  | .issuePending => s.NoRelease
  | .terminateAll => s.NoRelease
  | .freeChanResources => ∀ c ∈ s.calls, c.ofIrq = true
  | _ => True

instance (s : VxdmaSys cfg) : Decidable s.NoRelease :=
  inferInstanceAs (Decidable (∀ c ∈ s.calls, c.releases = false))

instance (s : VxdmaSys cfg) : ∀ a, Decidable (s.OneClient a)
  | .prepSlaveSg _ => inferInstanceAs (Decidable s.NoRelease)
  | .prepDmaCyclic _ => inferInstanceAs (Decidable s.NoRelease)
  | .txSubmit i _ =>
    match h : s.prepared[i]? with
    | some d =>
      decidable_of_iff (s.NoRelease ∧ s.FromPool [d]) (by rw [OneClient, h])
    | none => decidable_of_iff s.NoRelease (by rw [OneClient, h, and_true])
  | .issuePending => inferInstanceAs (Decidable s.NoRelease)
  | .terminateAll => inferInstanceAs (Decidable s.NoRelease)
  | .freeChanResources => inferInstanceAs (Decidable (∀ c ∈ s.calls, c.ofIrq = true))
  | .interrupt => isTrue trivial
  | .allocChanResources _ => isTrue trivial
  | .run _ _ => isTrue trivial
  | .tasklet => isTrue trivial
  | .callbackReturn => isTrue trivial
  | .device _ _ _ => isTrue trivial

/-- An action that is the second locked section of a release finds that the cleanup holds no
descriptor. -/
def initsUnheld (s : VxdmaSys cfg) : Act cfg → Bool
  | .run i _ =>
    match s.calls[i]? with
    | some .freeChanInit => s.held.isEmpty
    | _ => true
  | _ => true

/-- The client keeps to its part, and the free list is initialised only while the cleanup holds no
descriptor. -/
def ReleaseGuard (s : VxdmaSys cfg) (a : Act cfg) : Prop :=
  s.OneClient a ∧ s.initsUnheld a = true

instance (s : VxdmaSys cfg) (a : Act cfg) : Decidable (s.ReleaseGuard a) :=
  inferInstanceAs (Decidable (s.OneClient a ∧ s.initsUnheld a = true))

/-! ## What is in use -/

/-- The segments of the channel, the cleanup and the calls in flight; what a client has not
submitted is not among them. -/
def inUse (s : VxdmaSys cfg) : Multiset SegPtr :=
  s.chan.owned + ↑(segsOf s.held) + ↑(s.calls.flatMap Call.segs)

/-- What is not in use by the driver is with the client. -/
theorem owned_eq_inUse (s : VxdmaSys cfg) : s.owned = s.inUse + ↑(segsOf s.prepared) := by
  simp only [owned, inUse]
  abel

/-- The segments that an action brings into use: a new pool, or those of a submitted
descriptor. -/
def broughtIn (s : VxdmaSys cfg) : Act cfg → Multiset SegPtr
  | .txSubmit i _ => ↑(segsOf s.prepared[i]?.toList)
  | a => s.gained a

/-- What an action does to the descriptors that the client keeps. -/
theorem sectionStep_prepared {s s' : VxdmaSys cfg} {a : Act cfg} (h : s.sectionStep a = some s') :
    (∃ i callback, a = .txSubmit i callback ∧ s'.prepared = s.prepared.eraseIdx i ∧
      ∃ d, s.prepared[i]? = some d) ∨
    ((∀ i callback, a ≠ .txSubmit i callback) ∧ ∃ kept, s'.prepared = s.prepared ++ kept) := by
  obtain ⟨hbug, hstep⟩ := sectionStep_inv h
  have hsame : s.prepared = s.prepared ++ [] := (List.append_nil _).symm
  cases hstep with
  | txSubmit i callback d hd => exact Or.inl ⟨i, callback, rfl, rfl, d, hd⟩
  | run i env c s' hc hleave =>
    rw [leave_eq hleave]
    exact Or.inr ⟨by simp, _, rfl⟩
  | prepNull a he =>
    refine Or.inr ⟨?_, [], hsame⟩
    rintro i callback rfl
    cases he
  | prepBuild a chunks b he =>
    refine Or.inr ⟨?_, [], hsame⟩
    rintro i callback rfl
    cases he
  | _ => exact Or.inr ⟨by simp, [], hsame⟩

/-- **The balance of what is in use.** -/
theorem sectionStep_inUse {s s' : VxdmaSys cfg} {a : Act cfg} (h : s.sectionStep a = some s') :
    s'.inUse + s.lost a ≤ s.inUse + s.broughtIn a := by
  have hbal := sectionStep_owned h
  rw [owned_eq_inUse, owned_eq_inUse] at hbal
  rcases sectionStep_prepared h with ⟨i, callback, rfl, hprep, d, hd⟩ | ⟨ha, kept, hprep⟩
  · have herase : (↑(segsOf s.prepared) : Multiset SegPtr) =
        ↑d.segments + ↑(segsOf (s.prepared.eraseIdx i)) :=
      coe_flatMap_eraseIdx (fun d : XilinxDmaTxDescriptor cfg => d.segments) hd
    rw [hprep, herase] at hbal
    have hin : s.broughtIn (.txSubmit i callback) = ↑d.segments := by
      simp [broughtIn, hd]
    rw [hin]
    refine le_of_eq (add_right_cancel (b := ↑(segsOf (s.prepared.eraseIdx i))) ?_)
    calc s'.inUse + s.lost (.txSubmit i callback) + ↑(segsOf (s.prepared.eraseIdx i))
        = s'.inUse + ↑(segsOf (s.prepared.eraseIdx i)) + s.lost (.txSubmit i callback) := by abel
      _ = s.inUse + ↑d.segments + ↑(segsOf (s.prepared.eraseIdx i)) := by
        rw [hbal]
        simp only [gained, add_zero]
        abel
  · have hin : s.broughtIn a = s.gained a := by
      cases a with
      | txSubmit i callback => exact absurd rfl (ha i callback)
      | _ => rfl
    rw [hprep, segsOf_append, ← Multiset.coe_add] at hbal
    rw [hin]
    refine le_trans (Multiset.le_add_right _ ↑(segsOf kept)) (le_of_eq ?_)
    refine add_right_cancel (b := ↑(segsOf s.prepared)) ?_
    calc s'.inUse + s.lost a + ↑(segsOf kept) + ↑(segsOf s.prepared)
        = s'.inUse + (↑(segsOf s.prepared) + ↑(segsOf kept)) + s.lost a := by abel
      _ = s.inUse + s.gained a + ↑(segsOf s.prepared) := by
        rw [hbal]
        abel

/-- A free segment is in use. -/
theorem mem_inUse_of_free {s : VxdmaSys cfg} {p : SegPtr} (hp : p ∈ s.chan.freeSegList) :
    p ∈ s.inUse := by
  simp [inUse, XilinxDmaChan.owned, hp]

/-- A segment that is done is in use. -/
theorem mem_inUse_of_done {s : VxdmaSys cfg} {p : SegPtr} (hp : p ∈ segsOf s.chan.doneList) :
    p ∈ s.inUse := by
  simp [inUse, XilinxDmaChan.owned, hp]

/-- A segment that a callback holds up is in use. -/
theorem mem_inUse_of_held {s : VxdmaSys cfg} {p : SegPtr} (hp : p ∈ segsOf s.held) :
    p ∈ s.inUse := by
  simp [inUse, hp]

/-- Between the two locked sections of a release, with nothing held, all that is in use is on the
free list, and the second section drops that. -/
theorem inUse_eq_zero {s : VxdmaSys cfg} (hfree : s.chan.freeSegList = [])
    (hqueues : s.chan.queues = []) (hheld : s.held = []) (hcalls : ∀ c ∈ s.calls, c.passive = true) :
    s.inUse = 0 := by
  have hparts : s.chan.doneList = [] ∧ s.chan.activeList = [] ∧ s.chan.pendingList = [] := by
    simpa [XilinxDmaChan.queues] using hqueues
  obtain ⟨hdone, hactive, hpending⟩ := hparts
  have hsegs : s.calls.flatMap Call.segs = [] := by
    rw [List.flatMap_eq_nil_iff]
    exact fun c hc => Call.segs_of_passive (hcalls c hc)
  simp [inUse, XilinxDmaChan.owned, hfree, hdone, hactive, hpending, hheld, hsegs]

/-! ## The invariant -/

/-- What holds of the release, the cleanup and the pool. -/
structure ReleaseInv (s : VxdmaSys cfg) : Prop where
  once : s.ReleaseOnce
  /-- Everything in use is of the live pool; without a pool nothing is in use. -/
  inPool : ∀ p ∈ s.inUse, s.chan.segV = some p.pool
  /-- Beside a release there are interrupts only. -/
  alone : s.releases ≠ 0 → ∀ c ∈ s.calls, c.passive = true
  /-- After its first locked section the queues are empty. -/
  drained : .freeChanInit ∈ s.calls → s.chan.queues = []
  /-- After its second one nothing is in use. -/
  emptied : .freeChanCoherent ∈ s.calls → s.inUse = 0

/-- No release in flight, as a count. -/
theorem noRelease_iff {s : VxdmaSys cfg} : s.NoRelease ↔ s.releases = 0 := by
  simp [NoRelease, releases, List.countP_eq_zero]

/-- A release in flight is counted. -/
theorem releases_ne_zero {s : VxdmaSys cfg} {c : Call cfg} (hc : c ∈ s.calls)
    (hrel : c.releases = true) : s.releases ≠ 0 := by
  rw [Ne, ← noRelease_iff]
  intro hnone
  rw [hnone c hc] at hrel
  cases hrel

/-- An action that ends with a release past its first section in flight began with one. -/
theorem releasing_of_step {s s' : VxdmaSys cfg} {a : Act cfg} {c : Call cfg}
    (h : s.sectionStep a = some s') (hc : c ∈ s'.calls) (hrel : c.releases = true)
    (hpast : c ≠ .freeChan) : s.releases ≠ 0 := by
  intro hnone
  by_cases ha : a = .freeChanResources
  · subst ha
    rw [sectionStep_freeChanResources h] at hc
    rcases List.mem_cons.mp hc with rfl | hc
    · exact hpast rfl
    · exact releases_ne_zero hc hrel hnone
  · exact releases_ne_zero hc hrel (sectionStep_noRelease h hnone ha)

/-- While a release is in flight the client does nothing, and nobody allocates. -/
theorem broughtIn_eq_zero {s s' : VxdmaSys cfg} {a : Act cfg} (h : s.sectionStep a = some s')
    (honce : s.ReleaseOnce) (hrel : s.releases ≠ 0) (hok : s.OneClient a) :
    s.broughtIn a = 0 := by
  cases a with
  | txSubmit i callback => exact absurd (noRelease_iff.mp hok.1) hrel
  | allocChanResources zalloc =>
    exact absurd (honce.2 (sectionStep_allocChanResources h).1) hrel
  | _ => rfl

/-- With a release in flight every other call is passive. -/
theorem sectionStep_releaseAlone {s s' : VxdmaSys cfg} {a : Act cfg} (hs : s.ReleaseInv)
    (hok : s.OneClient a) (h : s.sectionStep a = some s') (hrel' : s'.releases ≠ 0) :
    ∀ c ∈ s'.calls, c.passive = true := by
  by_cases ha : a = .freeChanResources
  · subst ha
    intro c hc
    rw [sectionStep_freeChanResources h] at hc
    rcases List.mem_cons.mp hc with rfl | hc
    · rfl
    · rw [Call.passive, hok c hc, Bool.true_or]
  · have hrel : s.releases ≠ 0 := fun hnone => hrel' (sectionStep_noRelease h hnone ha)
    have hpassive := hs.alone hrel
    intro e he
    rcases sectionStep_mem_calls h he with hold | hmakes | ⟨i, env, c, -, hc, hsection⟩
    · exact hpassive e hold
    · cases hmakes with
      | interrupt => rfl
      | freeChanResources => exact absurd rfl ha
      | txSubmit => exact absurd (noRelease_iff.mp hok.1) hrel
      | _ => exact absurd (noRelease_iff.mp hok) hrel
    · exact hsection.passive (hpassive c (List.mem_of_getElem? hc))

/-- With passive calls alone in flight, empty queues stay empty. -/
theorem sectionStep_queues_nil {s s' : VxdmaSys cfg} {a : Act cfg}
    (h : s.sectionStep a = some s') (hpassive : ∀ c ∈ s.calls, c.passive = true)
    (hs : s.chan.queues = []) : s'.chan.queues = [] := by
  obtain ⟨hbug, hstep⟩ := sectionStep_inv h
  cases hstep with
  | allocChanResources zalloc => cases zalloc <;> exact hs
  | run i env c s' hc hleave =>
    rw [leave_chan hleave]
    exact (run_inv env hbug c).queues_nil (hpassive c (List.mem_of_getElem? hc)) hs
  | tasklet =>
    apply List.eq_nil_of_subset_nil
    rw [← hs]
    exact cleanup_queues { s.chan with tasklet := false }
  | callbackReturn =>
    apply List.eq_nil_of_subset_nil
    rw [← hs]
    exact cleanupResume_queues _ _
  | _ => exact hs

/-- When a release comes to the ring the queues are empty. -/
theorem sectionStep_initDrained {s s' : VxdmaSys cfg} {a : Act cfg} (hs : s.ReleaseInv)
    (h : s.sectionStep a = some s') (hmem : .freeChanInit ∈ s'.calls) :
    s'.chan.queues = [] := by
  have hpassive := hs.alone (releasing_of_step h hmem rfl (by simp))
  rcases sectionStep_mem_calls h hmem with hbefore | hmakes | ⟨i, env, c, -, hc, hsection⟩
  · exact sectionStep_queues_nil h hpassive (hs.drained hbefore)
  · cases hmakes
  · -- the first section of the release has just run
    exact hsection.to_freeChanInit

/-- When a release gives the memory back nothing of it is in use. -/
theorem sectionStep_coherentEmptied {s s' : VxdmaSys cfg} {a : Act cfg} (hs : s.ReleaseInv)
    (hok : s.ReleaseGuard a) (h : s.sectionStep a = some s')
    (hmem : .freeChanCoherent ∈ s'.calls) : s'.inUse = 0 := by
  have hrel := releasing_of_step h hmem rfl (by simp)
  rcases sectionStep_mem_calls h hmem with hbefore | hmakes | ⟨i, env, c, rfl, hc, hsection⟩
  · -- nothing is in use and nothing comes in
    have hle := (Multiset.le_add_right _ _).trans (sectionStep_inUse h)
    rw [hs.emptied hbefore, broughtIn_eq_zero h hs.once hrel hok.1, add_zero] at hle
    exact Multiset.le_zero.mp hle
  · cases hmakes
  · obtain ⟨rfl, hchan⟩ := hsection.to_freeChanCoherent
    have hheld : s.held = [] := by simpa [initsUnheld, hc] using hok.2
    have hqueues := hs.drained (List.mem_of_getElem? hc)
    have hpassive := sectionStep_releaseAlone hs hok.1 h (releases_ne_zero hmem rfl)
    refine inUse_eq_zero ?_ ?_ ?_ hpassive
    · rw [hchan]
      rfl
    · rw [hchan]
      exact hqueues
    · obtain ⟨-, -, -, rfl⟩ := sectionStep_run h
      exact hheld

/-- Without a pool nothing is in use. -/
theorem ReleaseInv.inUse_none {s : VxdmaSys cfg} (hs : s.ReleaseInv)
    (hpool : s.chan.segV = none) : s.inUse = 0 := by
  rw [Multiset.eq_zero_iff_forall_notMem]
  intro p hp
  have hlive := hs.inPool p hp
  rw [hpool] at hlive
  cases hlive

/-- What is in use is in the pool that is allocated. -/
theorem sectionStep_usedInPool {s s' : VxdmaSys cfg} {a : Act cfg} (hs : s.ReleaseInv)
    (hok : s.OneClient a) (h : s.sectionStep a = some s') :
    ∀ p ∈ s'.inUse, s'.chan.segV = some p.pool := by
  intro p hp
  have hle := (Multiset.le_add_right _ _).trans (sectionStep_inUse h)
  have hp' := Multiset.mem_of_le hle hp
  by_cases ha : ∃ zalloc, a = .allocChanResources zalloc
  · obtain ⟨zalloc, rfl⟩ := ha
    obtain ⟨hpool, rfl⟩ := sectionStep_allocChanResources h
    rw [hs.inUse_none hpool, zero_add] at hp'
    cases zalloc with
    | none => exact absurd hp' (Multiset.notMem_zero p)
    | some segP =>
      have hnew := mem_poolSegs.mp (Multiset.mem_coe.mp hp')
      rw [hnew]
      rfl
  · rcases sectionStep_pool h with hin | ⟨i, env, rfl, hc, -⟩ | hpool
    · exact absurd hin ha
    · have hmem : Call.freeChanCoherent ∈ s.calls := List.mem_of_getElem? hc
      rw [hs.emptied hmem] at hp'
      exact absurd hp' (by simp [broughtIn, gained])
    · rw [hpool.segV]
      rcases Multiset.mem_add.mp hp' with hold | hin
      · exact hs.inPool p hold
      · cases a with
        | txSubmit i callback =>
          obtain ⟨-, hlive⟩ := hok
          cases hd : s.prepared[i]? with
          | none => simp [broughtIn, hd] at hin
          | some d =>
            simp only [hd] at hlive
            simp only [broughtIn, hd, Option.toList_some, Multiset.mem_coe] at hin
            exact hlive p hin
        | allocChanResources zalloc => exact absurd ⟨zalloc, rfl⟩ ha
        | _ => exact absurd hin (Multiset.notMem_zero p)

/-- **One action** keeps the invariant. -/
theorem sectionStep_releaseInv {s s' : VxdmaSys cfg} {a : Act cfg} (hs : s.ReleaseInv)
    (hok : s.ReleaseGuard a) (h : s.sectionStep a = some s') : s'.ReleaseInv where
  once := sectionStep_releaseOnce hs.once h
  inPool := sectionStep_usedInPool hs hok.1 h
  alone := sectionStep_releaseAlone hs hok.1 h
  drained := sectionStep_initDrained hs h
  emptied := sectionStep_coherentEmptied hs hok h

/-- After the probe there is nothing to release. -/
theorem probed_releaseInv (hasSg : Bool) (ctrlOffset : Nat) (dmacr : BitVec 32) :
    (probed hasSg ctrlOffset dmacr : VxdmaSys cfg).ReleaseInv where
  once := probed_releaseOnce hasSg ctrlOffset dmacr
  inPool := by
    have hnone : (probed hasSg ctrlOffset dmacr : VxdmaSys cfg).inUse = 0 := rfl
    simp [hnone]
  alone := fun hrel => absurd rfl hrel
  drained := fun hmem => absurd hmem List.not_mem_nil
  emptied := fun hmem => absurd hmem List.not_mem_nil

/-! ## The result -/

/-- Between `s` and `t` the cleanup gave segments back: it wrote to them alone, and it appended
them to a list, all of the live pool. -/
def FreesLive (s t : XilinxDmaChan cfg) : Prop :=
  ∃ segs, t.freeSegList = s.freeSegList ++ segs ∧ (∀ p ∉ segs, t.mem p = s.mem p) ∧
    ∀ p ∈ s.freeSegList ++ segs, s.segV = some p.pool

/-- The cleanup touches segments of the live pool alone, and a successful allocation starts with
the segments of the new pool, each once. -/
def ReleaseSafe (s : VxdmaSys cfg) (a : Act cfg) (s' : VxdmaSys cfg) : Prop :=
  match a with
  | .tasklet => FreesLive s.chan s'.chan
  | .callbackReturn => FreesLive s.chan s'.chan
  | .allocChanResources (some _) =>
    ∃ pool, s'.chan.segV = some pool ∧ s'.chan.freeSegList = poolSegs pool
  | _ => True

/-- What the cleanup frees comes from `done_list`. -/
theorem cleanup_frees (s : XilinxDmaChan cfg) :
    ∃ freed : List (XilinxDmaTxDescriptor cfg),
      (∀ p ∈ segsOf freed, p ∈ segsOf s.doneList) ∧
      (xilinxDmaChanDescCleanup s).1.freeSegList = s.freeSegList ++ segsOf freed ∧
      (xilinxDmaChanDescCleanup s).1.mem = cleanSegs (segsOf freed) s.mem := by
  obtain ⟨freed, rest, hsplit, -, hcases⟩ := cleanupLoop_cases s.doneList s rfl
  refine ⟨freed, ?_, ?_⟩
  · intro p hp
    rw [hsplit, segsOf_append]
    exact List.mem_append_left _ hp
  · unfold xilinxDmaChanDescCleanup
    rcases hcases with ⟨-, h⟩ | ⟨d, tl, -, -, -, h⟩ | ⟨d, tl, -, -, h⟩ | ⟨d, tl, -, -, h⟩ <;>
      rw [h] <;> exact ⟨rfl, rfl⟩

/-- After a callback it frees the descriptor that it held as well. -/
theorem cleanupResume_frees (pc : CleanupPc cfg) (s : XilinxDmaChan cfg) :
    ∃ segs, (∀ p ∈ segs, p ∈ segsOf pc.held ∨ p ∈ segsOf s.doneList) ∧
      (cleanupResume pc s).1.freeSegList = s.freeSegList ++ segs ∧
      (cleanupResume pc s).1.mem = cleanSegs segs s.mem := by
  cases pc with
  | idle => exact ⟨[], by simp, by simp [cleanupResume], rfl⟩
  | cyclicCallback => exact ⟨[], by simp, by simp [cleanupResume], rfl⟩
  | callback d =>
    obtain ⟨freed, hfrom, hfree, hmem⟩ := cleanup_frees (xilinxDmaFreeTxDescriptor s d.segments)
    rw [freeTxDescriptor_eq] at hfrom
    refine ⟨d.segments ++ segsOf freed, ?_, ?_, ?_⟩
    · intro p hp
      rcases List.mem_append.mp hp with hd | hp
      · left
        simpa [CleanupPc.held] using hd
      · exact Or.inr (hfrom p hp)
    · rw [cleanupResume, hfree, freeTxDescriptor_eq, List.append_assoc]
    · rw [cleanupResume, hmem, freeTxDescriptor_eq, cleanSegs_append]

/-- What is appended to the free list out of what is in use is of the live pool. -/
theorem ReleaseInv.freesLive {s : VxdmaSys cfg} {t : XilinxDmaChan cfg} (hs : s.ReleaseInv)
    {segs : List SegPtr}
    (hfrom : ∀ p ∈ segs, p ∈ segsOf s.held ∨ p ∈ segsOf s.chan.doneList)
    (hfree : t.freeSegList = s.chan.freeSegList ++ segs)
    (hmem : t.mem = cleanSegs segs s.chan.mem) : FreesLive s.chan t := by
  refine ⟨segs, hfree, ?_, ?_⟩
  · intro p hp
    rw [hmem, cleanSegs_of_notMem hp]
  · intro p hp
    apply hs.inPool
    rcases List.mem_append.mp hp with hp | hp
    · exact mem_inUse_of_free hp
    · rcases hfrom p hp with hheld | hdone
      · exact mem_inUse_of_held hheld
      · exact mem_inUse_of_done hdone

/-- Under the invariant no step touches a pool that was given back. -/
theorem sectionStep_releaseSafe {s s' : VxdmaSys cfg} {a : Act cfg} (hs : s.ReleaseInv)
    (h : s.sectionStep a = some s') : ReleaseSafe s a s' := by
  cases (sectionStep_inv h).2 with
  | tasklet hidle =>
    obtain ⟨freed, hfrom, hfree, hmem⟩ := cleanup_frees { s.chan with tasklet := false }
    exact hs.freesLive (fun p hp => Or.inr (hfrom p hp)) hfree hmem
  | callbackReturn =>
    obtain ⟨segs, hfrom, hfree, hmem⟩ := cleanupResume_frees s.cleanup s.chan
    rw [← held_eq] at hfrom
    exact hs.freesLive hfrom hfree hmem
  | allocChanResources zalloc hpool =>
    cases zalloc with
    | none => trivial
    | some segP =>
      have hnil : s.chan.freeSegList = [] := by
        rw [List.eq_nil_iff_forall_not_mem]
        intro p hp
        have hin := mem_inUse_of_free hp
        rw [hs.inUse_none hpool] at hin
        exact Multiset.notMem_zero p hin
      refine ⟨s.chan.pools, rfl, ?_⟩
      change s.chan.freeSegList ++ poolSegs s.chan.pools = poolSegs s.chan.pools
      rw [hnil, List.nil_append]
  | prepNull a he => cases a <;> trivial
  | prepBuild a chunks b he => cases a <;> trivial
  | _ => trivial

/-- **The release.** In every run from the probe, whatever the order of interrupts, tasklet,
callbacks and the client's sections, in which the free list is initialised only while the cleanup
holds no descriptor: the cleanup touches segments of the live pool alone, and every later
allocation starts with exactly the segments of its pool. -/
theorem release_safe {hasSg : Bool} {ctrlOffset : Nat} {dmacr : BitVec 32} {s s' : VxdmaSys cfg}
    {a : Act cfg} (h : Reachable sectionStep ReleaseGuard (probed hasSg ctrlOffset dmacr) s)
    (hstep : s.sectionStep a = some s') : ReleaseSafe s a s' := by
  have hinv : s.ReleaseInv := h.invariant (probed_releaseInv _ _ _)
    fun _ _ _ hs hok hstep => sectionStep_releaseInv hs hok hstep
  exact sectionStep_releaseSafe hinv hstep

/-- A client prepares, submits and issues one transfer with a callback and is woken by it. -/
def transferToCallback : List (Act .addr32) :=
  let env : CallEnv := ⟨⟨0, true⟩, xilinxDmaXrIrqIocMask, true, true⟩
  [.allocChanResources (some 0), .prepSlaveSg ⟨[⟨0, 1⟩], .memToDev, none, true⟩] ++
  sections 2 env ++ [.txSubmit 0 (some 0)] ++ sections 3 env ++ [.issuePending] ++
  sections 1 env ++ [.interrupt] ++ sections 3 env ++ [.tasklet]

/-- The three sections of a release. -/
def releaseChan : List (Act .addr32) :=
  [.freeChanResources] ++ sections 3 ⟨⟨0, true⟩, 0, true, true⟩

/-- The client waits until the cleanup has the lock back before it goes on with its release. -/
theorem release_safe_afterCallback :
    ∃ s s', exec sectionStep (probed true 0 0)
        (transferToCallback ++ [.freeChanResources, .run 0 ⟨⟨0, true⟩, 0, true, true⟩,
          .callbackReturn] ++ sections 2 ⟨⟨0, true⟩, 0, true, true⟩) = some s ∧
      s.sectionStep (.allocChanResources (some 0)) = some s' ∧
      ReleaseSafe s (.allocChanResources (some 0)) s' := by
  have hexec : (exec sectionStep (probed true 0 0)
      (transferToCallback ++ [.freeChanResources, .run 0 ⟨⟨0, true⟩, 0, true, true⟩,
        .callbackReturn] ++ sections 2 ⟨⟨0, true⟩, 0, true, true⟩)).map
      (fun s => (s.sectionStep (.allocChanResources (some 0))).isSome) = some true := by
    decide +kernel
  obtain ⟨s, hs, halloc⟩ := Option.map_eq_some_iff.mp hexec
  obtain ⟨s', hs'⟩ := Option.isSome_iff_exists.mp halloc
  have hrun : Reachable sectionStep ReleaseGuard (probed true 0 0) s :=
    Reachable.of_exec (by decide +kernel) hs
  exact ⟨s, s', hs, hs', release_safe hrun hs'⟩

/-- When the callback of a descriptor returns without a pool, the cleanup touches what was
freed. -/
theorem late_callback_unsafe {s s' : VxdmaSys cfg} {d : XilinxDmaTxDescriptor cfg}
    (hheld : s.cleanup = .callback d) (hpool : s.chan.segV = none)
    (h : s.sectionStep .callbackReturn = some s') : ¬ ReleaseSafe s .callbackReturn s' := by
  rintro ⟨segs, hfree, -, hlive⟩
  have hin : d.firstSegment ∈ s'.chan.freeSegList := by
    obtain ⟨freed, -, hfreed, -⟩ := cleanup_frees (xilinxDmaFreeTxDescriptor s.chan d.segments)
    rw [sectionStep_callbackReturn h, hheld]
    change d.firstSegment ∈
      (xilinxDmaChanDescCleanup (xilinxDmaFreeTxDescriptor s.chan d.segments)).1.freeSegList
    rw [hfreed, freeTxDescriptor_eq]
    simp [XilinxDmaTxDescriptor.firstSegment]
  rw [hfree] at hin
  have := hlive _ hin
  rw [hpool] at this
  cases this

/-- Whenever the free list is initialised while the cleanup holds a descriptor, the rest of the
release can run before the callback returns. -/
theorem init_while_held_unsafe {s : VxdmaSys cfg} {d : XilinxDmaTxDescriptor cfg} {i : Nat}
    (env : CallEnv) (hbug : s.chan.bug = false) (hc : s.calls[i]? = some .freeChanInit)
    (hheld : s.cleanup = .callback d) :
    ∃ s₁ s₂, exec sectionStep s [.run i env, .run 0 env] = some s₁ ∧
      s₁.sectionStep .callbackReturn = some s₂ ∧ ¬ ReleaseSafe s₁ .callbackReturn s₂ := by
  let s₁ : VxdmaSys cfg :=
    { s with chan := dmaFreeCoherent (initFreeSegList s.chan), calls := s.calls.eraseIdx i }
  have hrun : exec sectionStep s [.run i env, .run 0 env] = some s₁ := by
    simp [exec, sectionStep, hbug, hc, Call.run, leave, initFreeSegList, dmaFreeCoherent, s₁]
  obtain ⟨s₂, hs₂⟩ : ∃ s₂, s₁.sectionStep .callbackReturn = some s₂ := by
    simp [sectionStep, doCallbackReturn, s₁, hheld, dmaFreeCoherent, initFreeSegList, hbug]
  exact ⟨s₁, s₂, hrun, hs₂, late_callback_unsafe hheld rfl hs₂⟩

/-- The client is woken by the callback and releases the channel before the callback has
returned. -/
theorem release_unsafe :
    ¬ ∀ (s s' : VxdmaSys .addr32) (a : Act .addr32),
      Reachable sectionStep OneClient (probed true 0 0) s → s.OneClient a →
        s.sectionStep a = some s' → ReleaseSafe s a s' := by
  intro hclaim
  have hexec : (exec sectionStep (probed true 0 0) (transferToCallback ++ releaseChan ++
      [.callbackReturn])).map (fun s => (s.chan.segV, s.chan.freeSegList.length)) =
        some (none, 1) := by
    decide +kernel
  obtain ⟨s, hs, hend⟩ := Option.map_eq_some_iff.mp hexec
  have hrun : Reachable sectionStep OneClient (probed true 0 0) s :=
    Reachable.of_exec (by decide +kernel) hs
  simp only [Prod.mk.injEq] at hend
  obtain ⟨s', hs'⟩ : ∃ s', s.sectionStep (.allocChanResources (some 0)) = some s' := by
    have hbug : (exec sectionStep (probed true 0 0) (transferToCallback ++ releaseChan ++
        [.callbackReturn])).map (fun s => s.chan.bug) = some false := by
      decide +kernel
    rw [hs] at hbug
    have hsound : s.chan.bug = false := Option.some.inj hbug
    simp [sectionStep, hsound, doAlloc, hend.1]
  obtain ⟨pool, -, hfull⟩ := hclaim s s' (.allocChanResources (some 0)) hrun trivial hs'
  -- the segment of the old pool is still on the list
  have hlength : s'.chan.freeSegList.length = s.chan.freeSegList.length + xilinxDmaNumDescs := by
    rw [(sectionStep_allocChanResources hs').2]
    change (s.chan.freeSegList ++ poolSegs s.chan.pools).length = _
    simp [poolSegs]
  rw [hfull, hend.2] at hlength
  simp [poolSegs] at hlength

end VxdmaSys

end PetalinuxDriver
