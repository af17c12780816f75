import PetalinuxDriver.Analysis.Ownership

/-!
# Segment conservation

Between `xilinx_dma_alloc_chan_resources` and `xilinx_dma_free_chan_resources` every segment of
the pool is meant to be in exactly one place. Calls interleave at lock granularity here, so the
places are counted when no call is mid-way.

One path breaks this. A submit that is refused because the channel is cyclic gives its descriptor
back to the pool; a submit that returns `-EBUSY` because its reset failed does not, and the
segments of that descriptor are nowhere. In a run whose resets succeed the pool is conserved
(`segments_conserved`), whatever else fails and however the calls interleave.
-/

set_option autoImplicit false

namespace PetalinuxDriver

open Library

variable {cfg : PhysAddrConfig}

/-! ## Releases in flight -/

namespace VxdmaSys

/-- A section of a release goes on with the release, and no other call turns into one. -/
theorem Section.releases {env : CallEnv} {s t : XilinxDmaChan cfg} {c c' : Call cfg}
    (h : Section env s c t (.goesOn c')) : c'.releases = c.releases := by
  cases h <;> rfl

/-- The only errors of a submit are the refusal by a cyclic channel and the failed reset. -/
theorem Section.submitError {env : CallEnv} {s t : XilinxDmaChan cfg} {c : Call cfg}
    {d : XilinxDmaTxDescriptor cfg} {e : Errno} (h : Section env s c t (.submitted d (.error e))) :
    (c = .submitRefused d ∧ t = xilinxDmaFreeTxDescriptor s d.segments) ∨
      (c = .submitReset d ∧ env.reset.ok = false) := by
  cases h with
  | submitRefused => exact Or.inl ⟨rfl, rfl⟩
  | resetFailed d w hok => exact Or.inr ⟨rfl, hok⟩

/-- The number of calls in flight that release the channel. -/
def releases (s : VxdmaSys cfg) : Nat := s.calls.countP Call.releases

/-- At most one call releases the channel, and only while the channel has a pool. -/
def ReleaseOnce (s : VxdmaSys cfg) : Prop :=
  s.releases ≤ 1 ∧ (s.chan.segV = none → s.releases = 0)

/-- The end of a section counts the releases that go on. -/
theorem leave_releases {s s' : VxdmaSys cfg} {chan : XilinxDmaChan cfg} {after : After cfg}
    (h : s.leave chan after = some s') :
    s'.releases = after.calls.countP Call.releases + s.releases := by
  rw [leave_eq h]
  exact List.countP_append

/-- A call that runs a section leaves no more releases in flight than there were; when it was the
last section of a release, one less. -/
theorem run_releases {s s' : VxdmaSys cfg} {i : Nat} {env : CallEnv} {c : Call cfg}
    (hbug : s.chan.bug = false) (hc : s.calls[i]? = some c)
    (h : ({ s with calls := s.calls.eraseIdx i } : VxdmaSys cfg).leave (c.run env s.chan).1
      (c.run env s.chan).2 = some s') :
    s'.releases ≤ s.releases ∧ (c = .freeChanCoherent → s'.releases + 1 = s.releases) := by
  have hperm : s.releases = (s.calls.eraseIdx i).countP Call.releases +
      if c.releases then 1 else 0 := by
    obtain ⟨hi, rfl⟩ := List.getElem?_eq_some_iff.mp hc
    rw [← List.countP_cons]
    exact (List.getElem_cons_eraseIdx_perm hi).symm.countP_eq _
  have hleave := leave_releases h
  change s'.releases = _ + (s.calls.eraseIdx i).countP Call.releases at hleave
  have hsection := run_inv env hbug c
  constructor
  · have hafter : (c.run env s.chan).2.calls.countP Call.releases ≤ if c.releases then 1 else 0 := by
      cases hr : (c.run env s.chan).2 with
      | goesOn c' =>
        rw [hr] at hsection
        rw [← hsection.releases]
        simp [After.calls, List.countP_cons]
      | _ => simp [After.calls]
    omega
  · rintro rfl
    have hlast : (Call.freeChanCoherent : Call cfg).releases = true := rfl
    have hnone : ((Call.freeChanCoherent : Call cfg).run env s.chan).2.calls = [] := rfl
    rw [hnone, List.countP_nil] at hleave
    rw [hlast, if_pos rfl] at hperm
    omega

/-- No call turns into a release: with none in flight and none made, there is none. -/
theorem sectionStep_noRelease {s s' : VxdmaSys cfg} {a : Act cfg}
    (h : s.sectionStep a = some s') (hs : s.releases = 0) (ha : a ≠ .freeChanResources) :
    s'.releases = 0 := by
  obtain ⟨hbug, hstep⟩ := sectionStep_inv h
  cases hstep with
  | freeChanResources => exact absurd rfl ha
  | run i env c s' hc hleave =>
    have := (run_releases hbug hc hleave).1
    omega
  | _ => exact hs

/-- **At most one release**, whatever the callers do. -/
theorem sectionStep_releaseOnce {s s' : VxdmaSys cfg} {a : Act cfg} (hs : s.ReleaseOnce)
    (h : s.sectionStep a = some s') : s'.ReleaseOnce := by
  obtain ⟨hbug, hstep⟩ := sectionStep_inv h
  cases hstep with
  | prepNull => exact hs
  | prepBuild => exact hs
  | txSubmit => exact hs
  | issuePending => exact hs
  | interrupt => exact hs
  | terminateAll => exact hs
  | freeChanResources hpool hcalls =>
    have hnone : s.releases = 0 :=
      List.countP_eq_zero.mpr fun c hc => by simp [hcalls c hc]
    refine ⟨?_, fun hfree => ?_⟩
    · change (Call.freeChan :: s.calls).countP Call.releases ≤ 1
      rw [List.countP_cons]
      change s.releases + 1 ≤ 1
      omega
    · change s.chan.segV = none at hfree
      simp [hfree] at hpool
  | allocChanResources zalloc hpool => exact ⟨hs.1, fun _ => hs.2 hpool⟩
  | run i env c s' hc hleave =>
    obtain ⟨hle, hlast⟩ := run_releases hbug hc hleave
    refine ⟨hle.trans hs.1, fun hfree => ?_⟩
    by_cases hrel : c = .freeChanCoherent
    · have := hlast hrel
      have := hs.1
      omega
    · have hsame := ((run_inv env hbug c).samePool hrel).segV
      rw [← leave_chan hleave, hfree] at hsame
      have := hs.2 hsame.symm
      omega
  | tasklet =>
    have hsame := (cleanup_samePool { s.chan with tasklet := false }).segV
    exact ⟨hs.1, fun hfree => hs.2 (hsame.symm.trans hfree)⟩
  | callbackReturn =>
    exact ⟨hs.1, fun hfree => hs.2 ((cleanupResume_samePool _ _).segV.symm.trans hfree)⟩
  | device => exact hs

/-- After the probe there is no release. -/
theorem probed_releaseOnce (hasSg : Bool) (ctrlOffset : Nat) (dmacr : BitVec 32) :
    (probed hasSg ctrlOffset dmacr : VxdmaSys cfg).ReleaseOnce :=
  ⟨Nat.zero_le 1, fun _ => rfl⟩

/-! ## Conservation -/

/-- An action between an allocation of the channel and its release. -/
def InUse (a : Act cfg) : Prop :=
  a ≠ .freeChanResources ∧ ∀ zalloc, a ≠ .allocChanResources zalloc

/-- The reset of a submit succeeds. -/
def ResetsSucceed (s : VxdmaSys cfg) (a : Act cfg) : Prop :=
  ∀ i env d, a = .run i env → s.calls[i]? = some (.submitReset d) → env.reset.ok = true

/-- The segments of a pool when no call is mid-way: `free_seg_list`, then the descriptors on
`pending_list`, `active_list` and `done_list`, the one that the cleanup holds, and the ones that
were prepared and not yet submitted. -/
def places (s : VxdmaSys cfg) : List SegPtr :=
  s.chan.freeSegList ++
    segsOf (s.chan.pendingList ++ s.chan.activeList ++ s.chan.doneList ++ s.held ++ s.prepared)

/-- When no call is mid-way, each segment of the pool is in exactly one place. -/
def Conserved (pool : Nat) (s : VxdmaSys cfg) : Prop :=
  s.calls = [] → ∀ i, s.places.count ⟨pool, i⟩ = 1

/-- A submit that returns an error leaves the segments of its descriptor on `free_seg_list`. -/
def ErrorsGiveBack (s : VxdmaSys cfg) (a : Act cfg) : Prop :=
  ∀ i env c d e s', a = .run i env → s.calls[i]? = some c →
    (c.run env s.chan).2 = .submitted d (.error e) → s.sectionStep a = some s' →
    ∀ p ∈ d.segments, p ∈ s'.chan.freeSegList

/-- When no call is in flight the segments are in these places. -/
theorem owned_eq_places {s : VxdmaSys cfg} (h : s.calls = []) : s.owned = ↑s.places := by
  simp only [owned, XilinxDmaChan.owned, places, h, List.flatMap_nil, segsOf_append,
    ← Multiset.coe_add, Multiset.coe_nil]
  abel

/-- Between an allocation and a release only a failed reset loses segments. -/
theorem lost_eq_zero {s s' : VxdmaSys cfg} {a : Act cfg} (h : s.sectionStep a = some s')
    (hrel : s.releases = 0) (hok : s.ResetsSucceed a) : s.lost a = 0 := by
  cases a with
  | run i env =>
    cases hc : s.calls[i]? with
    | none => simp [lost, hc]
    | some c =>
      simp only [lost, hc]
      cases c with
      | submitReset d => simp [Call.lost, hok i env d rfl hc]
      | freeChanInit =>
        have hmem : Call.freeChanInit ∈ s.calls := List.mem_of_getElem? hc
        exact absurd rfl (List.countP_eq_zero.mp hrel _ hmem)
      | _ => rfl
  | _ => rfl

/-- A submit whose reset does not fail gives back what it refuses. -/
theorem errorsGiveBack_of_resetsSucceed {s : VxdmaSys cfg} {a : Act cfg}
    (hok : s.ResetsSucceed a) : s.ErrorsGiveBack a := by
  intro i env c d e s' ha hc herr h p hp
  subst ha
  obtain ⟨c', hc', hsection, rfl⟩ := sectionStep_run h
  obtain rfl : c' = c := Option.some.inj (hc'.symm.trans hc)
  rw [herr] at hsection
  rcases hsection.submitError with ⟨-, ht⟩ | ⟨rfl, hfail⟩
  · simp only [ht, freeTxDescriptor_eq]
    exact List.mem_append_right _ hp
  · rw [hok i env d rfl hc] at hfail
    cases hfail

/-- A submit that gives up after a failed reset takes its segments out of the world: they are in
no place at all. -/
theorem resetFailed_loses {s s' : VxdmaSys cfg} {i : Nat} {env : CallEnv}
    {d : XilinxDmaTxDescriptor cfg} (hs : OwnedOnce s) (hc : s.calls[i]? = some (.submitReset d))
    (hok : env.reset.ok = false) (h : s.sectionStep (.run i env) = some s') :
    ∀ p ∈ d.segments, p ∉ s'.owned := by
  have hbal := sectionStep_owned h
  simp only [lost, gained, hc, Call.lost, hok, Bool.false_eq_true, if_false, add_zero] at hbal
  intro p hp hmem
  have hdisj := (Multiset.nodup_add.mp (hbal ▸ hs.nodup)).2.2
  exact Multiset.disjoint_left.mp hdisj hmem (Multiset.mem_coe.mpr hp)

/-- **Segment conservation.** After any use of the driver that ends with a successful allocation,
in every run up to the release whose resets succeed: whenever no call is mid-way, each segment of
the pool is in exactly one place, and a submit that returns an error gives its segments back. -/
theorem segments_conserved {hasSg : Bool} {ctrlOffset : Nat} {dmacr : BitVec 32}
    {segP : DmaAddr cfg} {s₀ s₁ s : VxdmaSys cfg}
    (h₀ : Reachable sectionStep always (probed hasSg ctrlOffset dmacr) s₀)
    (halloc : s₀.sectionStep (.allocChanResources (some segP)) = some s₁)
    (h : Reachable sectionStep (fun s a => InUse a ∧ s.ResetsSucceed a) s₁ s) :
    Conserved s₀.chan.pools s ∧ ∀ a, s.ResetsSucceed a → s.ErrorsGiveBack a := by
  refine ⟨?_, fun a ha => errorsGiveBack_of_resetsSucceed ha⟩
  have hrelease₀ := h₀.invariant (probed_releaseOnce _ _ _)
    fun _ _ _ hs _ hstep => sectionStep_releaseOnce hs hstep
  -- the invariant: nothing is lost, nothing is in two places, and nobody releases the channel
  let Inv : VxdmaSys cfg → Prop := fun s =>
    OwnedOnce s ∧ s.releases = 0 ∧ ∀ i, ⟨s₀.chan.pools, i⟩ ∈ s.owned
  have hstart : Inv s₁ := by
    refine ⟨sectionStep_ownedOnce (owned_nodup h₀) halloc, ?_, fun i => ?_⟩
    · obtain ⟨hpool, rfl⟩ := sectionStep_allocChanResources halloc
      exact hrelease₀.2 hpool
    · have hbal := sectionStep_owned halloc
      simp only [lost, add_zero] at hbal
      rw [hbal]
      exact Multiset.mem_add.mpr (Or.inr (Multiset.mem_coe.mpr (mem_poolSegs.mpr rfl)))
  have hinv : Inv s := by
    refine h.invariant hstart ?_
    rintro t a t' ⟨honce, hrel, hall⟩ ⟨hinUse, hok⟩ hstep
    refine ⟨sectionStep_ownedOnce honce hstep, ?_, fun i => ?_⟩
    · exact sectionStep_noRelease hstep hrel hinUse.1
    · have hbal := sectionStep_owned hstep
      rw [lost_eq_zero hstep hrel hok, add_zero] at hbal
      rw [hbal]
      exact Multiset.mem_add.mpr (Or.inl (hall i))
  intro hcalls i
  have hcount := Multiset.count_eq_one_of_mem hinv.1.nodup (hinv.2.2 i)
  rwa [owned_eq_places hcalls, Multiset.coe_count] at hcount

/-- A descriptor is prepared, an error interrupt comes, and the descriptor is submitted: `resetOk`
says whether the reset of this submit succeeds. -/
def submitAfterError (resetOk : Bool) : List (Act .addr32) :=
  let env : CallEnv := ⟨⟨0, resetOk⟩, xilinxDmaXrIrqErrorMask, true, true⟩
  [.prepSlaveSg ⟨[⟨0, 1⟩], .memToDev, none, true⟩, .run 0 env, .run 0 env,
    .interrupt, .run 0 env, .run 0 env, .txSubmit 0 none, .run 0 env, .run 0 env, .run 0 env]

/-- The run allocates nothing. -/
theorem submitAfterError_inUse (resetOk : Bool) : ∀ a ∈ submitAfterError resetOk, InUse a := by
  simp [submitAfterError, InUse]

/-- With a reset that succeeds nothing is lost. -/
theorem segments_conserved_reset :
    ∃ s, exec sectionStep (allocated true 0 0 0) (submitAfterError true) = some s ∧
      Conserved 0 s ∧ ∀ a, s.ResetsSucceed a → s.ErrorsGiveBack a := by
  obtain ⟨s, hs⟩ := Option.isSome_iff_exists.mp
    (show (exec sectionStep (allocated true 0 0 0) (submitAfterError true)).isSome by
      decide +kernel)
  have hprobed : Reachable sectionStep always (probed true 0 0 : VxdmaSys .addr32)
      (probed true 0 0) := Reachable.refl _ _ _
  have hrun : Reachable sectionStep (fun s a => InUse a ∧ s.ResetsSucceed a)
      (allocated true 0 0 0) s := by
    refine Reachable.of_exec (Reachable.execOk_of_forall fun a ha t => ?_) hs
    refine ⟨submitAfterError_inUse true a ha, ?_⟩
    rintro i env d rfl -
    simp only [submitAfterError, List.mem_cons, List.not_mem_nil, reduceCtorEq, Act.run.injEq,
      false_or, or_false] at ha
    rcases ha with h | h | h | h | h | h | h <;> rw [h.2]
  exact ⟨s, hs, segments_conserved hprobed rfl hrun⟩

/-- With a reset that times out the first segment of the pool is in no place afterwards. -/
theorem segments_not_conserved :
    ¬ ∀ s : VxdmaSys .addr32,
      Reachable sectionStep (fun _ a => InUse a) (allocated true 0 0 0) s →
        Conserved 0 s ∧ ∀ a, s.ErrorsGiveBack a := by
  intro hclaim
  have hrun : (exec sectionStep (allocated true 0 0 0) (submitAfterError false)).map
      (fun s => (s.calls.isEmpty, s.places.count ⟨0, 0⟩)) = some (true, 0) := by
    decide +kernel
  obtain ⟨s, hs, hplaces⟩ := Option.map_eq_some_iff.mp hrun
  simp only [Prod.mk.injEq, List.isEmpty_iff] at hplaces
  have hreach := Reachable.of_exec
    (Reachable.execOk_of_forall fun a ha _ => submitAfterError_inUse false a ha) hs
  have := (hclaim s hreach).1 hplaces.1 0
  omega

end VxdmaSys

end PetalinuxDriver
