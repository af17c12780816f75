import PetalinuxDriver.Analysis.BuilderSafety
import PetalinuxDriver.Analysis.RingRotation
import PetalinuxDriver.Analysis.SegmentConservation
import PetalinuxDriver.Analysis.SgTiling
import PetalinuxDriver.Library.Walk

/-!
# Where a cyclic descriptor leads

In cyclic mode the engine does not stop at the tail: it follows `next_desc` for ever. The cyclic
builder never writes `next_desc`. Whether the engine stays in the descriptor is therefore decided
before the builder runs, by the links of the segments at the head of `free_seg_list`
(`closedRing_iff`).

A pool is allocated as one ring over all of its segments. As long as segments are used in ring
order, each links to its ring successor, so the last segment of a descriptor links to the first
one only if the descriptor is the whole pool (`chain_iff_whole_pool`). A smaller descriptor sends
the engine on into segments that are free.
-/

set_option autoImplicit false

namespace PetalinuxDriver

open Library

variable {cfg : PhysAddrConfig}

/-! ## Links as the engine reads them -/

/-- The address of the next descriptor. -/
def XilinxDmaDescHw.nextAddr (cfg : PhysAddrConfig) (hw : XilinxDmaDescHw) : DmaAddr cfg :=
  match cfg with
  | .addr32 => hw.nextDesc
  | .addr64 => hw.nextDescMsb ++ hw.nextDesc

/-- Where the segment of the pool at some address leads. -/
def nextAt (pool : Nat) (mem : SegPtr → XilinxDmaTxSegment cfg) (addr : DmaAddr cfg) :
    Option (DmaAddr cfg) :=
  ((poolSegs pool).find? fun p => (mem p).phys == addr).map fun p => (mem p).hw.nextAddr cfg

/-- From the address of the descriptor, links lead through its segments in order, and from the last
one back to the first. -/
def ClosedRing (pool : Nat) (mem : SegPtr → XilinxDmaTxSegment cfg)
    (d : XilinxDmaTxDescriptor cfg) : Prop :=
  (∀ (i : Nat) (hi : i < d.segments.length),
      follow (nextAt pool mem) i d.phys = some (mem d.segments[i]).phys) ∧
    follow (nextAt pool mem) d.segments.length d.phys = some d.phys

/-- The one segment links to the other. -/
def PointsTo (mem : SegPtr → XilinxDmaTxSegment cfg) (p q : SegPtr) : Prop :=
  (mem p).hw.nextAddr cfg = (mem q).phys

/-- Kept links point where they pointed. -/
theorem PointsTo.of_linksKept {mem mem' : SegPtr → XilinxDmaTxSegment cfg}
    (hk : LinksKept mem mem') (p q : SegPtr) : PointsTo mem' p q ↔ PointsTo mem p q := by
  unfold PointsTo
  have hnext : (mem' p).hw.nextAddr cfg = (mem p).hw.nextAddr cfg := by
    cases cfg with
    | addr32 => exact (hk p).2.1
    | addr64 =>
      show (mem' p).hw.nextDescMsb ++ (mem' p).hw.nextDesc =
        (mem p).hw.nextDescMsb ++ (mem p).hw.nextDesc
      rw [(hk p).2.1, (hk p).2.2]
  rw [hnext, (hk q).1]

/-! ## Addresses of a pool -/

/-- The segments of the pool have the addresses that they were given at the allocation. -/
def SegAddrs (pool : Nat) (s : XilinxDmaChan cfg) : Prop :=
  ∀ p : SegPtr, p.pool = pool → (s.mem p).phys = segAddr s.segP p.index

/-- The segments of a pool have different addresses. -/
theorem segAddr_inj (segP : DmaAddr cfg) {i j : Fin xilinxDmaNumDescs}
    (h : segAddr segP i = segAddr segP j) : i = j := by
  have hoff : BitVec.ofNat cfg.width (sizeofTxSegment * i) =
      BitVec.ofNat cfg.width (sizeofTxSegment * j) := (BitVec.add_right_inj segP).mp h
  have hnat := congrArg BitVec.toNat hoff
  have hwidth := le_two_pow_width cfg
  have hi := i.isLt
  have hj := j.isLt
  unfold xilinxDmaNumDescs at hi hj
  rw [BitVec.toNat_ofNat, BitVec.toNat_ofNat, sizeofTxSegment, Nat.mod_eq_of_lt (by omega),
    Nat.mod_eq_of_lt (by omega)] at hnat
  apply Fin.ext
  omega

namespace SegAddrs

variable {pool : Nat} {s : XilinxDmaChan cfg}

/-- In a pool with its addresses, an address tells the segment. -/
theorem injective (h : SegAddrs pool s) {p q : SegPtr} (hp : p.pool = pool) (hq : q.pool = pool)
    (heq : (s.mem p).phys = (s.mem q).phys) : p = q := by
  rw [h p hp, h q hq] at heq
  have hindex := segAddr_inj s.segP heq
  cases p
  cases q
  simp only [SegPtr.mk.injEq] at *
  exact ⟨hp.trans hq.symm, hindex⟩

/-- An address is that of one segment. -/
theorem find?_phys (h : SegAddrs pool s) {p : SegPtr} (hp : p.pool = pool) :
    (poolSegs pool).find? (fun q => (s.mem q).phys == (s.mem p).phys) = some p := by
  cases hq : (poolSegs pool).find? fun q => (s.mem q).phys == (s.mem p).phys with
  | none =>
    have hnone := List.find?_eq_none.mp hq p (VxdmaSys.mem_poolSegs.mpr hp)
    simp at hnone
  | some q =>
    have heq := List.find?_some hq
    have hmem := VxdmaSys.mem_poolSegs.mp (List.mem_of_find?_eq_some hq)
    rw [h.injective hmem hp (by simpa using heq)]

/-- The engine finds the segment that an address belongs to. -/
theorem nextAt_phys (h : SegAddrs pool s) {p : SegPtr} (hp : p.pool = pool) :
    nextAt pool s.mem (s.mem p).phys = some ((s.mem p).hw.nextAddr cfg) := by
  unfold nextAt
  rw [h.find?_phys hp]
  rfl

end SegAddrs

/-- **A ring of segments.** The engine stays in a descriptor exactly when its segments are linked
in a cycle. -/
theorem closedRing_iff {pool : Nat} {s : XilinxDmaChan cfg} (haddrs : SegAddrs pool s)
    {d : XilinxDmaTxDescriptor cfg} (hphys : d.phys = (s.mem d.firstSegment).phys)
    (hpool : ∀ p ∈ d.segments, p.pool = pool) :
    ClosedRing pool s.mem d ↔ Cycle.Chain (PointsTo s.mem) (↑d.segments : Cycle SegPtr) := by
  obtain ⟨first, rest, hsegs⟩ := List.exists_cons_of_ne_nil d.segments_ne
  have hfirst : d.firstSegment = first := by
    simp only [XilinxDmaTxDescriptor.firstSegment, hsegs, List.head_cons]
  have hring : ClosedRing pool s.mem d ↔ Cycle.Chain (fun a b => nextAt pool s.mem a = some b)
      (↑(d.segments.map fun p => (s.mem p).phys) : Cycle (DmaAddr cfg)) := by
    rw [hsegs, List.map_cons, ← follow_ring_iff, ClosedRing, hphys, hfirst, hsegs]
    simp only [List.length_cons, List.length_map]
    refine and_congr_left fun _ => ?_
    refine forall_congr' fun i => forall_congr' fun hi => ?_
    have hi' : i < ((s.mem first).phys :: rest.map fun p => (s.mem p).phys).length := by
      simpa using hi
    have haddr : ((s.mem first).phys :: rest.map fun p => (s.mem p).phys)[i] =
        (s.mem (first :: rest)[i]).phys := by
      cases i <;> simp
    rw [haddr]
  rw [hring, ← Cycle.map_coe, Cycle.chain_map]
  apply cycle_chain_congr
  intro p hp q hq
  rw [haddrs.nextAt_phys (hpool p hp), Option.some.injEq]
  exact Iff.rfl

/-! ## The ring of the pool -/

/-- In a pool that is still the ring it was allocated as, a segment points to its successor. -/
theorem RingLinked.pointsTo_iff {pool : Nat} {s : XilinxDmaChan cfg} (haddrs : SegAddrs pool s)
    (hlinked : RingLinked pool s.mem) {p q : SegPtr} (hp : p.pool = pool) (hq : q.pool = pool) :
    PointsTo s.mem p q ↔ q = p.succ := by
  obtain ⟨hnext, hmsb⟩ := hlinked p hp
  have hlink : (s.mem p).hw.nextAddr cfg = (s.mem p.succ).phys := by
    cases cfg with
    | addr32 =>
      show (s.mem p).hw.nextDesc = (s.mem p.succ).phys
      rw [hnext]
      exact BitVec.setWidth_eq _
    | addr64 =>
      show (s.mem p).hw.nextDescMsb ++ (s.mem p).hw.nextDesc = (s.mem p.succ).phys
      rw [hnext, hmsb]
      exact upper_append_lower _
  unfold PointsTo
  rw [hlink]
  constructor
  · intro heq
    have hsucc : p.succ.pool = pool := hp
    exact (haddrs.injective hsucc hq heq).symm
  · rintro rfl
    rfl

/-- A part of the pool that is contiguous around the ring is closed only if it is all of it. -/
theorem chain_iff_whole_pool {pool : Nat} {part others : List SegPtr} (hne : part ≠ [])
    (hrot : (part ++ others) ~r poolSegs pool) :
    Cycle.Chain (fun p q => q = p.succ) (↑part : Cycle SegPtr) ↔
      part.length = xilinxDmaNumDescs := by
  have hlength : part.length + others.length = xilinxDmaNumDescs := by
    rw [← List.length_append, hrot.perm.length_eq]
    simp [poolSegs]
  constructor
  · intro hchain
    by_contra hshort
    -- the last segment of the part would have its successor both inside and outside
    obtain ⟨other, others, rfl⟩ : ∃ o os, others = o :: os := by
      apply List.exists_cons_of_ne_nil
      rintro rfl
      simp at hlength
      exact hshort hlength
    obtain ⟨first, rest, rfl⟩ := List.exists_cons_of_ne_nil hne
    obtain ⟨front, a, hlast⟩ : ∃ front a, first :: rest = front ++ [a] :=
      (List.eq_nil_or_concat' _).resolve_left hne
    have hinside : first = a.succ := by
      rw [Cycle.chain_coe_cons, ← List.cons_append, List.isChain_append] at hchain
      apply hchain.2.2
      · rw [hlast]
        simp
      · simp
    have houtside : other = a.succ := by
      rw [hlast, List.append_assoc] at hrot
      exact succ_of_isRotated hrot rfl
    have hnodup : (first :: rest ++ other :: others).Nodup :=
      hrot.perm.nodup_iff.mpr (VxdmaSys.poolSegs_nodup pool)
    have hne := (List.nodup_append.mp hnodup).2.2 first List.mem_cons_self other
      List.mem_cons_self
    exact hne (hinside.trans houtside.symm)
  · intro hall
    have hnil : others = [] := by
      apply List.eq_nil_of_length_eq_zero
      omega
    rw [hnil, List.append_nil] at hrot
    rw [Cycle.coe_eq_coe.mpr hrot]
    exact poolSegs_chain pool

/-! ## The builder -/

/-- The number of segments that a cyclic transfer needs. -/
def PrepDmaCyclicArgs.segments (args : PrepDmaCyclicArgs cfg) : Nat :=
  args.numPeriods * (args.periodLen.toNat ⌈/⌉ xilinxDmaMaxTransLen.toNat)

/-- A cyclic prep needs as many segments for each period as the length field makes necessary. -/
theorem length_cyclicChunks (bufAddr : DmaAddr cfg) (numPeriods periodLen : Nat) :
    (cyclicChunks bufAddr numPeriods periodLen).length =
      numPeriods * (periodLen ⌈/⌉ xilinxDmaMaxTransLen.toNat) := by
  simp only [cyclicChunks, List.length_flatMap, length_chunksOf, List.map_const',
    List.sum_replicate, List.length_range, smul_eq_mul]

/-- What the cyclic builder takes from the pool, and that it leaves links and addresses alone. -/
theorem prepDmaCyclic_descriptor {args : PrepDmaCyclicArgs cfg} {s t : XilinxDmaChan cfg}
    {d : XilinxDmaTxDescriptor cfg} (h : xilinxDmaPrepDmaCyclic args s = (t, .desc d)) :
    d.segments = s.freeSegList.take args.segments ∧ args.segments ≤ s.freeSegList.length ∧
      d.phys = (t.mem d.firstSegment).phys ∧ LinksKept s.mem t.mem ∧ t.segP = s.segP := by
  rw [xilinxDmaPrepDmaCyclic] at h
  rcases runPrep_cases (prepDmaCyclicEntry_fresh args s) with
    ⟨k, mem, -, -, hrun⟩ | ⟨s', hrun⟩ | ⟨chunks, b, d', mem, hentry, hd, hrun⟩
  · rw [hrun] at h
    cases h
  · rw [hrun] at h
    cases h
  · rw [hrun] at h
    obtain ⟨rfl, hdesc⟩ := Prod.mk.inj h
    cases hdesc
    have hcount : chunks.length = args.segments := by
      rw [(prepDmaCyclicEntry_build hentry).1, length_cyclicChunks]
      rfl
    refine ⟨?_, ?_, ?_, hd.words.1, rfl⟩
    · rw [hd.segments, hcount]
    · rw [← hcount]
      exact hd.enough
    · exact hd.phys.trans (hd.words.1 _).1.symm

namespace VxdmaSys

/-- What holds between an allocation and a release, whatever the callers do: all segments are of
the one pool, each is in one place, and they have their addresses. -/
structure PoolOfRun (pool : Nat) (s : VxdmaSys cfg) : Prop where
  once : OwnedOnce s
  fromPool : ∀ p ∈ s.owned, p.pool = pool
  addrs : SegAddrs pool s.chan

/-- As long as nothing is allocated the pool of the run stays. -/
theorem sectionStep_poolOfRun {pool : Nat} {s s' : VxdmaSys cfg} {a : Act cfg}
    (hs : PoolOfRun pool s) (ha : InUse a) (h : s.sectionStep a = some s') :
    PoolOfRun pool s' := by
  have hgained : s.gained a = 0 := by
    cases a with
    | allocChanResources zalloc => exact absurd rfl (ha.2 zalloc)
    | _ => rfl
  have hbal := sectionStep_owned h
  rw [hgained, add_zero] at hbal
  refine ⟨sectionStep_ownedOnce hs.once h, ?_, ?_⟩
  · intro p hp
    apply hs.fromPool
    rw [← hbal]
    exact Multiset.mem_add.mpr (Or.inl hp)
  · rcases sectionStep_pool h with ⟨zalloc, rfl⟩ | ⟨i, env, -, -, hchan⟩ | hpool
    · exact absurd rfl (ha.2 zalloc)
    · rw [hchan]
      exact hs.addrs
    · intro p hp
      rw [hpool.phys, hpool.segP]
      exact hs.addrs p hp

/-- The pool of the run is the one of its allocation. -/
theorem alloc_poolOfRun {s s' : VxdmaSys cfg} {segP : DmaAddr cfg} (honce : OwnedOnce s)
    (hclean : s.owned = 0) (h : s.sectionStep (.allocChanResources (some segP)) = some s') :
    PoolOfRun s.chan.pools s' := by
  have hbal := sectionStep_owned h
  simp only [lost, gained, add_zero, hclean, zero_add] at hbal
  refine ⟨sectionStep_ownedOnce honce h, ?_, ?_⟩
  · intro p hp
    rw [hbal] at hp
    exact mem_poolSegs.mp (Multiset.mem_coe.mp hp)
  · intro p hp
    have hmem : (xilinxDmaAllocChanResources (some segP) s.chan).1.mem p =
        ringSegment segP p.index := if_pos hp
    rw [(sectionStep_allocChanResources h).2, hmem]
    rfl

/-- A run in ring order keeps the ring of the pool. -/
theorem ringInv_of_reachable {hasSg : Bool} {ctrlOffset : Nat} {dmacr : BitVec 32}
    {s₀ s₁ s : VxdmaSys cfg} {segP : DmaAddr cfg}
    (hused : Reachable sectionStep always (probed hasSg ctrlOffset dmacr) s₀)
    (hclean : s₀.owned = 0) (hcalls : s₀.calls = [])
    (halloc : s₀.sectionStep (.allocChanResources (some segP)) = some s₁)
    (h : Reachable sectionStep RingGuard s₁ s) : ∃ last, RingInv s₀.chan.pools s last := by
  have hnames := namesOnce_of_reachable hused
  let Inv : VxdmaSys cfg → Prop := fun s => ∃ last, RingInv s₀.chan.pools s last
  have hinv : Inv s := by
    refine h.invariant ⟨none, alloc_ringInv hnames hclean hcalls halloc⟩ ?_
    rintro s a s' ⟨last, hs⟩ hok hstep
    exact ⟨_, sectionStep_ringInv hs hok hstep⟩
  exact hinv

/-- With the pool in ring order, a descriptor that is taken from its head is a ring only if it is
the whole pool. -/
theorem RingInv.chain_iff {pool : Nat} {s : VxdmaSys cfg} {last : Option SegPtr}
    (hs : RingInv pool s last) (haddrs : SegAddrs pool s.chan) (hnone : s.building = []) {n : Nat}
    (hpos : 0 < n) (hn : n ≤ s.chan.freeSegList.length) :
    Cycle.Chain (PointsTo s.chan.mem) (↑(s.chan.freeSegList.take n) : Cycle SegPtr) ↔
      n = xilinxDmaNumDescs := by
  obtain ⟨us, -, hrot⟩ := hs.ringRotated.rotated hnone
  let part := s.chan.freeSegList.take n
  let before := segsOf s.held ++ (segsOf s.chan.doneList ++ (segsOf s.chan.activeList ++
    (segsOf s.chan.pendingList ++ us.flatMap Prod.snd)))
  have hpart : (part ++ (s.chan.freeSegList.drop n ++ before)) ~r poolSegs pool := by
    refine List.IsRotated.trans ?_ hrot
    have hturn : (part ++ (s.chan.freeSegList.drop n ++ before)) ~r
        (before ++ (part ++ s.chan.freeSegList.drop n)) := by
      rw [← List.append_assoc]
      exact List.isRotated_append
    simpa only [part, before, List.take_append_drop, List.append_assoc] using hturn
  have hpool : ∀ p ∈ part, p.pool = pool := by
    intro p hp
    exact mem_poolSegs.mp (hpart.perm.subset (List.mem_append_left _ hp))
  have hlength : part.length = n := List.length_take_of_le hn
  have hne : part ≠ [] := by
    apply List.ne_nil_of_length_pos
    omega
  have hsucc : Cycle.Chain (PointsTo s.chan.mem) (↑part : Cycle SegPtr) ↔
      Cycle.Chain (fun p q => q = p.succ) (↑part : Cycle SegPtr) := by
    apply cycle_chain_congr
    intro p hp q hq
    exact hs.linked.pointsTo_iff haddrs (hpool p hp) (hpool q hq)
  rw [hsucc, chain_iff_whole_pool hne hpart, hlength]

/-- **When a cyclic descriptor is a closed ring.** After an allocation of a channel of which nothing
is left, whatever its callers do with it: a cyclic descriptor is a closed ring exactly when the
segments that it takes from the head of the pool are linked in a cycle already. In a run in which
descriptors are submitted in the order of preparation and not refused, nothing is terminated, and
builders are left alone, that is when it takes the whole pool. -/
theorem cyclic_ring_exactly {hasSg : Bool} {ctrlOffset : Nat} {dmacr : BitVec 32}
    {s₀ s₁ s : VxdmaSys cfg} {segP : DmaAddr cfg} {args : PrepDmaCyclicArgs cfg}
    {t : XilinxDmaChan cfg} {d : XilinxDmaTxDescriptor cfg}
    (hused : Reachable sectionStep always (probed hasSg ctrlOffset dmacr) s₀)
    (hclean : s₀.owned = 0) (hcalls : s₀.calls = [])
    (halloc : s₀.sectionStep (.allocChanResources (some segP)) = some s₁)
    (h : Reachable sectionStep (fun _ a => InUse a) s₁ s)
    (hprep : xilinxDmaPrepDmaCyclic args s.chan = (t, .desc d)) :
    (ClosedRing s₀.chan.pools t.mem d ↔ Cycle.Chain (PointsTo s.chan.mem)
        (↑(s.chan.freeSegList.take args.segments) : Cycle SegPtr)) ∧
      (Reachable sectionStep RingGuard s₁ s → s.building = [] →
        (ClosedRing s₀.chan.pools t.mem d ↔ args.segments = xilinxDmaNumDescs)) := by
  have hrun : PoolOfRun s₀.chan.pools s :=
    h.invariant (alloc_poolOfRun (owned_nodup hused) hclean halloc)
      fun _ _ _ hs ha hstep => sectionStep_poolOfRun hs ha hstep
  obtain ⟨hsegs, henough, hphys, hlinks, hsegP⟩ := prepDmaCyclic_descriptor hprep
  have haddrs : SegAddrs s₀.chan.pools t := by
    intro p hp
    rw [(hlinks p).1, hsegP]
    exact hrun.addrs p hp
  have hfree : ∀ p ∈ d.segments, p.pool = s₀.chan.pools := by
    intro p hp
    rw [hsegs] at hp
    apply hrun.fromPool
    simp only [owned, XilinxDmaChan.owned, Multiset.mem_add, Multiset.mem_coe]
    have hp := List.mem_of_mem_take hp
    tauto
  have hring : ClosedRing s₀.chan.pools t.mem d ↔ Cycle.Chain (PointsTo s.chan.mem)
      (↑(s.chan.freeSegList.take args.segments) : Cycle SegPtr) := by
    rw [closedRing_iff haddrs hphys hfree, ← hsegs]
    apply cycle_chain_congr
    intro p _ q _
    exact PointsTo.of_linksKept hlinks p q
  refine ⟨hring, ?_⟩
  intro horder hnone
  obtain ⟨last, hinv⟩ := ringInv_of_reachable hused hclean hcalls halloc horder
  have hpos : 0 < args.segments := by
    have hlength := congrArg List.length hsegs
    rw [List.length_take_of_le henough] at hlength
    have hne := List.length_pos_iff.mpr d.segments_ne
    omega
  exact hring.trans (hinv.chain_iff hrun.addrs hnone hpos henough)

/-- As many periods of one byte as the pool has segments. -/
def wholePool : PrepDmaCyclicArgs .addr32 := ⟨0x1000, 255, 1, .devToMem, true⟩

/-- A ring of all 255 segments. -/
theorem cyclic_ring_wholePool :
    ∃ t d, xilinxDmaPrepDmaCyclic wholePool
        (allocated true 0 0 0 : VxdmaSys .addr32).chan = (t, .desc d) ∧
      d.segments.length = 255 ∧ ClosedRing 0 t.mem d := by
  have hsome : (xilinxDmaPrepDmaCyclic wholePool
        (allocated true 0 0 0 : VxdmaSys .addr32).chan).2 ≠ .null ∧
      (xilinxDmaPrepDmaCyclic wholePool
        (allocated true 0 0 0 : VxdmaSys .addr32).chan).2 ≠ .wild := by
    decide +kernel
  obtain ⟨t, r, hprep⟩ : ∃ t r, xilinxDmaPrepDmaCyclic wholePool
      (allocated true 0 0 0 : VxdmaSys .addr32).chan = (t, r) := ⟨_, _, Prod.mk.eta.symm⟩
  rw [hprep] at hsome
  cases r with
  | null => exact absurd rfl hsome.1
  | wild => exact absurd rfl hsome.2
  | desc d =>
    have hclean : (probed true 0 0 : VxdmaSys .addr32).owned = 0 := rfl
    have hneeds : wholePool.segments = xilinxDmaNumDescs := by decide +kernel
    have hring := (cyclic_ring_exactly (Reachable.refl sectionStep always _) hclean rfl rfl
      (Reachable.refl _ _ _) hprep).2 (Reachable.refl _ _ _) rfl
    refine ⟨t, d, hprep, ?_, hring.mpr hneeds⟩
    obtain ⟨hsegs, henough, -⟩ := prepDmaCyclic_descriptor hprep
    rw [hsegs, List.length_take_of_le henough, hneeds]

/-- Two periods, from a fresh pool: the second segment links to the third of the pool, which is
free. -/
theorem cyclic_ring_leaves_descriptor :
    ¬ ∀ (s : VxdmaSys .addr32) (args : PrepDmaCyclicArgs .addr32) (t : XilinxDmaChan .addr32)
        (d : XilinxDmaTxDescriptor .addr32),
      Reachable sectionStep (fun _ a => InUse a) (allocated true 0 0 0) s →
        xilinxDmaPrepDmaCyclic args s.chan = (t, .desc d) → ClosedRing 0 t.mem d := by
  intro hclaim
  obtain ⟨t, d, hprep, hleaves⟩ : ∃ t d, xilinxDmaPrepDmaCyclic ⟨0x1000, 2, 1, .devToMem, true⟩
      (allocated true 0 0 0 : VxdmaSys .addr32).chan = (t, .desc d) ∧
        follow (nextAt 0 t.mem) d.segments.length d.phys ≠ some d.phys := by
    refine ⟨_, _, rfl, ?_⟩
    decide +kernel
  exact hleaves (hclaim _ _ t d (Reachable.refl _ _ _) hprep).2

end VxdmaSys

end PetalinuxDriver
