import Mathlib.Algebra.Order.Floor.Div
import PetalinuxDriver.Analysis.ControlRegister
import PetalinuxDriver.Analysis.Ownership
import PetalinuxDriver.Analysis.SegmentContents
import PetalinuxDriver.Model.VxdmaCalls

/-!
# A scatter-gather descriptor tiles its scatterlist

`xilinx_dma_prep_slave_sg` cuts each entry into pieces of at most `XILINX_DMA_MAX_TRANS_LEN` bytes
and fills one segment from the head of `free_seg_list` with each. The loops are followed round by
round (`buildLoop_filled`): every segment has the words of its own round, since no segment is on
the list twice. The pieces of an entry lie end to end (`chunkLoop_tiles`), and the flags that the
end of the builder adds to the first and to the last control word reach no length field.
-/

set_option autoImplicit false

namespace PetalinuxDriver

open Library

variable {cfg : PhysAddrConfig}

/-! ## Tilings -/

/-- The pieces, each a start and a size, lie end to end from the one bound to the other, and none
of them is empty. -/
def Tiles : Nat → List (Nat × Nat) → Nat → Prop
  | lo, [], hi => lo = hi
  | lo, r :: rs, hi => r.1 = lo ∧ 0 < r.2 ∧ Tiles (lo + r.2) rs hi

/-- No tile is empty. -/
theorem Tiles.size_pos {lo hi : Nat} {rs : List (Nat × Nat)} (h : Tiles lo rs hi) :
    ∀ r ∈ rs, 0 < r.2 := by
  induction rs generalizing lo with
  | nil =>
    intro r hr
    cases hr
  | cons r₀ rs ih =>
    obtain ⟨-, hpos, hrest⟩ := h
    intro r hr
    rcases List.mem_cons.mp hr with rfl | hr
    · exact hpos
    · exact ih hrest r hr

/-- The rounds of one entry tile it. -/
theorem chunkLoop_tiles {len fuel sgUsed : Nat} (hle : sgUsed ≤ len) (hfuel : len - sgUsed ≤ fuel) :
    Tiles sgUsed (chunkLoop len fuel sgUsed) len := by
  have hmax : 0 < xilinxDmaMaxTransLen.toNat := by decide
  induction fuel generalizing sgUsed with
  | zero =>
    simp only [chunkLoop, Tiles]
    omega
  | succ fuel ih =>
    unfold chunkLoop
    by_cases hless : sgUsed < len
    · rw [if_pos hless]
      refine ⟨rfl, ?_, ih ?_ ?_⟩
      · simp only
        omega
      · omega
      · omega
    · rw [if_neg hless]
      show sgUsed = len
      omega

/-- The number of segments that an entry needs. -/
def ScatterEntry.segments (sg : ScatterEntry cfg) : Nat :=
  sg.dmaLength.toNat ⌈/⌉ xilinxDmaMaxTransLen.toNat

/-- The number of segments that a scatterlist needs. -/
def segmentsNeeded (sgl : List (ScatterEntry cfg)) : Nat :=
  (sgl.map ScatterEntry.segments).sum

/-- A buffer needs its length over the greatest one, rounded up. -/
theorem length_chunksOf (base : DmaAddr cfg) (len : Nat) :
    (chunksOf base len).length = len ⌈/⌉ xilinxDmaMaxTransLen.toNat := by
  have hmax : 0 < xilinxDmaMaxTransLen.toNat := by decide
  apply eq_of_forall_lt_iff
  intro n
  rw [lt_chunksOf_length, ← Nat.not_le, ← Nat.not_le, ceilDiv_le_iff_le_mul hmax, Nat.mul_comm]

/-- A scatterlist needs `segmentsNeeded` rounds. -/
theorem length_sgChunks (sgl : List (ScatterEntry cfg)) :
    (sgChunks sgl).length = segmentsNeeded sgl := by
  simp only [sgChunks, List.length_flatMap, length_chunksOf]
  rfl

/-! ## The words of each round -/

/-- The word of a segment after a round with this chunk. -/
def Filled (app : Option AppWords) (mem mem' : SegPtr → XilinxDmaTxSegment cfg) (p : SegPtr)
    (c : Chunk cfg) : Prop :=
  (mem' p).hw = fillHwDesc app c (mem p).hw

/-- **The loops of a builder, round by round.** With enough free segments, each chunk is in the
segment that was at its place on the list, and no other segment is touched. -/
theorem buildLoop_filled (cs : List (Chunk cfg)) (b : TxBuild) (s : XilinxDmaChan cfg)
    (hnodup : s.freeSegList.Nodup) (hlen : cs.length ≤ s.freeSegList.length) :
    ∃ mem, buildLoop cs b s =
        ({ s with freeSegList := s.freeSegList.drop cs.length, mem := mem },
          { b with segments := b.segments ++ s.freeSegList.take cs.length }, true) ∧
      List.Forall₂ (Filled b.app s.mem mem) (s.freeSegList.take cs.length) cs ∧
      ∀ p ∉ s.freeSegList.take cs.length, mem p = s.mem p := by
  induction cs generalizing b s with
  | nil =>
    refine ⟨s.mem, ?_, ?_, fun _ _ => rfl⟩
    · simp [buildLoop]
    · exact List.Forall₂.nil
  | cons c cs ih =>
    cases hfree : s.freeSegList with
    | nil =>
      rw [hfree] at hlen
      simp at hlen
    | cons p ps =>
      rw [hfree] at hnodup hlen
      obtain ⟨hp, hps⟩ := List.nodup_cons.mp hnodup
      obtain ⟨mem, hloop, hfilled, hsame⟩ := ih { b with segments := b.segments ++ [p] }
        { s with
          freeSegList := ps
          mem := Function.update s.mem p
            { s.mem p with hw := fillHwDesc b.app c (s.mem p).hw } } hps
        (by simpa using hlen)
      simp only at hloop hfilled hsame
      have hnot : p ∉ ps.take cs.length := fun hmem => hp (List.mem_of_mem_take hmem)
      refine ⟨mem, ?_, ?_, ?_⟩
      · rw [buildLoop, buildRound_cons c b hfree]
        simpa using hloop
      · apply List.Forall₂.cons
        · unfold Filled
          rw [hsame p hnot, Function.update_self]
        · -- the other segments are not the one that was filled first
          have hne : ∀ q ∈ ps.take cs.length, q ≠ p := by
            rintro q hq rfl
            exact hnot hq
          refine ((List.forall₂_and_left _ _).mpr ⟨hne, hfilled⟩).imp ?_
          rintro q c' ⟨hq, hword⟩
          unfold Filled at hword ⊢
          rw [hword, Function.update_of_ne hq]
      · intro q hq
        simp only [List.take_succ_cons, List.length_cons, List.mem_cons, not_or] at hq
        rw [hsame q hq.2, Function.update_of_ne hq.1]

/-- What is paired with the pieces of a list can be cut where the pieces are. -/
theorem forall₂_flatMap {α β γ : Type*} {R : γ → β → Prop} {f : α → List β} {as : List α}
    {l : List γ} (h : List.Forall₂ R l (as.flatMap f)) :
    ∃ parts : List (List γ), l = parts.flatten ∧
      List.Forall₂ (fun a part => List.Forall₂ R part (f a)) as parts := by
  induction as generalizing l with
  | nil =>
    obtain rfl := List.forall₂_nil_right_iff.mp h
    exact ⟨[], rfl, List.Forall₂.nil⟩
  | cons a as ih =>
    rw [List.flatMap_cons] at h
    have hfirst := List.forall₂_take_append _ _ _ h
    obtain ⟨parts, hparts, hrest⟩ := ih (List.forall₂_drop_append _ _ _ h)
    refine ⟨l.take (f a).length :: parts, ?_, List.Forall₂.cons hfirst hrest⟩
    rw [List.flatten_cons, ← hparts, List.take_append_drop]

/-- Every element of the first list has its partner. -/
theorem exists_of_forall₂ {α β : Type*} {R : α → β → Prop} {l : List α} {u : List β}
    (h : List.Forall₂ R l u) {a : α} (ha : a ∈ l) : ∃ b ∈ u, R a b := by
  induction h with
  | nil => cases ha
  | cons hab _ ih =>
    rcases List.mem_cons.mp ha with rfl | ha
    · exact ⟨_, List.mem_cons_self, hab⟩
    · obtain ⟨b, hb, hrel⟩ := ih ha
      exact ⟨b, List.mem_cons_of_mem _ hb, hrel⟩

/-! ## The flags -/

/-- Flags outside the length field are not set by a length. -/
theorem length_and_flag {n : Nat} (hn : n ≤ xilinxDmaMaxTransLen.toNat) {flag : BitVec 32}
    (hflag : xilinxDmaMaxTransLen &&& flag = 0) : BitVec.ofNat 32 n &&& flag = 0 := by
  have hlength : BitVec.ofNat 32 n &&& xilinxDmaMaxTransLen = BitVec.ofNat 32 n := by
    apply BitVec.eq_of_toNat_eq
    rw [and_maxTransLen hn, BitVec.toNat_ofNat]
    have hmask : xilinxDmaMaxTransLen.toNat < 2 ^ 32 := BitVec.isLt _
    omega
  rw [← hlength, BitVec.and_assoc, hflag]
  exact BitVec.and_zero

/-- The two flags can be read off a control word that has a length in it. -/
theorem hasBits_flags {n : Nat} (hn : n ≤ xilinxDmaMaxTransLen.toNat) (sop eop : Prop)
    [Decidable sop] [Decidable eop] :
    (hasBits (BitVec.ofNat 32 n ||| ((if sop then xilinxDmaBdSop else 0) |||
        (if eop then xilinxDmaBdEop else 0))) xilinxDmaBdSop = true ↔ sop) ∧
      (hasBits (BitVec.ofNat 32 n ||| ((if sop then xilinxDmaBdSop else 0) |||
        (if eop then xilinxDmaBdEop else 0))) xilinxDmaBdEop = true ↔ eop) := by
  have hand : ∀ {mask : BitVec 32} (flags : BitVec 32), xilinxDmaMaxTransLen &&& mask = 0 →
      (BitVec.ofNat 32 n ||| flags) &&& mask = flags &&& mask := by
    intro mask flags hmask
    rw [BitVec.and_comm, BitVec.and_or_distrib_left, BitVec.and_comm mask, BitVec.and_comm mask,
      length_and_flag hn hmask]
    exact BitVec.zero_or
  constructor
  · rw [hasBits_congr (hand _ (by decide))]
    by_cases hs : sop <;> by_cases he : eop <;> simp only [hs, he, if_true, if_false] <;> decide
  · rw [hasBits_congr (hand _ (by decide))]
    by_cases hs : sop <;> by_cases he : eop <;> simp only [hs, he, if_true, if_false] <;> decide

/-- The flags that the end of a builder adds to the control word of a segment. -/
def XilinxDmaTxDescriptor.flags (d : XilinxDmaTxDescriptor cfg) (p : SegPtr) : BitVec 32 :=
  (if d.direction = .memToDev ∧ p = d.firstSegment then xilinxDmaBdSop else 0) |||
    (if d.direction = .memToDev ∧ p = d.lastSegment then xilinxDmaBdEop else 0)

/-- A flag is added to one control word. -/
theorem orControl_control (s : XilinxDmaChan cfg) (p q : SegPtr) (flag : BitVec 32) :
    ((orControl s p flag).mem q).hw.control =
      (s.mem q).hw.control ||| (if q = p then flag else 0) := by
  by_cases hq : q = p
  · subst hq
    simp [orControl, XilinxDmaChan.setHw]
  · simp [orControl, XilinxDmaChan.setHw, hq]

/-- The end of a builder adds the flags of the descriptor. -/
theorem finishBuild_control {b : TxBuild} {s s' : XilinxDmaChan cfg}
    {d : XilinxDmaTxDescriptor cfg} (h : finishBuild b s = (s', .desc d)) (p : SegPtr) :
    d.direction = b.direction ∧ (s'.mem p).hw.control = (s.mem p).hw.control ||| d.flags p := by
  unfold finishBuild at h
  split at h
  · cases h
  · obtain ⟨rfl, hd⟩ := Prod.mk.inj h
    cases hd
    refine ⟨rfl, ?_⟩
    by_cases hdir : b.direction = .memToDev
    · cases b.cyclic <;>
        simp [hdir, orControl_control, XilinxDmaTxDescriptor.flags, BitVec.or_assoc,
          XilinxDmaTxDescriptor.firstSegment, XilinxDmaChan.dmaCtrlWrite, XilinxDmaChan.emit]
    · cases b.cyclic <;>
        simp [hdir, XilinxDmaTxDescriptor.flags, XilinxDmaChan.dmaCtrlWrite,
          XilinxDmaChan.emit]

/-- The end of a builder takes no segment, and the descriptor has the address of its first one. -/
theorem finishBuild_list {b : TxBuild} {s s' : XilinxDmaChan cfg} {d : XilinxDmaTxDescriptor cfg}
    (h : finishBuild b s = (s', .desc d)) :
    d.phys = (s'.mem d.firstSegment).phys ∧ s'.freeSegList = s.freeSegList := by
  rcases finishBuild_cases b s with ⟨-, hfin⟩ | ⟨d', mem, -, hbuilt, hmem, hfin⟩
  · rw [hfin] at h
    cases h
  · rw [hfin] at h
    obtain ⟨rfl, hd⟩ := Prod.mk.inj h
    cases hd
    exact ⟨hbuilt.phys.trans (hmem.1 _).1.symm, rfl⟩

/-! ## The descriptor -/

/-- `free_seg_list` is linked through the segments themselves, so none is on it twice. -/
def XilinxDmaChan.FreeSegListWf (s : XilinxDmaChan cfg) : Prop := s.freeSegList.Nodup

/-- With every segment in one place the free list is well formed. -/
theorem VxdmaSys.OwnedOnce.freeSegListWf {s : VxdmaSys cfg} (hs : OwnedOnce s) :
    s.chan.FreeSegListWf := by
  have hle : (↑s.chan.freeSegList : Multiset SegPtr) ≤ s.owned := by
    refine Multiset.le_iff_exists_add.mpr ⟨↑(segsOf s.chan.pendingList) +
      ↑(segsOf s.chan.activeList) + ↑(segsOf s.chan.doneList) + ↑(segsOf s.prepared) +
      ↑(segsOf s.held) + ↑(s.calls.flatMap Call.segs), ?_⟩
    simp only [owned, XilinxDmaChan.owned]
    abel
  exact Multiset.coe_nodup.mp (Multiset.nodup_of_le hle hs.nodup)

/-- Whatever the callers do, the list is one that can be linked like this. -/
theorem freeSegListWf_of_reachable {hasSg : Bool} {ctrlOffset : Nat} {dmacr : BitVec 32}
    {s : VxdmaSys cfg}
    (h : Reachable VxdmaSys.sectionStep always (VxdmaSys.probed hasSg ctrlOffset dmacr) s) :
    s.chan.FreeSegListWf :=
  (VxdmaSys.owned_nodup h).freeSegListWf

/-- The segments hold, in their order, pieces that tile the entry. -/
def TilesEntry (mem : SegPtr → XilinxDmaTxSegment cfg) (sg : ScatterEntry cfg)
    (segments : List SegPtr) : Prop :=
  ∃ pieces, List.Forall₂ (fun p r =>
      (mem p).hw.bufferAddr cfg = sg.dmaAddress + BitVec.ofNat cfg.width r.1 ∧
        (mem p).hw.bufferLength = r.2) segments pieces ∧
    Tiles 0 pieces sg.dmaLength.toNat

/-- What `xilinx_dma_prep_slave_sg` makes of the head of the pool. -/
structure SgDescriptor (args : PrepSlaveSgArgs cfg) (s s' : XilinxDmaChan cfg)
    (d : XilinxDmaTxDescriptor cfg) : Prop where
  count : d.segments.length = segmentsNeeded args.sgl
  fromHead : s.freeSegList = d.segments ++ s'.freeSegList
  tiles : ∃ parts : List (List SegPtr), d.segments = parts.flatten ∧
    List.Forall₂ (TilesEntry s'.mem) args.sgl parts
  lengths : ∀ p ∈ d.segments, 1 ≤ (s'.mem p).hw.bufferLength ∧
    (s'.mem p).hw.bufferLength ≤ xilinxDmaMaxTransLen.toNat
  sop : ∀ (i : Nat) (hi : i < d.segments.length),
    hasBits (s'.mem d.segments[i]).hw.control xilinxDmaBdSop = true ↔
      args.direction = .memToDev ∧ i = 0
  eop : ∀ (i : Nat) (hi : i < d.segments.length),
    hasBits (s'.mem d.segments[i]).hw.control xilinxDmaBdEop = true ↔
      args.direction = .memToDev ∧ i + 1 = d.segments.length
  phys : d.phys = (s'.mem d.firstSegment).phys

/-- Every chunk has a byte and fits a segment. -/
theorem sgChunks_copy_le (sgl : List (ScatterEntry cfg)) :
    ∀ c ∈ sgChunks sgl, 1 ≤ c.copy ∧ c.copy ≤ xilinxDmaMaxTransLen.toNat := by
  intro c hc
  obtain ⟨sg, -, hc⟩ := List.mem_flatMap.mp hc
  obtain ⟨r, hr, rfl⟩ := List.mem_map.mp hc
  have htiles := chunkLoop_tiles (Nat.zero_le sg.dmaLength.toNat) (Nat.sub_le _ 0)
  exact ⟨htiles.size_pos r hr, (chunkLoop_bounds r hr).2⟩

/-- Segments that cover the chunks of an entry tile it. -/
theorem tilesEntry_of_covers {mem : SegPtr → XilinxDmaTxSegment cfg} {sg : ScatterEntry cfg}
    {segments : List SegPtr}
    (h : List.Forall₂ (fun p c => (mem p).hw.Covers c) segments
      (chunksOf sg.dmaAddress sg.dmaLength.toNat)) : TilesEntry mem sg segments := by
  unfold chunksOf at h
  refine ⟨chunkLoop sg.dmaLength.toNat sg.dmaLength.toNat 0, ?_, ?_⟩
  · exact List.forall₂_map_right_iff.mp h
  · exact chunkLoop_tiles (Nat.zero_le _) (Nat.sub_le _ 0)

/-- What `xilinx_dma_prep_slave_sg` begins with when it is not refused. -/
theorem prepSlaveSgEntry_eq {args : PrepSlaveSgArgs cfg} {s : XilinxDmaChan cfg}
    (hdir : isSlaveDirection args.direction = true) (hkzalloc : args.kzallocOk = true) :
    prepSlaveSgEntry args s = .build (sgChunks args.sgl)
      ⟨s.kzallocs, args.direction, if args.direction = .memToDev then args.context else none,
        false, []⟩ := by
  simp [prepSlaveSgEntry, hdir, hkzalloc]

/-- Which control words have the flags, for segments that were filled with chunks. -/
theorem flagged_iff {mem mem' : SegPtr → XilinxDmaTxSegment cfg} {d : XilinxDmaTxDescriptor cfg}
    {p : SegPtr} {n : Nat} (hn : n ≤ xilinxDmaMaxTransLen.toNat)
    (hword : (mem p).hw.control = BitVec.ofNat 32 n)
    (hflags : (mem' p).hw.control = (mem p).hw.control ||| d.flags p) :
    (hasBits (mem' p).hw.control xilinxDmaBdSop = true ↔
        d.direction = .memToDev ∧ p = d.firstSegment) ∧
      (hasBits (mem' p).hw.control xilinxDmaBdEop = true ↔
        d.direction = .memToDev ∧ p = d.lastSegment) := by
  rw [hflags, hword, XilinxDmaTxDescriptor.flags]
  exact hasBits_flags hn _ _

/-- **What a builder that returned a descriptor made.** -/
theorem prepSlaveSg_descriptor {args : PrepSlaveSgArgs cfg} {s s' : XilinxDmaChan cfg}
    {d : XilinxDmaTxDescriptor cfg} (hwf : s.FreeSegListWf)
    (hdir : isSlaveDirection args.direction = true) (hkzalloc : args.kzallocOk = true)
    (hlen : segmentsNeeded args.sgl ≤ s.freeSegList.length)
    (h : xilinxDmaPrepSlaveSg args s = (s', .desc d)) : SgDescriptor args s s' d := by
  rw [← length_sgChunks] at hlen
  simp only [xilinxDmaPrepSlaveSg, prepSlaveSgEntry_eq hdir hkzalloc, runPrep, runBuild] at h
  obtain ⟨mem, hloop, hfilled, hsame⟩ := buildLoop_filled (sgChunks args.sgl)
    ⟨s.kzallocs, args.direction, if args.direction = .memToDev then args.context else none,
      false, []⟩ (kzallocDesc s) hwf hlen
  rw [hloop] at h
  simp only [List.nil_append, kzallocDesc] at h hfilled hsame
  obtain ⟨hsegs, hkeep⟩ := finishBuild_covers h
  have hcontrol := fun p => (finishBuild_control h p).2
  have hdirection : d.direction = args.direction := (finishBuild_control h d.firstSegment).1
  obtain ⟨hphys, hfree⟩ := finishBuild_list h
  have hcopy := sgChunks_copy_le args.sgl
  -- each segment with the chunk that it covers
  have hcovers : List.Forall₂ (fun p c => (s'.mem p).hw.Covers c) d.segments
      (sgChunks args.sgl) := by
    rw [hsegs]
    have hboth := ((List.forall₂_and_left _ _).mpr ⟨hcopy, hfilled.flip⟩).flip
    refine hboth.imp ?_
    rintro p c ⟨⟨-, hc⟩, hword⟩
    apply hkeep
    rw [hword]
    exact fillHwDesc_covers _ _ hc
  have hnodup : d.segments.Nodup := by
    rw [hsegs]
    exact hwf.sublist (List.take_sublist _ _)
  have hflags : ∀ p ∈ d.segments,
      (hasBits (s'.mem p).hw.control xilinxDmaBdSop = true ↔
        args.direction = .memToDev ∧ p = d.firstSegment) ∧
      (hasBits (s'.mem p).hw.control xilinxDmaBdEop = true ↔
        args.direction = .memToDev ∧ p = d.lastSegment) := by
    intro p hp
    rw [hsegs] at hp
    obtain ⟨c, hc, hword⟩ := exists_of_forall₂ hfilled hp
    rw [← hdirection]
    refine flagged_iff (hcopy c hc).2 ?_ (hcontrol p)
    rw [hword]
    exact fillHwDesc_control _ _ _
  refine ⟨?_, ?_, ?_, ?_, ?_, ?_, ?_⟩
  · rw [hcovers.length_eq, length_sgChunks]
  · rw [hsegs, hfree, List.take_append_drop]
  · obtain ⟨parts, hparts, hforall⟩ := forall₂_flatMap hcovers
    exact ⟨parts, hparts, hforall.imp fun sg part => tilesEntry_of_covers⟩
  · intro p hp
    obtain ⟨c, hc, hcov⟩ := exists_of_forall₂ hcovers hp
    rw [hcov.2]
    exact hcopy c hc
  · intro i hi
    rw [(hflags _ (List.getElem_mem hi)).1, XilinxDmaTxDescriptor.firstSegment,
      List.head_eq_getElem, hnodup.getElem_inj_iff]
  · intro i hi
    rw [(hflags _ (List.getElem_mem hi)).2, XilinxDmaTxDescriptor.lastSegment,
      List.getLast_eq_getElem, hnodup.getElem_inj_iff]
    refine and_congr_right fun _ => ?_
    omega
  · exact hphys

/-- **Scatter-gather segmentation is an exact tiling.** With a byte to transfer, a descriptor is
returned exactly when there is memory for it, the direction is a slave direction and the pool has
as many segments as the entries need; it then consists of these segments, and they tile the
entries. -/
theorem prepSlaveSg_tiles (args : PrepSlaveSgArgs cfg) (s : XilinxDmaChan cfg)
    (hwf : s.FreeSegListWf) (hbyte : ∃ sg ∈ args.sgl, sg.dmaLength ≠ 0) :
    ((∃ s' d, xilinxDmaPrepSlaveSg args s = (s', .desc d)) ↔
      args.kzallocOk = true ∧ isSlaveDirection args.direction = true ∧
        segmentsNeeded args.sgl ≤ s.freeSegList.length) ∧
    ∀ s' d, xilinxDmaPrepSlaveSg args s = (s', .desc d) → SgDescriptor args s s' d := by
  have hne : sgChunks args.sgl ≠ [] := by
    obtain ⟨sg, hsg, hlen⟩ := hbyte
    apply sgChunks_ne_nil
    apply List.sum_pos_iff_exists_pos_nat.mpr
    refine ⟨sg.dmaLength.toNat, List.mem_map_of_mem hsg, ?_⟩
    apply Nat.pos_of_ne_zero
    intro hzero
    exact hlen (BitVec.eq_of_toNat_eq hzero)
  have hiff : (∃ s' d, xilinxDmaPrepSlaveSg args s = (s', .desc d)) ↔
      args.kzallocOk = true ∧ isSlaveDirection args.direction = true ∧
        segmentsNeeded args.sgl ≤ s.freeSegList.length := by
    rw [← length_sgChunks]
    rcases prepSlaveSg_outcome args s with ⟨hwhy, hnull⟩ |
      ⟨hdir, hkzalloc, ⟨hnil, -⟩ | ⟨hlen, -, d, hdesc⟩⟩
    · constructor
      · rintro ⟨s', d, h⟩
        rw [h] at hnull
        cases hnull
      · rintro ⟨hkzalloc, hdir, hlen⟩
        rcases hwhy with hno | hno | hshort
        · rw [hno] at hdir
          cases hdir
        · rw [hno] at hkzalloc
          cases hkzalloc
        · omega
    · exact absurd hnil hne
    · constructor
      · intro _
        exact ⟨hkzalloc, hdir, hlen⟩
      · intro _
        exact ⟨(xilinxDmaPrepSlaveSg args s).1, d, Prod.ext rfl hdesc⟩
  refine ⟨hiff, ?_⟩
  intro s' d h
  obtain ⟨hkzalloc, hdir, hlen⟩ := hiff.mp ⟨s', d, h⟩
  exact prepSlaveSg_descriptor hwf hdir hkzalloc hlen h

/-- An entry of one byte more than a segment can have, an empty one, and one of a single byte. -/
def threeEntries : PrepSlaveSgArgs .addr32 :=
  ⟨[⟨0x1000, 0x800000⟩, ⟨0x2000, 0⟩, ⟨0x3000, 1⟩], .memToDev, none, true⟩

/-- Three entries, one of them empty and one too long for a segment. -/
theorem prepSlaveSg_tiles_threeEntries :
    ∃ s' d, xilinxDmaPrepSlaveSg threeEntries
        (VxdmaSys.allocated true 0 0 0 : VxdmaSys .addr32).chan = (s', .desc d) ∧
      d.segments.length = 3 ∧
      SgDescriptor threeEntries (VxdmaSys.allocated true 0 0 0 : VxdmaSys .addr32).chan s' d := by
  have hwf : (VxdmaSys.allocated true 0 0 0 : VxdmaSys .addr32).chan.FreeSegListWf := by
    apply freeSegListWf_of_reachable
    exact (Reachable.refl VxdmaSys.sectionStep always (VxdmaSys.probed true 0 0)).tail
      (.allocChanResources (some 0)) trivial rfl
  have hbyte : ∃ sg ∈ threeEntries.sgl, sg.dmaLength ≠ 0 := by decide
  have hneeded : segmentsNeeded threeEntries.sgl = 3 := by decide +kernel
  have henough : threeEntries.kzallocOk = true ∧ isSlaveDirection threeEntries.direction = true ∧
      segmentsNeeded threeEntries.sgl ≤
        (VxdmaSys.allocated true 0 0 0 : VxdmaSys .addr32).chan.freeSegList.length := by
    decide +kernel
  obtain ⟨hiff, hdescriptor⟩ := prepSlaveSg_tiles threeEntries _ hwf hbyte
  obtain ⟨s', d, h⟩ := hiff.mpr henough
  have hd := hdescriptor s' d h
  exact ⟨s', d, h, hd.count.trans hneeded, hd⟩

end PetalinuxDriver
