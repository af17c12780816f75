import PetalinuxDriver.Analysis.BuilderSafety
import PetalinuxDriver.Analysis.BuiltWords
import PetalinuxDriver.Analysis.ChannelTable

/-!
# Chunks and the alignment of the engine

An engine without realignment needs buffer addresses that are multiples of its data width, and the
probe of a channel declares this in `copy_align`. The builders cut far away from there, at
`XILINX_DMA_MAX_TRANS_LEN`, which is odd. So the first piece of an aligned entry is aligned, and
the second one is not, whatever the alignment is (`chunksOf_aligned_iff`): a descriptor is aligned
exactly when no entry and no period was cut, or when the engine is one byte wide.
-/

set_option autoImplicit false

namespace PetalinuxDriver

open Library

variable {cfg : PhysAddrConfig}

/-! ## The alignment of a channel -/

/-- The engine of the channel can realign, as `xilinx_dma_chan_probe` sees it. -/
def ChannelNode.hasDre (node : ChannelNode) (value : BitVec 32) : Bool :=
  node.includeDre && !(value >>> 3 > 8)

/-- Without DRE the alignment is that of the data width. -/
theorem copyAlignOf_of_no_dre {node : ChannelNode} {value : BitVec 32}
    (h : node.hasDre value = false) (copyAlign : Nat) :
    copyAlignOf node value copyAlign = fls (value >>> 3 - 1) := by
  unfold copyAlignOf
  unfold ChannelNode.hasDre at h
  simp only [h, Bool.false_eq_true, if_false]

/-- What comes after the data width does not touch the alignment. -/
theorem setupChan_copyAlign (node : ChannelNode) (n : Nat) (c : ProbedChannel cfg)
    (xdev : XilinxDmaDevice cfg) : (setupChan node n c xdev).1.copyAlign = xdev.copyAlign := by
  unfold setupChan
  split
  · rfl
  · cases node.requestIrq <;> rfl

/-- Storing a channel leaves the alignment. -/
theorem storeChan_copyAlign (id n : Nat) (low : BitVec 8) (xdev : XilinxDmaDevice cfg) :
    (xdev.storeChan id n low).copyAlign = xdev.copyAlign := by
  unfold XilinxDmaDevice.storeChan
  split <;> rfl

/-- A channel that was probed has left the alignment of its own data width. -/
theorem chanProbe_copyAlign {node : ChannelNode} {value : BitVec 32} {xdev : XilinxDmaDevice cfg}
    (hprobe : (xilinxDmaChanProbe node xdev).2 = none) (hvalue : node.datawidth = .ok value) :
    (xilinxDmaChanProbe node xdev).1.copyAlign = copyAlignOf node value xdev.copyAlign := by
  obtain ⟨low, value', id, ctrlOffset, direction, deviceId, hvalue', -, -, hsetup⟩ :=
    chanProbe_setup hprobe
  obtain rfl : value' = value := Except.ok.inj (hvalue'.symm.trans hvalue)
  rw [hsetup, setupChan_copyAlign, storeChan_copyAlign]

/-- `fls` of a word is 32 at most. -/
theorem fls_le (x : BitVec 32) : fls x ≤ 32 := Nat.size_le.mpr x.isLt

/-- Only an engine of one byte needs no alignment. -/
theorem fls_eq_zero_iff (x : BitVec 32) : fls (x - 1) = 0 ↔ x = 1 := by
  rw [fls, Nat.size_eq_zero]
  constructor
  · intro h
    have hzero : x - 1 = 0 := BitVec.eq_of_toNat_eq h
    exact sub_eq_zero.mp hzero
  · rintro rfl
    rfl

/-! ## Aligned words -/

/-- A multiple of `2 ^ k`. -/
def AlignedTo {n : Nat} (k : Nat) (a : BitVec n) : Prop := 2 ^ k ∣ a.toNat

instance {n : Nat} (k : Nat) (a : BitVec n) : Decidable (AlignedTo k a) :=
  inferInstanceAs (Decidable (2 ^ k ∣ a.toNat))

/-- Every address is a multiple of one. -/
theorem alignedTo_zero {n : Nat} (a : BitVec n) : AlignedTo 0 a := one_dvd _

/-- The low word of an address has its alignment. -/
theorem alignedTo_lower32Bits {n k : Nat} (hk : k ≤ 32) (a : BitVec n) :
    AlignedTo k (lower32Bits a) ↔ AlignedTo k a := by
  unfold AlignedTo lower32Bits
  rw [BitVec.toNat_setWidth]
  exact Nat.dvd_mod_iff (Nat.pow_dvd_pow 2 hk)

/-- A step from an aligned address ends at an aligned one exactly when the step is aligned; sums
that wrap make no difference. -/
theorem alignedTo_add {k : Nat} (hk : k ≤ 32) {a : DmaAddr cfg} (ha : AlignedTo k a) (m : Nat) :
    AlignedTo k (a + BitVec.ofNat cfg.width m) ↔ 2 ^ k ∣ m := by
  have hword : 2 ^ k ∣ 2 ^ cfg.width := Nat.pow_dvd_pow 2 (hk.trans (le_width cfg))
  unfold AlignedTo at ha ⊢
  rw [BitVec.toNat_add, BitVec.toNat_ofNat, Nat.add_mod_mod, Nat.dvd_mod_iff hword]
  exact Nat.dvd_add_right ha

/-- The chunk limit is odd. -/
theorem not_dvd_maxTransLen {k : Nat} (hk : k ≠ 0) : ¬ 2 ^ k ∣ xilinxDmaMaxTransLen.toNat := by
  intro h
  have hodd : ¬ 2 ∣ xilinxDmaMaxTransLen.toNat := by decide
  exact hodd ((dvd_pow_self 2 hk).trans h)

/-! ## The pieces of an entry -/

/-- A buffer that fits a segment is one round from its start. -/
theorem chunkLoop_short {len : Nat} (h : len ≤ xilinxDmaMaxTransLen.toNat) :
    ∀ r ∈ chunkLoop len len 0, r.1 = 0 := by
  cases len with
  | zero => simp [chunkLoop]
  | succ n =>
    have hone : min (n + 1 - 0) xilinxDmaMaxTransLen.toNat = n + 1 := Nat.min_eq_left h
    have hdone : chunkLoop (n + 1) n (n + 1) = [] := by
      cases n <;> simp [chunkLoop]
    intro r hr
    rw [chunkLoop, if_pos (Nat.succ_pos n)] at hr
    simp only [hone, Nat.zero_add, hdone, List.mem_singleton] at hr
    rw [hr]

/-- An entry that is too long for one segment has a second piece at the limit. -/
theorem chunkLoop_long {len : Nat} (h : xilinxDmaMaxTransLen.toNat < len) :
    ∃ r ∈ chunkLoop len len 0, r.1 = xilinxDmaMaxTransLen.toNat := by
  have hmax : 1 ≤ xilinxDmaMaxTransLen.toNat := by decide
  obtain ⟨n, rfl⟩ : ∃ n, len = n + 2 := ⟨len - 2, by omega⟩
  have hfull : min (n + 2 - 0) xilinxDmaMaxTransLen.toNat = xilinxDmaMaxTransLen.toNat :=
    Nat.min_eq_right (by omega)
  refine ⟨(xilinxDmaMaxTransLen.toNat,
    min (n + 2 - xilinxDmaMaxTransLen.toNat) xilinxDmaMaxTransLen.toNat), ?_, rfl⟩
  rw [chunkLoop, if_pos (Nat.succ_pos (n + 1))]
  simp only [hfull, Nat.zero_add]
  rw [chunkLoop, if_pos h]
  simp only [List.mem_cons, true_or, or_true]

/-- **The pieces of an aligned entry** start at aligned addresses exactly when there is only one,
or when every address is aligned. -/
theorem chunksOf_aligned_iff {k : Nat} (hk : k ≤ 32) {base : DmaAddr cfg}
    (hbase : AlignedTo k base) (len : Nat) :
    (∀ c ∈ chunksOf base len, AlignedTo k c.addr) ↔
      k = 0 ∨ len ≤ xilinxDmaMaxTransLen.toNat := by
  constructor
  · intro h
    by_contra hnot
    obtain ⟨hne, hlong⟩ := not_or.mp hnot
    obtain ⟨r, hr, hstart⟩ := chunkLoop_long (Nat.lt_of_not_le hlong)
    have hpiece := h _ (List.mem_map_of_mem hr)
    rw [alignedTo_add hk hbase, hstart] at hpiece
    exact not_dvd_maxTransLen hne hpiece
  · rintro (rfl | hshort)
    · intro c _
      exact alignedTo_zero c.addr
    · intro c hc
      obtain ⟨r, hr, rfl⟩ := List.mem_map.mp hc
      rw [alignedTo_add hk hbase, chunkLoop_short hshort r hr]
      exact dvd_zero _

/-- The chunks of aligned entries are aligned exactly when no entry is cut, or there is nothing to
keep. -/
theorem sgChunks_aligned_iff {k : Nat} (hk : k ≤ 32) {sgl : List (ScatterEntry cfg)}
    (hsgl : ∀ sg ∈ sgl, AlignedTo k sg.dmaAddress) :
    (∀ c ∈ sgChunks sgl, AlignedTo k c.addr) ↔
      k = 0 ∨ ∀ sg ∈ sgl, sg.dmaLength.toNat ≤ xilinxDmaMaxTransLen.toNat := by
  have hentry := fun sg hsg => chunksOf_aligned_iff hk (hsgl sg hsg) sg.dmaLength.toNat
  simp only [sgChunks, List.mem_flatMap]
  constructor
  · intro h
    by_cases hzero : k = 0
    · exact Or.inl hzero
    · right
      intro sg hsg
      exact ((hentry sg hsg).mp fun c hc => h c ⟨sg, hsg, hc⟩).resolve_left hzero
  · rintro h c ⟨sg, hsg, hc⟩
    exact (hentry sg hsg).mpr (h.imp_right fun hall => hall sg hsg) c hc

/-- The chunks of aligned periods are aligned exactly when no period is cut, or there is nothing to
keep. -/
theorem cyclicChunks_aligned_iff {k : Nat} (hk : k ≤ 32) {bufAddr : DmaAddr cfg}
    (hbuf : AlignedTo k bufAddr) {numPeriods periodLen : Nat} (hperiods : numPeriods ≠ 0)
    (hperiod : 2 ^ k ∣ periodLen) :
    (∀ c ∈ cyclicChunks bufAddr numPeriods periodLen, AlignedTo k c.addr) ↔
      k = 0 ∨ periodLen ≤ xilinxDmaMaxTransLen.toNat := by
  have hbase : ∀ i, AlignedTo k (bufAddr + BitVec.ofNat cfg.width (periodLen * i)) := by
    intro i
    rw [alignedTo_add hk hbuf]
    exact Dvd.dvd.mul_right hperiod i
  simp only [cyclicChunks, List.mem_flatMap, List.mem_range]
  constructor
  · intro h
    apply (chunksOf_aligned_iff hk (hbase 0) periodLen).mp
    intro c hc
    exact h c ⟨0, Nat.pos_of_ne_zero hperiods, hc⟩
  · rintro h c ⟨i, -, hc⟩
    exact (chunksOf_aligned_iff hk (hbase i) periodLen).mpr h c hc

/-! ## The descriptors -/

/-- Every segment of the descriptor has an aligned `buf_addr`. -/
def SegmentsAligned (k : Nat) (s : XilinxDmaChan cfg) (d : XilinxDmaTxDescriptor cfg) : Prop :=
  ∀ p ∈ d.segments, AlignedTo k (s.mem p).hw.bufAddr

/-- A round writes the low half of the address. -/
theorem fillHwDesc_bufAddr (app : Option AppWords) (c : Chunk cfg) (hw : XilinxDmaDescHw) :
    (fillHwDesc app c hw).bufAddr = lower32Bits c.addr := by
  cases cfg <;> cases app <;> rfl

/-- The segments are aligned when the pieces are. -/
theorem BuiltWords.aligned_iff {chunks : List (Chunk cfg)} {b : TxBuild} {s s' : XilinxDmaChan cfg}
    {d : XilinxDmaTxDescriptor cfg} (h : BuiltWords chunks b s s' d) {k : Nat} (hk : k ≤ 32) :
    SegmentsAligned k s' d ↔ ∀ c ∈ chunks, AlignedTo k c.addr := by
  have hword : List.Forall₂ (fun p c => AlignedTo k (s'.mem p).hw.bufAddr ↔ AlignedTo k c.addr)
      d.segments chunks := by
    refine h.words.imp fun p c hw => ?_
    rw [hw, XilinxDmaDescHw.flagged, fillHwDesc_bufAddr]
    exact alignedTo_lower32Bits hk c.addr
  constructor
  · intro hall c hc
    obtain ⟨p, hp, hiff⟩ := exists_of_forall₂ hword.flip hc
    exact hiff.mp (hall p hp)
  · intro hall p hp
    obtain ⟨c, hc, hiff⟩ := exists_of_forall₂ hword hp
    exact hiff.mpr (hall c hc)

/-- The slave builder keeps the alignment exactly when no entry is cut, or there is nothing to keep.
-/
theorem prepSlaveSg_aligned_iff {k : Nat} (hk : k ≤ 32) {args : PrepSlaveSgArgs cfg}
    {s s' : XilinxDmaChan cfg} {d : XilinxDmaTxDescriptor cfg} (hwf : s.FreeSegListWf)
    (hsgl : ∀ sg ∈ args.sgl, AlignedTo k sg.dmaAddress)
    (h : xilinxDmaPrepSlaveSg args s = (s', .desc d)) :
    SegmentsAligned k s' d ↔
      k = 0 ∨ ∀ sg ∈ args.sgl, sg.dmaLength.toNat ≤ xilinxDmaMaxTransLen.toNat :=
  ((prepSlaveSg_words hwf h).aligned_iff hk).trans (sgChunks_aligned_iff hk hsgl)

/-- The cyclic builder keeps the alignment exactly when no period is cut, or there is nothing to
keep. -/
theorem prepDmaCyclic_aligned_iff {k : Nat} (hk : k ≤ 32) {args : PrepDmaCyclicArgs cfg}
    {s s' : XilinxDmaChan cfg} {d : XilinxDmaTxDescriptor cfg} (hwf : s.FreeSegListWf)
    (hbuf : AlignedTo k args.bufAddr) (hperiod : AlignedTo k args.periodLen)
    (h : xilinxDmaPrepDmaCyclic args s = (s', .desc d)) :
    SegmentsAligned k s' d ↔
      k = 0 ∨ args.periodLen.toNat ≤ xilinxDmaMaxTransLen.toNat := by
  have hwords := prepDmaCyclic_words hwf h
  refine (hwords.aligned_iff hk).trans (cyclicChunks_aligned_iff hk hbuf ?_ hperiod)
  -- a builder without a period does not return a descriptor
  intro hnone
  apply hwords.chunks_ne
  rw [hnone]
  rfl

/-- **Aligned input makes aligned segments** exactly when no piece had to be cut, for every
channel that was probed without realignment, in every state that any use of it reaches. The
alignment is no concern only for an engine that is one byte wide. -/
theorem segments_aligned_iff {node : ChannelNode} {value : BitVec 32} {xdev : XilinxDmaDevice cfg}
    (hprobe : (xilinxDmaChanProbe node xdev).2 = none) (hvalue : node.datawidth = .ok value)
    (hdre : node.hasDre value = false) {hasSg : Bool} {ctrlOffset : Nat} {dmacr : BitVec 32}
    {s : VxdmaSys cfg}
    (h : Reachable VxdmaSys.sectionStep always (VxdmaSys.probed hasSg ctrlOffset dmacr) s) :
    (xilinxDmaChanProbe node xdev).1.copyAlign = fls (value >>> 3 - 1) ∧
    (∀ args : PrepSlaveSgArgs cfg,
      (∀ sg ∈ args.sgl, AlignedTo (xilinxDmaChanProbe node xdev).1.copyAlign sg.dmaAddress) →
      ∀ s' d, xilinxDmaPrepSlaveSg args s.chan = (s', .desc d) →
        (SegmentsAligned (xilinxDmaChanProbe node xdev).1.copyAlign s' d ↔
          value >>> 3 = 1 ∨
            ∀ sg ∈ args.sgl, sg.dmaLength.toNat ≤ xilinxDmaMaxTransLen.toNat)) ∧
    ∀ args : PrepDmaCyclicArgs cfg,
      AlignedTo (xilinxDmaChanProbe node xdev).1.copyAlign args.bufAddr →
      AlignedTo (xilinxDmaChanProbe node xdev).1.copyAlign args.periodLen →
      ∀ s' d, xilinxDmaPrepDmaCyclic args s.chan = (s', .desc d) →
        (SegmentsAligned (xilinxDmaChanProbe node xdev).1.copyAlign s' d ↔
          value >>> 3 = 1 ∨ args.periodLen.toNat ≤ xilinxDmaMaxTransLen.toNat) := by
  have hwf := freeSegListWf_of_reachable h
  have hk := fls_le (value >>> 3 - 1)
  rw [chanProbe_copyAlign hprobe hvalue, copyAlignOf_of_no_dre hdre, ← fls_eq_zero_iff]
  refine ⟨rfl, ?_, ?_⟩
  · intro args hsgl s' d hprep
    exact prepSlaveSg_aligned_iff hk hwf hsgl hprep
  · intro args hbuf hperiod s' d hprep
    exact prepDmaCyclic_aligned_iff hk hwf hbuf hperiod hprep

/-- A channel of 32 bits without realignment. -/
def node32 : ChannelNode where
  kzalloc := some 0
  includeDre := false
  datawidth := .ok 32
  mm2s := true
  s2mm := false
  deviceId := .ok 0
  reset := ⟨0, true⟩
  irq := 1
  requestIrq := none

/-- The channel is one that a run reaches. -/
theorem freshChan_reachable :
    Reachable VxdmaSys.sectionStep always (VxdmaSys.probed true 0 0)
      (VxdmaSys.allocated true 0 0 0 : VxdmaSys .addr32) :=
  (Reachable.refl VxdmaSys.sectionStep always (VxdmaSys.probed true 0 0)).tail
    (.allocChanResources (some 0)) trivial rfl

/-- An entry of a page. -/
def pageEntry : PrepSlaveSgArgs .addr32 := ⟨[⟨0x1000, 0x1000⟩], .memToDev, none, true⟩

/-- A page is not cut. -/
theorem segments_aligned_iff_page :
    ∃ s' d, xilinxDmaPrepSlaveSg pageEntry freshChan = (s', .desc d) ∧ SegmentsAligned 2 s' d := by
  have hneeded : segmentsNeeded pageEntry.sgl = 1 := by decide +kernel
  have hpool : freshChan.freeSegList.length = 255 := by decide +kernel
  obtain ⟨s', d, h⟩ : ∃ s' d, xilinxDmaPrepSlaveSg pageEntry freshChan = (s', .desc d) :=
    prepSlaveSg_returns rfl rfl (by omega) (by omega)
  have hprobe : (xilinxDmaChanProbe node32 (XilinxDmaDevice.zero : XilinxDmaDevice .addr32)).2 =
      none := by
    rfl
  have hvalue : node32.datawidth = .ok 32 := rfl
  have haligned := (segments_aligned_iff hprobe hvalue (by decide) freshChan_reachable).2.1
    pageEntry (by decide) s' d h
  exact ⟨s', d, h, haligned.mpr (Or.inr (by decide))⟩

/-- An entry of 8 MiB, one byte more than a segment can have: its last byte starts a segment of
its own, at an odd address. -/
def longEntry : PrepSlaveSgArgs .addr32 := ⟨[⟨0x1000, 0x800000⟩], .memToDev, none, true⟩

/-- With a width of 32 bits, an entry that is cut has a segment off the alignment. -/
theorem segments_unaligned :
    (xilinxDmaChanProbe node32 (XilinxDmaDevice.zero : XilinxDmaDevice .addr32)).2 = none ∧
      (xilinxDmaChanProbe node32
        (XilinxDmaDevice.zero : XilinxDmaDevice .addr32)).1.copyAlign = 2 ∧
      (∀ sg ∈ longEntry.sgl, AlignedTo 2 sg.dmaAddress) ∧
      ∃ s' d, xilinxDmaPrepSlaveSg longEntry freshChan = (s', .desc d) ∧
        ¬ SegmentsAligned 2 s' d := by
  have hneeded : segmentsNeeded longEntry.sgl = 2 := by decide +kernel
  have hpool : freshChan.freeSegList.length = 255 := by decide +kernel
  obtain ⟨s', d, h⟩ : ∃ s' d, xilinxDmaPrepSlaveSg longEntry freshChan = (s', .desc d) :=
    prepSlaveSg_returns rfl rfl (by omega) (by omega)
  refine ⟨rfl, rfl, by decide, s', d, h, ?_⟩
  rw [prepSlaveSg_aligned_iff (by decide) (freeSegListWf_of_reachable freshChan_reachable)
    (by decide) h]
  decide

end PetalinuxDriver
