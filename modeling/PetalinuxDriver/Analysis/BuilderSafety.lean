import PetalinuxDriver.Analysis.SegmentContents
import PetalinuxDriver.Model.VxdmaCalls

/-!
# When the builders are safe

After their loops both builders take the first entry of `desc->segments`, and the cyclic one has
divided by the period length before. Neither looks whether there was a round. So a builder that
gets as far as its loops is safe exactly when there is one (`runPrep_wild_iff`): a scatterlist
needs a byte, and a cyclic transfer a period length that is not zero and, in 32 bits, a period.
-/

set_option autoImplicit false

namespace PetalinuxDriver

variable {cfg : PhysAddrConfig}

/-- A builder returned NULL or a descriptor, and the segments of the descriptor come from the head
of the pool; what it wrote, the flags included, it wrote into free segments, and behind the
descriptor into its own. -/
def PrepSafe (s : XilinxDmaChan cfg) : XilinxDmaChan cfg × PrepResult cfg → Prop
  | (t, .null) => ∀ p ∉ s.freeSegList, t.mem p = s.mem p
  | (t, .desc d) => d.segments ≠ [] ∧ d.segments <+: s.freeSegList ∧
      ∀ p ∉ d.segments, t.mem p = s.mem p
  | (_, .wild) => False

/-- Only an entry that divides by zero, or a loop without a round, leads to the undefined. -/
theorem runPrep_wild_iff {entry : PrepEntry cfg} {s : XilinxDmaChan cfg} (hfresh : entry.Fresh s) :
    (runPrep entry s).2 = .wild ↔ entry = .wild ∨ ∃ b, entry = .build [] b := by
  cases entry with
  | null => simp [runPrep]
  | wild => simp [runPrep]
  | build chunks b =>
    obtain ⟨hsegs, -⟩ := hfresh
    simp only [runPrep]
    rcases runBuild_cases chunks b (kzallocDesc s) hsegs with
      ⟨hshort, mem, -, h⟩ | ⟨rfl, h⟩ | ⟨hne, -, d, mem, -, -, -, -, -, -, -, h⟩
    · have hne : chunks ≠ [] := by
        rintro rfl
        simp at hshort
      rw [h]
      simp [hne]
    · rw [h]
      simp
    · rw [h]
      simp [hne]

/-- A builder is safe when it does not get to the undefined. -/
theorem prepSafe_iff {entry : PrepEntry cfg} {s : XilinxDmaChan cfg} (hfresh : entry.Fresh s) :
    PrepSafe s (runPrep entry s) ↔ ¬ (entry = .wild ∨ ∃ b, entry = .build [] b) := by
  rw [← runPrep_wild_iff hfresh]
  rcases runPrep_cases hfresh with ⟨k, mem, -, hmem, h⟩ | ⟨s', h⟩ | ⟨chunks, b, d, mem, -, hd, h⟩
  · rw [h]
    simpa [PrepSafe] using hmem.2
  · rw [h]
    simp [PrepSafe]
  · rw [h]
    have hprefix : d.segments <+: s.freeSegList := by
      rw [hd.segments]
      exact List.take_prefix _ _
    simpa [PrepSafe, d.segments_ne, hprefix] using hd.words.2

/-- A scatterlist needs no round exactly when all its entries are empty. -/
theorem sgChunks_eq_nil_iff (sgl : List (ScatterEntry cfg)) :
    sgChunks sgl = [] ↔ ∀ sg ∈ sgl, sg.dmaLength = 0 := by
  rw [sgChunks, List.flatMap_eq_nil_iff]
  refine forall₂_congr fun sg _ => ?_
  rw [← not_iff_not, ← ne_eq, chunksOf_ne_nil_iff, Nat.pos_iff_ne_zero, not_iff_not]
  constructor
  · intro h
    exact BitVec.eq_of_toNat_eq h
  · intro h
    rw [h]
    rfl

/-- A cyclic prep needs none exactly when it has no periods. -/
theorem cyclicChunks_eq_nil_iff (bufAddr : DmaAddr cfg) {numPeriods periodLen : Nat}
    (hperiod : periodLen ≠ 0) :
    cyclicChunks bufAddr numPeriods periodLen = [] ↔ numPeriods = 0 := by
  rw [cyclicChunks, List.flatMap_eq_nil_iff]
  constructor
  · intro h
    by_contra hne
    have hfirst := h 0 (List.mem_range.mpr (Nat.pos_of_ne_zero hne))
    exact (chunksOf_ne_nil_iff _ periodLen).mpr (Nat.pos_of_ne_zero hperiod) hfirst
  · rintro rfl
    simp

/-- `num_periods`, an `unsigned int`. -/
def PrepDmaCyclicArgs.numPeriods (args : PrepDmaCyclicArgs cfg) : Nat :=
  (args.bufLen.toNat / args.periodLen.toNat) % 2 ^ 32

/-- The scatter-gather builder has a byte to transfer, or does not get to its loops. -/
def PrepSlaveSgArgs.Safe (args : PrepSlaveSgArgs cfg) : Prop :=
  isSlaveDirection args.direction = false ∨ args.kzallocOk = false ∨
    ∃ sg ∈ args.sgl, sg.dmaLength ≠ 0

/-- The cyclic builder does not divide by zero, and has a period or does not get to its loops. -/
def PrepDmaCyclicArgs.Safe (args : PrepDmaCyclicArgs cfg) : Prop :=
  args.periodLen ≠ 0 ∧ (isSlaveDirection args.direction = false ∨ args.kzallocOk = false ∨
    args.numPeriods ≠ 0)

instance (args : PrepSlaveSgArgs cfg) : Decidable args.Safe :=
  inferInstanceAs (Decidable (_ ∨ _ ∨ ∃ sg ∈ args.sgl, sg.dmaLength ≠ 0))

instance (args : PrepDmaCyclicArgs cfg) : Decidable args.Safe :=
  inferInstanceAs (Decidable (_ ∧ (_ ∨ _ ∨ args.numPeriods ≠ 0)))

/-- The arguments with which the slave builder has a first entry to find. -/
theorem prepSlaveSgEntry_safe_iff (args : PrepSlaveSgArgs cfg) (s : XilinxDmaChan cfg) :
    ¬ (prepSlaveSgEntry args s = .wild ∨ ∃ b, prepSlaveSgEntry args s = .build [] b) ↔
      args.Safe := by
  have hnil := sgChunks_eq_nil_iff args.sgl
  unfold prepSlaveSgEntry PrepSlaveSgArgs.Safe
  cases hdir : isSlaveDirection args.direction with
  | false => simp
  | true =>
    cases hkzalloc : args.kzallocOk with
    | false => simp
    | true => simp [hnil]

/-- The arguments with which the cyclic builder has one. -/
theorem prepDmaCyclicEntry_safe_iff (args : PrepDmaCyclicArgs cfg) (s : XilinxDmaChan cfg) :
    ¬ (prepDmaCyclicEntry args s = .wild ∨ ∃ b, prepDmaCyclicEntry args s = .build [] b) ↔
      args.Safe := by
  unfold prepDmaCyclicEntry PrepDmaCyclicArgs.Safe
  by_cases hperiod : args.periodLen = 0
  · simp [hperiod]
  · have hne : ¬ args.periodLen = BitVec.ofNat cfg.width 0 := hperiod
    have hpos : args.periodLen.toNat ≠ 0 := by
      intro h
      exact hperiod (BitVec.eq_of_toNat_eq h)
    have hnil : cyclicChunks args.bufAddr args.numPeriods args.periodLen.toNat = [] ↔
        args.numPeriods = 0 :=
      cyclicChunks_eq_nil_iff args.bufAddr hpos
    unfold PrepDmaCyclicArgs.numPeriods at hnil ⊢
    cases hdir : isSlaveDirection args.direction with
    | false => simp [hpos, hne]
    | true =>
      cases hkzalloc : args.kzallocOk with
      | false => simp [hpos, hne]
      | true => simpa [hpos, hne] using not_congr hnil

/-- The slave builder as a whole is safe exactly with the arguments for which its entry is. -/
theorem prepSlaveSg_safe_iff (args : PrepSlaveSgArgs cfg) (s : XilinxDmaChan cfg) :
    PrepSafe s (xilinxDmaPrepSlaveSg args s) ↔ args.Safe :=
  (prepSafe_iff (prepSlaveSgEntry_fresh args s)).trans (prepSlaveSgEntry_safe_iff args s)

/-- The cyclic builder as a whole is safe exactly with the arguments for which its entry is. -/
theorem prepDmaCyclic_safe_iff (args : PrepDmaCyclicArgs cfg) (s : XilinxDmaChan cfg) :
    PrepSafe s (xilinxDmaPrepDmaCyclic args s) ↔ args.Safe :=
  (prepSafe_iff (prepDmaCyclicEntry_fresh args s)).trans (prepDmaCyclicEntry_safe_iff args s)

/-- **When a prep is safe**, whatever the channel is like. -/
theorem prep_safe_exactly :
    (∀ (args : PrepSlaveSgArgs cfg) (s : XilinxDmaChan cfg),
      PrepSafe s (xilinxDmaPrepSlaveSg args s) ↔ args.Safe) ∧
    ∀ (args : PrepDmaCyclicArgs cfg) (s : XilinxDmaChan cfg),
      PrepSafe s (xilinxDmaPrepDmaCyclic args s) ↔ args.Safe :=
  ⟨prepSlaveSg_safe_iff, prepDmaCyclic_safe_iff⟩

/-- A channel right after its allocation. -/
def freshChan : XilinxDmaChan .addr32 := (VxdmaSys.allocated true 0 0 0).chan

/-- A scatterlist with an entry but no byte, a period of no length, and a period that is longer
than the buffer: with a fresh pool each of them leads to the undefined. -/
theorem prep_unsafe :
    ¬ PrepSafe freshChan
        (xilinxDmaPrepSlaveSg ⟨[⟨0x1000, 0⟩], .memToDev, none, true⟩ freshChan) ∧
      ¬ PrepSafe freshChan
        (xilinxDmaPrepDmaCyclic ⟨0x1000, 0x1000, 0, .memToDev, true⟩ freshChan) ∧
      ¬ PrepSafe freshChan
        (xilinxDmaPrepDmaCyclic ⟨0x1000, 0x1000, 0x2000, .memToDev, true⟩ freshChan) := by
  rw [prepSlaveSg_safe_iff, prepDmaCyclic_safe_iff, prepDmaCyclic_safe_iff]
  decide

end PetalinuxDriver
