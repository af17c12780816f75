import Mathlib.Algebra.Order.BigOperators.Group.List
import PetalinuxDriver.Analysis.StatusResidue

/-!
# The arithmetic of the residue loop

`xilinx_dma_tx_status` subtracts whole status words from whole control words, flags and all, masks
the difference and adds it to a `u32`. In the length field of 23 bits the difference is right
whatever the flags are (`residue_term`), and a descriptor that fits into the pool has at most 255
segments, so that the sum stays below 2 ^ 31 (`owed_lt`). So the loop is exact: it never wraps, it
gives zero only for a transfer that is complete, and it does not go up while the engine reports
more bytes. The descriptors that a channel works on do fit into its pool (`live_residue_exact`).
-/

set_option autoImplicit false

namespace PetalinuxDriver

open Library

variable {cfg : PhysAddrConfig}

/-! ## The bytes of one segment -/

namespace XilinxDmaDescHw

/-- What a segment owes fits its length field. -/
theorem untransferred_le (hw : XilinxDmaDescHw) :
    hw.untransferred ≤ xilinxDmaMaxTransLen.toNat := by
  have hlength : hw.bufferLength ≤ xilinxDmaMaxTransLen.toNat := by
    rw [bufferLength, BitVec.toNat_and]
    exact Nat.and_le_right
  exact (Nat.sub_le _ _).trans hlength

/-- An honest segment owes nothing exactly when all of it is transferred. -/
theorem Honest.untransferred_eq_zero {hw : XilinxDmaDescHw} (h : hw.Honest) :
    hw.untransferred = 0 ↔ hw.transferred = hw.bufferLength := by
  unfold Honest at h
  unfold untransferred
  omega

/-- More bytes that are reported are fewer bytes that are left. -/
theorem untransferred_anti {hw hw' : XilinxDmaDescHw} (hlength : hw'.bufferLength = hw.bufferLength)
    (h : hw.transferred ≤ hw'.transferred) : hw'.untransferred ≤ hw.untransferred := by
  unfold untransferred
  omega

end XilinxDmaDescHw

/-! ## The bytes of some segments -/

namespace XilinxDmaChan

variable {s s' : XilinxDmaChan cfg} {ps : List SegPtr}

/-- As many segments as the pool has are less than 2 ^ 31 bytes. -/
theorem owed_lt (s : XilinxDmaChan cfg) (h : ps.length ≤ xilinxDmaNumDescs) :
    s.owed ps < 2 ^ 31 := by
  have hterms : ∀ n ∈ ps.map fun p => (s.mem p).hw.untransferred,
      n ≤ xilinxDmaMaxTransLen.toNat := by
    intro n hn
    obtain ⟨p, -, rfl⟩ := List.mem_map.mp hn
    exact (s.mem p).hw.untransferred_le
  have hsum := List.sum_le_card_nsmul _ _ hterms
  rw [List.length_map, smul_eq_mul] at hsum
  calc s.owed ps ≤ ps.length * xilinxDmaMaxTransLen.toNat := hsum
    _ ≤ xilinxDmaNumDescs * xilinxDmaMaxTransLen.toNat := Nat.mul_le_mul_right _ h
    _ < 2 ^ 31 := by decide

/-- Honest segments owe nothing exactly when all of each is transferred. -/
theorem owed_eq_zero (h : ∀ p ∈ ps, (s.mem p).hw.Honest) :
    s.owed ps = 0 ↔ ∀ p ∈ ps, (s.mem p).hw.transferred = (s.mem p).hw.bufferLength := by
  rw [owed, List.sum_eq_zero_iff]
  constructor
  · intro hzero p hp
    exact (h p hp).untransferred_eq_zero.mp (hzero _ (List.mem_map_of_mem hp))
  · intro hall n hn
    obtain ⟨p, hp, rfl⟩ := List.mem_map.mp hn
    exact (h p hp).untransferred_eq_zero.mpr (hall p hp)

/-- What is owed only falls as the engine goes on. -/
theorem owed_anti (h : ∀ p ∈ ps, (s'.mem p).hw.bufferLength = (s.mem p).hw.bufferLength ∧
    (s.mem p).hw.transferred ≤ (s'.mem p).hw.transferred) : s'.owed ps ≤ s.owed ps := by
  refine List.sum_le_sum ?_
  intro p hp
  exact XilinxDmaDescHw.untransferred_anti (h p hp).1 (h p hp).2

end XilinxDmaChan

/-! ## The loop -/

/-- **No round of the loop wraps**, as long as the segments fit into a pool. -/
theorem toNat_residueAfter {s : XilinxDmaChan cfg} {ps : List SegPtr}
    (hlength : ps.length ≤ xilinxDmaNumDescs) (hhonest : ∀ p ∈ ps, (s.mem p).hw.Honest) :
    (residueAfter s ps).toNat = s.owed ps := by
  have hlt := s.owed_lt hlength
  rw [residueAfter_eq hhonest, BitVec.toNat_ofNat, Nat.mod_eq_of_lt (by omega)]

/-- **The residue is exact**: in every round the accumulator is the number of bytes that are left
of the segments so far, the result is zero exactly when nothing is left, and it does not go up when
the engine has reported more. -/
theorem residue_exact {s : XilinxDmaChan cfg} {d : XilinxDmaTxDescriptor cfg}
    (hlength : d.segments.length ≤ xilinxDmaNumDescs)
    (hhonest : ∀ p ∈ d.segments, (s.mem p).hw.Honest) :
    (residueOf s d).toNat = s.owed d.segments ∧
    (∀ k, (residueAfter s (d.segments.take k)).toNat = s.owed (d.segments.take k)) ∧
    (residueOf s d = 0 ↔
      ∀ p ∈ d.segments, (s.mem p).hw.transferred = (s.mem p).hw.bufferLength) ∧
    ∀ s' : XilinxDmaChan cfg,
      (∀ p ∈ d.segments, (s'.mem p).hw.bufferLength = (s.mem p).hw.bufferLength ∧
        (s.mem p).hw.transferred ≤ (s'.mem p).hw.transferred ∧ (s'.mem p).hw.Honest) →
      residueOf s' d ≤ residueOf s d := by
  have hexact : (residueOf s d).toNat = s.owed d.segments := toNat_residueAfter hlength hhonest
  refine ⟨hexact, ?_, ?_, ?_⟩
  · intro k
    refine toNat_residueAfter ?_ ?_
    · exact (List.length_take_le' _ _).trans hlength
    · intro p hp
      exact hhonest p (List.mem_of_mem_take hp)
  · rw [← BitVec.toNat_inj, hexact]
    exact XilinxDmaChan.owed_eq_zero hhonest
  · intro s' hmore
    have hexact' : (residueOf s' d).toNat = s'.owed d.segments :=
      toNat_residueAfter hlength fun p hp => (hmore p hp).2.2
    rw [BitVec.le_def, hexact, hexact']
    apply XilinxDmaChan.owed_anti
    intro p hp
    exact ⟨(hmore p hp).1, (hmore p hp).2.1⟩

/-- Two segments of 100 and 50 bytes with their frame flags, and the engine has completed both with
`n` bytes. -/
def twoCompleted (n : BitVec 32) : XilinxDmaChan .addr32 :=
  { kzallocChan true 0 with
    mem := fun p =>
      let control := if p.index = 0 then xilinxDmaBdSop ||| 100 else xilinxDmaBdEop ||| 50
      ⟨{ zeroDescHw with control := control, status := 0x80000000 ||| n }, 0⟩ }

/-- The descriptor of both. -/
def twoSegments : XilinxDmaTxDescriptor .addr32 where
  id := 0
  cookie := 2
  phys := 0
  callback := none
  segments := [⟨0, 0⟩, ⟨0, 1⟩]
  segments_ne := List.cons_ne_nil _ _
  direction := .memToDev
  cyclic := false

/-- Of two segments 70 bytes are owed, and fewer when the engine has done more. -/
theorem residue_exact_two :
    (residueOf (twoCompleted 40) twoSegments).toNat = 70 ∧
      residueOf (twoCompleted 40) twoSegments ≠ 0 ∧
      residueOf (twoCompleted 50) twoSegments ≤ residueOf (twoCompleted 40) twoSegments := by
  obtain ⟨hexact, -, hzero, hanti⟩ :=
    residue_exact (s := twoCompleted 40) (d := twoSegments) (by decide) (by decide)
  refine ⟨?_, ?_, ?_⟩
  · rw [hexact]
    decide
  · rw [ne_eq, hzero]
    decide
  · exact hanti (twoCompleted 50) (by decide)

/-! ## In a run -/

namespace VxdmaSys

/-- The segments of a live descriptor are different from each other. -/
theorem OwnedOnce.live_nodup {s : VxdmaSys cfg} (hs : OwnedOnce s) {d : XilinxDmaTxDescriptor cfg}
    (hd : d ∈ s.liveDescs) : d.segments.Nodup := by
  have hle : (↑(segsOf s.liveDescs) : Multiset SegPtr) ≤ s.owned := by
    refine Multiset.le_iff_exists_add.mpr ⟨↑s.chan.freeSegList + ↑(segsOf s.prepared) +
      ↑(s.calls.flatMap Call.segs), ?_⟩
    simp only [liveDescs, owned, XilinxDmaChan.owned, segsOf_append, ← Multiset.coe_add]
    abel
  have hnodup : (segsOf s.liveDescs).Nodup :=
    Multiset.coe_nodup.mp (Multiset.nodup_of_le hle hs.nodup)
  exact (List.nodup_flatMap.mp hnodup).1 d hd

/-- What a run keeps when the engine reports no more than there is. -/
structure HonestInv (s : VxdmaSys cfg) : Prop where
  once : OwnedOnce s
  clean : s.chan.PoolClean
  honest : ∀ p, (s.chan.mem p).hw.Honest

/-- **In every run** the residue of a live descriptor is exact: its segments are different ones
of its pool, and so there are no more than the pool has. -/
theorem live_residue_exact {hasSg : Bool} {ctrlOffset : Nat} {dmacr : BitVec 32} {s : VxdmaSys cfg}
    (h : Reachable sectionStep HonestDevice (probed hasSg ctrlOffset dmacr) s)
    {d : XilinxDmaTxDescriptor cfg} (hd : d ∈ s.liveDescs) {pool : Nat}
    (hpool : ∀ p ∈ d.segments, p.pool = pool) :
    (residueOf s.chan d).toNat = s.chan.owed d.segments := by
  have hinv : HonestInv s := by
    refine h.invariant ?_ ?_
    · refine ⟨probed_ownedOnce hasSg ctrlOffset dmacr, ?_, ?_⟩
      · intro p hp
        cases hp
      · intro p
        have hzero : zeroDescHw.Honest := by decide
        exact hzero
    · intro t a t' ht hok hstep
      exact ⟨sectionStep_ownedOnce ht.once hstep, sectionStep_poolClean ht.once ht.clean hstep,
        sectionStep_honest ht.clean ht.honest hok hstep⟩
  have hlength := segments_length_le (hinv.once.live_nodup hd) hpool
  exact toNat_residueAfter hlength fun p _ => hinv.honest p

end VxdmaSys

end PetalinuxDriver
