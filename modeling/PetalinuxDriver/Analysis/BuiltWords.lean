import PetalinuxDriver.Analysis.SgTiling

/-!
# The words of a new descriptor

What the two builders have in common at the end: a descriptor that was returned has the first free
segments, one for each round in the order of the rounds, and each of them has the words that its
round wrote over the old ones, with the flags of its place (`runPrep_words`). So whatever holds of
the words of a descriptor is a statement about the rounds and about the segments of the pool.
-/

set_option autoImplicit false

namespace PetalinuxDriver

variable {cfg : PhysAddrConfig}

/-- `hw.control |= flag`. -/
def XilinxDmaDescHw.flagged (hw : XilinxDmaDescHw) (flag : BitVec 32) : XilinxDmaDescHw :=
  { hw with control := hw.control ||| flag }

/-- No flags change nothing. -/
@[simp] theorem flagged_zero (hw : XilinxDmaDescHw) : hw.flagged 0#32 = hw := by
  simp [XilinxDmaDescHw.flagged]

/-- Flags are added one after the other. -/
theorem flagged_flagged (hw : XilinxDmaDescHw) (f g : BitVec 32) :
    (hw.flagged f).flagged g = hw.flagged (f ||| g) := by
  simp [XilinxDmaDescHw.flagged, BitVec.or_assoc]

/-- A flag goes to one segment. -/
theorem orControl_mem (s : XilinxDmaChan cfg) (p q : SegPtr) (flag : BitVec 32) :
    (orControl s p flag).mem q =
      { s.mem q with hw := (s.mem q).hw.flagged (if q = p then flag else 0) } := by
  by_cases hq : q = p
  · subst hq
    simp [orControl, XilinxDmaChan.setHw, XilinxDmaDescHw.flagged]
  · simp [orControl, XilinxDmaChan.setHw, hq]

/-- The end of a builder adds flags to words, and nothing else. -/
theorem finishBuild_mem {b : TxBuild} {s s' : XilinxDmaChan cfg}
    {d : XilinxDmaTxDescriptor cfg} (h : finishBuild b s = (s', .desc d)) (p : SegPtr) :
    s'.mem p = { s.mem p with hw := (s.mem p).hw.flagged (d.flags p) } := by
  unfold finishBuild at h
  split at h
  · cases h
  · obtain ⟨rfl, hd⟩ := Prod.mk.inj h
    cases hd
    have hmode : ∀ t : XilinxDmaChan cfg, (if b.cyclic then
        ({ t with ctrlReg := t.ctrlReg ||| xilinxDmaCrCyclicBdEnMask }).dmaCtrlWrite
          xilinxDmaRegControl (t.ctrlReg ||| xilinxDmaCrCyclicBdEnMask) else t).mem = t.mem := by
      intro t
      split <;> rfl
    by_cases hdir : b.direction = .memToDev
    · simp only [hdir, if_true, orControl_mem, hmode, flagged_flagged,
        XilinxDmaTxDescriptor.flags, XilinxDmaTxDescriptor.firstSegment, List.head_cons, true_and]
    · simp [hdir, hmode, XilinxDmaTxDescriptor.flags]

/-- What a builder left in the segments of the descriptor that it returned. -/
structure BuiltWords (chunks : List (Chunk cfg)) (b : TxBuild) (s s' : XilinxDmaChan cfg)
    (d : XilinxDmaTxDescriptor cfg) : Prop where
  chunks_ne : chunks ≠ []
  enough : chunks.length ≤ s.freeSegList.length
  segments : d.segments = s.freeSegList.take chunks.length
  direction : d.direction = b.direction
  words : List.Forall₂
    (fun p c => (s'.mem p).hw = (fillHwDesc b.app c (s.mem p).hw).flagged (d.flags p))
    d.segments chunks
  others : ∀ p ∉ d.segments, s'.mem p = s.mem p

/-- A descriptor flags its own segments only. -/
theorem flags_of_notMem {d : XilinxDmaTxDescriptor cfg} {p : SegPtr} (hp : p ∉ d.segments) :
    d.flags p = 0#32 := by
  have hfirst : p ≠ d.firstSegment := by
    rintro rfl
    exact hp (List.head_mem _)
  have hlast : p ≠ d.lastSegment := by
    rintro rfl
    exact hp (List.getLast_mem _)
  simp [XilinxDmaTxDescriptor.flags, hfirst, hlast]

/-- **The words of a new descriptor.** -/
theorem runBuild_words {chunks : List (Chunk cfg)} {b : TxBuild} {s s' : XilinxDmaChan cfg}
    {d : XilinxDmaTxDescriptor cfg} (hwf : s.FreeSegListWf) (hb : b.segments = [])
    (h : runBuild chunks b s = (s', .desc d)) : BuiltWords chunks b s s' d := by
  have hlen : chunks ≠ [] ∧ chunks.length ≤ s.freeSegList.length := by
    rcases runBuild_cases chunks b s hb with
      ⟨-, mem, -, hrun⟩ | ⟨-, hrun⟩ | ⟨hne, hlen, -⟩
    · rw [hrun] at h
      cases h
    · rw [hrun] at h
      cases h
    · exact ⟨hne, hlen⟩
  obtain ⟨mem, hloop, hfilled, hsame⟩ := buildLoop_filled chunks b s hwf hlen.2
  simp only [runBuild, hloop, hb, List.nil_append] at h
  have hmem := finishBuild_mem h
  have hsegs : d.segments = s.freeSegList.take chunks.length := (finishBuild_covers h).1
  refine ⟨hlen.1, hlen.2, hsegs, (finishBuild_control h d.firstSegment).1, ?_, ?_⟩
  · rw [hsegs]
    refine hfilled.imp fun p c hword => ?_
    rw [hmem p]
    simp only
    rw [hword]
  · intro p hp
    have hflags : d.flags p = 0#32 := flags_of_notMem hp
    rw [hsegs] at hp
    rw [hmem p, hflags]
    simp only [flagged_zero]
    exact hsame p hp

/-- What the two builders have in common at their end. -/
theorem runPrep_words {chunks : List (Chunk cfg)} {b : TxBuild} {s s' : XilinxDmaChan cfg}
    {d : XilinxDmaTxDescriptor cfg} (hwf : s.FreeSegListWf) (hb : b.segments = [])
    (h : runPrep (.build chunks b) s = (s', .desc d)) : BuiltWords chunks b s s' d := by
  have hwords := runBuild_words (s := kzallocDesc s) hwf hb h
  exact ⟨hwords.chunks_ne, hwords.enough, hwords.segments, hwords.direction, hwords.words,
    hwords.others⟩

/-- The scatter-gather builder returns a descriptor when it has a round and the pool has enough
segments. -/
theorem prepSlaveSg_returns {args : PrepSlaveSgArgs cfg} {s : XilinxDmaChan cfg}
    (hdir : isSlaveDirection args.direction = true) (hkzalloc : args.kzallocOk = true)
    (hround : segmentsNeeded args.sgl ≠ 0)
    (henough : segmentsNeeded args.sgl ≤ s.freeSegList.length) :
    ∃ s' d, xilinxDmaPrepSlaveSg args s = (s', .desc d) := by
  rw [← length_sgChunks] at hround henough
  rcases prepSlaveSg_outcome args s with
    ⟨hno | hno | hshort, -⟩ | ⟨-, -, ⟨hnil, -⟩ | ⟨-, -, d, hd⟩⟩
  · rw [hno] at hdir
    cases hdir
  · rw [hno] at hkzalloc
    cases hkzalloc
  · omega
  · rw [hnil] at hround
    exact absurd rfl hround
  · exact ⟨(xilinxDmaPrepSlaveSg args s).1, d, Prod.ext rfl hd⟩

/-- The scatter-gather builder that returned a descriptor, up to its loops. -/
theorem prepSlaveSg_words {args : PrepSlaveSgArgs cfg} {s s' : XilinxDmaChan cfg}
    {d : XilinxDmaTxDescriptor cfg} (hwf : s.FreeSegListWf)
    (h : xilinxDmaPrepSlaveSg args s = (s', .desc d)) :
    BuiltWords (sgChunks args.sgl)
      ⟨s.kzallocs, args.direction, if args.direction = .memToDev then args.context else none,
        false, []⟩ s s' d := by
  unfold xilinxDmaPrepSlaveSg prepSlaveSgEntry at h
  split at h
  · cases h
  · split at h
    · cases h
    · exact runPrep_words hwf rfl h

/-- The cyclic builder that returned a descriptor, up to its loops. -/
theorem prepDmaCyclic_words {args : PrepDmaCyclicArgs cfg} {s s' : XilinxDmaChan cfg}
    {d : XilinxDmaTxDescriptor cfg} (hwf : s.FreeSegListWf)
    (h : xilinxDmaPrepDmaCyclic args s = (s', .desc d)) :
    BuiltWords (cyclicChunks args.bufAddr ((args.bufLen.toNat / args.periodLen.toNat) % 2 ^ 32)
        args.periodLen.toNat)
      ⟨s.kzallocs, args.direction, none, true, []⟩ s s' d := by
  unfold xilinxDmaPrepDmaCyclic prepDmaCyclicEntry at h
  split at h
  · cases h
  · simp only at h
    split at h
    · cases h
    · split at h
      · cases h
      · exact runPrep_words hwf rfl h

end PetalinuxDriver
