import PetalinuxDriver.Analysis.BuilderEffects

/-!
# What a builder writes into its segments

The address and the length that the engine finds in a segment are those of a round of the builder:
the flags that the end of a builder adds to the control word do not reach its length field. Every
segment of a descriptor covers a chunk (`prepSlaveSg_covers`), and the last chunk is covered.
-/

set_option autoImplicit false

namespace PetalinuxDriver

variable {cfg : PhysAddrConfig}

/-! ## One hardware descriptor -/

namespace XilinxDmaDescHw

/-- The buffer address as the engine reads it. -/
def bufferAddr (cfg : PhysAddrConfig) (hw : XilinxDmaDescHw) : DmaAddr cfg :=
  match cfg with
  | .addr32 => hw.bufAddr
  | .addr64 => hw.bufAddrMsb ++ hw.bufAddr

/-- The number of bytes, as the engine reads it. -/
def bufferLength (hw : XilinxDmaDescHw) : Nat := (hw.control &&& xilinxDmaMaxTransLen).toNat

/-- The engine finds this chunk. -/
def Covers (hw : XilinxDmaDescHw) (c : Chunk cfg) : Prop :=
  hw.bufferAddr cfg = c.addr ∧ hw.bufferLength = c.copy

end XilinxDmaDescHw

/-- The two halves of a 64-bit address make up the address. -/
theorem upper_append_lower (a : BitVec 64) : upper32Bits a ++ lower32Bits a = a := by
  unfold upper32Bits lower32Bits
  ext i hi
  simp only [BitVec.getElem_append, BitVec.getElem_setWidth, BitVec.getLsbD_ushiftRight]
  split
  · exact (BitVec.getLsbD_eq_getElem hi)
  · have hshift : 16 + (16 + (i - 32)) = i := by omega
    rw [hshift]
    exact (BitVec.getLsbD_eq_getElem hi)

/-- The length field is the low 23 bits. -/
theorem and_maxTransLen_eq (a : BitVec 32) :
    (a &&& xilinxDmaMaxTransLen).toNat = a.toNat % 2 ^ 23 := by
  have hmask : xilinxDmaMaxTransLen.toNat = 2 ^ 23 - 1 := by decide
  rw [BitVec.toNat_and, hmask, Nat.and_two_pow_sub_one_eq_mod]

/-- A length that fits is found again. -/
theorem and_maxTransLen {n : Nat} (h : n ≤ xilinxDmaMaxTransLen.toNat) :
    (BitVec.ofNat 32 n &&& xilinxDmaMaxTransLen).toNat = n := by
  have hmask : xilinxDmaMaxTransLen.toNat = 2 ^ 23 - 1 := by decide
  rw [hmask] at h
  rw [and_maxTransLen_eq, BitVec.toNat_ofNat]
  omega

/-- A flag outside the length field leaves the length as it is. -/
theorem or_and_maxTransLen (control : BitVec 32) {flag : BitVec 32}
    (hflag : flag &&& xilinxDmaMaxTransLen = 0) :
    (control ||| flag) &&& xilinxDmaMaxTransLen = control &&& xilinxDmaMaxTransLen := by
  rw [BitVec.and_comm, BitVec.and_or_distrib_left, BitVec.and_comm xilinxDmaMaxTransLen flag,
    hflag, BitVec.and_comm]
  exact BitVec.or_zero

/-- A round writes the length and no flags. -/
theorem fillHwDesc_control (app : Option AppWords) (c : Chunk cfg) (hw : XilinxDmaDescHw) :
    (fillHwDesc app c hw).control = BitVec.ofNat 32 c.copy := by
  cases cfg <;> cases app <;> rfl

/-- A round writes its address whole. -/
theorem fillHwDesc_bufferAddr (app : Option AppWords) (c : Chunk cfg) (hw : XilinxDmaDescHw) :
    (fillHwDesc app c hw).bufferAddr cfg = c.addr := by
  cases cfg with
  | addr32 =>
    have hlow : lower32Bits c.addr = c.addr := BitVec.setWidth_eq _
    cases app <;> exact hlow
  | addr64 => cases app <;> exact upper_append_lower c.addr

/-- A round covers its chunk. -/
theorem fillHwDesc_covers (app : Option AppWords) {c : Chunk cfg} (hw : XilinxDmaDescHw)
    (h : c.copy ≤ xilinxDmaMaxTransLen.toNat) : (fillHwDesc app c hw).Covers c := by
  constructor
  · exact fillHwDesc_bufferAddr app c hw
  · rw [XilinxDmaDescHw.bufferLength, fillHwDesc_control]
    exact and_maxTransLen h

/-- A flag outside the length field leaves the chunk as it is. -/
theorem orControl_covers {s : XilinxDmaChan cfg} {p q : SegPtr} {flag : BitVec 32} {c : Chunk cfg}
    (hflag : flag &&& xilinxDmaMaxTransLen = 0) (h : (s.mem q).hw.Covers c) :
    ((orControl s p flag).mem q).hw.Covers c := by
  by_cases hq : q = p
  · subst hq
    simp only [orControl, XilinxDmaChan.setHw, Function.update_self]
    refine ⟨?_, ?_⟩
    · rw [← h.1]
      cases cfg <;> rfl
    · rw [← h.2]
      simp only [XilinxDmaDescHw.bufferLength, or_and_maxTransLen _ hflag]
  · simp only [orControl, XilinxDmaChan.setHw, Function.update_of_ne hq]
    exact h

/-! ## The rounds -/

/-- Every round stays within its entry and within the length field. -/
theorem chunkLoop_bounds {len fuel sgUsed : Nat} :
    ∀ r ∈ chunkLoop len fuel sgUsed, r.1 + r.2 ≤ len ∧ r.2 ≤ xilinxDmaMaxTransLen.toNat := by
  induction fuel generalizing sgUsed with
  | zero => simp [chunkLoop]
  | succ fuel ih =>
    unfold chunkLoop
    split
    · intro r hr
      rcases List.mem_cons.mp hr with rfl | hr
      · refine ⟨?_, ?_⟩
        · simp only
          omega
        · exact Nat.min_le_right _ _
      · exact ih r hr
    · simp

/-- The last round ends where the length ends. -/
theorem chunkLoop_last {len fuel sgUsed : Nat} (h : sgUsed < len) (hfuel : len - sgUsed ≤ fuel) :
    ∃ pre r, chunkLoop len fuel sgUsed = pre ++ [r] ∧ r.1 + r.2 = len := by
  induction fuel generalizing sgUsed with
  | zero => omega
  | succ fuel ih =>
    have hmax : 0 < xilinxDmaMaxTransLen.toNat := by decide
    unfold chunkLoop
    rw [if_pos h]
    by_cases hrest : sgUsed + min (len - sgUsed) xilinxDmaMaxTransLen.toNat < len
    · obtain ⟨pre, r, hloop, hend⟩ := ih hrest (by omega)
      refine ⟨(sgUsed, min (len - sgUsed) xilinxDmaMaxTransLen.toNat) :: pre, r, ?_, hend⟩
      simp only [hloop, List.cons_append]
    · refine ⟨[], (sgUsed, min (len - sgUsed) xilinxDmaMaxTransLen.toNat), ?_, ?_⟩
      · cases fuel with
        | zero => simp [chunkLoop]
        | succ fuel => simp [chunkLoop, hrest]
      · simp only
        omega

/-- So many rounds are not enough exactly when they leave bytes over. -/
theorem lt_chunkLoop_length {len fuel sgUsed n : Nat} (hfuel : len - sgUsed ≤ fuel) :
    n < (chunkLoop len fuel sgUsed).length ↔
      sgUsed + n * xilinxDmaMaxTransLen.toNat < len := by
  have hmax : 0 < xilinxDmaMaxTransLen.toNat := by decide
  generalize hm : xilinxDmaMaxTransLen.toNat = m at *
  induction fuel generalizing sgUsed n with
  | zero =>
    simp only [chunkLoop, List.length_nil, Nat.not_lt_zero, false_iff]
    omega
  | succ fuel ih =>
    unfold chunkLoop
    rw [hm]
    by_cases hless : sgUsed < len
    · rw [if_pos hless, List.length_cons]
      cases n with
      | zero => simp [hless]
      | succ n =>
        have hround : sgUsed + min (len - sgUsed) m + n * m < len ↔
            sgUsed + (n + 1) * m < len := by
          rw [Nat.add_mul]
          generalize n * m = k
          omega
        have hless : len - (sgUsed + min (len - sgUsed) m) ≤ fuel := by omega
        exact Nat.succ_lt_succ_iff.trans ((ih hless).trans hround)
    · rw [if_neg hless]
      simp only [List.length_nil, Nat.not_lt_zero, false_iff]
      omega

/-- There is a round for each full length that is not enough. -/
theorem lt_chunksOf_length (base : DmaAddr cfg) (len n : Nat) :
    n < (chunksOf base len).length ↔ n * xilinxDmaMaxTransLen.toNat < len := by
  rw [chunksOf, List.length_map, lt_chunkLoop_length (Nat.sub_le len 0), Nat.zero_add]

/-- A buffer with a byte has a chunk. -/
theorem chunksOf_ne_nil_iff (base : DmaAddr cfg) (len : Nat) :
    chunksOf base len ≠ [] ↔ 0 < len := by
  rw [← List.length_pos_iff, lt_chunksOf_length, Nat.zero_mul]

/-- Each segment of a builder that got through all its rounds covers one of them, memory is
changed nowhere else, and the last round is covered. -/
theorem buildLoop_covers (cs : List (Chunk cfg)) (b : TxBuild) (s : XilinxDmaChan cfg)
    (hcopy : ∀ c ∈ cs, c.copy ≤ xilinxDmaMaxTransLen.toNat)
    (hthrough : (buildLoop cs b s).2.2 = true) :
    (∀ p, (∃ c ∈ cs, ((buildLoop cs b s).1.mem p).hw.Covers c) ∨
        (buildLoop cs b s).1.mem p = s.mem p) ∧
      (∀ p ∈ (buildLoop cs b s).2.1.segments, p ∈ b.segments ∨
        ∃ c ∈ cs, ((buildLoop cs b s).1.mem p).hw.Covers c) ∧
      ∀ pre c, cs = pre ++ [c] →
        ∃ p ∈ (buildLoop cs b s).2.1.segments, ((buildLoop cs b s).1.mem p).hw.Covers c := by
  induction cs generalizing b s with
  | nil =>
    refine ⟨fun p => Or.inr rfl, fun p hp => Or.inl hp, ?_⟩
    intro pre c hnil
    simp at hnil
  | cons c cs ih =>
    cases hfree : s.freeSegList with
    | nil => simp [buildLoop, buildRound_nil c b hfree] at hthrough
    | cons p₀ ps =>
      have hrest : ∀ c ∈ cs, c.copy ≤ xilinxDmaMaxTransLen.toNat :=
        fun c' hc' => hcopy c' (List.mem_cons_of_mem c hc')
      simp only [buildLoop, buildRound_cons c b hfree] at hthrough ⊢
      obtain ⟨hmem, hsegs, hlast⟩ := ih _ _ hrest hthrough
      simp only at hmem hsegs
      have hfirst : (fillHwDesc b.app c (s.mem p₀).hw).Covers c :=
        fillHwDesc_covers b.app _ (hcopy c List.mem_cons_self)
      refine ⟨?_, ?_, ?_⟩
      · intro p
        rcases hmem p with ⟨c', hc', hcov⟩ | hsame
        · exact Or.inl ⟨c', List.mem_cons_of_mem c hc', hcov⟩
        · by_cases hp : p = p₀
          · subst hp
            rw [Function.update_self] at hsame
            refine Or.inl ⟨c, List.mem_cons_self, ?_⟩
            rw [hsame]
            exact hfirst
          · rw [Function.update_of_ne hp] at hsame
            exact Or.inr hsame
      · intro p hp
        rcases hsegs p hp with hold | ⟨c', hc', hcov⟩
        · rcases List.mem_append.mp hold with hold | hnew
          · exact Or.inl hold
          · -- the segment of this round, unless a later one took it again
            right
            obtain rfl := List.mem_singleton.mp hnew
            rcases hmem p with ⟨c', hc', hcov⟩ | hsame
            · exact ⟨c', List.mem_cons_of_mem c hc', hcov⟩
            · rw [Function.update_self] at hsame
              refine ⟨c, List.mem_cons_self, ?_⟩
              rw [hsame]
              exact hfirst
        · exact Or.inr ⟨c', List.mem_cons_of_mem c hc', hcov⟩
      · intro pre c' hsplit
        cases pre with
        | nil =>
          simp only [List.nil_append, List.cons.injEq] at hsplit
          obtain ⟨rfl, rfl⟩ := hsplit
          refine ⟨p₀, by simp [buildLoop], ?_⟩
          simp only [buildLoop, Function.update_self]
          exact hfirst
        | cons c'' pre =>
          simp only [List.cons_append, List.cons.injEq] at hsplit
          exact hlast pre c' hsplit.2

/-! ## The end of a builder -/

/-- The end of a builder leaves what each segment covers. -/
theorem finishBuild_covers {b : TxBuild} {s s' : XilinxDmaChan cfg}
    {d : XilinxDmaTxDescriptor cfg} (h : finishBuild b s = (s', .desc d)) :
    d.segments = b.segments ∧
      ∀ p (c : Chunk cfg), (s.mem p).hw.Covers c → (s'.mem p).hw.Covers c := by
  have hsop : xilinxDmaBdSop &&& xilinxDmaMaxTransLen = 0 := by decide
  have heop : xilinxDmaBdEop &&& xilinxDmaMaxTransLen = 0 := by decide
  unfold finishBuild at h
  split at h
  · cases h
  · rename_i first rest hsegs
    obtain ⟨rfl, hd⟩ := Prod.mk.inj h
    cases hd
    refine ⟨hsegs.symm, fun p c hcov => ?_⟩
    -- the cyclic mode changes registers only
    have hmode : ∀ t : XilinxDmaChan cfg, ((if b.cyclic then
        ({ t with ctrlReg := t.ctrlReg ||| xilinxDmaCrCyclicBdEnMask }).dmaCtrlWrite
          xilinxDmaRegControl (t.ctrlReg ||| xilinxDmaCrCyclicBdEnMask) else t).mem p) =
        t.mem p := by
      intro t
      split <;> rfl
    split
    · refine orControl_covers heop (orControl_covers hsop ?_)
      rw [hmode]
      exact hcov
    · rw [hmode]
      exact hcov

/-- **What a scatter-gather descriptor covers**: chunks of the scatterlist and nothing else, the
last one among them. -/
theorem prepSlaveSg_covers {args : PrepSlaveSgArgs cfg} {s s' : XilinxDmaChan cfg}
    {d : XilinxDmaTxDescriptor cfg} (h : xilinxDmaPrepSlaveSg args s = (s', .desc d)) :
    (∀ p ∈ d.segments, ∃ c ∈ sgChunks args.sgl, (s'.mem p).hw.Covers c) ∧
      ∀ pre c, sgChunks args.sgl = pre ++ [c] → ∃ p ∈ d.segments, (s'.mem p).hw.Covers c := by
  unfold xilinxDmaPrepSlaveSg at h
  cases hentry : prepSlaveSgEntry args s with
  | null =>
    rw [hentry] at h
    cases h
  | wild =>
    rw [hentry] at h
    cases h
  | build chunks b =>
    obtain ⟨rfl, hsegs, -, -⟩ := prepSlaveSgEntry_build hentry
    have hcopy : ∀ c ∈ sgChunks args.sgl, c.copy ≤ xilinxDmaMaxTransLen.toNat := by
      intro c hc
      obtain ⟨sg, -, hc⟩ := List.mem_flatMap.mp hc
      obtain ⟨r, hr, rfl⟩ := List.mem_map.mp hc
      exact (chunkLoop_bounds r hr).2
    have hcovers := buildLoop_covers (sgChunks args.sgl) b (kzallocDesc s) hcopy
    simp only [hentry, runPrep, runBuild] at h
    split at h
    · rename_i t b' hloop
      obtain ⟨hd, hkeep⟩ := finishBuild_covers h
      rw [hloop] at hcovers
      obtain ⟨-, hall, hlast⟩ := hcovers rfl
      rw [hsegs] at hall
      rw [hd]
      refine ⟨?_, ?_⟩
      · intro p hp
        obtain ⟨c, hc, hcov⟩ := (hall p hp).resolve_left List.not_mem_nil
        exact ⟨c, hc, hkeep p c hcov⟩
      · intro pre c hsplit
        obtain ⟨p, hp, hcov⟩ := hlast pre c hsplit
        exact ⟨p, hp, hkeep p c hcov⟩
    · cases h

/-- What an uninterrupted scatter-gather builder returns depends on the direction, the memory for
a descriptor, the number of rounds and the size of the pool. -/
theorem prepSlaveSg_outcome (args : PrepSlaveSgArgs cfg) (s : XilinxDmaChan cfg) :
    ((isSlaveDirection args.direction = false ∨ args.kzallocOk = false ∨
        s.freeSegList.length < (sgChunks args.sgl).length) ∧
      (xilinxDmaPrepSlaveSg args s).2 = .null) ∨
    (isSlaveDirection args.direction = true ∧ args.kzallocOk = true ∧
      ((sgChunks args.sgl = [] ∧ (xilinxDmaPrepSlaveSg args s).2 = .wild) ∨
        ((sgChunks args.sgl).length ≤ s.freeSegList.length ∧ sgChunks args.sgl ≠ [] ∧
          ∃ d, (xilinxDmaPrepSlaveSg args s).2 = .desc d))) := by
  cases hdir : isSlaveDirection args.direction with
  | false => exact Or.inl ⟨Or.inl rfl, by simp [xilinxDmaPrepSlaveSg, prepSlaveSgEntry, hdir, runPrep]⟩
  | true =>
    cases hkzalloc : args.kzallocOk with
    | false =>
      exact Or.inl ⟨Or.inr (Or.inl rfl),
        by simp [xilinxDmaPrepSlaveSg, prepSlaveSgEntry, hdir, hkzalloc, runPrep]⟩
    | true =>
      obtain ⟨b, hentry⟩ : ∃ b, prepSlaveSgEntry args s = .build (sgChunks args.sgl) b := by
        simp [prepSlaveSgEntry, hdir, hkzalloc]
      obtain ⟨-, hsegs, -, -⟩ := prepSlaveSgEntry_build hentry
      simp only [xilinxDmaPrepSlaveSg, hentry, runPrep]
      rcases runBuild_cases (sgChunks args.sgl) b (kzallocDesc s) hsegs with
        ⟨hshort, mem, -, h⟩ | ⟨hnil, h⟩ | ⟨hne, hlen, d, mem, -, -, -, -, -, -, -, h⟩
      · exact Or.inl ⟨Or.inr (Or.inr hshort), by rw [h]⟩
      · exact Or.inr ⟨trivial, trivial, Or.inl ⟨hnil, by rw [h]⟩⟩
      · exact Or.inr ⟨trivial, trivial, Or.inr ⟨hlen, hne, d, by rw [h]⟩⟩

end PetalinuxDriver
