import PetalinuxDriver.Analysis.BuilderSafety
import PetalinuxDriver.Analysis.BuiltWords

/-!
# The two builders agree

`xilinx_dma_prep_slave_sg` and `xilinx_dma_prep_dma_cyclic` are two copies of one nested loop. A
cyclic request asks for the same pieces as the scatterlist that has one entry for each of its
periods (`sgChunks_periodEntries`), so the two loops take the same segments and write the same
words. What the cyclic copy does besides is set a mode bit in the control register and a flag in
the descriptor (`runBuild_asCyclic`), and this holds whatever the channel is like: a pool that runs
dry in the middle of a period stops both of them at the same segment.
-/

set_option autoImplicit false

namespace PetalinuxDriver

variable {cfg : PhysAddrConfig}

/-! ## The scatterlist of a cyclic request -/

/-- The entry of the `i`-th period. -/
def periodEntry (bufAddr : DmaAddr cfg) (periodLen i : Nat) : ScatterEntry cfg where
  dmaAddress := bufAddr + BitVec.ofNat cfg.width (i * periodLen)
  dmaLength := BitVec.ofNat 32 periodLen

/-- One entry for each period that fits into the buffer. -/
def PrepDmaCyclicArgs.periodEntries (args : PrepDmaCyclicArgs cfg) : List (ScatterEntry cfg) :=
  (List.range (args.bufLen.toNat / args.periodLen.toNat)).map
    (periodEntry args.bufAddr args.periodLen.toNat)

/-- The same request to the other builder, without application words. -/
def PrepDmaCyclicArgs.asSlaveSg (args : PrepDmaCyclicArgs cfg) : PrepSlaveSgArgs cfg where
  sgl := args.periodEntries
  direction := args.direction
  context := none
  kzallocOk := args.kzallocOk

/-- The two nested loops go over the same pieces. -/
theorem sgChunks_periodEntries (args : PrepDmaCyclicArgs cfg)
    (hshort : args.periodLen.toNat < 2 ^ 32) :
    sgChunks args.periodEntries =
      cyclicChunks args.bufAddr (args.bufLen.toNat / args.periodLen.toNat)
        args.periodLen.toNat := by
  have hlength : (BitVec.ofNat 32 args.periodLen.toNat).toNat = args.periodLen.toNat := by
    rw [BitVec.toNat_ofNat]
    exact Nat.mod_eq_of_lt hshort
  simp only [sgChunks, cyclicChunks, PrepDmaCyclicArgs.periodEntries, List.flatMap_map,
    periodEntry, hlength, Nat.mul_comm]

/-! ## What the cyclic builder does besides -/

/-- The descriptor of the other builder. -/
def XilinxDmaTxDescriptor.asCyclic (d : XilinxDmaTxDescriptor cfg) : XilinxDmaTxDescriptor cfg :=
  { d with cyclic := true }

/-- A builder that returned a descriptor, with the cyclic mode set on top of it. -/
def asCyclic : XilinxDmaChan cfg × PrepResult cfg → XilinxDmaChan cfg × PrepResult cfg
  | (s, .desc d) =>
    let s := { s with ctrlReg := s.ctrlReg ||| xilinxDmaCrCyclicBdEnMask }
    (s.dmaCtrlWrite xilinxDmaRegControl s.ctrlReg, .desc d.asCyclic)
  | r => r

/-- The loops do not look at the flag. -/
theorem buildLoop_cyclic (cs : List (Chunk cfg)) (b : TxBuild) (s : XilinxDmaChan cfg)
    (flag : Bool) :
    buildLoop cs { b with cyclic := flag } s =
      ((buildLoop cs b s).1, { (buildLoop cs b s).2.1 with cyclic := flag },
        (buildLoop cs b s).2.2) := by
  induction cs generalizing b s with
  | nil => rfl
  | cons c cs ih =>
    cases hfree : s.freeSegList with
    | nil => simp only [buildLoop, buildRound_nil _ _ hfree]
    | cons p ps =>
      simp only [buildLoop, buildRound_cons _ _ hfree]
      exact ih { b with segments := b.segments ++ [p] } _

/-- The end of a builder does not look at the mark of a cyclic one. -/
theorem finishBuild_asCyclic (b : TxBuild) (s : XilinxDmaChan cfg) :
    finishBuild { b with cyclic := true } s = asCyclic (finishBuild { b with cyclic := false } s) := by
  obtain ⟨id, direction, app, cyclic, segments⟩ := b
  cases segments with
  | nil => rfl
  | cons first rest =>
    by_cases hdir : direction = .memToDev
    · simp [finishBuild, asCyclic, hdir, XilinxDmaTxDescriptor.asCyclic, orControl,
        XilinxDmaTxDescriptor.lastSegment, XilinxDmaChan.setHw, XilinxDmaChan.dmaCtrlWrite,
        XilinxDmaChan.emit]
    · simp [finishBuild, asCyclic, hdir, XilinxDmaTxDescriptor.asCyclic]

/-- From its loops on, the cyclic builder is the other one with the mode set at its end. -/
theorem runBuild_asCyclic (cs : List (Chunk cfg)) (b : TxBuild) (s : XilinxDmaChan cfg) :
    runBuild cs { b with cyclic := true } s =
      asCyclic (runBuild cs { b with cyclic := false } s) := by
  unfold runBuild
  rw [buildLoop_cyclic, buildLoop_cyclic cs b s false]
  obtain ⟨s', b', through⟩ := buildLoop cs b s
  cases through with
  | true => exact finishBuild_asCyclic b' s'
  | false => rfl

/-- What is identical in the results of the two builders: the segments and every word of the
memory behind them, what is left of the pool, and the descriptors up to the flag. -/
structure SameTransfer (cyclic sg : XilinxDmaChan cfg × XilinxDmaTxDescriptor cfg) : Prop where
  segments : cyclic.2.segments = sg.2.segments
  mem : cyclic.1.mem = sg.1.mem
  freeSegList : cyclic.1.freeSegList = sg.1.freeSegList
  phys : cyclic.2.phys = sg.2.phys
  descriptor : cyclic.2 = sg.2.asCyclic
  flag : sg.2.cyclic = false

/-- But for the mark they are the same transfer. -/
theorem sameTransfer_asCyclic {s s' : XilinxDmaChan cfg} {d d' : XilinxDmaTxDescriptor cfg}
    (hflag : d.cyclic = false) (h : (s', PrepResult.desc d') = asCyclic (s, .desc d)) :
    SameTransfer (s', d') (s, d) := by
  obtain ⟨rfl, hd⟩ := Prod.mk.inj h
  cases hd
  exact ⟨rfl, rfl, rfl, rfl, rfl, hflag⟩

/-- The cyclic builder as a function of the other one. -/
theorem prepDmaCyclic_eq (args : PrepDmaCyclicArgs cfg) (s : XilinxDmaChan cfg)
    (hpos : 0 < args.periodLen.toNat) (hshort : args.periodLen.toNat < 2 ^ 32)
    (hmany : args.bufLen.toNat / args.periodLen.toNat < 2 ^ 31) :
    xilinxDmaPrepDmaCyclic args s = asCyclic (xilinxDmaPrepSlaveSg args.asSlaveSg s) := by
  have hperiods : args.bufLen.toNat / args.periodLen.toNat % 2 ^ 32 =
      args.bufLen.toNat / args.periodLen.toNat := Nat.mod_eq_of_lt (by omega)
  have hpieces : sgChunks args.asSlaveSg.sgl = _ := sgChunks_periodEntries args hshort
  unfold xilinxDmaPrepDmaCyclic xilinxDmaPrepSlaveSg prepDmaCyclicEntry prepSlaveSgEntry
  rw [if_neg (Nat.ne_of_gt hpos), hperiods, hpieces]
  by_cases hdir : isSlaveDirection args.direction
  · by_cases hkzalloc : args.kzallocOk
    · simp only [PrepDmaCyclicArgs.asSlaveSg, hdir, hkzalloc, Bool.not_true, Bool.false_eq_true,
        if_false, runPrep, ite_self]
      exact runBuild_asCyclic _ ⟨s.kzallocs, args.direction, none, false, []⟩ (kzallocDesc s)
    · simp [PrepDmaCyclicArgs.asSlaveSg, hdir, hkzalloc, runPrep, asCyclic]
  · simp [PrepDmaCyclicArgs.asSlaveSg, hdir, runPrep, asCyclic]

/-- A descriptor of the scatter-gather builder is not cyclic. -/
theorem prepSlaveSg_flag {args : PrepSlaveSgArgs cfg} {s s' : XilinxDmaChan cfg}
    {d : XilinxDmaTxDescriptor cfg} (h : xilinxDmaPrepSlaveSg args s = (s', .desc d)) :
    d.cyclic = false := by
  rcases runPrep_cases (prepSlaveSgEntry_fresh args s) with
    ⟨k, mem, -, -, hrun⟩ | ⟨s'', hrun⟩ | ⟨chunks, b, d', mem, hentry, hbuilt, hrun⟩
  · rw [xilinxDmaPrepSlaveSg, hrun] at h
    cases h
  · rw [xilinxDmaPrepSlaveSg, hrun] at h
    cases h
  · rw [xilinxDmaPrepSlaveSg, hrun] at h
    cases h
    exact hbuilt.cyclic.trans (prepSlaveSgEntry_build hentry).2.2.2

/-- **The cyclic builder agrees with the scatter-gather builder** on the scatterlist of its
periods. This needs neither clean segments nor addresses that do not wrap, since the two copies
compute the same sums and leave alone the same words. -/
theorem prepDmaCyclic_agrees (args : PrepDmaCyclicArgs cfg) (s : XilinxDmaChan cfg)
    (hpos : 0 < args.periodLen.toNat) (hshort : args.periodLen.toNat < 2 ^ 32)
    (hmany : args.bufLen.toNat / args.periodLen.toNat < 2 ^ 31) :
    ((∃ s' d, xilinxDmaPrepDmaCyclic args s = (s', .desc d)) ↔
      ∃ s' d, xilinxDmaPrepSlaveSg args.asSlaveSg s = (s', .desc d)) ∧
    ∀ s₁ d₁ s₂ d₂, xilinxDmaPrepDmaCyclic args s = (s₁, .desc d₁) →
      xilinxDmaPrepSlaveSg args.asSlaveSg s = (s₂, .desc d₂) →
      SameTransfer (s₁, d₁) (s₂, d₂) := by
  rw [prepDmaCyclic_eq args s hpos hshort hmany]
  refine ⟨⟨?_, ?_⟩, ?_⟩
  · rintro ⟨s', d, h⟩
    revert h
    obtain ⟨s₂, r⟩ := xilinxDmaPrepSlaveSg args.asSlaveSg s
    intro h
    cases r with
    | desc d₂ => exact ⟨s₂, d₂, rfl⟩
    | null => cases h
    | wild => cases h
  · rintro ⟨s', d, h⟩
    rw [h]
    exact ⟨_, _, rfl⟩
  · intro s₁ d₁ s₂ d₂ h₁ h₂
    rw [h₂] at h₁
    exact sameTransfer_asCyclic (prepSlaveSg_flag h₂) h₁.symm

/-- Three periods, each one byte longer than a segment can be. -/
def threePeriods : PrepDmaCyclicArgs .addr32 :=
  ⟨0x1000, 0x1800000, 0x800000, .memToDev, true⟩

/-- Three periods. -/
theorem prepDmaCyclic_agrees_threePeriods :
    ∃ s₁ d₁ s₂ d₂, xilinxDmaPrepDmaCyclic threePeriods freshChan = (s₁, .desc d₁) ∧
      xilinxDmaPrepSlaveSg threePeriods.asSlaveSg freshChan = (s₂, .desc d₂) ∧
      SameTransfer (s₁, d₁) (s₂, d₂) := by
  obtain ⟨hiff, hsame⟩ := prepDmaCyclic_agrees threePeriods freshChan (by decide) (by decide)
    (by decide)
  have hneeded : segmentsNeeded threePeriods.asSlaveSg.sgl = 6 := by decide +kernel
  have hpool : freshChan.freeSegList.length = 255 := by decide +kernel
  have hreturns : ∃ s' d, xilinxDmaPrepSlaveSg threePeriods.asSlaveSg freshChan =
      (s', .desc d) :=
    prepSlaveSg_returns rfl rfl (by omega) (by omega)
  obtain ⟨s₂, d₂, h₂⟩ := hreturns
  obtain ⟨s₁, d₁, h₁⟩ := hiff.mpr ⟨s₂, d₂, h₂⟩
  exact ⟨s₁, d₁, s₂, d₂, h₁, h₂, hsame s₁ d₁ s₂ d₂ h₁ h₂⟩

end PetalinuxDriver
