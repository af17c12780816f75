import Mathlib.Algebra.BigOperators.Group.List.Basic
import PetalinuxDriver.Analysis.ChannelEffects

/-!
# What the two builders do to the channel

`xilinx_dma_prep_slave_sg` and `xilinx_dma_prep_dma_cyclic` differ in the rounds of their loops
and in what they do after them, and share everything else. A builder takes one segment for each
round from the head of `free_seg_list`. It gets through exactly when there are enough
(`buildLoop_cases`); if not, it has drained the pool and puts all of it back in the same order
(`runBuild_cases`). Neither outcome touches the address or the link of any segment, nor any word
of a segment that was not free.
-/

set_option autoImplicit false

namespace PetalinuxDriver

variable {cfg : PhysAddrConfig}

/-! ## The rounds -/

/-- The chunks of one loop add up to what is left of the length. -/
theorem chunkLoop_sum (len fuel sgUsed : Nat) (h : len - sgUsed ≤ fuel) :
    ((chunkLoop len fuel sgUsed).map Prod.snd).sum = len - sgUsed := by
  induction fuel generalizing sgUsed with
  | zero =>
    simp only [chunkLoop, List.map_nil, List.sum_nil]
    omega
  | succ fuel ih =>
    unfold chunkLoop
    split
    · have hmax : 0 < xilinxDmaMaxTransLen.toNat := by decide
      rw [List.map_cons, List.sum_cons, ih _ (by omega)]
      omega
    · simp only [List.map_nil, List.sum_nil]
      omega

/-- The chunks of an entry cover its length. -/
theorem chunksOf_sum (base : DmaAddr cfg) (len : Nat) :
    ((chunksOf base len).map Chunk.copy).sum = len := by
  have h := chunkLoop_sum len len 0 (by omega)
  simpa [chunksOf, Function.comp_def] using h

/-- A scatterlist of positive total length has a round. -/
theorem sgChunks_ne_nil {sgl : List (ScatterEntry cfg)}
    (h : 0 < (sgl.map fun sg => sg.dmaLength.toNat).sum) : sgChunks sgl ≠ [] := by
  intro hnil
  have hall : ∀ sg ∈ sgl, sg.dmaLength.toNat = 0 := by
    intro sg hsg
    have hchunks : chunksOf sg.dmaAddress sg.dmaLength.toNat = [] := by
      have := List.flatMap_eq_nil_iff.mp hnil
      exact this sg hsg
    have hsum := chunksOf_sum sg.dmaAddress sg.dmaLength.toNat
    rw [hchunks] at hsum
    exact hsum.symm
  have hzero : (sgl.map fun sg => sg.dmaLength.toNat).sum = 0 := by
    apply List.sum_eq_zero
    intro n hn
    obtain ⟨sg, hsg, rfl⟩ := List.mem_map.mp hn
    exact hall sg hsg
  omega

/-- A round leaves the lower half of the link. -/
@[simp] theorem fillHwDesc_nextDesc (app : Option AppWords) (c : Chunk cfg)
    (hw : XilinxDmaDescHw) : (fillHwDesc app c hw).nextDesc = hw.nextDesc := by
  cases cfg <;> cases app <;> rfl

/-- A round leaves the upper half of the link. -/
@[simp] theorem fillHwDesc_nextDescMsb (app : Option AppWords) (c : Chunk cfg)
    (hw : XilinxDmaDescHw) : (fillHwDesc app c hw).nextDescMsb = hw.nextDescMsb := by
  cases cfg <;> cases app <;> rfl

/-- Without a free segment a round fails. -/
theorem buildRound_nil (c : Chunk cfg) (b : TxBuild) {s : XilinxDmaChan cfg}
    (h : s.freeSegList = []) : buildRound c b s = none := by
  simp [buildRound, xilinxDmaAllocTxSegment, h]

/-- A round takes the first free segment and fills it. -/
theorem buildRound_cons (c : Chunk cfg) (b : TxBuild) {s : XilinxDmaChan cfg} {p : SegPtr}
    {ps : List SegPtr} (h : s.freeSegList = p :: ps) :
    buildRound c b s = some ({ b with segments := b.segments ++ [p] },
      { s with
        freeSegList := ps
        mem := Function.update s.mem p
          { s.mem p with hw := fillHwDesc b.app c (s.mem p).hw } }) := by
  simp [buildRound, xilinxDmaAllocTxSegment, h, XilinxDmaChan.setHw]

/-- A memory that differs from another only in the words that are not links, and only on the
given segments. -/
def WordsChanged (ps : List SegPtr) (mem mem' : SegPtr → XilinxDmaTxSegment cfg) : Prop :=
  LinksKept mem mem' ∧ ∀ p ∉ ps, mem' p = mem p

/-- No words change in memory that is left alone. -/
theorem WordsChanged.refl (ps : List SegPtr) (mem : SegPtr → XilinxDmaTxSegment cfg) :
    WordsChanged ps mem mem :=
  ⟨LinksKept.refl mem, fun _ _ => rfl⟩

/-- Two changes of words, one after the other. -/
theorem WordsChanged.trans {ps qs : List SegPtr}
    {mem₁ mem₂ mem₃ : SegPtr → XilinxDmaTxSegment cfg} (h₁ : WordsChanged ps mem₁ mem₂)
    (h₂ : WordsChanged qs mem₂ mem₃) : WordsChanged (ps ++ qs) mem₁ mem₃ := by
  refine ⟨h₁.1.trans h₂.1, fun p hp => ?_⟩
  simp only [List.mem_append, not_or] at hp
  rw [h₂.2 p hp.2, h₁.2 p hp.1]

/-- A change of words is one on more segments, too. -/
theorem WordsChanged.mono {ps qs : List SegPtr} {mem mem' : SegPtr → XilinxDmaTxSegment cfg}
    (h : WordsChanged ps mem mem') (hsub : ps ⊆ qs) : WordsChanged qs mem mem' :=
  ⟨h.1, fun p hp => h.2 p fun hps => hp (hsub hps)⟩

/-- A new hardware descriptor with the old links is a change of words. -/
theorem wordsChanged_update (mem : SegPtr → XilinxDmaTxSegment cfg) (p : SegPtr)
    (hw : XilinxDmaDescHw) (h : hw.nextDesc = (mem p).hw.nextDesc)
    (h' : hw.nextDescMsb = (mem p).hw.nextDescMsb) :
    WordsChanged [p] mem (Function.update mem p { mem p with hw := hw }) := by
  refine ⟨fun q => ?_, fun q hq => ?_⟩
  · by_cases hq : q = p
    · subst hq
      simp [h, h']
    · simp [Function.update_of_ne hq]
  · exact Function.update_of_ne (by simpa using hq) _ _

/-- Wiping is a change of words. -/
theorem wordsChanged_cleanSegs (ps : List SegPtr) (mem : SegPtr → XilinxDmaTxSegment cfg) :
    WordsChanged ps mem (cleanSegs ps mem) :=
  ⟨cleanSegs_linksKept ps mem, fun _ hp => cleanSegs_of_notMem hp mem⟩

/-- The loops of a builder take a prefix of the free list, one segment for each round, and stop
early only when they have taken all of it. -/
theorem buildLoop_cases (cs : List (Chunk cfg)) (b : TxBuild) (s : XilinxDmaChan cfg) :
    ∃ taken rest mem, s.freeSegList = taken ++ rest ∧ WordsChanged taken s.mem mem ∧
      ((taken.length = cs.length ∧
        buildLoop cs b s = ({ s with freeSegList := rest, mem := mem },
          { b with segments := b.segments ++ taken }, true)) ∨
      (rest = [] ∧ taken.length < cs.length ∧
        buildLoop cs b s = ({ s with freeSegList := rest, mem := mem },
          { b with segments := b.segments ++ taken }, false))) := by
  induction cs generalizing b s with
  | nil =>
    exact ⟨[], s.freeSegList, s.mem, rfl, WordsChanged.refl _ _, Or.inl ⟨rfl, by simp [buildLoop]⟩⟩
  | cons c cs ih =>
    cases hfree : s.freeSegList with
    | nil =>
      refine ⟨[], [], s.mem, rfl, WordsChanged.refl _ _, Or.inr ⟨rfl, by simp, ?_⟩⟩
      rw [← hfree]
      simp [buildLoop, buildRound_nil c b hfree]
      rw [hfree, List.append_nil]
    | cons p ps =>
      obtain ⟨taken, rest, mem, hsplit, hmem, hcases⟩ := ih
        { b with segments := b.segments ++ [p] }
        { s with
          freeSegList := ps
          mem := Function.update s.mem p
            { s.mem p with hw := fillHwDesc b.app c (s.mem p).hw } }
      have hround := wordsChanged_update s.mem p (fillHwDesc b.app c (s.mem p).hw)
        (by simp) (by simp)
      simp only at hsplit hmem hcases
      refine ⟨p :: taken, rest, mem, by simp [hsplit], hround.trans hmem, ?_⟩
      simpa [buildLoop, buildRound_cons c b hfree] using hcases

/-! ## The end of a builder -/

/-- The control register after a builder that got through. -/
def builtCtrl (b : TxBuild) (s : XilinxDmaChan cfg) : BitVec 32 :=
  if b.cyclic then s.ctrlReg ||| xilinxDmaCrCyclicBdEnMask else s.ctrlReg

/-- The register writes of a builder that got through. -/
def builtEvents (b : TxBuild) (s : XilinxDmaChan cfg) : List Event :=
  if b.cyclic then [.iowrite32 (s.ctrlOffset + xilinxDmaRegControl) (builtCtrl b s)] else []

/-- The only register that the end of a builder writes is the control register. -/
theorem builtEvents_isControlWrite (b : TxBuild) (s : XilinxDmaChan cfg) :
    ∀ e ∈ builtEvents b s, e.isControlWrite s.ctrlOffset = true := by
  unfold builtEvents
  split <;> simp

/-- A fresh descriptor: the segments and the kind of the builder, the address of its first
segment, and nothing else yet. -/
structure BuiltFrom (b : TxBuild) (s : XilinxDmaChan cfg) (d : XilinxDmaTxDescriptor cfg) :
    Prop where
  segments : d.segments = b.segments
  id : d.id = b.id
  cyclic : d.cyclic = b.cyclic
  phys : d.phys = (s.mem d.firstSegment).phys
  cookie : d.cookie = 0
  callback : d.callback = none

/-- A flag in the control word is a change of words. -/
theorem orControl_wordsChanged (s : XilinxDmaChan cfg) (p : SegPtr) (flag : BitVec 32) :
    WordsChanged [p] s.mem (orControl s p flag).mem :=
  wordsChanged_update s.mem p _ rfl rfl

/-- The end of a builder with at least one segment returns a fresh descriptor. -/
theorem finishBuild_cases (b : TxBuild) (s : XilinxDmaChan cfg) :
    (b.segments = [] ∧ finishBuild b s = (s, .wild)) ∨
    ∃ d mem, b.segments ≠ [] ∧ BuiltFrom b s d ∧ WordsChanged b.segments s.mem mem ∧
      finishBuild b s =
        ({ s with mem := mem, ctrlReg := builtCtrl b s, log := s.log ++ builtEvents b s },
          .desc d) := by
  obtain ⟨id, direction, app, cyclic, segments⟩ := b
  cases segments with
  | nil => exact Or.inl ⟨rfl, rfl⟩
  | cons first rest =>
    right
    let d : XilinxDmaTxDescriptor cfg :=
      ⟨id, 0, (s.mem first).phys, none, first :: rest, List.cons_ne_nil _ _, direction, cyclic⟩
    have hbuilt : BuiltFrom ⟨id, direction, app, cyclic, first :: rest⟩ s d :=
      ⟨rfl, rfl, rfl, rfl, rfl, rfl⟩
    by_cases hdir : direction = .memToDev
    · -- the flags go into the first and the last segment
      have hflags := (orControl_wordsChanged s first xilinxDmaBdSop).trans
        (orControl_wordsChanged (orControl s first xilinxDmaBdSop) d.lastSegment xilinxDmaBdEop)
      refine ⟨d, _, by simp, hbuilt, hflags.mono ?_, ?_⟩
      · have hlast : d.lastSegment ∈ first :: rest := List.getLast_mem d.segments_ne
        intro p hp
        simp only [List.mem_append, List.mem_singleton] at hp
        rcases hp with rfl | rfl
        · exact List.mem_cons_self
        · exact hlast
      · cases cyclic <;>
          simp [finishBuild, hdir, d, builtCtrl, builtEvents, orControl, XilinxDmaChan.setHw,
            XilinxDmaChan.dmaCtrlWrite, XilinxDmaChan.emit]
    · refine ⟨d, s.mem, by simp, hbuilt, WordsChanged.refl _ _, ?_⟩
      cases cyclic <;>
        simp [finishBuild, hdir, d, builtCtrl, builtEvents, XilinxDmaChan.dmaCtrlWrite,
          XilinxDmaChan.emit]

/-- **A builder without interruption**, from its loops on. Either the pool is too small, and then
its list is as before; or there was no round; or the first segments of the pool are in a fresh
descriptor. -/
theorem runBuild_cases (cs : List (Chunk cfg)) (b : TxBuild) (s : XilinxDmaChan cfg)
    (hb : b.segments = []) :
    (s.freeSegList.length < cs.length ∧ ∃ mem, WordsChanged s.freeSegList s.mem mem ∧
      runBuild cs b s = ({ s with mem := mem }, .null)) ∨
    (cs = [] ∧ runBuild cs b s = (s, .wild)) ∨
    (cs ≠ [] ∧ cs.length ≤ s.freeSegList.length ∧ ∃ d mem,
      d.segments = s.freeSegList.take cs.length ∧ d.id = b.id ∧ d.cyclic = b.cyclic ∧
      d.phys = (s.mem d.firstSegment).phys ∧ d.cookie = 0 ∧ d.callback = none ∧
      WordsChanged d.segments s.mem mem ∧
      runBuild cs b s =
        ({ s with
          freeSegList := s.freeSegList.drop cs.length
          mem := mem
          ctrlReg := builtCtrl b s
          log := s.log ++ builtEvents b s }, .desc d)) := by
  obtain ⟨taken, rest, mem, hsplit, hmem, ⟨hlen, hloop⟩ | ⟨hrest, hlen, hloop⟩⟩ :=
    buildLoop_cases cs b s
  · -- every round got its segment
    simp only [hb, List.nil_append] at hloop
    right
    rcases finishBuild_cases { b with segments := taken }
        { s with freeSegList := rest, mem := mem } with
      ⟨hnil, hfin⟩ | ⟨d, mem', hne, hbuilt, hmem', hfin⟩
    · simp only at hnil
      subst hnil
      obtain rfl : cs = [] := List.eq_nil_of_length_eq_zero hlen.symm
      exact Or.inl ⟨rfl, by simp [runBuild, buildLoop, finishBuild, hb]⟩
    · simp only at hne hmem'
      right
      have htake : s.freeSegList.take cs.length = taken := by
        rw [hsplit, ← hlen, List.take_left]
      have hdrop : s.freeSegList.drop cs.length = rest := by
        rw [hsplit, ← hlen, List.drop_left]
      refine ⟨?_, ?_, d, mem', by rw [htake, hbuilt.segments], hbuilt.id, hbuilt.cyclic, ?_,
        hbuilt.cookie, hbuilt.callback, ?_, ?_⟩
      · rintro rfl
        exact hne (List.eq_nil_of_length_eq_zero hlen)
      · rw [hsplit, List.length_append]
        omega
      · exact hbuilt.phys.trans (hmem.1 _).1
      · rw [hbuilt.segments]
        exact (hmem.trans hmem').mono (by simp)
      · rw [hdrop]
        simpa [runBuild, hloop, builtCtrl, builtEvents] using hfin
  · -- the pool ran dry: the error path returns what was taken
    subst hrest
    simp only [hb, List.nil_append, List.append_nil] at hloop hsplit
    left
    refine ⟨by rw [hsplit]; exact hlen, cleanSegs taken mem, ?_, ?_⟩
    · rw [hsplit]
      exact (hmem.trans (wordsChanged_cleanSegs taken mem)).mono (by simp)
    · simp [runBuild, hloop, freeTxDescriptor_eq, ← hsplit]

/-! ## Entering a builder -/

/-- A builder enters its loops with an empty descriptor that it has just allocated. -/
def PrepEntry.Fresh (s : XilinxDmaChan cfg) : PrepEntry cfg → Prop
  | .build _ b => b.segments = [] ∧ b.id = s.kzallocs
  | _ => True

/-- The rounds that `xilinx_dma_prep_slave_sg` begins: those of its scatterlist, for a descriptor
that is not cyclic. -/
theorem prepSlaveSgEntry_build {args : PrepSlaveSgArgs cfg} {s : XilinxDmaChan cfg}
    {chunks : List (Chunk cfg)} {b : TxBuild} (h : prepSlaveSgEntry args s = .build chunks b) :
    chunks = sgChunks args.sgl ∧ b.segments = [] ∧ b.id = s.kzallocs ∧ b.cyclic = false := by
  unfold prepSlaveSgEntry at h
  split at h
  · cases h
  · split at h
    · cases h
    · cases h
      exact ⟨rfl, rfl, rfl, rfl⟩

/-- The rounds that `xilinx_dma_prep_dma_cyclic` begins: those of its periods, for a cyclic
descriptor. -/
theorem prepDmaCyclicEntry_build {args : PrepDmaCyclicArgs cfg} {s : XilinxDmaChan cfg}
    {chunks : List (Chunk cfg)} {b : TxBuild} (h : prepDmaCyclicEntry args s = .build chunks b) :
    chunks = cyclicChunks args.bufAddr ((args.bufLen.toNat / args.periodLen.toNat) % 2 ^ 32)
        args.periodLen.toNat ∧
      b.segments = [] ∧ b.id = s.kzallocs ∧ b.cyclic = true := by
  unfold prepDmaCyclicEntry at h
  split at h
  · cases h
  · simp only at h
    split at h
    · cases h
    · split at h
      · cases h
      · cases h
        exact ⟨rfl, rfl, rfl, rfl⟩

/-- A slave prep starts with the descriptor that it has just allocated. -/
theorem prepSlaveSgEntry_fresh (args : PrepSlaveSgArgs cfg) (s : XilinxDmaChan cfg) :
    (prepSlaveSgEntry args s).Fresh s := by
  cases h : prepSlaveSgEntry args s with
  | build chunks b =>
    obtain ⟨-, hsegs, hid, -⟩ := prepSlaveSgEntry_build h
    exact ⟨hsegs, hid⟩
  | null => trivial
  | wild => trivial

/-- A cyclic prep starts with the descriptor that it has just allocated. -/
theorem prepDmaCyclicEntry_fresh (args : PrepDmaCyclicArgs cfg) (s : XilinxDmaChan cfg) :
    (prepDmaCyclicEntry args s).Fresh s := by
  cases h : prepDmaCyclicEntry args s with
  | build chunks b =>
    obtain ⟨-, hsegs, hid, -⟩ := prepDmaCyclicEntry_build h
    exact ⟨hsegs, hid⟩
  | null => trivial
  | wild => trivial

/-- What an uninterrupted builder that returned a descriptor did: the first free segments are in
the fresh descriptor, and their words, but no links, were written. -/
structure Built (chunks : List (Chunk cfg)) (b : TxBuild) (s : XilinxDmaChan cfg)
    (d : XilinxDmaTxDescriptor cfg) (mem : SegPtr → XilinxDmaTxSegment cfg) : Prop where
  chunks_ne : chunks ≠ []
  enough : chunks.length ≤ s.freeSegList.length
  segments : d.segments = s.freeSegList.take chunks.length
  id : d.id = s.kzallocs
  cyclic : d.cyclic = b.cyclic
  phys : d.phys = (s.mem d.firstSegment).phys
  cookie : d.cookie = 0
  callback : d.callback = none
  words : WordsChanged d.segments s.mem mem

/-- The three outcomes of an uninterrupted builder. -/
theorem runPrep_cases {entry : PrepEntry cfg} {s : XilinxDmaChan cfg} (hfresh : entry.Fresh s) :
    (∃ k mem, s.kzallocs ≤ k ∧ WordsChanged s.freeSegList s.mem mem ∧
      runPrep entry s = ({ s with kzallocs := k, mem := mem }, .null)) ∨
    (∃ s', runPrep entry s = (s', .wild)) ∨
    (∃ chunks b d mem, entry = .build chunks b ∧ Built chunks b s d mem ∧
      runPrep entry s =
        ({ s with
          kzallocs := s.kzallocs + 1
          freeSegList := s.freeSegList.drop chunks.length
          mem := mem
          ctrlReg := builtCtrl b s
          log := s.log ++ builtEvents b s }, .desc d)) := by
  cases entry with
  | null => exact Or.inl ⟨s.kzallocs, s.mem, le_rfl, WordsChanged.refl _ _, rfl⟩
  | wild => exact Or.inr (Or.inl ⟨s, rfl⟩)
  | build chunks b =>
    obtain ⟨hsegs, hid⟩ := hfresh
    rcases runBuild_cases chunks b (kzallocDesc s) hsegs with
      ⟨-, mem, hmem, h⟩ | ⟨-, h⟩ | ⟨hne, hlen, d, mem, hd, hdid, hcyc, hphys, hcookie, hcb, hmem, h⟩
    · exact Or.inl ⟨s.kzallocs + 1, mem, Nat.le_succ _, hmem, h⟩
    · exact Or.inr (Or.inl ⟨_, h⟩)
    · exact Or.inr (Or.inr ⟨chunks, b, d, mem, rfl,
        ⟨hne, hlen, hd, hdid.trans hid, hcyc, hphys, hcookie, hcb, hmem⟩, h⟩)

end PetalinuxDriver
