import Mathlib.Data.List.Basic
import PetalinuxDriver.Model.VxdmaProgram

/-!
# What each function does to the channel

One lemma for each function of `vxdma/vxdma.c`, in the form of a record update of the channel it
is given, so that everything a function does not mention is seen to be unchanged. The results
about runs use these and never unfold the functions.

Freeing descriptors cleans the hardware words of their segments (`cleanSegs`) and puts the
segments at the tail of `free_seg_list`. `xilinx_dma_start_transfer` has three outcomes: it does
nothing (`canStart` is false), it times out, or it starts the whole of `pending_list`.
-/

set_option autoImplicit false

namespace PetalinuxDriver

variable {cfg : PhysAddrConfig}

/-- The segments of a list of descriptors, in list order. -/
def segsOf (ds : List (XilinxDmaTxDescriptor cfg)) : List SegPtr := ds.flatMap (·.segments)

/-- No descriptors have no segments. -/
@[simp] theorem segsOf_nil : segsOf ([] : List (XilinxDmaTxDescriptor cfg)) = [] := rfl

/-- The segments of the first descriptor come first. -/
@[simp] theorem segsOf_cons (d : XilinxDmaTxDescriptor cfg) (ds : List (XilinxDmaTxDescriptor cfg)) :
    segsOf (d :: ds) = d.segments ++ segsOf ds := rfl

/-- The segments of two lists, one after the other. -/
@[simp] theorem segsOf_append (ds es : List (XilinxDmaTxDescriptor cfg)) :
    segsOf (ds ++ es) = segsOf ds ++ segsOf es := by
  simp [segsOf]

/-- A segment of a list is a segment of one of its descriptors. -/
theorem mem_segsOf {p : SegPtr} {ds : List (XilinxDmaTxDescriptor cfg)} :
    p ∈ segsOf ds ↔ ∃ d ∈ ds, p ∈ d.segments := by
  simp [segsOf]

/-- Every descriptor has a segment, so there are at least as many segments as descriptors. -/
theorem length_le_length_segsOf (ds : List (XilinxDmaTxDescriptor cfg)) :
    ds.length ≤ (segsOf ds).length := by
  induction ds with
  | nil => simp
  | cons d ds ih =>
    have hd : 0 < d.segments.length := List.length_pos_of_ne_nil d.segments_ne
    simp only [segsOf_cons, List.length_cons, List.length_append]
    omega

/-- Since no descriptor is without a segment, only the empty list has none. -/
theorem segsOf_eq_nil {ds : List (XilinxDmaTxDescriptor cfg)} : segsOf ds = [] ↔ ds = [] := by
  constructor
  · intro h
    have := length_le_length_segsOf ds
    rw [h] at this
    exact List.eq_nil_of_length_eq_zero (by simpa using this)
  · rintro rfl
    rfl

/-! ## Segment memory -/

/-- Two memories with the same addresses and the same links: only other words may differ. -/
def LinksKept (mem mem' : SegPtr → XilinxDmaTxSegment cfg) : Prop :=
  ∀ p, (mem' p).phys = (mem p).phys ∧ (mem' p).hw.nextDesc = (mem p).hw.nextDesc ∧
    (mem' p).hw.nextDescMsb = (mem p).hw.nextDescMsb

/-- Memory that is left alone keeps its links. -/
theorem LinksKept.refl (mem : SegPtr → XilinxDmaTxSegment cfg) : LinksKept mem mem :=
  fun _ => ⟨rfl, rfl, rfl⟩

/-- Links that are kept twice are kept. -/
theorem LinksKept.trans {mem₁ mem₂ mem₃ : SegPtr → XilinxDmaTxSegment cfg}
    (h₁ : LinksKept mem₁ mem₂) (h₂ : LinksKept mem₂ mem₃) : LinksKept mem₁ mem₃ := fun p =>
  ⟨(h₂ p).1.trans (h₁ p).1, (h₂ p).2.1.trans (h₁ p).2.1, (h₂ p).2.2.trans (h₁ p).2.2⟩

/-- A store that keeps the links of its segment keeps all links. -/
theorem linksKept_setHw (s : XilinxDmaChan cfg) (p : SegPtr) (hw : XilinxDmaDescHw)
    (h : hw.nextDesc = (s.mem p).hw.nextDesc) (h' : hw.nextDescMsb = (s.mem p).hw.nextDescMsb) :
    LinksKept s.mem (s.setHw p hw).mem := by
  intro q
  by_cases hq : q = p
  · subst hq
    simp [XilinxDmaChan.setHw, h, h']
  · simp [XilinxDmaChan.setHw, Function.update_of_ne hq]

/-- Memory after the segments of a list were cleaned. -/
def cleanSegs (segments : List SegPtr) (mem : SegPtr → XilinxDmaTxSegment cfg) :
    SegPtr → XilinxDmaTxSegment cfg :=
  fun p => if p ∈ segments then { mem p with hw := xilinxDmaCleanHwDesc (mem p).hw } else mem p

/-- Nothing is wiped when nothing is freed. -/
@[simp] theorem cleanSegs_nil (mem : SegPtr → XilinxDmaTxSegment cfg) : cleanSegs [] mem = mem := by
  funext p
  simp [cleanSegs]

/-- To wipe a hardware descriptor twice is to wipe it once. -/
@[simp] theorem cleanHwDesc_idem (hw : XilinxDmaDescHw) :
    xilinxDmaCleanHwDesc (xilinxDmaCleanHwDesc hw) = xilinxDmaCleanHwDesc hw := rfl

/-- Segments are wiped one after the other. -/
theorem cleanSegs_append (ps qs : List SegPtr) (mem : SegPtr → XilinxDmaTxSegment cfg) :
    cleanSegs (ps ++ qs) mem = cleanSegs qs (cleanSegs ps mem) := by
  funext p
  by_cases hp : p ∈ ps <;> by_cases hq : p ∈ qs <;> simp [cleanSegs, hp, hq]

/-- Wiping keeps the links, which the free list is made of. -/
theorem cleanSegs_linksKept (ps : List SegPtr) (mem : SegPtr → XilinxDmaTxSegment cfg) :
    LinksKept mem (cleanSegs ps mem) := by
  intro p
  by_cases hp : p ∈ ps <;> simp [cleanSegs, hp, xilinxDmaCleanHwDesc]

/-- A segment that is not freed is not wiped. -/
theorem cleanSegs_of_notMem {p : SegPtr} {ps : List SegPtr} (h : p ∉ ps)
    (mem : SegPtr → XilinxDmaTxSegment cfg) : cleanSegs ps mem p = mem p := by
  simp [cleanSegs, h]

/-! ## Freeing -/

/-- `xilinx_dma_free_tx_segment` wipes the segment and appends it to the free list. -/
theorem freeTxSegment_eq (s : XilinxDmaChan cfg) (p : SegPtr) :
    xilinxDmaFreeTxSegment s p =
      { s with mem := cleanSegs [p] s.mem, freeSegList := s.freeSegList ++ [p] } := by
  have hmem : Function.update s.mem p { s.mem p with hw := xilinxDmaCleanHwDesc (s.mem p).hw } =
      cleanSegs [p] s.mem := by
    funext q
    by_cases hq : q = p
    · subst hq
      simp [cleanSegs]
    · simp [cleanSegs, hq]
  simp only [xilinxDmaFreeTxSegment, XilinxDmaChan.setHw, hmem]

/-- `xilinx_dma_free_tx_descriptor` cleans the segments and puts them at the tail of the pool. -/
theorem freeTxDescriptor_eq (s : XilinxDmaChan cfg) (segments : List SegPtr) :
    xilinxDmaFreeTxDescriptor s segments =
      { s with mem := cleanSegs segments s.mem, freeSegList := s.freeSegList ++ segments } := by
  unfold xilinxDmaFreeTxDescriptor
  induction segments generalizing s with
  | nil => simp
  | cons p ps ih =>
    rw [List.foldl_cons, ih, freeTxSegment_eq]
    simp [← cleanSegs_append]

/-- `xilinx_dma_free_desc_list` frees every descriptor of the list, in list order. -/
theorem freeDescList_eq (s : XilinxDmaChan cfg) (l : List (XilinxDmaTxDescriptor cfg)) :
    xilinxDmaFreeDescList s l =
      { s with
        mem := cleanSegs (segsOf l) s.mem
        freeSegList := s.freeSegList ++ segsOf l
        log := s.log ++ l.map fun d => .freeDescList d.id } := by
  unfold xilinxDmaFreeDescList
  induction l generalizing s with
  | nil => simp
  | cons d ds ih =>
    rw [List.foldl_cons, ih, freeTxDescriptor_eq]
    simp [XilinxDmaChan.emit, ← cleanSegs_append]

/-- `xilinx_dma_free_descriptors` empties the three lists into the pool: pending, done, active. -/
theorem freeDescriptors_eq (s : XilinxDmaChan cfg) :
    xilinxDmaFreeDescriptors s =
      { s with
        mem := cleanSegs (segsOf (s.pendingList ++ s.doneList ++ s.activeList)) s.mem
        freeSegList := s.freeSegList ++ segsOf (s.pendingList ++ s.doneList ++ s.activeList)
        log := s.log ++
          (s.pendingList ++ s.doneList ++ s.activeList).map fun d => .freeDescList d.id
        pendingList := []
        doneList := []
        activeList := [] } := by
  simp [xilinxDmaFreeDescriptors, freeDescList_eq, cleanSegs_append]

/-! ## Starting a batch -/

/-- The guards of `xilinx_dma_start_transfer`. -/
def canStart (s : XilinxDmaChan cfg) : Bool := !s.err && !s.pendingList.isEmpty && s.idle

/-- `xilinx_dma_start_transfer` goes past its three checks. -/
theorem canStart_iff (s : XilinxDmaChan cfg) :
    canStart s = true ↔ s.err = false ∧ s.pendingList ≠ [] ∧ s.idle = true := by
  simp [canStart, and_assoc]

/-- The control register with the queued descriptors in its coalesce field. -/
def coalesced (s : XilinxDmaChan cfg) : BitVec 32 :=
  if s.descPendingcount ≤ xilinxDmaCoalesceMax then
    (s.ctrlReg &&& ~~~xilinxDmaCrCoalesceMax) |||
      (BitVec.ofNat 32 s.descPendingcount <<< xilinxDmaCrCoalesceShift)
  else s.ctrlReg

/-- The control register that starts the engine. -/
def startCtrl (s : XilinxDmaChan cfg) : BitVec 32 := coalesced s ||| xilinxDmaCrRunstopMask

/-- The register writes up to the start of the engine. -/
def startEvents (s : XilinxDmaChan cfg) (headDesc : XilinxDmaTxDescriptor cfg) : List Event :=
  (if s.descPendingcount ≤ xilinxDmaCoalesceMax then
    [.iowrite32 (s.ctrlOffset + xilinxDmaRegControl) (coalesced s)] else []) ++
  (if s.hasSg then [addrWrite cfg (s.ctrlOffset + xilinxDmaRegCurdesc) headDesc.phys] else []) ++
  [.iowrite32 (s.ctrlOffset + xilinxDmaRegControl) (startCtrl s)]

/-- The register writes that hand the batch to the engine. -/
def goEvents (s : XilinxDmaChan cfg) (headDesc tailDesc : XilinxDmaTxDescriptor cfg) :
    List Event :=
  if s.hasSg then
    [addrWrite cfg (s.ctrlOffset + xilinxDmaRegTaildesc) (s.mem tailDesc.lastSegment).phys]
  else
    [addrWrite cfg (s.ctrlOffset + xilinxDmaRegSrcdstaddr)
      (s.mem headDesc.firstSegment).hw.bufAddr,
     .iowrite32 (s.ctrlOffset + xilinxDmaRegBtt)
      ((s.mem headDesc.firstSegment).hw.control &&& xilinxDmaMaxTransLen)]

/-- When one of its checks fails, `xilinx_dma_start_transfer` does nothing. -/
theorem startTransfer_blocked (startOk : Bool) {s : XilinxDmaChan cfg} (h : canStart s = false) :
    xilinxDmaStartTransfer startOk s = s := by
  unfold xilinxDmaStartTransfer
  cases herr : s.err with
  | true => simp
  | false =>
    cases hp : s.pendingList with
    | nil => simp
    | cons headDesc rest =>
      have hidle : s.idle = false := by simpa [canStart, herr, hp] using h
      simp [hidle]

/-- When the engine does not leave the halted state, only `err` and the control register change. -/
theorem startTransfer_timeout {s : XilinxDmaChan cfg} {headDesc : XilinxDmaTxDescriptor cfg}
    {rest : List (XilinxDmaTxDescriptor cfg)} (hp : s.pendingList = headDesc :: rest)
    (h : canStart s = true) :
    xilinxDmaStartTransfer false s =
      { s with ctrlReg := startCtrl s, err := true, log := s.log ++ startEvents s headDesc } := by
  obtain ⟨herr, -, hidle⟩ := (canStart_iff s).mp h
  unfold xilinxDmaStartTransfer writeCoalesce startEvents startCtrl coalesced xilinxDmaStart
  by_cases hc : s.descPendingcount ≤ xilinxDmaCoalesceMax <;> cases hsg : s.hasSg <;>
    simp [herr, hp, hidle, hc, hsg, XilinxDmaChan.emit, XilinxDmaChan.dmaCtrlWrite,
      XilinxDmaChan.dmaCtrlWriteAddr]

/-- When the engine leaves the halted state, everything that waits becomes active and the engine is
told of it. -/
theorem startTransfer_started {s : XilinxDmaChan cfg} {headDesc : XilinxDmaTxDescriptor cfg}
    {rest : List (XilinxDmaTxDescriptor cfg)} (hp : s.pendingList = headDesc :: rest)
    (h : canStart s = true) :
    xilinxDmaStartTransfer true s =
      { s with
        ctrlReg := startCtrl s
        log := s.log ++ startEvents s headDesc ++
          goEvents s headDesc ((headDesc :: rest).getLast (List.cons_ne_nil _ _))
        activeList := s.activeList ++ s.pendingList
        pendingList := []
        descPendingcount := 0
        idle := false } := by
  obtain ⟨herr, -, hidle⟩ := (canStart_iff s).mp h
  unfold xilinxDmaStartTransfer writeCoalesce startEvents startCtrl coalesced xilinxDmaStart
    programTransfer goEvents
  by_cases hc : s.descPendingcount ≤ xilinxDmaCoalesceMax <;> cases hsg : s.hasSg <;>
    simp [herr, hp, hidle, hc, hsg, XilinxDmaChan.emit, XilinxDmaChan.dmaCtrlWrite,
      XilinxDmaChan.dmaCtrlWriteAddr]

/-- The event is a register write. -/
def Event.isBusWrite : Event → Bool
  | .iowrite32 _ _ => true
  | .writeq _ _ => true
  | _ => false

/-- A register write is one on the bus. -/
@[simp] theorem iowrite32_isBusWrite (offset : Nat) (value : BitVec 32) :
    (Event.iowrite32 offset value).isBusWrite = true := rfl

/-- The write of an address, of either width, is one on the bus. -/
@[simp] theorem addrWrite_isBusWrite {n : Nat} (offset : Nat) (value : BitVec n) :
    (addrWrite cfg offset value).isBusWrite = true := by
  cases cfg <;> rfl

/-- The event is a write of the control register. -/
def Event.isControlWrite (ctrlOffset : Nat) : Event → Bool
  | .iowrite32 offset _ => offset == ctrlOffset + xilinxDmaRegControl
  | _ => false

/-- A write at the offset of the control register. -/
@[simp] theorem iowrite32_isControlWrite (ctrlOffset : Nat) (value : BitVec 32) :
    (Event.iowrite32 (ctrlOffset + xilinxDmaRegControl) value).isControlWrite ctrlOffset = true := by
  simp [Event.isControlWrite]

/-- What `xilinx_dma_start` does is register writes. -/
theorem startEvents_isBusWrite (s : XilinxDmaChan cfg) (headDesc : XilinxDmaTxDescriptor cfg) :
    ∀ e ∈ startEvents s headDesc, e.isBusWrite = true := by
  unfold startEvents
  split <;> split <;> simp

/-- What makes the engine go is register writes. -/
theorem goEvents_isBusWrite (s : XilinxDmaChan cfg)
    (headDesc tailDesc : XilinxDmaTxDescriptor cfg) :
    ∀ e ∈ goEvents s headDesc tailDesc, e.isBusWrite = true := by
  unfold goEvents
  split <;> simp

/-- The three outcomes of `xilinx_dma_start_transfer`, as far as the queues are concerned. -/
theorem startTransfer_cases (startOk : Bool) (s : XilinxDmaChan cfg) :
    (canStart s = false ∧ xilinxDmaStartTransfer startOk s = s) ∨
    (canStart s = true ∧ startOk = false ∧ ∃ c w, (∀ e ∈ w, e.isBusWrite = true) ∧
      xilinxDmaStartTransfer startOk s =
        { s with ctrlReg := c, err := true, log := s.log ++ w }) ∨
    (canStart s = true ∧ startOk = true ∧ ∃ c w, (∀ e ∈ w, e.isBusWrite = true) ∧
      xilinxDmaStartTransfer startOk s =
        { s with
          ctrlReg := c
          log := s.log ++ w
          activeList := s.activeList ++ s.pendingList
          pendingList := []
          descPendingcount := 0
          idle := false }) := by
  cases h : canStart s with
  | false => exact Or.inl ⟨rfl, startTransfer_blocked startOk h⟩
  | true =>
    obtain ⟨headDesc, rest, hp⟩ := List.exists_cons_of_ne_nil ((canStart_iff s).mp h).2.1
    right
    cases startOk with
    | false =>
      exact Or.inl ⟨rfl, rfl, _, _, startEvents_isBusWrite s headDesc,
        startTransfer_timeout hp h⟩
    | true =>
      refine Or.inr ⟨rfl, rfl, startCtrl s, startEvents s headDesc ++ goEvents s headDesc
        ((headDesc :: rest).getLast (List.cons_ne_nil _ _)), ?_, ?_⟩
      · intro e he
        rcases List.mem_append.mp he with he | he
        · exact startEvents_isBusWrite s headDesc e he
        · exact goEvents_isBusWrite s headDesc _ e he
      · rw [startTransfer_started hp h, List.append_assoc]

/-- The batch that a start moves to `active_list`. -/
def startedBatch (startOk : Bool) (s : XilinxDmaChan cfg) : List (XilinxDmaTxDescriptor cfg) :=
  if canStart s && startOk then s.pendingList else []

/-- A start moves its batch from the one list to the other and writes no segment. -/
theorem startTransfer_lists (startOk : Bool) (s : XilinxDmaChan cfg) :
    (xilinxDmaStartTransfer startOk s).activeList = s.activeList ++ startedBatch startOk s ∧
      s.pendingList = startedBatch startOk s ++ (xilinxDmaStartTransfer startOk s).pendingList ∧
      (xilinxDmaStartTransfer startOk s).mem = s.mem := by
  unfold startedBatch
  rcases startTransfer_cases startOk s with
    ⟨hstart, h⟩ | ⟨hstart, hok, c, w, -, h⟩ | ⟨hstart, hok, c, w, -, h⟩ <;> rw [h]
  · simp [hstart]
  · simp [hok]
  · simp [hstart, hok]

/-! ## Completing -/

/-- A descriptor as `xilinx_dma_complete_descriptor` puts it on `done_list`. -/
def completedDesc (d : XilinxDmaTxDescriptor cfg) : XilinxDmaTxDescriptor cfg :=
  if d.cyclic then d else { d with cookie := 0 }

/-- Completion leaves a descriptor its segments. -/
@[simp] theorem completedDesc_segments (d : XilinxDmaTxDescriptor cfg) :
    (completedDesc d).segments = d.segments := by
  unfold completedDesc
  split <;> rfl

/-- Completion leaves a descriptor its name. -/
@[simp] theorem completedDesc_id (d : XilinxDmaTxDescriptor cfg) :
    (completedDesc d).id = d.id := by
  unfold completedDesc
  split <;> rfl

/-- A cyclic descriptor stays one when it completes. -/
@[simp] theorem completedDesc_cyclic (d : XilinxDmaTxDescriptor cfg) :
    (completedDesc d).cyclic = d.cyclic := by
  unfold completedDesc
  split <;> rfl

/-- A completed list has the segments that it had. -/
@[simp] theorem segsOf_map_completedDesc (ds : List (XilinxDmaTxDescriptor cfg)) :
    segsOf (ds.map completedDesc) = segsOf ds := by
  simp [segsOf, List.flatMap_map]

/-- The events of completing one descriptor. -/
def completeEvents (d : XilinxDmaTxDescriptor cfg) : List Event :=
  if d.cyclic then []
  else (if d.cookie < dmaMinCookie then [.bug] else []) ++ [.cookieComplete d.id]

/-- Completing descriptors notes bugs, and that they are complete. -/
theorem mem_completeEvents {ds : List (XilinxDmaTxDescriptor cfg)} {e : Event}
    (h : e ∈ ds.flatMap completeEvents) : e = .bug ∨ ∃ d ∈ ds, e = .cookieComplete d.id := by
  obtain ⟨d, hd, he⟩ := List.mem_flatMap.mp h
  unfold completeEvents at he
  split at he
  · cases he
  · rcases List.mem_append.mp he with he | he
    · split at he
      · exact Or.inl (List.mem_singleton.mp he)
      · cases he
    · exact Or.inr ⟨d, hd, List.mem_singleton.mp he⟩

/-- The cookie fields after completing one descriptor. -/
def completeCookie (c : DmaChanCookies) (d : XilinxDmaTxDescriptor cfg) : DmaChanCookies :=
  if d.cyclic then c else { c with completedCookie := d.cookie }

/-- `BUG_ON` fires when one descriptor is completed. -/
def completeBug (d : XilinxDmaTxDescriptor cfg) : Bool :=
  !d.cyclic && decide (d.cookie < dmaMinCookie)

/-- `xilinx_dma_complete_descriptor` at one descriptor, as one update of the channel. -/
theorem completeOne_eq (s : XilinxDmaChan cfg) (d : XilinxDmaTxDescriptor cfg) :
    completeOne s d =
      { s with
        doneList := s.doneList ++ [completedDesc d]
        common := completeCookie s.common d
        log := s.log ++ completeEvents d
        bug := s.bug || completeBug d } := by
  unfold completeOne dmaCookieComplete completedDesc completeCookie completeEvents completeBug
  cases hc : d.cyclic with
  | true => simp
  | false =>
    by_cases hk : d.cookie < dmaMinCookie <;> simp [hk, XilinxDmaChan.emit]

/-- `xilinx_dma_complete_descriptor` moves the whole of `active_list` to the end of
`done_list`. -/
theorem completeDescriptor_eq (s : XilinxDmaChan cfg) :
    xilinxDmaCompleteDescriptor s =
      { s with
        activeList := []
        doneList := s.doneList ++ s.activeList.map completedDesc
        common := s.activeList.foldl completeCookie s.common
        log := s.log ++ s.activeList.flatMap completeEvents
        bug := s.bug || s.activeList.any completeBug } := by
  have key : ∀ (l : List (XilinxDmaTxDescriptor cfg)) (t : XilinxDmaChan cfg),
      l.foldl completeOne t =
        { t with
          doneList := t.doneList ++ l.map completedDesc
          common := l.foldl completeCookie t.common
          log := t.log ++ l.flatMap completeEvents
          bug := t.bug || l.any completeBug } := by
    intro l
    induction l with
    | nil => simp
    | cons d ds ih =>
      intro t
      rw [List.foldl_cons, ih, completeOne_eq]
      simp [Bool.or_assoc]
  simp [xilinxDmaCompleteDescriptor, key]

/-- The locked part of the handler that completes, as one update of the channel. -/
theorem irqComplete_eq (s : XilinxDmaChan cfg) :
    irqComplete s =
      { s with
        activeList := []
        doneList := s.doneList ++ s.activeList.map completedDesc
        common := s.activeList.foldl completeCookie s.common
        log := s.log ++ s.activeList.flatMap completeEvents
        bug := s.bug || s.activeList.any completeBug
        idle := true } := by
  simp [irqComplete, completeDescriptor_eq]

/-- The handler up to its lock, as one update of the channel. -/
theorem irqAck_eq (status : BitVec 32) (s : XilinxDmaChan cfg) :
    irqAck status s =
      { s with
        err := s.err || hasBits status xilinxDmaXrIrqErrorMask
        log := s.log ++ [.iowrite32 (s.ctrlOffset + xilinxDmaRegStatus)
          (status &&& xilinxDmaXrIrqAllMask)] } := by
  unfold irqAck
  cases h : hasBits status xilinxDmaXrIrqErrorMask <;>
    simp [XilinxDmaChan.dmaCtrlWrite, XilinxDmaChan.emit]

/-! ## Halt and reset -/

/-- `xilinx_dma_halt` as one update of the channel. -/
theorem halt_eq (haltOk : Bool) (s : XilinxDmaChan cfg) :
    xilinxDmaHalt haltOk s =
      { s with
        ctrlReg := s.ctrlReg &&& ~~~xilinxDmaCrRunstopMask
        err := s.err || !haltOk
        log := s.log ++ [.iowrite32 (s.ctrlOffset + xilinxDmaRegControl)
          (s.ctrlReg &&& ~~~xilinxDmaCrRunstopMask)] } := by
  unfold xilinxDmaHalt
  cases haltOk <;> simp [XilinxDmaChan.dmaCtrlWrite, XilinxDmaChan.emit]

/-- A reset that succeeds, as one update of the channel. -/
theorem chanReset_ok (env : ResetEnv) (h : env.ok = true) (s : XilinxDmaChan cfg) :
    xilinxDmaChanReset env s =
      ({ s with
        ctrlReg := env.dmacr
        err := false
        log := s.log ++ [.iowrite32 (s.ctrlOffset + xilinxDmaRegControl)
          (env.dmacr ||| xilinxDmaCrResetMask)] }, none) := by
  simp [xilinxDmaChanReset, h, XilinxDmaChan.dmaCtrlWrite, XilinxDmaChan.emit]

/-- A reset that fails, as one update of the channel. -/
theorem chanReset_failed (env : ResetEnv) (h : env.ok = false) (s : XilinxDmaChan cfg) :
    xilinxDmaChanReset env s =
      ({ s with
        ctrlReg := env.dmacr
        log := s.log ++ [.iowrite32 (s.ctrlOffset + xilinxDmaRegControl)
          (env.dmacr ||| xilinxDmaCrResetMask)] }, some .ebusy) := by
  simp [xilinxDmaChanReset, h, XilinxDmaChan.dmaCtrlWrite, XilinxDmaChan.emit]

/-- The end of `xilinx_dma_terminate_all`, as one update of the channel. -/
theorem clearCyclic_eq (s : XilinxDmaChan cfg) :
    clearCyclic s =
      { s with
        ctrlReg := s.ctrlReg &&& ~~~xilinxDmaCrCyclicBdEnMask
        cyclic := false
        log := s.log ++ [.iowrite32 (s.ctrlOffset + xilinxDmaRegControl)
          (s.ctrlReg &&& ~~~xilinxDmaCrCyclicBdEnMask)] } := by
  simp [clearCyclic, XilinxDmaChan.dmaCtrlWrite, XilinxDmaChan.emit]

/-! ## Submitting -/

/-- Memory after `append_desc_queue`: the tail of the queue, if there is one, is linked to the
new descriptor. -/
def linkTail (pending : List (XilinxDmaTxDescriptor cfg)) (phys : DmaAddr cfg)
    (mem : SegPtr → XilinxDmaTxSegment cfg) : SegPtr → XilinxDmaTxSegment cfg :=
  match pending.getLast? with
  | none => mem
  | some tailDesc =>
    Function.update mem tailDesc.lastSegment
      { mem tailDesc.lastSegment with
        hw := { (mem tailDesc.lastSegment).hw with nextDesc := lower32Bits phys } }

/-- With nothing pending there is no tail to link. -/
@[simp] theorem linkTail_nil (phys : DmaAddr cfg) (mem : SegPtr → XilinxDmaTxSegment cfg) :
    linkTail [] phys mem = mem := rfl

/-- The last segment of the last pending descriptor gets the link. -/
theorem linkTail_append (ds : List (XilinxDmaTxDescriptor cfg)) (d : XilinxDmaTxDescriptor cfg)
    (phys : DmaAddr cfg) (mem : SegPtr → XilinxDmaTxSegment cfg) :
    linkTail (ds ++ [d]) phys mem =
      Function.update mem d.lastSegment
        { mem d.lastSegment with
          hw := { (mem d.lastSegment).hw with nextDesc := lower32Bits phys } } := by
  simp [linkTail]

/-- No segment outside the pending list is linked. -/
theorem linkTail_of_notMem {p : SegPtr} {pending : List (XilinxDmaTxDescriptor cfg)}
    (h : p ∉ segsOf pending) (phys : DmaAddr cfg) (mem : SegPtr → XilinxDmaTxSegment cfg) :
    linkTail pending phys mem p = mem p := by
  rcases List.eq_nil_or_concat' pending with rfl | ⟨ds, d, rfl⟩
  · rfl
  · rw [linkTail_append, Function.update_of_ne]
    rintro rfl
    exact h (by simp [XilinxDmaTxDescriptor.lastSegment])

/-- The link changes no address. -/
@[simp] theorem linkTail_phys (pending : List (XilinxDmaTxDescriptor cfg)) (phys : DmaAddr cfg)
    (mem : SegPtr → XilinxDmaTxSegment cfg) (p : SegPtr) :
    (linkTail pending phys mem p).phys = (mem p).phys := by
  rcases List.eq_nil_or_concat' pending with rfl | ⟨ds, d, rfl⟩
  · rfl
  · rw [linkTail_append]
    by_cases hp : p = d.lastSegment
    · subst hp
      simp
    · simp [Function.update_of_ne hp]

/-- The cookie that the next submit gets. -/
def nextCookie (s : XilinxDmaChan cfg) : Int := (dmaCookieAssign s.common).2

/-- The locked section of a submit that finds room below the coalesce limit. -/
theorem submitLocked_queued (d : XilinxDmaTxDescriptor cfg) {s : XilinxDmaChan cfg}
    (hbug : s.bug = false) (h : s.descPendingcount < xilinxDmaCoalesceMax) :
    submitLocked d s =
      ({ s with
        common := (dmaCookieAssign s.common).1
        mem := linkTail s.pendingList d.phys s.mem
        pendingList := s.pendingList ++ [{ d with cookie := nextCookie s }]
        descPendingcount := s.descPendingcount + 1
        cyclic := s.cyclic || d.cyclic
        log := s.log ++ [.cookieAssign d.id (nextCookie s)] },
      .cookie (nextCookie s)) := by
  have hc : ¬ s.descPendingcount + 1 > xilinxDmaCoalesceMax := by omega
  unfold submitLocked appendDescQueue linkTail nextCookie
  cases hlast : s.pendingList.getLast? <;> cases hcyc : d.cyclic <;>
    simp [XilinxDmaChan.emit, XilinxDmaChan.setHw, hlast, hc, hbug]

/-- The locked section of a submit that hits `BUG()`: the descriptor is queued all the same. -/
theorem submitLocked_bug (d : XilinxDmaTxDescriptor cfg) {s : XilinxDmaChan cfg}
    (h : xilinxDmaCoalesceMax ≤ s.descPendingcount) :
    submitLocked d s =
      ({ s with
        common := (dmaCookieAssign s.common).1
        mem := linkTail s.pendingList d.phys s.mem
        pendingList := s.pendingList ++ [{ d with cookie := nextCookie s }]
        descPendingcount := xilinxDmaCoalesceMax
        log := s.log ++ [.cookieAssign d.id (nextCookie s), .bug]
        bug := true },
      .bug) := by
  have hc : s.descPendingcount + 1 > xilinxDmaCoalesceMax := by omega
  unfold submitLocked appendDescQueue linkTail nextCookie
  cases hlast : s.pendingList.getLast? <;>
    simp [XilinxDmaChan.emit, XilinxDmaChan.setHw, hlast, hc]

/-- A locked section that returns a cookie hit no `BUG()` and found room. -/
theorem submitLocked_cookie {d : XilinxDmaTxDescriptor cfg} {s t : XilinxDmaChan cfg} {k : Int}
    (h : submitLocked d s = (t, .cookie k)) :
    s.bug = false ∧ s.descPendingcount < xilinxDmaCoalesceMax := by
  by_cases hroom : s.descPendingcount < xilinxDmaCoalesceMax
  · refine ⟨?_, hroom⟩
    by_contra hbug
    have hc : ¬ s.descPendingcount + 1 > xilinxDmaCoalesceMax := by omega
    have hbug : s.bug = true := by simpa using hbug
    have hresult : (submitLocked d s).2 = .bug := by
      unfold submitLocked appendDescQueue
      cases hlast : s.pendingList.getLast? <;>
        simp [XilinxDmaChan.emit, XilinxDmaChan.setHw, hlast, hc, hbug]
    rw [h] at hresult
    cases hresult
  · rw [submitLocked_bug d (by omega)] at h
    cases h

/-- `xilinx_dma_tx_submit`: refused on a cyclic channel, given up when the reset fails, or queued
on a channel without error, where it may hit `BUG()`. -/
theorem txSubmit_cases (env : ResetEnv) (d : XilinxDmaTxDescriptor cfg) (s : XilinxDmaChan cfg) :
    (s.cyclic = true ∧ xilinxDmaTxSubmit env d s =
      ({ s with
        mem := cleanSegs d.segments s.mem
        freeSegList := s.freeSegList ++ d.segments }, .error .ebusy)) ∨
    (s.cyclic = false ∧ s.err = true ∧ env.ok = false ∧ ∃ w,
      (∀ e ∈ w, e.isControlWrite s.ctrlOffset = true) ∧ xilinxDmaTxSubmit env d s =
        ({ s with ctrlReg := env.dmacr, log := s.log ++ w }, .error .ebusy)) ∨
    (s.cyclic = false ∧ (s.err = true → env.ok = true) ∧ ∃ c w,
      (∀ e ∈ w, e.isControlWrite s.ctrlOffset = true) ∧ xilinxDmaTxSubmit env d s =
        submitLocked d { s with ctrlReg := c, err := false, log := s.log ++ w }) := by
  unfold xilinxDmaTxSubmit
  rcases Bool.eq_false_or_eq_true s.cyclic with hcyc | hcyc
  · exact Or.inl ⟨hcyc, by rw [if_pos hcyc, freeTxDescriptor_eq]⟩
  · right
    rw [if_neg (by simp [hcyc])]
    rcases Bool.eq_false_or_eq_true s.err with herr | herr
    · rw [if_pos herr]
      rcases Bool.eq_false_or_eq_true env.ok with hok | hok
      · rw [chanReset_ok env hok]
        exact Or.inr ⟨hcyc, fun _ => hok, _, _, by simp, rfl⟩
      · rw [chanReset_failed env hok]
        exact Or.inl ⟨hcyc, herr, hok, _, by simp, rfl⟩
    · rw [if_neg (by simp [herr])]
      refine Or.inr ⟨hcyc, by simp [herr], s.ctrlReg, [], by simp, ?_⟩
      rw [← herr, List.append_nil]

/-! ## Cleanup -/

/-- The descriptor that the cleanup holds at a place where it dropped the lock. -/
def CleanupPc.held : CleanupPc cfg → List (XilinxDmaTxDescriptor cfg)
  | .callback d => [d]
  | _ => []

/-- What the cleanup does from `done_list` on: it frees the descriptors without a callback, up to
the first descriptor that has one or is cyclic, where it stops. -/
theorem cleanupLoop_cases (done : List (XilinxDmaTxDescriptor cfg)) (s : XilinxDmaChan cfg)
    (hs : s.doneList = done) :
    ∃ freed rest, done = freed ++ rest ∧ (∀ d ∈ freed, d.cyclic = false ∧ d.callback = none) ∧
      let t : XilinxDmaChan cfg := { s with
        mem := cleanSegs (segsOf freed) s.mem
        freeSegList := s.freeSegList ++ segsOf freed
        doneList := rest }
      (rest = [] ∧ cleanupLoop done s = (t, .idle)) ∨
      (∃ d tl, rest = d :: tl ∧ d.cyclic = true ∧ d.callback = none ∧
        cleanupLoop done s = (t, .idle)) ∨
      (∃ d tl, rest = d :: tl ∧ d.cyclic = true ∧
        cleanupLoop done s = (t.emit (.callback d.id), .cyclicCallback)) ∨
      (∃ d tl, rest = d :: tl ∧ d.cyclic = false ∧
        cleanupLoop done s =
          ({ t with doneList := tl }.emit (.callback d.id), .callback d)) := by
  induction done generalizing s with
  | nil =>
    refine ⟨[], [], rfl, by simp, Or.inl ⟨rfl, ?_⟩⟩
    cases s
    cases hs
    simp [cleanupLoop]
  | cons d tl ih =>
    cases hcyc : d.cyclic with
    | true =>
      refine ⟨[], d :: tl, rfl, by simp, Or.inr ?_⟩
      cases hcb : d.callback with
      | none => exact Or.inl ⟨d, tl, rfl, hcyc, hcb, by simp [cleanupLoop, hcyc, hcb, ← hs]⟩
      | some c =>
        exact Or.inr (Or.inl ⟨d, tl, rfl, hcyc, by simp [cleanupLoop, hcyc, hcb, ← hs]⟩)
    | false =>
      cases hcb : d.callback with
      | some c =>
        refine ⟨[], d :: tl, rfl, by simp, Or.inr (Or.inr (Or.inr ⟨d, tl, rfl, hcyc, ?_⟩))⟩
        simp [cleanupLoop, hcyc, hcb, XilinxDmaChan.emit]
      | none =>
        -- the loop frees the descriptor and goes on with the rest of the list
        obtain ⟨freed, rest, hsplit, hfreed, hcases⟩ :=
          ih (xilinxDmaFreeTxDescriptor { s with doneList := tl } d.segments)
            (by simp [freeTxDescriptor_eq])
        refine ⟨d :: freed, rest, by simp [hsplit], ?_, ?_⟩
        · intro e he
          rcases List.mem_cons.mp he with rfl | he
          · exact ⟨hcyc, hcb⟩
          · exact hfreed e he
        · have hstep : cleanupLoop (d :: tl) s =
              cleanupLoop tl (xilinxDmaFreeTxDescriptor { s with doneList := tl } d.segments) := by
            simp [cleanupLoop, hcyc, hcb]
          rw [hstep]
          simpa [freeTxDescriptor_eq, ← cleanSegs_append] using hcases

/-- The cleanup cleans the segments of what is on `done_list` and touches no other memory. -/
theorem cleanup_mem (s : XilinxDmaChan cfg) {p : SegPtr} (hp : p ∉ segsOf s.doneList) :
    (xilinxDmaChanDescCleanup s).1.mem p = s.mem p := by
  obtain ⟨freed, rest, hsplit, -, hcases⟩ := cleanupLoop_cases s.doneList s rfl
  have hfreed : p ∉ segsOf freed := fun hmem => hp (by rw [hsplit, segsOf_append]; simp [hmem])
  unfold xilinxDmaChanDescCleanup
  rcases hcases with ⟨-, h⟩ | ⟨d, tl, -, -, -, h⟩ | ⟨d, tl, -, -, h⟩ | ⟨d, tl, -, -, h⟩ <;>
    rw [h] <;> exact cleanSegs_of_notMem hfreed s.mem

/-- The rest of a cleanup writes only to what is done and to what it holds. -/
theorem cleanupResume_mem (pc : CleanupPc cfg) (s : XilinxDmaChan cfg) {p : SegPtr}
    (hp : p ∉ segsOf s.doneList) (hheld : p ∉ segsOf pc.held) :
    (cleanupResume pc s).1.mem p = s.mem p := by
  cases pc with
  | idle => rfl
  | cyclicCallback => rfl
  | callback d =>
    have hd : p ∉ d.segments := by simpa [CleanupPc.held] using hheld
    have hdone : (xilinxDmaFreeTxDescriptor s d.segments).doneList = s.doneList := by
      rw [freeTxDescriptor_eq]
    rw [cleanupResume, cleanup_mem _ (by rwa [hdone]), freeTxDescriptor_eq]
    exact cleanSegs_of_notMem hd s.mem

/-- A submit writes a link and nothing else. -/
theorem linkTail_words (pending : List (XilinxDmaTxDescriptor cfg)) (phys : DmaAddr cfg)
    (mem : SegPtr → XilinxDmaTxSegment cfg) (p : SegPtr) :
    ∃ next, (linkTail pending phys mem p).hw = { (mem p).hw with nextDesc := next } := by
  rcases List.eq_nil_or_concat' pending with rfl | ⟨ds, d, rfl⟩
  · exact ⟨(mem p).hw.nextDesc, rfl⟩
  · rw [linkTail_append]
    by_cases hp : p = d.lastSegment
    · subst hp
      exact ⟨lower32Bits phys, by simp⟩
    · exact ⟨(mem p).hw.nextDesc, by simp [Function.update_of_ne hp]⟩

/-- The locked section of a submit writes the link of the queue's tail. -/
theorem submitLocked_mem (d : XilinxDmaTxDescriptor cfg) {s : XilinxDmaChan cfg}
    (hbug : s.bug = false) : (submitLocked d s).1.mem = linkTail s.pendingList d.phys s.mem := by
  by_cases h : s.descPendingcount < xilinxDmaCoalesceMax
  · rw [submitLocked_queued d hbug h]
  · rw [submitLocked_bug d (by omega)]

end PetalinuxDriver
