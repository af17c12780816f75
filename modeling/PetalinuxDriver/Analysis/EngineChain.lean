import PetalinuxDriver.Analysis.CarriedWords
import PetalinuxDriver.Analysis.CyclicRing
import PetalinuxDriver.Analysis.StartOutcome

/-!
# What the engine fetches

The engine knows two addresses, the last ones that were written to CURDESC and to TAILDESC, and
the memory. `fetched` is what it finds: the hardware words of the segments on the way from the one
address to the other, along the links. While something is active, the two registers hold the ends
of `active_list` (`sectionStep_pointed`). In a run that keeps to the ring order the active segments
are successors of each other and their links lead from one to the next, with 32-bit and with 64-bit
addresses, so what is fetched is what was asked for (`engine_fetches_batch`).
-/

set_option autoImplicit false

namespace PetalinuxDriver

open Library

variable {cfg : PhysAddrConfig}

/-! ## Address registers -/

/-- The address that an event writes at some offset. -/
def Event.addrAt (cfg : PhysAddrConfig) (offset : Nat) (e : Event) : Option (DmaAddr cfg) :=
  match cfg, e with
  | .addr32, .iowrite32 o value => if o = offset then some value else none
  | .addr64, .writeq o value => if o = offset then some value else none
  | _, _ => none

/-- The write of an address is one to its own register. -/
theorem addrAt_addrWrite (offset o : Nat) (a : DmaAddr cfg) :
    (addrWrite cfg o a).addrAt cfg offset = if o = offset then some a else none := by
  cases cfg with
  | addr32 => exact congrArg (fun b => if o = offset then some b else none) (BitVec.setWidth_eq a)
  | addr64 => exact congrArg (fun b => if o = offset then some b else none) (BitVec.setWidth_eq a)

/-- What was last written to an address register. -/
def register (cfg : PhysAddrConfig) (offset : Nat) (log : List Event) : Option (DmaAddr cfg) :=
  (log.filterMap (Event.addrAt cfg offset)).getLast?

/-- Other events leave a register. -/
theorem register_append_of_none {offset : Nat} (log : List Event) {w : List Event}
    (h : ∀ e ∈ w, e.addrAt cfg offset = none) :
    register cfg offset (log ++ w) = register cfg offset log := by
  rw [register, List.filterMap_append, List.filterMap_eq_nil_iff.mpr h, List.append_nil]
  rfl

/-- A register holds what was written to it last. -/
theorem register_write {offset : Nat} (log : List Event) (a : DmaAddr cfg) :
    register cfg offset (log ++ [addrWrite cfg offset a]) = some a := by
  have hwrite : (addrWrite cfg offset a).addrAt cfg offset = some a := by
    rw [addrAt_addrWrite, if_pos rfl]
  simp [register, List.filterMap_append, hwrite]

/-- The event writes neither CURDESC nor TAILDESC. -/
def Event.SparesEngine (cfg : PhysAddrConfig) (ctrlOffset : Nat) (e : Event) : Prop :=
  e.addrAt cfg (ctrlOffset + xilinxDmaRegCurdesc) = none ∧
    e.addrAt cfg (ctrlOffset + xilinxDmaRegTaildesc) = none

/-- A write to another register spares the two that the engine reads. -/
theorem iowrite32_spares (cfg : PhysAddrConfig) (ctrlOffset : Nat) {reg : Nat} (value : BitVec 32)
    (hcur : reg ≠ xilinxDmaRegCurdesc) (htail : reg ≠ xilinxDmaRegTaildesc) :
    (Event.iowrite32 (ctrlOffset + reg) value).SparesEngine cfg ctrlOffset := by
  cases cfg with
  | addr32 => exact ⟨if_neg (by omega), if_neg (by omega)⟩
  | addr64 => exact ⟨rfl, rfl⟩

/-- A control write spares them. -/
theorem spares_of_isControlWrite {ctrlOffset : Nat} {e : Event}
    (h : e.isControlWrite ctrlOffset = true) : e.SparesEngine cfg ctrlOffset := by
  cases e with
  | iowrite32 offset value =>
    simp only [Event.isControlWrite, beq_iff_eq] at h
    rw [h]
    exact iowrite32_spares cfg ctrlOffset value (by decide) (by decide)
  | _ => cases h

/-- What is no write spares the registers that the engine reads. -/
theorem spares_of_not_isBusWrite {ctrlOffset : Nat} {e : Event} (h : e.isBusWrite = false) :
    e.SparesEngine cfg ctrlOffset := by
  cases e with
  | iowrite32 => cases h
  | writeq => cases h
  | _ => cases cfg <;> exact ⟨rfl, rfl⟩

/-! ## The registers while something is active -/

/-- The engine is idle only with nothing active, and otherwise the two registers hold the ends of
`active_list`. -/
structure Pointed (s : XilinxDmaChan cfg) : Prop where
  idle : s.idle = true → s.activeList = []
  curdesc : ∀ d, s.activeList.head? = some d →
    register cfg (s.ctrlOffset + xilinxDmaRegCurdesc) s.log = some d.phys
  taildesc : ∀ d, s.activeList.getLast? = some d →
    register cfg (s.ctrlOffset + xilinxDmaRegTaildesc) s.log = some (s.mem d.lastSegment).phys

/-- With nothing active there is nothing to point to. -/
theorem Pointed.of_nil {s : XilinxDmaChan cfg} (h : s.activeList = []) : Pointed s := by
  refine ⟨fun _ => h, ?_, ?_⟩
  · intro d hd
    rw [h] at hd
    cases hd
  · intro d hd
    rw [h] at hd
    cases hd

/-- What leaves the registers, the flag and the addresses alone, and the active batch or nothing of
it. -/
theorem Pointed.quiet {s t : XilinxDmaChan cfg} {w : List Event} (hs : Pointed s)
    (hactive : t.activeList = s.activeList ∨ t.activeList = []) (hidle : t.idle = s.idle)
    (hoffset : t.ctrlOffset = s.ctrlOffset) (hlog : t.log = s.log ++ w)
    (hw : ∀ e ∈ w, e.SparesEngine cfg s.ctrlOffset)
    (hphys : ∀ p ∈ segsOf s.activeList, (t.mem p).phys = (s.mem p).phys) : Pointed t := by
  have hcur : register cfg (t.ctrlOffset + xilinxDmaRegCurdesc) t.log =
      register cfg (s.ctrlOffset + xilinxDmaRegCurdesc) s.log := by
    rw [hlog, hoffset]
    exact register_append_of_none s.log fun e he => (hw e he).1
  have htail : register cfg (t.ctrlOffset + xilinxDmaRegTaildesc) t.log =
      register cfg (s.ctrlOffset + xilinxDmaRegTaildesc) s.log := by
    rw [hlog, hoffset]
    exact register_append_of_none s.log fun e he => (hw e he).2
  rcases hactive with hactive | hactive
  · refine ⟨?_, ?_, ?_⟩
    · rw [hidle, hactive]
      exact hs.idle
    · intro d hd
      rw [hcur]
      exact hs.curdesc d (hactive ▸ hd)
    · intro d hd
      rw [hactive] at hd
      have hmem : d.lastSegment ∈ segsOf s.activeList :=
        mem_segsOf.mpr ⟨d, List.mem_of_getLast? hd, List.getLast_mem d.segments_ne⟩
      rw [htail, hphys _ hmem]
      exact hs.taildesc d hd
  · exact Pointed.of_nil hactive

/-- A start writes the ends of the queue to the registers, and makes it the active batch. -/
theorem startTransfer_pointed {s : XilinxDmaChan cfg} (hs : Pointed s) (hsg : s.hasSg = true)
    (startOk : Bool) : Pointed (xilinxDmaStartTransfer startOk s) := by
  cases hstart : canStart s with
  | false =>
    rw [startTransfer_blocked startOk hstart]
    exact hs
  | true =>
    obtain ⟨-, hne, hidle⟩ := (canStart_iff s).mp hstart
    obtain ⟨headDesc, rest, hp⟩ := List.exists_cons_of_ne_nil hne
    have hactive := hs.idle hidle
    cases startOk with
    | false =>
      -- CURDESC may be written, but nothing is active
      rw [startTransfer_timeout hp hstart]
      exact Pointed.of_nil hactive
    | true =>
      have hcontrol : ∀ v, (Event.iowrite32 (s.ctrlOffset + xilinxDmaRegControl) v).SparesEngine
          cfg s.ctrlOffset :=
        fun v => spares_of_isControlWrite (iowrite32_isControlWrite _ v)
      let tailDesc := (headDesc :: rest).getLast (List.cons_ne_nil _ _)
      have hgo : goEvents s headDesc tailDesc = [addrWrite cfg
          (s.ctrlOffset + xilinxDmaRegTaildesc) (s.mem tailDesc.lastSegment).phys] := by
        rw [goEvents, if_pos hsg]
      rw [startTransfer_started hp hstart]
      refine ⟨?_, ?_, ?_⟩
      · intro hfalse
        cases hfalse
      · intro d hd
        simp only [hactive, hp, List.nil_append, List.head?_cons, Option.some.injEq] at hd
        subst hd
        have hlater : ∀ e ∈ Event.iowrite32 (s.ctrlOffset + xilinxDmaRegControl) (startCtrl s) ::
            goEvents s headDesc tailDesc,
            e.addrAt cfg (s.ctrlOffset + xilinxDmaRegCurdesc) = none := by
          intro e he
          rw [hgo, List.mem_cons, List.mem_singleton] at he
          rcases he with rfl | rfl
          · exact (hcontrol _).1
          · rw [addrAt_addrWrite, if_neg]
            simp [xilinxDmaRegCurdesc, xilinxDmaRegTaildesc]
        have hevents : ∃ pre, s.log ++ startEvents s headDesc ++ goEvents s headDesc tailDesc =
            (pre ++ [addrWrite cfg (s.ctrlOffset + xilinxDmaRegCurdesc) headDesc.phys]) ++
              (.iowrite32 (s.ctrlOffset + xilinxDmaRegControl) (startCtrl s) ::
                goEvents s headDesc tailDesc) := by
          simp only [startEvents, if_pos hsg, List.append_assoc]
          exact ⟨_, (List.append_assoc _ _ _).symm⟩
        obtain ⟨pre, hpre⟩ := hevents
        show register cfg _ (s.log ++ startEvents s headDesc ++ goEvents s headDesc tailDesc) = _
        rw [hpre, register_append_of_none _ hlater, register_write]
      · intro d hd
        simp only [hactive, hp, List.nil_append] at hd
        rw [List.getLast?_eq_some_getLast (List.cons_ne_nil _ _), Option.some.injEq] at hd
        subst hd
        show register cfg _ (s.log ++ startEvents s headDesc ++ goEvents s headDesc tailDesc) = _
        rw [hgo, register_write]

namespace VxdmaSys

/-- One section keeps the registers at the ends of the active batch. -/
theorem Section.pointed {env : CallEnv} {s t : XilinxDmaChan cfg} {c : Call cfg}
    {after : After cfg} (h : Section env s c t after) (hs : Pointed s) (hsg : s.hasSg = true)
    (hphys : ∀ p ∈ segsOf s.activeList, (t.mem p).phys = (s.mem p).phys) : Pointed t := by
  have hcontrol : ∀ {t : XilinxDmaChan cfg} {w : List Event}, t.activeList = s.activeList →
      t.idle = s.idle → t.ctrlOffset = s.ctrlOffset → t.log = s.log ++ w →
      (∀ e ∈ w, e.isControlWrite s.ctrlOffset = true) →
      (∀ p ∈ segsOf s.activeList, (t.mem p).phys = (s.mem p).phys) → Pointed t :=
    fun hactive hidle hoffset hlog hw hphys => hs.quiet (Or.inl hactive) hidle hoffset hlog
      (fun e he => spares_of_isControlWrite (hw e he)) hphys
  have hsame : ∀ {t : XilinxDmaChan cfg}, t.activeList = s.activeList → t.idle = s.idle →
      t.ctrlOffset = s.ctrlOffset → t.log = s.log →
      (∀ p ∈ segsOf s.activeList, (t.mem p).phys = (s.mem p).phys) → Pointed t :=
    fun hactive hidle hoffset hlog hphys => hcontrol (w := []) hactive hidle hoffset
      (by rw [hlog, List.append_nil]) (by simp) hphys
  have hack : Pointed (irqAck env.status s) := by
    rw [irqAck_eq]
    refine hs.quiet (Or.inl rfl) rfl rfl rfl ?_ fun _ _ => rfl
    intro e he
    rw [List.mem_singleton.mp he]
    exact iowrite32_spares cfg s.ctrlOffset _ (by decide) (by decide)
  have hdrop : Pointed (xilinxDmaFreeDescriptors s) := by
    rw [freeDescriptors_eq]
    refine hs.quiet (Or.inr rfl) rfl rfl rfl ?_ fun p _ => cleanSegs_phys _ _ p
    intro e he
    obtain ⟨d, -, rfl⟩ := List.mem_map.mp he
    exact spares_of_not_isBusWrite rfl
  cases h with
  | buildDone b => exact hcontrol rfl rfl rfl rfl (builtEvents_isControlWrite b s) hphys
  | buildError =>
    rw [freeTxDescriptor_eq] at hphys ⊢
    exact hsame rfl rfl rfl rfl hphys
  | submitRefused =>
    rw [freeTxDescriptor_eq] at hphys ⊢
    exact hsame rfl rfl rfl rfl hphys
  | resetOk d w hok hw => exact hcontrol rfl rfl rfl rfl hw hphys
  | resetFailed d w hok hw => exact hcontrol rfl rfl rfl rfl hw hphys
  | queued d =>
    refine hs.quiet (w := [.cookieAssign d.id (nextCookie s)]) (Or.inl rfl) rfl rfl rfl ?_ hphys
    intro e he
    rw [List.mem_singleton.mp he]
    exact spares_of_not_isBusWrite rfl
  | queuedBug d =>
    refine hs.quiet (w := [.cookieAssign d.id (nextCookie s), .bug]) (Or.inl rfl) rfl rfl rfl ?_
      hphys
    intro e he
    simp only [List.mem_cons, List.not_mem_nil, or_false] at he
    rcases he with rfl | rfl <;> exact spares_of_not_isBusWrite rfl
  | issue => exact startTransfer_pointed hs hsg env.startOk
  | irqIoc => exact hack
  | irqOther => exact hack
  | irqLock =>
    apply startTransfer_pointed
    · rw [irqComplete_eq]
      exact Pointed.of_nil rfl
    · rw [irqComplete_eq]
      exact hsg
  | terminate =>
    rw [halt_eq]
    exact hcontrol rfl rfl rfl rfl (by simp) fun _ _ => rfl
  | terminateFree => exact hdrop
  | freeChan => exact hdrop
  | terminateClear =>
    rw [clearCyclic_eq]
    exact hcontrol rfl rfl rfl rfl (by simp) fun _ _ => rfl
  | _ => exact hsame rfl rfl rfl rfl hphys

/-- The cleanup only calls back. -/
theorem cleanup_events (s : XilinxDmaChan cfg) :
    ∃ w, (xilinxDmaChanDescCleanup s).1.log = s.log ++ w ∧ ∀ e ∈ w, ∃ id, e = .callback id := by
  obtain ⟨freed, rest, -, -, hcases⟩ := cleanupLoop_cases s.doneList s rfl
  unfold xilinxDmaChanDescCleanup
  rcases hcases with ⟨-, h⟩ | ⟨d, tl, -, -, -, h⟩ | ⟨d, tl, -, -, h⟩ | ⟨d, tl, -, -, h⟩ <;> rw [h]
  · exact ⟨[], (List.append_nil _).symm, by simp⟩
  · exact ⟨[], (List.append_nil _).symm, by simp⟩
  · exact ⟨[.callback d.id], rfl, by simp⟩
  · exact ⟨[.callback d.id], rfl, by simp⟩

/-- A cleanup leaves the two registers right. -/
theorem cleanup_pointed {s : XilinxDmaChan cfg} (hs : Pointed s) :
    Pointed (xilinxDmaChanDescCleanup s).1 := by
  have hpool := cleanup_samePool s
  have hqueues := cleanup_sameQueues s
  obtain ⟨w, hlog, hw⟩ := cleanup_events s
  refine hs.quiet (Or.inl hqueues.activeList) hqueues.idle hpool.ctrlOffset hlog ?_
    fun p _ => hpool.phys p
  intro e he
  obtain ⟨id, rfl⟩ := hw e he
  exact spares_of_not_isBusWrite rfl

/-- The rest of a cleanup leaves the two registers right. -/
theorem cleanupResume_pointed (pc : CleanupPc cfg) {s : XilinxDmaChan cfg} (hs : Pointed s) :
    Pointed (cleanupResume pc s).1 := by
  cases pc with
  | idle => exact hs
  | cyclicCallback => exact hs
  | callback d =>
    apply cleanup_pointed
    rw [freeTxDescriptor_eq]
    exact hs.quiet (w := []) (Or.inl rfl) rfl rfl (by simp) (by simp)
      fun p _ => cleanSegs_phys _ _ p

/-- **One action keeps the registers at the ends of the active batch.** -/
theorem sectionStep_pointed {s s' : VxdmaSys cfg} {a : Act cfg} (honce : OwnedOnce s)
    (hs : Pointed s.chan) (hsg : s.chan.hasSg = true) (h : s.sectionStep a = some s') :
    Pointed s'.chan := by
  have hphys : ∀ p ∈ segsOf s.chan.activeList, (s'.chan.mem p).phys = (s.chan.mem p).phys := by
    intro p hp
    apply sectionStep_phys h
    refine (honce.carried (Or.inr ?_)).2.2
    rw [started, segsOf_append]
    exact List.mem_append_left _ hp
  obtain ⟨hbug, hstep⟩ := sectionStep_inv h
  cases hstep with
  | run i env c s' hc hleave =>
    rw [leave_chan hleave] at hphys ⊢
    exact (run_inv env hbug c).pointed hs hsg hphys
  | allocChanResources zalloc =>
    cases zalloc with
    | none =>
      exact hs.quiet (w := []) (Or.inl rfl) rfl rfl (List.append_nil _).symm (by simp) hphys
    | some segP =>
      refine hs.quiet (Or.inl rfl) rfl rfl rfl ?_ hphys
      intro e he
      rw [List.mem_singleton.mp he]
      exact spares_of_isControlWrite (iowrite32_isControlWrite _ _)
  | tasklet =>
    apply cleanup_pointed
    exact hs.quiet (w := []) (Or.inl rfl) rfl rfl (by simp) (by simp) fun _ _ => rfl
  | callbackReturn => exact cleanupResume_pointed s.cleanup hs
  | _ => exact hs.quiet (w := []) (Or.inl rfl) rfl rfl (List.append_nil _).symm (by simp) hphys

end VxdmaSys

/-! ## From the one register to the other -/

/-- The hardware words of the segment of the pool at some address. -/
def hwAt (pool : Nat) (mem : SegPtr → XilinxDmaTxSegment cfg) (addr : DmaAddr cfg) :
    Option XilinxDmaDescHw :=
  ((poolSegs pool).find? fun p => (mem p).phys == addr).map fun p => (mem p).hw

/-- What the engine finds from CURDESC along the links to TAILDESC, if it gets there. In cyclic mode
it goes on from there; this is its first round. -/
def fetched (pool : Nat) (s : XilinxDmaChan cfg) : Option (List XilinxDmaDescHw) := do
  let cur ← register cfg (s.ctrlOffset + xilinxDmaRegCurdesc) s.log
  let tail ← register cfg (s.ctrlOffset + xilinxDmaRegTaildesc) s.log
  let addrs ← walk (nextAt pool s.mem) tail xilinxDmaNumDescs cur
  addrs.mapM (hwAt pool s.mem)

/-- In a pool with its addresses the engine finds the segments at theirs. -/
theorem SegAddrs.mapM_hwAt {pool : Nat} {s : XilinxDmaChan cfg} (h : SegAddrs pool s)
    {ps : List SegPtr} (hpool : ∀ p ∈ ps, p.pool = pool) :
    (ps.map fun p => (s.mem p).phys).mapM (hwAt pool s.mem) =
      some (ps.map fun p => (s.mem p).hw) := by
  induction ps with
  | nil => rfl
  | cons p ps ih =>
    have hfirst : hwAt pool s.mem (s.mem p).phys = some (s.mem p).hw := by
      unfold hwAt
      rw [h.find?_phys (hpool p List.mem_cons_self)]
      rfl
    have hrest := ih fun q hq => hpool q (List.mem_cons_of_mem p hq)
    rw [List.map_cons, List.mapM_cons, hfirst, hrest]
    rfl

/-- Neighbours in a rotation of the pool are successors of each other. -/
theorem isChain_succ_of_isRotated {pool : Nat} {front part back : List SegPtr}
    (h : (front ++ (part ++ back)) ~r poolSegs pool) : part.IsChain fun a b => b = a.succ := by
  have hrot : (part ++ (back ++ front)) ~r poolSegs pool := by
    refine List.IsRotated.trans ?_ h
    rw [← List.append_assoc]
    exact List.isRotated_append
  cases part with
  | nil => exact List.IsChain.nil
  | cons a part =>
    have hchain : Cycle.Chain (fun a b => b = SegPtr.succ a)
        (↑(a :: (part ++ (back ++ front))) : Cycle SegPtr) := by
      rw [← List.cons_append, Cycle.coe_eq_coe.mpr hrot]
      exact poolSegs_chain pool
    rw [Cycle.chain_coe_cons, List.append_assoc, ← List.cons_append] at hchain
    exact (List.isChain_append.mp hchain).1

/-- What has to hold for the engine to find the active batch. -/
structure Fetchable (pool : Nat) (s : XilinxDmaChan cfg) : Prop where
  addrs : SegAddrs pool s
  linked : RingLinked pool s.mem
  pointed : Pointed s
  heads : ∀ d ∈ s.activeList, d.phys = (s.mem d.firstSegment).phys
  fromPool : ∀ p ∈ segsOf s.activeList, p.pool = pool
  nodup : (segsOf s.activeList).Nodup
  chain : (segsOf s.activeList).IsChain fun a b => b = a.succ

/-- **The engine finds the active batch**, segment by segment. -/
theorem Fetchable.fetched_eq {pool : Nat} {s : XilinxDmaChan cfg} (hs : Fetchable pool s)
    (hactive : s.activeList ≠ []) :
    fetched pool s = some ((segsOf s.activeList).map fun p => (s.mem p).hw) := by
  let addrs := (segsOf s.activeList).map fun p => (s.mem p).phys
  obtain ⟨headDesc, rest, hlist⟩ := List.exists_cons_of_ne_nil hactive
  have hcur := hs.pointed.curdesc headDesc (by rw [hlist, List.head?_cons])
  have htail := hs.pointed.taildesc (s.activeList.getLast hactive)
    (List.getLast?_eq_some_getLast hactive)
  have hhead : addrs.head? = some headDesc.phys := by
    have hfirst : (segsOf s.activeList).head? = some headDesc.firstSegment := by
      rw [hlist, segsOf_cons, List.head?_append_of_ne_nil _ headDesc.segments_ne,
        List.head?_eq_some_head headDesc.segments_ne]
      rfl
    rw [List.head?_map, hfirst, Option.map_some,
      hs.heads headDesc (by rw [hlist]; exact List.mem_cons_self)]
  have hlast : addrs.getLast? =
      some (s.mem (s.activeList.getLast hactive).lastSegment).phys := by
    have hend : (segsOf s.activeList).getLast? =
        some (s.activeList.getLast hactive).lastSegment := by
      have hne := (s.activeList.getLast hactive).segments_ne
      conv_lhs => rw [← List.dropLast_append_getLast hactive]
      rw [segsOf_append, segsOf_cons, segsOf_nil, List.append_nil,
        List.getLast?_append_of_ne_nil _ hne, List.getLast?_eq_some_getLast hne]
      rfl
    rw [List.getLast?_map, hend, Option.map_some]
  have hnodup : addrs.Nodup := hs.nodup.map_on fun p hp q hq heq =>
    hs.addrs.injective (hs.fromPool p hp) (hs.fromPool q hq) heq
  have hlen : addrs.length ≤ xilinxDmaNumDescs := by
    rw [List.length_map]
    exact VxdmaSys.segments_length_le hs.nodup hs.fromPool
  have hchain : addrs.IsChain fun a b => nextAt pool s.mem a = some b := by
    rw [List.isChain_map]
    refine (List.IsChain.iff_of_mem_imp fun p q hp hq => ?_).mp hs.chain
    rw [hs.addrs.nextAt_phys (hs.fromPool p hp), Option.some.injEq]
    exact (hs.linked.pointsTo_iff hs.addrs (hs.fromPool p hp) (hs.fromPool q hq)).symm
  have hwalk := walk_of_isChain hlen hnodup hhead hlast hchain
  rw [fetched, hcur, htail]
  simp only [Option.bind_eq_bind, Option.bind_some]
  rw [hwalk, Option.bind_some]
  exact hs.addrs.mapM_hwAt hs.fromPool

/-! ## What was asked for -/

/-- What each element answers to, taken together. -/
theorem exists_forall₂_flatMap {α β γ : Type} {R : α → β → Prop} {F : α → List γ}
    {G : β → List γ} {l : List α} (h : ∀ x ∈ l, ∃ y, R x y ∧ F x = G y) :
    ∃ ys, List.Forall₂ R l ys ∧ l.flatMap F = ys.flatMap G := by
  induction l with
  | nil => exact ⟨[], List.Forall₂.nil, rfl⟩
  | cons x l ih =>
    obtain ⟨y, hy, hxy⟩ := h x List.mem_cons_self
    obtain ⟨ys, hys, hrest⟩ := ih fun z hz => h z (List.mem_cons_of_mem x hz)
    refine ⟨y :: ys, List.Forall₂.cons hy hys, ?_⟩
    rw [List.flatMap_cons, List.flatMap_cons, hxy, hrest]

namespace VxdmaSys

/-- The words of a request, without those that the engine writes. -/
def Act.transfers (a : Act cfg) : List XilinxDmaDescHw :=
  a.newWords.map XilinxDmaDescHw.transfer

/-- The words of a descriptor, without those that the engine writes. -/
def transfers (s : XilinxDmaChan cfg) (d : XilinxDmaTxDescriptor cfg) : List XilinxDmaDescHw :=
  (d.words s).map XilinxDmaDescHw.transfer

/-- The words of a list of descriptors, one after the other. -/
theorem map_transfer_segsOf (s : XilinxDmaChan cfg) (ds : List (XilinxDmaTxDescriptor cfg)) :
    ((segsOf ds).map fun p => (s.mem p).hw).map XilinxDmaDescHw.transfer =
      ds.flatMap (transfers s) := by
  rw [segsOf, List.map_map, List.map_flatMap]
  apply List.flatMap_congr
  intro d _
  rw [transfers, XilinxDmaTxDescriptor.words, List.map_map]
  rfl

/-- What holds of a channel in scatter-gather mode that keeps to the ring order. -/
structure EngineInv (pool : Nat) (s : VxdmaSys cfg) (g : List (Nat × Act cfg)) : Prop where
  recycling : RecyclingInv s g
  carries : CarriesWords s g
  ring : ∃ last, RingInv pool s last
  run : PoolOfRun pool s
  pointed : Pointed s.chan
  hasSg : s.chan.hasSg = true

/-- Every guarded action keeps what the engine needs. -/
theorem sectionStep_engineInv {pool : Nat} {s s' : VxdmaSys cfg} {a : Act cfg}
    {g : List (Nat × Act cfg)} (hs : EngineInv pool s g) (hok : s.RingGuard a)
    (h : s.sectionStep a = some s') : EngineInv pool s' (requests g s a s') := by
  obtain ⟨last, hring⟩ := hs.ring
  have huse : InUse a := by
    refine ⟨?_, ?_⟩
    · rintro rfl
      exact hok
    · rintro zalloc rfl
      have hnone := (sectionStep_allocChanResources h).1
      rw [hring.live] at hnone
      cases hnone
  exact ⟨sectionStep_recyclingInv hs.recycling h,
    sectionStep_carriesWords hs.recycling hs.carries h, ⟨_, sectionStep_ringInv hring hok h⟩,
    sectionStep_poolOfRun hs.run huse h,
    sectionStep_pointed hs.recycling.once hs.pointed hs.hasSg h,
    (sectionStep_hasSg h).trans hs.hasSg⟩

/-- An allocation of a channel of which nothing is left. -/
theorem alloc_engineInv {ctrlOffset : Nat} {dmacr : BitVec 32} {s s' : VxdmaSys cfg}
    {segP : DmaAddr cfg} {g : List (Nat × Act cfg)}
    (hused : Reachable (withGhost sectionStep VxdmaSys.requests) always
      (probed true ctrlOffset dmacr, []) (s, g))
    (hclean : s.owned = 0) (hcalls : s.calls = [])
    (h : s.sectionStep (.allocChanResources (some segP)) = some s') :
    EngineInv s.chan.pools s' g := by
  have hweak : Reachable (withGhost sectionStep VxdmaSys.requests) (fun sg a => always sg.1 a)
      (probed true ctrlOffset dmacr, []) (s, g) := hused
  have hrun : Reachable sectionStep always (probed true ctrlOffset dmacr) s := hweak.fst
  let Inv : VxdmaSys cfg → Prop := fun s =>
    OwnedOnce s ∧ Pointed s.chan ∧ s.chan.hasSg = true
  have hinv : Inv s := by
    refine hrun.invariant ⟨probed_ownedOnce _ _ _, Pointed.of_nil rfl, rfl⟩ ?_
    rintro t a t' ⟨honce, hpointed, hsg⟩ - hstep
    exact ⟨sectionStep_ownedOnce honce hstep, sectionStep_pointed honce hpointed hsg hstep,
      (sectionStep_hasSg hstep).trans hsg⟩
  obtain ⟨honce, hpointed, hsg⟩ := hinv
  have hghost : Reachable (withGhost sectionStep VxdmaSys.requests) always
      (probed true ctrlOffset dmacr, []) (s', g) :=
    hused.tail (.allocChanResources (some segP)) trivial
      (withGhost_eq_some.mpr ⟨h, rfl⟩)
  exact ⟨recyclingInv_of_reachable hghost, carriesWords_of_reachable hghost,
    ⟨none, alloc_ringInv (namesOnce_of_reachable hrun) hclean hcalls h⟩,
    alloc_poolOfRun honce hclean h, sectionStep_pointed honce hpointed hsg h,
    (sectionStep_hasSg h).trans hsg⟩

/-- Under the invariant the engine can follow the links from its first to its last register. -/
theorem EngineInv.fetchable {pool : Nat} {s : VxdmaSys cfg} {g : List (Nat × Act cfg)}
    (hs : EngineInv pool s g) : Fetchable pool s.chan := by
  obtain ⟨last, hring⟩ := hs.ring
  obtain ⟨us, -, hrot⟩ := hring.order
  have hactive : ∀ d ∈ s.chan.activeList, d ∈ s.started := fun d hd =>
    List.mem_append_left _ hd
  refine ⟨hs.run.addrs, hring.linked, hs.pointed, ?_, ?_, ?_, ?_⟩
  · intro d hd
    exact hs.carries.phys d (List.mem_append_right _ (hactive d hd))
  · intro p hp
    apply hs.run.fromPool
    simp only [owned, XilinxDmaChan.owned, Multiset.mem_add, Multiset.mem_coe]
    tauto
  · have hle : (↑(segsOf s.chan.activeList) : Multiset SegPtr) ≤ s.owned := by
      refine Multiset.le_iff_exists_add.mpr ⟨↑s.chan.freeSegList +
        ↑(segsOf s.chan.pendingList) + ↑(segsOf s.chan.doneList) + ↑(segsOf s.prepared) +
        ↑(segsOf s.held) + ↑(s.calls.flatMap Call.segs), ?_⟩
      simp only [owned, XilinxDmaChan.owned]
      abel
    exact Multiset.coe_nodup.mp (Multiset.nodup_of_le hle hs.recycling.once.nodup)
  · -- the active segments are at the end of the ring
    have hend : (s.ring us) = (segsOf s.chan.pendingList ++ (us.flatMap Prod.snd ++
        (s.building.flatMap TxBuild.segments ++ (s.chan.freeSegList ++ (segsOf s.held ++
          segsOf s.chan.doneList))))) ++ (segsOf s.chan.activeList ++ []) := by
      simp only [VxdmaSys.ring, ringFrom, List.append_assoc, List.append_nil]
    rw [hend] at hrot
    exact isChain_succ_of_isRotated hrot.1

/-- What is fetched is what was asked for. -/
theorem EngineInv.fetched_requests {pool : Nat} {s : VxdmaSys cfg} {g : List (Nat × Act cfg)}
    (hs : EngineInv pool s g) (hactive : s.chan.activeList ≠ []) :
    ∃ hws reqs, fetched pool s.chan = some hws ∧
      List.Forall₂ (fun d a => AskedBy g d.id a) s.chan.activeList reqs ∧
      (∀ a ∈ reqs, a.transfers ≠ []) ∧
      hws.map XilinxDmaDescHw.transfer = reqs.flatMap Act.transfers := by
  have hasked : ∀ d ∈ s.chan.activeList, ∃ a, (AskedBy g d.id a ∧ a.transfers ≠ []) ∧
      transfers s.chan d = a.transfers := by
    intro d hd
    obtain ⟨a, ha, hwords⟩ := hs.carries.started d (List.mem_append_left _ hd)
    refine ⟨a, ⟨hs.recycling.requests.askedBy ha, ?_⟩, hwords⟩
    -- a descriptor has a segment
    rw [Act.transfers, ← hwords]
    simpa [XilinxDmaTxDescriptor.words] using d.segments_ne
  obtain ⟨reqs, hreqs, hwords⟩ := exists_forall₂_flatMap hasked
  have hboth : List.Forall₂ (fun a d => a.transfers ≠ [] ∧ AskedBy g d.id a) reqs
      s.chan.activeList := (hreqs.imp fun _ _ h => And.symm h).flip
  obtain ⟨hne, hflip⟩ := (List.forall₂_and_left _ _).mp hboth
  refine ⟨_, reqs, hs.fetchable.fetched_eq hactive, hflip.flip, hne, ?_⟩
  rw [map_transfer_segsOf, hwords]

/-- **The engine fetches what was asked for.** In scatter-gather mode, after an allocation of a
channel of which nothing is left, in every run in which descriptors are submitted in the order of
preparation and not refused, nothing is terminated, and builders are left alone: whenever something
is active, the way from CURDESC along the links to TAILDESC goes through the words of exactly the
active descriptors, in order, and these are the words that their clients asked for. -/
theorem engine_fetches_batch {ctrlOffset : Nat} {dmacr : BitVec 32} {s₀ s₁ s : VxdmaSys cfg}
    {segP : DmaAddr cfg} {g₀ g : List (Nat × Act cfg)}
    (hused : Reachable (withGhost sectionStep VxdmaSys.requests) always
      (probed true ctrlOffset dmacr, []) (s₀, g₀))
    (hclean : s₀.owned = 0) (hcalls : s₀.calls = [])
    (halloc : s₀.sectionStep (.allocChanResources (some segP)) = some s₁)
    (h : Reachable (withGhost sectionStep VxdmaSys.requests) (fun sg a => sg.1.RingGuard a)
      (s₁, g₀) (s, g))
    (hactive : s.chan.activeList ≠ []) :
    ∃ hws reqs, fetched s₀.chan.pools s.chan = some hws ∧
      List.Forall₂ (fun d a => AskedBy g d.id a) s.chan.activeList reqs ∧
      hws.map XilinxDmaDescHw.transfer = reqs.flatMap Act.transfers := by
  have hinv : EngineInv s₀.chan.pools s g :=
    h.ghost_invariant (alloc_engineInv hused hclean hcalls halloc)
      fun _ _ _ _ hs hok hstep => sectionStep_engineInv hs hok hstep
  obtain ⟨hws, reqs, hfetched, hreqs, -, hwords⟩ := hinv.fetched_requests hactive
  exact ⟨hws, reqs, hfetched, hreqs, hwords⟩

/-- Two descriptors in one batch, with the pool and the buffers above 4 GiB, and the engine has
completed the first segment. -/
def highBatch : List (Act .addr64) :=
  let env : CallEnv := ⟨⟨0, true⟩, 0, true, true⟩
  [.prepSlaveSg ⟨[⟨0x200000000, 4⟩, ⟨0x300000000, 8⟩], .memToDev, none, true⟩] ++ sections 3 env ++
  [.prepSlaveSg ⟨[⟨0x400000000, 16⟩], .memToDev, none, true⟩] ++ sections 2 env ++
  [.txSubmit 0 none] ++ sections 3 env ++ [.txSubmit 0 none] ++ sections 3 env ++
  [.issuePending] ++ sections 1 env ++ [.device ⟨0, 0⟩ 0x80000004 zeroDescHw.app]

/-- A batch of two descriptors above 4 GiB. -/
theorem engine_fetches_batch_highBatch :
    ∃ s g, exec (withGhost sectionStep VxdmaSys.requests) (allocated true 0 0 0x100000000, [])
        highBatch = some (s, g) ∧
      s.chan.activeList.map XilinxDmaTxDescriptor.tag =
        [(0, [⟨0, 0⟩, ⟨0, 1⟩]), (1, [⟨0, 2⟩])] ∧
      ∃ hws reqs, fetched 0 s.chan = some hws ∧
        List.Forall₂ (fun d a => AskedBy g d.id a) s.chan.activeList reqs ∧
        hws.map XilinxDmaDescHw.transfer = reqs.flatMap Act.transfers := by
  have hexec : (exec (withGhost sectionStep VxdmaSys.requests)
      (allocated true 0 0 0x100000000, []) highBatch).map (fun sg =>
        sg.1.chan.activeList.map XilinxDmaTxDescriptor.tag) =
      some [(0, [⟨0, 0⟩, ⟨0, 1⟩]), (1, [⟨0, 2⟩])] := by
    decide +kernel
  obtain ⟨⟨s, g⟩, hs, htags⟩ := Option.map_eq_some_iff.mp hexec
  have hrun : Reachable (withGhost sectionStep VxdmaSys.requests) (fun sg a => sg.1.RingGuard a)
      (allocated true 0 0 0x100000000, []) (s, g) := Reachable.of_exec (by decide +kernel) hs
  have hclean : (probed true 0 0 : VxdmaSys .addr64).owned = 0 := rfl
  have hactive : s.chan.activeList ≠ [] := by
    intro hnil
    simp only at htags
    rw [hnil] at htags
    cases htags
  have hpools : (probed true 0 0 : VxdmaSys .addr64).chan.pools = 0 := rfl
  have hused : Reachable (withGhost sectionStep VxdmaSys.requests) always
      (probed true 0 0, []) ((probed true 0 0 : VxdmaSys .addr64), []) := Reachable.refl _ _ _
  have hbatch := engine_fetches_batch hused hclean rfl rfl hrun hactive
  rw [hpools] at hbatch
  exact ⟨s, g, hs, htags, hbatch⟩

end VxdmaSys

end PetalinuxDriver
