import Mathlib.Data.List.Cycle
import PetalinuxDriver.Analysis.History
import PetalinuxDriver.Analysis.Links

/-!
# The ring

The pool is built as a ring: every segment links to the next one, and the last to the first. The
engine follows these links from one batch into the next, so the order in which segments are used
matters. As long as descriptors are submitted in the order in which they were prepared, none of
them is refused or terminated, and a builder is left alone while it runs, segments come back to
`free_seg_list` in the order in which they were taken from it. Read from the cleanup through the
lists to the free list, the segments are then a rotation of the pool at any time, and no link is
ever changed, although `append_desc_queue` writes one with every submit (`ring_rotated`).

Calls may interleave. The order of preparation is that of the names of the descriptors.
-/

set_option autoImplicit false

namespace PetalinuxDriver

open Library

variable {cfg : PhysAddrConfig}

/-! ## Rotations of a pool -/

/-- The segments of a pool in their order. -/
theorem poolSegs_eq_map_range (pool : Nat) :
    poolSegs pool = (List.range 255).map fun i => ⟨pool, Fin.ofNat 255 i⟩ := by
  refine List.ext_getElem (by simp [poolSegs]) fun i hi hi' => ?_
  have hlt : i < 255 := by simpa using hi'
  simp [poolSegs, Fin.ofNat, Nat.mod_eq_of_lt hlt]

/-- Around the pool, each segment is followed by its successor. -/
theorem poolSegs_chain (pool : Nat) :
    Cycle.Chain (fun a b => b = SegPtr.succ a) (poolSegs pool : Cycle SegPtr) := by
  rw [poolSegs_eq_map_range, ← Cycle.map_coe, Cycle.chain_map, Cycle.chain_range_succ]
  refine ⟨rfl, fun m hm => ?_⟩
  simp only [SegPtr.succ, SegPtr.mk.injEq, true_and]
  refine Fin.ext ?_
  simp only [Fin.ofNat, Fin.val_add]
  simp [Nat.add_mod]

/-- In a rotation of the pool, what comes after a segment is its successor, also around the end. -/
theorem succ_of_isRotated {pool : Nat} {front back : List SegPtr} {a b : SegPtr}
    (h : (front ++ a :: back) ~r poolSegs pool) (hb : (back ++ (front ++ [a])).head? = some b) :
    b = a.succ := by
  have hrot : (a :: (back ++ front)) ~r poolSegs pool := by
    refine List.IsRotated.trans ?_ h
    rw [← List.cons_append]
    exact List.isRotated_append
  have hchain : Cycle.Chain (fun a b => b = SegPtr.succ a) (↑(a :: (back ++ front)) : Cycle SegPtr) := by
    rw [Cycle.coe_eq_coe.mpr hrot]
    exact poolSegs_chain pool
  rw [Cycle.chain_coe_cons, List.append_assoc] at hchain
  cases hl : back ++ (front ++ [a]) with
  | nil => simp at hl
  | cons c l =>
    rw [hl] at hb hchain
    cases hb
    exact (List.isChain_cons_cons.mp hchain).1

/-- The list is a rotation of the pool, and starts with the successor of the given segment. -/
def Rotated (pool : Nat) (last : Option SegPtr) (l : List SegPtr) : Prop :=
  l ~r poolSegs pool ∧ ∀ q, last = some q → l.head? = some q.succ

/-- When a part is moved from the front to the end, what comes next is the successor of its last
segment. -/
theorem Rotated.move {pool : Nat} {last : Option SegPtr} {part rest : List SegPtr}
    (h : Rotated pool last (part ++ rest)) :
    Rotated pool (part.getLast?.or last) (rest ++ part) := by
  refine ⟨List.isRotated_append.trans h.1, fun q hq => ?_⟩
  rcases List.eq_nil_or_concat' part with rfl | ⟨front, a, rfl⟩
  · simpa using h.2 q (by simpa using hq)
  · obtain rfl : a = q := by simpa using hq
    have hrot : (front ++ a :: rest) ~r poolSegs pool := by simpa using h.1
    cases hhead : (rest ++ (front ++ [a])).head? with
    | none => simp at hhead
    | some b => rw [succ_of_isRotated hrot hhead]

/-! ## Links -/

/-- Every segment of the pool links to its ring successor. -/
def RingLinked (pool : Nat) (mem : SegPtr → XilinxDmaTxSegment cfg) : Prop :=
  ∀ p : SegPtr, p.pool = pool →
    (mem p).hw.nextDesc = lower32Bits (mem p.succ).phys ∧
      (mem p).hw.nextDescMsb = upper32Bits (mem p.succ).phys

/-- Kept links keep the ring. -/
theorem RingLinked.of_linksKept {pool : Nat} {mem mem' : SegPtr → XilinxDmaTxSegment cfg}
    (h : RingLinked pool mem) (hk : LinksKept mem mem') : RingLinked pool mem' := by
  intro p hp
  obtain ⟨hnext, hmsb⟩ := h p hp
  rw [(hk p).2.1, (hk p).2.2, (hk p.succ).1]
  exact ⟨hnext, hmsb⟩

/-- A 32-bit address has no upper half. -/
theorem upper32Bits_of_32 (a : BitVec 32) : upper32Bits a = 0 := by
  refine BitVec.eq_of_toNat_eq ?_
  have hlt := a.isLt
  simp only [upper32Bits, BitVec.toNat_setWidth, BitVec.toNat_ushiftRight,
    Nat.shiftRight_eq_div_pow]
  simp
  omega

/-- The pool is a ring when it is allocated. -/
theorem alloc_ringLinked (segP : DmaAddr cfg) (s : XilinxDmaChan cfg) :
    RingLinked s.pools (xilinxDmaAllocChanResources (some segP) s).1.mem := by
  intro p hp
  have hmem : ∀ q : SegPtr, q.pool = s.pools →
      (xilinxDmaAllocChanResources (some segP) s).1.mem q = ringSegment segP q.index :=
    fun q hq => if_pos hq
  have hval : (p.succ.index).val = (p.index.val + 1) % xilinxDmaNumDescs := by
    simp only [SegPtr.succ, Fin.val_add]
    rfl
  rw [hmem p hp, hmem p.succ hp]
  cases cfg with
  | addr64 => exact ⟨by simp [ringSegment, hval], by simp [ringSegment, hval]⟩
  | addr32 =>
    refine ⟨by simp [ringSegment, hval], ?_⟩
    exact (upper32Bits_of_32 (segAddr segP (p.succ.index).val)).symm

/-- `append_desc_queue` writes the link that is already there, when the new descriptor starts with
the successor of the tail. -/
theorem RingLinked.linkTail {pool : Nat} {mem : SegPtr → XilinxDmaTxSegment cfg}
    (h : RingLinked pool mem) {pending : List (XilinxDmaTxDescriptor cfg)}
    {d : XilinxDmaTxDescriptor cfg} (hphys : d.phys = (mem d.firstSegment).phys)
    (hnext : ∀ e, pending.getLast? = some e → e.lastSegment.pool = pool ∧
      d.firstSegment = e.lastSegment.succ) :
    RingLinked pool (linkTail pending d.phys mem) := by
  rcases List.eq_nil_or_concat' pending with rfl | ⟨ds, e, rfl⟩
  · exact h
  · obtain ⟨hpool, hsucc⟩ := hnext e (by simp)
    have hsame : PetalinuxDriver.linkTail (ds ++ [e]) d.phys mem = mem := by
      rw [linkTail_append]
      refine Function.update_eq_self_iff.mpr ?_
      rw [hphys, hsucc, ← (h _ hpool).1]
    rw [hsame]
    exact h

/-! ## What is where -/

/-- The name of a descriptor and its segments. -/
def XilinxDmaTxDescriptor.tag (d : XilinxDmaTxDescriptor cfg) : Nat × List SegPtr :=
  (d.id, d.segments)

/-- The descriptor that a call is building. -/
def Call.building : Call cfg → List TxBuild
  | .build _ b => [b]
  | .buildError b => [b]
  | _ => []

/-- The batch that a section starts. -/
def Call.starts (env : CallEnv) (s : XilinxDmaChan cfg) : Call cfg → List (XilinxDmaTxDescriptor cfg)
  | .issue => startedBatch env.startOk s
  | .irqLock => startedBatch env.startOk (irqComplete s)
  | _ => []

/-- The segments around the ring, from the front of `pending_list` on; `us` are the descriptors that
were prepared and not yet submitted, `bs` those being built, and `held` what the cleanup holds. -/
def ringFrom (s : XilinxDmaChan cfg) (us : List (Nat × List SegPtr)) (bs : List TxBuild)
    (held : List (XilinxDmaTxDescriptor cfg)) : List SegPtr :=
  segsOf s.pendingList ++ (us.flatMap Prod.snd ++ (bs.flatMap TxBuild.segments ++
    (s.freeSegList ++ (segsOf held ++ (segsOf s.doneList ++ segsOf s.activeList)))))

/-- In a list that is sorted by name, the element with the least name is the first. -/
theorem exists_cons_of_least {us : List (Nat × List SegPtr)} {x : Nat × List SegPtr}
    (hsorted : us.Pairwise fun a b => a.1 < b.1) (hx : x ∈ us) (hleast : ∀ y ∈ us, x.1 ≤ y.1) :
    ∃ us', us = x :: us' := by
  cases us with
  | nil => cases hx
  | cons y us =>
    rcases List.mem_cons.mp hx with rfl | hx
    · exact ⟨us, rfl⟩
    · have hlt := List.rel_of_pairwise_cons hsorted hx
      have hle := hleast y List.mem_cons_self
      omega

/-- A start turns the ring by the batch that it starts. -/
theorem startTransfer_ringFrom (startOk : Bool) (s : XilinxDmaChan cfg)
    (us : List (Nat × List SegPtr)) (bs : List TxBuild) (held : List (XilinxDmaTxDescriptor cfg)) :
    ∃ rest, ringFrom s us bs held = segsOf (startedBatch startOk s) ++ rest ∧
      ringFrom (xilinxDmaStartTransfer startOk s) us bs held =
        rest ++ segsOf (startedBatch startOk s) := by
  obtain ⟨hactive, hpending, -⟩ := startTransfer_lists startOk s
  have hkept : (xilinxDmaStartTransfer startOk s).freeSegList = s.freeSegList ∧
      (xilinxDmaStartTransfer startOk s).doneList = s.doneList := by
    rcases startTransfer_cases startOk s with ⟨-, h⟩ | ⟨-, -, c, w, -, h⟩ | ⟨-, -, c, w, -, h⟩ <;>
      rw [h] <;> exact ⟨rfl, rfl⟩
  refine ⟨segsOf (xilinxDmaStartTransfer startOk s).pendingList ++ (us.flatMap Prod.snd ++
    (bs.flatMap TxBuild.segments ++ (s.freeSegList ++ (segsOf held ++
      (segsOf s.doneList ++ segsOf s.activeList))))), ?_, ?_⟩
  · have hsegs : segsOf s.pendingList = segsOf (startedBatch startOk s) ++
        segsOf (xilinxDmaStartTransfer startOk s).pendingList := by
      rw [← segsOf_append, ← hpending]
    simp only [ringFrom, hsegs, List.append_assoc]
  · simp only [ringFrom, hactive, hkept.1, hkept.2, segsOf_append, List.append_assoc]

/-- An interrupt moves what is active to the end of what is done, which is next to it. -/
theorem irqComplete_ringFrom (s : XilinxDmaChan cfg) (us : List (Nat × List SegPtr))
    (bs : List TxBuild) (held : List (XilinxDmaTxDescriptor cfg)) :
    ringFrom (irqComplete s) us bs held = ringFrom s us bs held := by
  rw [irqComplete_eq]
  simp [ringFrom]

/-- The cleanup moves what is done to the end of the free list, by way of what it holds. -/
theorem cleanup_ringFrom (s : XilinxDmaChan cfg) (us : List (Nat × List SegPtr))
    (bs : List TxBuild) :
    ringFrom (xilinxDmaChanDescCleanup s).1 us bs (xilinxDmaChanDescCleanup s).2.held =
      ringFrom s us bs [] := by
  obtain ⟨freed, rest, hsplit, -, hcases⟩ := cleanupLoop_cases s.doneList s rfl
  unfold xilinxDmaChanDescCleanup
  rcases hcases with ⟨-, h⟩ | ⟨d, tl, -, -, -, h⟩ | ⟨d, tl, -, -, h⟩ | ⟨d, tl, hrest, -, h⟩ <;> rw [h]
  · simp [ringFrom, CleanupPc.held, hsplit]
  · simp [ringFrom, CleanupPc.held, hsplit]
  · simp [ringFrom, CleanupPc.held, hsplit, XilinxDmaChan.emit]
  · simp [ringFrom, CleanupPc.held, hsplit, hrest, XilinxDmaChan.emit]

/-- The rest of a cleanup leaves the order of the ring. -/
theorem cleanupResume_ringFrom (pc : CleanupPc cfg) (s : XilinxDmaChan cfg)
    (us : List (Nat × List SegPtr)) (bs : List TxBuild) :
    ringFrom (cleanupResume pc s).1 us bs (cleanupResume pc s).2.held =
      ringFrom s us bs pc.held := by
  cases pc with
  | idle => rfl
  | cyclicCallback => rfl
  | callback d =>
    rw [cleanupResume, cleanup_ringFrom, freeTxDescriptor_eq]
    simp [ringFrom, CleanupPc.held]

namespace VxdmaSys

/-- The descriptors that were prepared and not yet queued. -/
def unsubmitted (s : VxdmaSys cfg) : List (XilinxDmaTxDescriptor cfg) :=
  s.prepared ++ s.calls.flatMap Call.submitting

/-- The descriptors that are being built. -/
def building (s : VxdmaSys cfg) : List TxBuild := s.calls.flatMap Call.building

/-- A submit is neither refused nor fails, and its locked section comes when its descriptor is the
oldest of those not yet queued. -/
def inTurn (s : VxdmaSys cfg) (env : CallEnv) : Call cfg → Prop
  | .submitRefused _ => False
  | .submitReset _ => env.reset.ok = true
  | .submitLock d => ∀ e ∈ s.unsubmitted, d.id ≤ e.id
  | _ => True

instance (s : VxdmaSys cfg) (env : CallEnv) (c : Call cfg) : Decidable (s.inTurn env c) := by
  cases c <;> unfold inTurn <;> infer_instance

/-- Descriptors are submitted in the order of preparation and are not refused, nobody terminates or
releases the channel, and while a builder is at work only it and the engine do anything. -/
def RingGuard (s : VxdmaSys cfg) : Act cfg → Prop
  | .run i env => ∀ c ∈ s.calls[i]?, (s.building ≠ [] → c.building ≠ []) ∧ s.inTurn env c
  | .terminateAll => False
  | .freeChanResources => False
  | .device _ _ _ => True
  | _ => s.building = []

instance (s : VxdmaSys cfg) : (a : Act cfg) → Decidable (s.RingGuard a)
  | .run i env => inferInstanceAs (Decidable
      (∀ c ∈ s.calls[i]?, (s.building ≠ [] → c.building ≠ []) ∧ s.inTurn env c))
  | .terminateAll => isFalse id
  | .freeChanResources => isFalse id
  | .device _ _ _ => isTrue trivial
  | .prepSlaveSg _ => inferInstanceAs (Decidable (s.building = []))
  | .prepDmaCyclic _ => inferInstanceAs (Decidable (s.building = []))
  | .txSubmit _ _ => inferInstanceAs (Decidable (s.building = []))
  | .issuePending => inferInstanceAs (Decidable (s.building = []))
  | .interrupt => inferInstanceAs (Decidable (s.building = []))
  | .allocChanResources _ => inferInstanceAs (Decidable (s.building = []))
  | .tasklet => inferInstanceAs (Decidable (s.building = []))
  | .callbackReturn => inferInstanceAs (Decidable (s.building = []))

/-- One section moves along the ring: what it starts goes from the front to the end, and everything
else stays where it is. -/
theorem Section.ring {env : CallEnv} {s t : XilinxDmaChan cfg} {c : Call cfg} {after : After cfg}
    (h : Section env s c t after) (hdrop : c.dropsLists = false) (hrel : c.releases = false)
    (hrefused : ∀ d, c ≠ .submitRefused d) (hreset : ∀ d, c = .submitReset d → env.reset.ok = true)
    (hdry : ∀ b, c = .buildError b → s.freeSegList = []) (hwild : after ≠ .wild)
    {us R : List (Nat × List SegPtr)}
    (hus : us.Perm (c.submitting.map XilinxDmaTxDescriptor.tag ++ R))
    (hsorted : us.Pairwise fun a b => a.1 < b.1)
    (hnewest : ∀ b ∈ c.building, ∀ x ∈ R, x.1 < b.id)
    (holdest : ∀ d, c = .submitLock d → ∀ x ∈ R, d.id ≤ x.1)
    (held : List (XilinxDmaTxDescriptor cfg)) :
    ∃ us' rest, us'.Perm ((after.kept ++ after.calls.flatMap Call.submitting).map
        XilinxDmaTxDescriptor.tag ++ R) ∧
      us'.Pairwise (fun a b => a.1 < b.1) ∧
      ringFrom s us c.building held = segsOf (c.starts env s) ++ rest ∧
      ringFrom t us' (after.calls.flatMap Call.building) held = rest ++ segsOf (c.starts env s) := by
  have hsame : c.starts env s = [] →
      (after.kept ++ after.calls.flatMap Call.submitting).map XilinxDmaTxDescriptor.tag =
        c.submitting.map XilinxDmaTxDescriptor.tag →
      ringFrom t us (after.calls.flatMap Call.building) held = ringFrom s us c.building held →
      ∃ us' rest, us'.Perm ((after.kept ++ after.calls.flatMap Call.submitting).map
          XilinxDmaTxDescriptor.tag ++ R) ∧
        us'.Pairwise (fun a b => a.1 < b.1) ∧
        ringFrom s us c.building held = segsOf (c.starts env s) ++ rest ∧
        ringFrom t us' (after.calls.flatMap Call.building) held =
          rest ++ segsOf (c.starts env s) := by
    intro hstarts hsub hring
    refine ⟨us, ringFrom s us c.building held, by rwa [hsub], hsorted, ?_, ?_⟩
    · simp [hstarts]
    · simp [hstarts, hring]
  have hqueue : ∀ d, c = .submitLock d → ∃ us', us = d.tag :: us' ∧ us'.Perm R := by
    rintro d rfl
    have hperm : us.Perm (d.tag :: R) := hus
    have hmem : d.tag ∈ us := hperm.symm.subset List.mem_cons_self
    obtain ⟨us', rfl⟩ := exists_cons_of_least hsorted hmem fun y hy => by
      rcases List.mem_cons.mp (hperm.subset hy) with rfl | hy
      · exact le_rfl
      · exact holdest d rfl y hy
    exact ⟨us', rfl, hperm.cons_inv⟩
  cases h with
  | buildDone b d mem hne hbuilt =>
    -- the new descriptor is the youngest
    have hperm : us.Perm R := hus
    refine ⟨us ++ [d.tag], ringFrom s us [b] held, ?_, ?_, ?_, ?_⟩
    · have htag : (us ++ [d.tag]).Perm (d.tag :: R) :=
        List.perm_append_comm.trans (hperm.cons d.tag)
      simpa [After.kept, After.calls] using htag
    · rw [List.pairwise_append]
      refine ⟨hsorted, List.pairwise_singleton _ _, fun x hx y hy => ?_⟩
      rw [List.mem_singleton.mp hy]
      have hlt := hnewest b (by simp [Call.building]) x (hperm.subset hx)
      rwa [XilinxDmaTxDescriptor.tag, hbuilt.id]
    · simp [Call.starts, Call.building]
    · simp [Call.starts, After.calls, ringFrom, XilinxDmaTxDescriptor.tag, hbuilt.segments]
  | buildWild => exact absurd rfl hwild
  | buildRound c cs b p ps hfree =>
    refine hsame rfl rfl ?_
    simp [ringFrom, After.calls, Call.building, hfree]
  | buildDry => exact hsame rfl rfl rfl
  | buildError b =>
    refine hsame rfl rfl ?_
    rw [freeTxDescriptor_eq]
    simp [ringFrom, After.calls, Call.building, hdry b rfl]
  | submitCyclic => exact hsame rfl rfl rfl
  | submitOpen => exact hsame rfl rfl rfl
  | submitRefused d => exact absurd rfl (hrefused d)
  | submitBroken => exact hsame rfl rfl rfl
  | submitSound => exact hsame rfl rfl rfl
  | resetOk => exact hsame rfl rfl rfl
  | resetFailed d w hok =>
    rw [hreset d rfl] at hok
    cases hok
  | queued d =>
    obtain ⟨us', rfl, hperm⟩ := hqueue d rfl
    refine ⟨us', ringFrom s (d.tag :: us') [] held, hperm, (List.pairwise_cons.mp hsorted).2, ?_, ?_⟩
    · simp [Call.starts, Call.building]
    · simp [Call.starts, After.calls, ringFrom, XilinxDmaTxDescriptor.tag]
  | queuedBug d =>
    obtain ⟨us', rfl, hperm⟩ := hqueue d rfl
    refine ⟨us', ringFrom s (d.tag :: us') [] held, hperm, (List.pairwise_cons.mp hsorted).2, ?_, ?_⟩
    · simp [Call.starts, Call.building]
    · simp [Call.starts, After.calls, ringFrom, XilinxDmaTxDescriptor.tag]
  | issue =>
    obtain ⟨rest, hbefore, hafter⟩ := startTransfer_ringFrom env.startOk s us [] held
    exact ⟨us, rest, hus, hsorted, hbefore, hafter⟩
  | irqNone => exact hsame rfl rfl rfl
  | irqIoc =>
    refine hsame rfl rfl ?_
    rw [irqAck_eq]
    rfl
  | irqOther =>
    refine hsame rfl rfl ?_
    rw [irqAck_eq]
    rfl
  | irqLock =>
    obtain ⟨rest, hbefore, hafter⟩ :=
      startTransfer_ringFrom env.startOk (irqComplete s) us [] held
    rw [irqComplete_ringFrom] at hbefore
    exact ⟨us, rest, hus, hsorted, hbefore, hafter⟩
  | irqSchedule => exact hsame rfl rfl rfl
  | terminate => cases hdrop
  | terminateFree => cases hdrop
  | terminateCyclic => exact hsame rfl rfl rfl
  | terminateDone => exact hsame rfl rfl rfl
  | terminateClear =>
    refine hsame rfl rfl ?_
    rw [clearCyclic_eq]
    rfl
  | freeChan => cases hdrop
  | freeChanInit => cases hrel
  | freeChanCoherent => cases hrel

/-! ## The invariant -/

/-- The batch that an action starts. -/
def startedBy (s : VxdmaSys cfg) : Act cfg → List (XilinxDmaTxDescriptor cfg)
  | .run i env =>
    match s.calls[i]? with
    | some c => c.starts env s.chan
    | none => []
  | _ => []

/-- The last segment of the batch that was started last, after an action. -/
def lastStarted (last : Option SegPtr) (s : VxdmaSys cfg) (a : Act cfg) (_ : VxdmaSys cfg) :
    Option SegPtr :=
  (segsOf (s.startedBy a)).getLast?.or last

/-- `us` are the descriptors that were prepared and not yet queued, in the order of preparation. -/
structure InOrderOfPreparation (s : VxdmaSys cfg) (us : List (Nat × List SegPtr)) : Prop where
  perm : us.Perm (s.unsubmitted.map XilinxDmaTxDescriptor.tag)
  sorted : us.Pairwise fun a b => a.1 < b.1

/-- The segments around the ring. -/
def ring (s : VxdmaSys cfg) (us : List (Nat × List SegPtr)) : List SegPtr :=
  ringFrom s.chan us s.building s.held

/-- What holds of the calls in flight and of the descriptors in their hands. -/
structure CallsInv (s : VxdmaSys cfg) : Prop where
  /-- At most one builder is at work, on the youngest descriptor. -/
  alone : s.building.length ≤ 1
  newest : ∀ b ∈ s.building, ∀ d ∈ s.unsubmitted, d.id < b.id
  /-- A builder fails only when it has drained the pool. -/
  dry : ∀ b, .buildError b ∈ s.calls → s.chan.freeSegList = []
  quiet : ∀ c ∈ s.calls, c.dropsLists = false ∧ c.releases = false

/-- What holds of a pool along a guarded run. -/
structure RingInv (pool : Nat) (s : VxdmaSys cfg) (last : Option SegPtr) : Prop where
  order : ∃ us, s.InOrderOfPreparation us ∧ Rotated pool last (s.ring us)
  linked : RingLinked pool s.chan.mem
  phys : ∀ d ∈ s.unsubmitted, d.phys = (s.chan.mem d.firstSegment).phys
  names : NamesOnce s
  live : s.chan.segV = some pool
  calls : CallsInv s

/-- When a call runs that may run, all that is being built is in its hands. -/
theorem building_of_run {s : VxdmaSys cfg} {i : Nat} {c : Call cfg} (hc : s.calls[i]? = some c)
    (halone : s.building.length ≤ 1) (hok : s.building ≠ [] → c.building ≠ []) :
    s.building = c.building ∧ (s.calls.eraseIdx i).flatMap Call.building = [] := by
  obtain ⟨hi, rfl⟩ := List.getElem?_eq_some_iff.mp hc
  have hperm : s.building.Perm
      (s.calls[i].building ++ (s.calls.eraseIdx i).flatMap Call.building) := by
    rw [← List.flatMap_cons]
    exact (List.getElem_cons_eraseIdx_perm hi).symm.flatMap_right _
  have hlen := hperm.length_eq
  rw [List.length_append] at hlen
  have hother : (s.calls.eraseIdx i).flatMap Call.building = [] := by
    by_contra hne
    have hpos := List.length_pos_of_ne_nil hne
    have hbuilding : s.building ≠ [] := fun hnil => by
      rw [hnil] at hlen
      simp only [List.length_nil] at hlen
      omega
    have hpos' := List.length_pos_of_ne_nil (hok hbuilding)
    omega
  rw [hother, List.append_nil] at hperm
  refine ⟨?_, hother⟩
  -- a list of at most one element has one order
  cases hcb : s.calls[i].building with
  | nil =>
    rw [hcb] at hperm
    exact hperm.eq_nil
  | cons b bs =>
    have hbs : bs = [] := by
      rw [hcb, hother] at hlen
      simp only [List.length_cons, List.length_nil] at hlen
      exact List.eq_nil_of_length_eq_zero (by omega)
    rw [hcb, hbs] at hperm
    rw [hbs]
    exact List.perm_singleton.mp hperm

/-- The builder of a call in flight is one of the builders. -/
theorem mem_building {s : VxdmaSys cfg} {c : Call cfg} {b : TxBuild} (hc : c ∈ s.calls)
    (hb : b ∈ c.building) : b ∈ s.building :=
  List.mem_flatMap.mpr ⟨c, hc, hb⟩

/-- A descriptor that is not submitted has its name. -/
theorem id_mem_names {s : VxdmaSys cfg} {d : XilinxDmaTxDescriptor cfg} (hd : d ∈ s.unsubmitted) :
    d.id ∈ s.names := by
  simp only [names, Multiset.mem_add, Multiset.mem_coe]
  rcases List.mem_append.mp hd with hd | hd
  · exact Or.inl (Or.inl (List.mem_map_of_mem hd))
  · obtain ⟨c, hc, hdc⟩ := List.mem_flatMap.mp hd
    refine Or.inl (Or.inr (List.mem_flatMap.mpr ⟨c, hc, ?_⟩))
    cases c <;> simp_all [Call.submitting, Call.ids]

/-- A section of a builder goes on with the same descriptor, or gives it to the client. -/
theorem Section.building {env : CallEnv} {s t : XilinxDmaChan cfg} {c : Call cfg}
    {after : After cfg} (h : Section env s c t after) :
    ∀ b' ∈ after.calls.flatMap Call.building, after.kept = [] ∧
      after.calls.flatMap Call.submitting = [] ∧ ∃ b ∈ c.building, b'.id = b.id := by
  intro b' hb'
  cases h with
  | buildRound c cs b p ps =>
    obtain rfl : b' = { b with segments := b.segments ++ [p] } := by
      simpa [After.calls, Call.building] using hb'
    exact ⟨rfl, rfl, b, by simp [Call.building], rfl⟩
  | buildDry c cs b =>
    obtain rfl : b' = b := by simpa [After.calls, Call.building] using hb'
    exact ⟨rfl, rfl, b', by simp [Call.building], rfl⟩
  | _ => simp [After.calls, Call.building] at hb'

/-- What is in the hands of the client and its submits after a section was there before, or is a
descriptor that was just built. -/
theorem Section.submitting {env : CallEnv} {s t : XilinxDmaChan cfg} {c : Call cfg}
    {after : After cfg} (h : Section env s c t after) :
    ∀ d ∈ after.kept ++ after.calls.flatMap Call.submitting,
      d ∈ c.submitting ∨ d.phys = (t.mem d.firstSegment).phys := by
  intro d hd
  cases h with
  | buildDone b d' mem hne hbuilt hmem =>
    obtain rfl : d = d' := by simpa [After.kept, After.calls] using hd
    exact Or.inr (hbuilt.phys.trans (hmem.1 _).1.symm)
  | _ => simp_all [After.kept, After.calls, Call.submitting]

/-- No section of another call goes on to free the lists or to release the channel. -/
theorem Section.quiet {env : CallEnv} {s t : XilinxDmaChan cfg} {c : Call cfg}
    {after : After cfg} (h : Section env s c t after) (hdrop : c.dropsLists = false)
    (hrel : c.releases = false) :
    ∀ c' ∈ after.calls, c'.dropsLists = false ∧ c'.releases = false := by
  intro c' hc'
  cases h with
  | terminate => cases hdrop
  | freeChan => cases hdrop
  | terminateFree => cases hdrop
  | freeChanInit => cases hrel
  | _ =>
    first
    | (obtain rfl := List.mem_singleton.mp hc'; exact ⟨rfl, rfl⟩)
    | cases hc'

/-- A builder gets to its error label only with the pool drained. -/
theorem Section.dry {env : CallEnv} {s t : XilinxDmaChan cfg} {c : Call cfg} {after : After cfg}
    (h : Section env s c t after) {b : TxBuild} (hb : .buildError b ∈ after.calls) :
    t.freeSegList = [] := by
  cases h with
  | buildDry c cs b' hfree => exact hfree
  | _ => simp [After.calls] at hb

/-- An action that enters a builder starts nothing. -/
theorem startedBy_of_entry {s : VxdmaSys cfg} {a : Act cfg} {e : PrepEntry cfg}
    (h : a.entry s.chan = some e) : s.startedBy a = [] := by
  cases a <;> first | rfl | cases h

/-- A section of a call turns the ring by what it starts. -/
theorem run_order {pool i : Nat} {s s' : VxdmaSys cfg} {last : Option SegPtr} {env : CallEnv}
    {c : Call cfg} (hs : RingInv pool s last) (hok : s.RingGuard (.run i env))
    (hbug : s.chan.bug = false) (hc : s.calls[i]? = some c)
    (hleave : ({ s with calls := s.calls.eraseIdx i } : VxdmaSys cfg).leave
      (c.run env s.chan).1 (c.run env s.chan).2 = some s') :
    ∃ us, s'.InOrderOfPreparation us ∧
      Rotated pool (lastStarted last s (.run i env) s') (s'.ring us) := by
  obtain ⟨us, hus, hrot⟩ := hs.order
  obtain ⟨halone, hturn⟩ := hok c (Option.mem_def.mpr hc)
  obtain ⟨hbuilding, hother⟩ := building_of_run hc hs.calls.alone halone
  have hcmem := List.mem_of_getElem? hc
  obtain ⟨hdrop, hrel⟩ := hs.calls.quiet c hcmem
  have hwild : (c.run env s.chan).2 ≠ .wild := fun hw => by
    rw [hw] at hleave
    cases hleave
  -- the descriptor in the hands of the call, and all others
  let R := (s.prepared ++ (s.calls.eraseIdx i).flatMap Call.submitting).map
    XilinxDmaTxDescriptor.tag
  have hsplit : ∀ l : List (XilinxDmaTxDescriptor cfg),
      ((s.prepared ++ (l ++ (s.calls.eraseIdx i).flatMap Call.submitting)).map
        XilinxDmaTxDescriptor.tag).Perm (l.map XilinxDmaTxDescriptor.tag ++ R) := fun l => by
    simp only [R, List.map_append]
    exact List.perm_append_comm_assoc _ _ _
  have hunsub : (s.unsubmitted.map XilinxDmaTxDescriptor.tag).Perm
      (c.submitting.map XilinxDmaTxDescriptor.tag ++ R) := by
    refine List.Perm.trans ?_ (hsplit c.submitting)
    obtain ⟨hi, rfl⟩ := List.getElem?_eq_some_iff.mp hc
    refine ((List.Perm.append_left _ ?_).map _)
    rw [← List.flatMap_cons]
    exact (List.getElem_cons_eraseIdx_perm hi).symm.flatMap_right _
  have hRmem : ∀ x ∈ R, ∃ d ∈ s.unsubmitted, x = d.tag := fun x hx => by
    obtain ⟨d, hd, rfl⟩ := List.mem_map.mp
      (hunsub.symm.subset (List.mem_append_right _ hx))
    exact ⟨d, hd, rfl⟩
  obtain ⟨us', rest, hperm', hsorted', hbefore, hafter⟩ := (run_inv env hbug c).ring hdrop hrel
    (fun d hd => by subst hd; exact hturn) (fun d hd => by subst hd; exact hturn)
    (fun b hb => hs.calls.dry b (hb ▸ hcmem)) hwild (hus.perm.trans hunsub) hus.sorted
    (fun b hb x hx => by
      obtain ⟨d, hd, rfl⟩ := hRmem x hx
      exact hs.calls.newest b (mem_building hcmem hb) d hd)
    (fun d hd x hx => by
      subst hd
      obtain ⟨e, he, rfl⟩ := hRmem x hx
      exact hturn e he)
    s.held
  rw [ring, hbuilding, hbefore] at hrot
  have hstarted : s.startedBy (.run i env) = c.starts env s.chan := by
    simp only [startedBy, hc]
  refine ⟨us', ⟨?_, hsorted'⟩, ?_⟩
  · have hafter' : s'.unsubmitted = s.prepared ++
        (((c.run env s.chan).2.kept ++ (c.run env s.chan).2.calls.flatMap Call.submitting) ++
          (s.calls.eraseIdx i).flatMap Call.submitting) := by
      rw [leave_eq hleave]
      simp [unsubmitted]
    rw [hafter']
    exact hperm'.trans (hsplit _).symm
  · have hring : s'.ring us' = rest ++ segsOf (c.starts env s.chan) := by
      rw [leave_eq hleave, ring, building, List.flatMap_append, hother, List.append_nil]
      exact hafter
    rw [hring, lastStarted, hstarted]
    exact hrot.move

/-- One guarded action turns the ring by what it starts. -/
theorem sectionStep_order {pool : Nat} {s s' : VxdmaSys cfg} {last : Option SegPtr} {a : Act cfg}
    (hs : RingInv pool s last) (hok : s.RingGuard a) (h : s.sectionStep a = some s') :
    ∃ us, s'.InOrderOfPreparation us ∧ Rotated pool (lastStarted last s a s') (s'.ring us) := by
  obtain ⟨hbug, h⟩ := sectionStep_inv h
  obtain ⟨us, hus, hrot⟩ := hs.order
  have hstay : s.startedBy a = [] → (s'.unsubmitted.map XilinxDmaTxDescriptor.tag).Perm
      (s.unsubmitted.map XilinxDmaTxDescriptor.tag) → s'.ring us = s.ring us →
      ∃ us, s'.InOrderOfPreparation us ∧ Rotated pool (lastStarted last s a s') (s'.ring us) := by
    intro hstarted hperm hring
    refine ⟨us, ⟨hus.perm.trans hperm.symm, hus.sorted⟩, ?_⟩
    rw [hring, lastStarted, hstarted]
    exact hrot
  cases h with
  | prepNull _ he => exact hstay (startedBy_of_entry he) (List.Perm.refl _) rfl
  | prepBuild _ chunks b he =>
    have hnone : s.building = [] := by
      cases a with
      | prepSlaveSg args => exact hok
      | prepDmaCyclic args => exact hok
      | _ => cases he
    have hempty : b.segments = [] := (Act.entry_fresh he).1
    refine hstay (startedBy_of_entry he) (List.Perm.refl _) ?_
    have hbuilding : ({ s with chan := kzallocDesc s.chan }.enter (.build chunks b)).building = [b] := by
      change [b] ++ s.building = [b]
      rw [hnone, List.append_nil]
    simp only [ring, hbuilding, hnone]
    simp [ringFrom, hempty, enter, kzallocDesc, held]
  | txSubmit i callback d hd =>
    refine hstay rfl ?_ rfl
    obtain ⟨hi, rfl⟩ := List.getElem?_eq_some_iff.mp hd
    have hperm : (s.prepared[i].tag :: (s.prepared.eraseIdx i).map XilinxDmaTxDescriptor.tag).Perm
        (s.prepared.map XilinxDmaTxDescriptor.tag) := by
      rw [← List.map_cons]
      exact (List.getElem_cons_eraseIdx_perm hi).map _
    simp only [unsubmitted, enter, List.flatMap_cons, Call.submitting, List.map_append,
      List.map_cons, List.map_nil]
    refine List.Perm.trans ?_ (hperm.append_right _)
    exact List.perm_middle
  | issuePending => exact hstay rfl (List.Perm.refl _) rfl
  | interrupt => exact hstay rfl (List.Perm.refl _) rfl
  | terminateAll => exact hok.elim
  | freeChanResources => exact hok.elim
  | allocChanResources zalloc hpool =>
    rw [hs.live] at hpool
    cases hpool
  | run i env c s' hc hleave =>
    exact run_order hs hok hbug hc hleave
  | tasklet hidle =>
    refine hstay rfl (List.Perm.refl _) ?_
    have hclean := cleanup_ringFrom { s.chan with tasklet := false } us s.building
    simp only [ring, held_eq, hidle]
    exact hclean
  | callbackReturn =>
    refine hstay rfl (List.Perm.refl _) ?_
    simp only [ring, held_eq]
    exact cleanupResume_ringFrom s.cleanup s.chan us s.building
  | device => exact hstay rfl (List.Perm.refl _) rfl

/-- The first segment of a descriptor in its turn is the successor of the last segment queued. -/
theorem RingInv.next {pool : Nat} {s : VxdmaSys cfg} {last : Option SegPtr}
    (hs : RingInv pool s last) {d e : XilinxDmaTxDescriptor cfg} (hd : d ∈ s.unsubmitted)
    (holdest : ∀ e ∈ s.unsubmitted, d.id ≤ e.id) (he : s.chan.pendingList.getLast? = some e) :
    e.lastSegment.pool = pool ∧ d.firstSegment = e.lastSegment.succ := by
  obtain ⟨us, hus, hrot⟩ := hs.order
  obtain ⟨us', rfl⟩ : ∃ us', us = d.tag :: us' := by
    refine exists_cons_of_least hus.sorted (hus.perm.symm.subset (List.mem_map_of_mem hd)) ?_
    intro y hy
    obtain ⟨e, he, rfl⟩ := List.mem_map.mp (hus.perm.subset hy)
    exact holdest e he
  obtain ⟨ds, hds⟩ : ∃ ds, s.chan.pendingList = ds ++ [e] := by
    obtain ⟨ds, hds⟩ := List.getLast?_eq_some_iff.mp he
    exact ⟨ds, hds⟩
  have hfirst : d.segments = d.firstSegment :: d.segments.tail :=
    (List.cons_head_tail d.segments_ne).symm
  have hlast : e.segments = e.segments.dropLast ++ [e.lastSegment] :=
    (List.dropLast_append_getLast e.segments_ne).symm
  have hring : ∃ back, s.ring (d.tag :: us') =
      (segsOf ds ++ e.segments.dropLast) ++ e.lastSegment :: (d.firstSegment :: back) := by
    refine ⟨d.segments.tail ++ (us'.flatMap Prod.snd ++ (s.building.flatMap TxBuild.segments ++
      (s.chan.freeSegList ++ (segsOf s.held ++ (segsOf s.chan.doneList ++
        segsOf s.chan.activeList))))), ?_⟩
    have htag : d.tag.2 = d.firstSegment :: d.segments.tail := hfirst
    simp only [ring, ringFrom, hds, segsOf_append, segsOf_cons, segsOf_nil, List.append_nil,
      List.flatMap_cons, htag, List.append_assoc, List.cons_append]
    rw [hlast]
    simp
  obtain ⟨back, hring⟩ := hring
  have hrot' := hrot.1
  rw [hring] at hrot'
  refine ⟨?_, succ_of_isRotated hrot' rfl⟩
  exact mem_poolSegs.mp (hrot'.perm.subset (by simp))

/-- One guarded action keeps the links. -/
theorem sectionStep_ringLinked {pool : Nat} {s s' : VxdmaSys cfg} {last : Option SegPtr}
    {a : Act cfg} (hs : RingInv pool s last) (hok : s.RingGuard a)
    (h : s.sectionStep a = some s') : RingLinked pool s'.chan.mem := by
  obtain ⟨hbug, h⟩ := sectionStep_inv h
  cases h with
  | allocChanResources zalloc hpool =>
    rw [hs.live] at hpool
    cases hpool
  | run i env c s' hc hleave =>
    rw [leave_chan hleave]
    have hsection := run_inv env hbug c
    by_cases hlock : ∃ d, c = .submitLock d
    · obtain ⟨d, rfl⟩ := hlock
      have hd : d ∈ s.unsubmitted := List.mem_append_right _
        (List.mem_flatMap.mpr ⟨_, List.mem_of_getElem? hc, by simp [Call.submitting]⟩)
      have hturn : ∀ e ∈ s.unsubmitted, d.id ≤ e.id := (hok _ (Option.mem_def.mpr hc)).2
      rw [hsection.linkTail]
      exact hs.linked.linkTail (hs.phys d hd) fun e he => hs.next hd hturn he
    · push Not at hlock
      exact hs.linked.of_linksKept (hsection.linksKept hlock)
  | tasklet => exact hs.linked.of_linksKept (cleanup_linksKept { s.chan with tasklet := false })
  | callbackReturn => exact hs.linked.of_linksKept (cleanupResume_linksKept s.cleanup s.chan)
  | device p => exact hs.linked.of_linksKept (linksKept_setHw s.chan p _ rfl rfl)
  | _ => exact hs.linked

/-- In a guarded run the pool stays allocated. -/
theorem sectionStep_samePool {pool : Nat} {s s' : VxdmaSys cfg} {last : Option SegPtr}
    {a : Act cfg} (hs : RingInv pool s last) (h : s.sectionStep a = some s') :
    SamePool s.chan s'.chan := by
  rcases sectionStep_pool h with ⟨zalloc, rfl⟩ | ⟨i, env, -, hc, -⟩ | hpool
  · have hnone := (sectionStep_allocChanResources h).1
    rw [hs.live] at hnone
    cases hnone
  · have hrel := (hs.calls.quiet _ (List.mem_of_getElem? hc)).2
    cases hrel
  · exact hpool

/-- Without a builder no builder runs into an error. -/
theorem notMem_buildError {s : VxdmaSys cfg} (hnone : s.building = []) (b : TxBuild) :
    .buildError b ∉ s.calls := by
  intro hmem
  have hb : b ∈ s.building := mem_building hmem (by simp [Call.building])
  rw [hnone] at hb
  cases hb

/-- A call is made that builds nothing. -/
theorem CallsInv.enter {s : VxdmaSys cfg} {c : Call cfg} (hs : CallsInv s)
    (hbuild : c.building = []) (hquiet : c.dropsLists = false ∧ c.releases = false)
    (hsub : ∀ d ∈ c.submitting, ∀ b ∈ s.building, d.id < b.id) : CallsInv (s.enter c) := by
  have hbuilding : (s.enter c).building = s.building := by
    simp [building, VxdmaSys.enter, hbuild]
  refine ⟨by rw [hbuilding]; exact hs.alone, fun b hb d hd => ?_, fun b hb => ?_, fun e he => ?_⟩
  · rw [hbuilding] at hb
    simp only [unsubmitted, VxdmaSys.enter, List.flatMap_cons, List.mem_append] at hd
    rcases hd with hd | hd | hd
    · exact hs.newest b hb d (List.mem_append_left _ hd)
    · exact hsub d hd b hb
    · exact hs.newest b hb d (List.mem_append_right _ hd)
  · rcases List.mem_cons.mp hb with rfl | hb
    · simp [Call.building] at hbuild
    · exact hs.dry b hb
  · rcases List.mem_cons.mp he with rfl | he
    · exact hquiet
    · exact hs.quiet e he

/-- What is not yet queued after a section was so before, or is in the hands of the call. -/
theorem unsubmitted_of_run {s s' : VxdmaSys cfg} {i : Nat} {chan : XilinxDmaChan cfg}
    {after : After cfg}
    (hleave : ({ s with calls := s.calls.eraseIdx i } : VxdmaSys cfg).leave chan after = some s') :
    ∀ d ∈ s'.unsubmitted,
      d ∈ s.unsubmitted ∨ d ∈ after.kept ++ after.calls.flatMap Call.submitting := by
  intro d hd
  rw [leave_eq hleave] at hd
  simp only [unsubmitted, List.flatMap_append, List.mem_append] at hd ⊢
  rcases hd with (hd | hd) | hd | hd
  · exact Or.inl (Or.inl hd)
  · exact Or.inr (Or.inl hd)
  · exact Or.inr (Or.inr hd)
  · obtain ⟨e, he, hde⟩ := List.mem_flatMap.mp hd
    exact Or.inl (Or.inr (List.mem_flatMap.mpr ⟨e, List.mem_of_mem_eraseIdx he, hde⟩))

/-- A call runs a section. -/
theorem CallsInv.run {s s' : VxdmaSys cfg} {i : Nat} {env : CallEnv} {c : Call cfg}
    (hs : CallsInv s) (hbug : s.chan.bug = false) (hc : s.calls[i]? = some c)
    (halone : s.building ≠ [] → c.building ≠ [])
    (hleave : ({ s with calls := s.calls.eraseIdx i } : VxdmaSys cfg).leave (c.run env s.chan).1
      (c.run env s.chan).2 = some s') : CallsInv s' := by
  obtain ⟨hbuilding, hother⟩ := building_of_run hc hs.alone halone
  have hcmem := List.mem_of_getElem? hc
  obtain ⟨hdrop, hrel⟩ := hs.quiet c hcmem
  have hsection := run_inv env hbug c
  have hafter := leave_eq hleave
  have hbuilding' : s'.building = (c.run env s.chan).2.calls.flatMap Call.building := by
    rw [hafter, building, List.flatMap_append, hother, List.append_nil]
  refine ⟨?_, fun b hb d hd => ?_, fun b hb => ?_, fun e he => ?_⟩
  · rw [hbuilding']
    cases (c.run env s.chan).2 with
    | goesOn c' => cases c' <;> simp [After.calls, Call.building]
    | _ => simp [After.calls]
  · rw [hbuilding'] at hb
    obtain ⟨hkept, hsub, b₀, hb₀, hid⟩ := hsection.building b hb
    rw [hid]
    rcases unsubmitted_of_run hleave d hd with hd | hd
    · exact hs.newest b₀ (mem_building hcmem hb₀) d hd
    · rw [hkept, hsub] at hd
      cases hd
  · rw [hafter] at hb
    rcases List.mem_append.mp hb with hb | hb
    · rw [leave_chan hleave]
      exact hsection.dry hb
    · have hmem : b ∈ (s.calls.eraseIdx i).flatMap Call.building :=
        List.mem_flatMap.mpr ⟨_, hb, by simp [Call.building]⟩
      rw [hother] at hmem
      cases hmem
  · rw [hafter] at he
    rcases List.mem_append.mp he with he | he
    · exact hsection.quiet hdrop hrel e he
    · exact hs.quiet e (List.mem_of_mem_eraseIdx he)

/-- One guarded action keeps the calls in flight in order. -/
theorem sectionStep_callsInv {pool : Nat} {s s' : VxdmaSys cfg} {last : Option SegPtr} {a : Act cfg}
    (hs : RingInv pool s last) (hok : s.RingGuard a) (h : s.sectionStep a = some s') :
    CallsInv s' := by
  have hcalls := hs.calls
  obtain ⟨hbug, hstep⟩ := sectionStep_inv h
  cases hstep with
  | prepNull => exact hcalls
  | prepBuild _ chunks b he =>
    have hnone : s.building = [] := by
      cases a with
      | prepSlaveSg args => exact hok
      | prepDmaCyclic args => exact hok
      | _ => cases he
    have hbuilding : ({ s with chan := kzallocDesc s.chan }.enter (.build chunks b)).building =
        [b] := by
      change [b] ++ s.building = [b]
      rw [hnone, List.append_nil]
    refine ⟨by rw [hbuilding]; exact le_rfl, fun b' hb' d hd => ?_, fun b' hb' => ?_, fun e he => ?_⟩
    · rw [hbuilding] at hb'
      rw [List.mem_singleton.mp hb', (Act.entry_fresh he).2]
      exact hs.names.lt _ (id_mem_names hd)
    · rcases List.mem_cons.mp hb' with hb' | hb'
      · cases hb'
      · exact absurd hb' (notMem_buildError hnone b')
    · rcases List.mem_cons.mp he with rfl | he
      · exact ⟨rfl, rfl⟩
      · exact hcalls.quiet e he
  | txSubmit i callback d hd =>
    have hnone : s.building = [] := hok
    have hidle : ({ s with prepared := s.prepared.eraseIdx i } : VxdmaSys cfg).building = [] := hnone
    have hrest : CallsInv { s with prepared := s.prepared.eraseIdx i } :=
      ⟨hcalls.alone, by simp [hidle], hcalls.dry, hcalls.quiet⟩
    exact hrest.enter rfl ⟨rfl, rfl⟩ (by simp [hidle])
  | issuePending => exact hcalls.enter rfl ⟨rfl, rfl⟩ (by simp [Call.submitting])
  | interrupt => exact hcalls.enter rfl ⟨rfl, rfl⟩ (by simp [Call.submitting])
  | terminateAll => exact hok.elim
  | freeChanResources => exact hok.elim
  | allocChanResources zalloc hnone =>
    rw [hs.live] at hnone
    cases hnone
  | tasklet =>
    exact ⟨hcalls.alone, hcalls.newest, fun b hb => absurd hb (notMem_buildError hok b), hcalls.quiet⟩
  | callbackReturn =>
    exact ⟨hcalls.alone, hcalls.newest, fun b hb => absurd hb (notMem_buildError hok b), hcalls.quiet⟩
  | device => exact ⟨hcalls.alone, hcalls.newest, hcalls.dry, hcalls.quiet⟩
  | run i env c s' hc hleave => exact hcalls.run hbug hc (hok c (Option.mem_def.mpr hc)).1 hleave

/-- One guarded action keeps the addresses of the descriptors that are not yet queued. -/
theorem sectionStep_unsubmittedPhys {pool : Nat} {s s' : VxdmaSys cfg} {last : Option SegPtr}
    {a : Act cfg} (hs : RingInv pool s last) (h : s.sectionStep a = some s') :
    ∀ d ∈ s'.unsubmitted, d.phys = (s'.chan.mem d.firstSegment).phys := by
  have hpool := sectionStep_samePool hs h
  have hphys : ∀ d : XilinxDmaTxDescriptor cfg, d.phys = (s.chan.mem d.firstSegment).phys →
      d.phys = (s'.chan.mem d.firstSegment).phys := fun d hd => hd.trans (hpool.phys _).symm
  obtain ⟨hbug, hstep⟩ := sectionStep_inv h
  intro d hd
  cases hstep with
  | txSubmit i callback d' hd' =>
    rcases List.mem_append.mp hd with hd | hd
    · exact hs.phys d (List.mem_append_left _ (List.mem_of_mem_eraseIdx hd))
    · rcases List.mem_cons.mp hd with rfl | hd
      · exact hs.phys d' (List.mem_append_left _ (List.mem_of_getElem? hd'))
      · exact hs.phys d (List.mem_append_right _ hd)
  | run i env c s' hc hleave =>
    rcases unsubmitted_of_run hleave d hd with hd | hd
    · exact hphys d (hs.phys d hd)
    · rcases (run_inv env hbug c).submitting d hd with hd | hd
      · exact hphys d (hs.phys d (List.mem_append_right _
          (List.mem_flatMap.mpr ⟨c, List.mem_of_getElem? hc, hd⟩)))
      · rw [leave_chan hleave]
        exact hd
  | _ => exact hphys d (hs.phys d hd)

/-- **One guarded action keeps the ring.** -/
theorem sectionStep_ringInv {pool : Nat} {s s' : VxdmaSys cfg} {last : Option SegPtr} {a : Act cfg}
    (hs : RingInv pool s last) (hok : s.RingGuard a) (h : s.sectionStep a = some s') :
    RingInv pool s' (lastStarted last s a s') := by
  exact ⟨sectionStep_order hs hok h, sectionStep_ringLinked hs hok h,
    sectionStep_unsubmittedPhys hs h, sectionStep_namesOnce hs.names h,
    (sectionStep_samePool hs h).segV.trans hs.live, sectionStep_callsInv hs hok h⟩

/-! ## Runs -/

/-- What holds of the ring. -/
structure RingRotated (pool : Nat) (s : VxdmaSys cfg) (last : Option SegPtr) : Prop where
  /-- Unless a builder is at work, the segments from what the cleanup holds to the free list are a
  rotation of the pool. -/
  rotated : s.building = [] → ∃ us, s.InOrderOfPreparation us ∧
    (segsOf s.held ++ (segsOf s.chan.doneList ++ (segsOf s.chan.activeList ++
      (segsOf s.chan.pendingList ++ (us.flatMap Prod.snd ++ s.chan.freeSegList))))) ~r poolSegs pool
  linked : RingLinked pool s.chan.mem
  /-- The last segment of the batch that was started last links to the first one of the batch that
  an action starts now. -/
  continues : ∀ a d rest q, s.startedBy a = d :: rest → last = some q →
    (s.chan.mem q).hw.nextDesc = lower32Bits (s.chan.mem d.firstSegment).phys ∧
      (s.chan.mem q).hw.nextDescMsb = upper32Bits (s.chan.mem d.firstSegment).phys

/-- What is started is taken from the front of `pending_list`. -/
theorem startedBy_prefix {s : VxdmaSys cfg} {a : Act cfg} :
    s.startedBy a <+: s.chan.pendingList := by
  cases a with
  | run i env =>
    cases hc : s.calls[i]? with
    | none => simp [startedBy, hc]
    | some c =>
      simp only [startedBy, hc]
      cases c with
      | issue =>
        have hlists := (startTransfer_lists env.startOk s.chan).2.1
        exact ⟨_, hlists.symm⟩
      | irqLock =>
        have hlists := (startTransfer_lists env.startOk (irqComplete s.chan)).2.1
        have hpending : (irqComplete s.chan).pendingList = s.chan.pendingList := by
          rw [irqComplete_eq]
        rw [hpending] at hlists
        exact ⟨_, hlists.symm⟩
      | _ => exact List.nil_prefix
  | _ => exact List.nil_prefix

/-- The invariant has all that is said about the rotation. -/
theorem RingInv.ringRotated {pool : Nat} {s : VxdmaSys cfg} {last : Option SegPtr}
    (hs : RingInv pool s last) : RingRotated pool s last := by
  obtain ⟨us, hus, hrot⟩ := hs.order
  refine ⟨fun hnone => ⟨us, hus, ?_⟩, hs.linked, fun a d rest q hstart hlast => ?_⟩
  · refine List.IsRotated.trans ?_ hrot.1
    simp only [ring, ringFrom, hnone, List.flatMap_nil, List.nil_append]
    let finished := segsOf s.held ++ (segsOf s.chan.doneList ++ segsOf s.chan.activeList)
    let waiting := segsOf s.chan.pendingList ++ (us.flatMap Prod.snd ++ s.chan.freeSegList)
    have hturn : (finished ++ waiting) ~r (waiting ++ finished) := List.isRotated_append
    simpa only [finished, waiting, List.append_assoc] using hturn
  · have hhead := hrot.2 q hlast
    obtain ⟨more, hmore⟩ := startedBy_prefix (s := s) (a := a)
    rw [hstart] at hmore
    have hfirst : d.segments = d.firstSegment :: d.segments.tail :=
      (List.cons_head_tail d.segments_ne).symm
    have hsucc : d.firstSegment = q.succ := by
      rw [ring, ringFrom, ← hmore, List.cons_append, segsOf_cons, hfirst] at hhead
      simpa using hhead
    have hpool : q.pool = pool := by
      have hmem : q.succ ∈ poolSegs pool := hrot.1.perm.subset (List.mem_of_mem_head? hhead)
      have hpool : q.succ.pool = pool := mem_poolSegs.mp hmem
      exact hpool
    rw [hsucc]
    exact hs.linked q hpool

/-- An allocation of a channel of which nothing is left makes a ring. -/
theorem alloc_ringInv {s s' : VxdmaSys cfg} {segP : DmaAddr cfg} (hnames : NamesOnce s)
    (hclean : s.owned = 0) (hcalls : s.calls = [])
    (h : s.sectionStep (.allocChanResources (some segP)) = some s') :
    RingInv s.chan.pools s' none := by
  have hnames' := sectionStep_namesOnce hnames h
  simp only [owned, XilinxDmaChan.owned, Multiset.coe_add, Multiset.coe_eq_zero,
    List.append_eq_nil_iff] at hclean
  obtain ⟨⟨⟨⟨⟨⟨hfree, hpending⟩, hactive⟩, hdone⟩, hprepared⟩, hheld⟩, -⟩ := hclean
  obtain rfl := (sectionStep_allocChanResources h).2
  have hunsub : ({ s with chan := (xilinxDmaAllocChanResources (some segP) s.chan).1 } :
      VxdmaSys cfg).unsubmitted = [] := by
    simp [unsubmitted, hcalls, segsOf_eq_nil.mp hprepared]
  have hbuilding : ({ s with chan := (xilinxDmaAllocChanResources (some segP) s.chan).1 } :
      VxdmaSys cfg).building = [] := by
    simp [building, hcalls]
  refine ⟨⟨[], ⟨by rw [hunsub]; exact List.Perm.refl _, List.Pairwise.nil⟩, ?_, by simp⟩,
    alloc_ringLinked segP s.chan, by simp [hunsub], hnames', rfl,
    ⟨by simp [hbuilding], by simp [hbuilding], by simp [hcalls], by simp [hcalls]⟩⟩
  have hring : ({ s with chan := (xilinxDmaAllocChanResources (some segP) s.chan).1 } :
      VxdmaSys cfg).ring [] = poolSegs s.chan.pools := by
    rw [ring, hbuilding]
    change segsOf s.chan.pendingList ++ ([] ++ ([] ++ ((s.chan.freeSegList ++
      poolSegs s.chan.pools) ++ (segsOf s.held ++
        (segsOf s.chan.doneList ++ segsOf s.chan.activeList))))) = _
    rw [hfree, hpending, hactive, hdone, hheld]
    simp
  rw [hring]

/-- **The ring turns and its links never change**, in every run from an allocation of a channel of
which nothing is left, the first one or a later one, in which descriptors are submitted in the
order of preparation and not refused, nothing is terminated, and builders are left alone. -/
theorem ring_rotated {hasSg : Bool} {ctrlOffset : Nat} {dmacr : BitVec 32}
    {s₀ s₁ s : VxdmaSys cfg} {segP : DmaAddr cfg} {last : Option SegPtr}
    (hused : Reachable sectionStep always (probed hasSg ctrlOffset dmacr) s₀)
    (hclean : s₀.owned = 0) (hcalls : s₀.calls = [])
    (halloc : s₀.sectionStep (.allocChanResources (some segP)) = some s₁)
    (h : Reachable (withGhost sectionStep lastStarted) (fun sl a => sl.1.RingGuard a)
      (s₁, none) (s, last)) : RingRotated s₀.chan.pools s last := by
  have hnames := namesOnce_of_reachable hused
  have hinv : RingInv s₀.chan.pools s last :=
    h.ghost_invariant (alloc_ringInv hnames hclean hcalls halloc)
      fun _ _ _ _ hs hok hstep => sectionStep_ringInv hs hok hstep
  exact hinv.ringRotated

/-- Two batches. The second one is queued and started while the first one is being cleaned up. -/
def twoBatches : List (Act .addr32) :=
  let env : CallEnv := ⟨⟨0, true⟩, xilinxDmaXrIrqIocMask, true, true⟩
  [.prepSlaveSg ⟨[⟨0, 1⟩, ⟨64, 1⟩], .memToDev, none, true⟩] ++ sections 3 env ++
  [.prepSlaveSg ⟨[⟨0, 1⟩], .memToDev, none, true⟩] ++ sections 2 env ++
  [.txSubmit 0 (some 0)] ++ sections 3 env ++ [.issuePending] ++ sections 1 env ++
  [.interrupt] ++ sections 3 env ++ [.tasklet, .txSubmit 0 none] ++ sections 3 env ++
  [.issuePending] ++ sections 1 env ++ [.callbackReturn]

/-- Two batches, the second of which begins behind the first. -/
theorem ring_rotated_twoBatches :
    ∃ s last, exec (withGhost sectionStep lastStarted) (allocated true 0 0 0, none) twoBatches =
      some (s, some last) ∧ RingRotated 0 s (some last) := by
  have hexec : (exec (withGhost sectionStep lastStarted) (allocated true 0 0 0, none)
      twoBatches).map Prod.snd = some (some ⟨0, 2⟩) := by
    decide +kernel
  obtain ⟨⟨s, last⟩, hs, rfl⟩ := Option.map_eq_some_iff.mp hexec
  have hrun : Reachable (withGhost sectionStep lastStarted) (fun sl a => sl.1.RingGuard a)
      (allocated true 0 0 0, none) (s, some ⟨0, 2⟩) := Reachable.of_exec (by decide +kernel) hs
  have hclean : (probed true 0 0 : VxdmaSys .addr32).owned = 0 := rfl
  exact ⟨s, ⟨0, 2⟩, hs, ring_rotated (Reachable.refl _ _ _) hclean rfl rfl hrun⟩

end VxdmaSys

end PetalinuxDriver
