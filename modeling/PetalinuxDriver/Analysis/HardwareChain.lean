import PetalinuxDriver.Library.Walk
import PetalinuxDriver.Analysis.Links
import PetalinuxDriver.Analysis.Queues

/-!
# The chain that the engine follows

In scatter-gather mode the engine gets the address of the first segment of a batch and the address
of the last one, and follows `next_desc` from the one to the other. `append_desc_queue` links each
descriptor to the one queued before it, but nothing links the segments inside a descriptor: a
builder takes them from the head of `free_seg_list` and relies on each of them to link to the one
after it on that list. That holds of a fresh pool, but not for long. Segments come back in the order
in which descriptors were submitted, completed or terminated, and their links stay as they are.

The engine visits the queued segments, in order and each once, exactly when they are linked
(`chainMatches_iff`). In a run whose builders take linked segments only, it always does
(`chain_matches_queue`).

The build is for 32-bit addresses, where an address is a link.
-/

set_option autoImplicit false

namespace PetalinuxDriver

open Library

variable {cfg : PhysAddrConfig}

/-! ## What the engine is given -/

/-- The value of a write of CURDESC. -/
def Event.curdesc (ctrlOffset : Nat) : Event → Option (DmaAddr .addr32)
  | .iowrite32 offset value =>
    if offset = ctrlOffset + xilinxDmaRegCurdesc then some value else none
  | _ => none

/-- The value of a write of TAILDESC. -/
def Event.taildesc (ctrlOffset : Nat) : Event → Option (DmaAddr .addr32)
  | .iowrite32 offset value =>
    if offset = ctrlOffset + xilinxDmaRegTaildesc then some value else none
  | _ => none

/-- The link of a segment, which is the address of another one. -/
def linkOf (mem : SegPtr → XilinxDmaTxSegment .addr32) (p : SegPtr) : DmaAddr .addr32 :=
  (mem p).hw.nextDesc

/-- The link in the segment of the pool at some address. -/
def linkAt (pool : Nat) (mem : SegPtr → XilinxDmaTxSegment .addr32) (addr : DmaAddr .addr32) :
    Option (DmaAddr .addr32) :=
  ((poolSegs pool).find? fun p => (mem p).phys == addr).map (linkOf mem)

/-- The addresses of the queued segments, in list order. -/
def queuedAddrs (t : XilinxDmaChan .addr32) : List (DmaAddr .addr32) :=
  (segsOf t.pendingList).map fun p => (t.mem p).phys

/-- A start that succeeds writes CURDESC and TAILDESC, and from the one to the other the engine
visits exactly the queued segments, in list order and each once. -/
def ChainMatches (pool : Nat) (t : XilinxDmaChan .addr32) : Prop :=
  ∃ cur tail,
    ((xilinxDmaStartTransfer true t).log.filterMap (Event.curdesc t.ctrlOffset)).getLast? = some cur ∧
    ((xilinxDmaStartTransfer true t).log.filterMap (Event.taildesc t.ctrlOffset)).getLast? =
      some tail ∧
    walk (linkAt pool t.mem) tail xilinxDmaNumDescs cur = some (queuedAddrs t) ∧
    (queuedAddrs t).Nodup ∧ (queuedAddrs t).getLast? = some tail

/-- The one segment links to the other. -/
def LinksTo (mem : SegPtr → XilinxDmaTxSegment .addr32) (p q : SegPtr) : Prop :=
  linkOf mem p = (mem q).phys

instance (mem : SegPtr → XilinxDmaTxSegment .addr32) : DecidableRel (LinksTo mem) := fun p q =>
  inferInstanceAs (Decidable (linkOf mem p = (mem q).phys))

/-- Each segment of the list links to the next one. -/
def Linked (mem : SegPtr → XilinxDmaTxSegment .addr32) (l : List SegPtr) : Prop :=
  l.IsChain (LinksTo mem)

instance (mem : SegPtr → XilinxDmaTxSegment .addr32) (l : List SegPtr) : Decidable (Linked mem l) :=
  inferInstanceAs (Decidable (l.IsChain (LinksTo mem)))

/-- Only links and addresses matter. -/
theorem Linked.of_linksKept {mem mem' : SegPtr → XilinxDmaTxSegment .addr32} {l : List SegPtr}
    (h : Linked mem l) (hk : LinksKept mem mem') : Linked mem' l := by
  refine List.IsChain.imp (fun p q hpq => ?_) h
  unfold LinksTo linkOf
  rw [(hk p).2.1, (hk q).1]
  exact hpq

/-! ## Addresses -/

/-- The segments of the pool have the addresses that they were given at the allocation. -/
def PoolAddrs (pool : Nat) (s : XilinxDmaChan .addr32) : Prop :=
  ∀ p : SegPtr, p.pool = pool → (s.mem p).phys = segAddr s.segP p.index

/-- The addresses of a pool are different. -/
theorem segAddr_injective (segP : DmaAddr .addr32) {i j : Fin xilinxDmaNumDescs}
    (h : segAddr segP i = segAddr segP j) : i = j := by
  have hoff : BitVec.ofNat 32 (sizeofTxSegment * i) = BitVec.ofNat 32 (sizeofTxSegment * j) :=
    (BitVec.add_right_inj segP).mp h
  have hnat := congrArg BitVec.toNat hoff
  have hi := i.isLt
  have hj := j.isLt
  simp only [BitVec.toNat_ofNat, sizeofTxSegment] at hnat
  unfold xilinxDmaNumDescs at hi hj
  refine Fin.ext ?_
  omega

namespace PoolAddrs

variable {pool : Nat} {s s' : XilinxDmaChan .addr32}

/-- In a pool with its addresses, an address tells the segment. -/
theorem injective (h : PoolAddrs pool s) {p q : SegPtr} (hp : p.pool = pool) (hq : q.pool = pool)
    (heq : (s.mem p).phys = (s.mem q).phys) : p = q := by
  rw [h p hp, h q hq] at heq
  have hindex := segAddr_injective s.segP heq
  cases p
  cases q
  simp only [SegPtr.mk.injEq] at *
  exact ⟨hp.trans hq.symm, hindex⟩

/-- The engine finds the segment that an address belongs to. -/
theorem linkAt_phys (h : PoolAddrs pool s) {p : SegPtr} (hp : p.pool = pool) :
    linkAt pool s.mem (s.mem p).phys = some (linkOf s.mem p) := by
  have hfind : (poolSegs pool).find? (fun q => (s.mem q).phys == (s.mem p).phys) = some p := by
    cases hq : (poolSegs pool).find? fun q => (s.mem q).phys == (s.mem p).phys with
    | none =>
      have hnone := List.find?_eq_none.mp hq p (VxdmaSys.mem_poolSegs.mpr hp)
      simp at hnone
    | some q =>
      have heq := List.find?_some hq
      have hmem := VxdmaSys.mem_poolSegs.mp (List.mem_of_find?_eq_some hq)
      rw [h.injective hmem hp (by simpa using heq)]
  unfold linkAt
  rw [hfind]
  rfl

/-- The addresses are those of the pool. -/
theorem of_samePool (h : PoolAddrs pool s) (hpool : SamePool s s') : PoolAddrs pool s' := by
  intro p hp
  rw [hpool.phys p, hpool.segP]
  exact h p hp

end PoolAddrs

/-- A new pool has the addresses that it is given. -/
theorem alloc_poolAddrs (segP : DmaAddr .addr32) (s : XilinxDmaChan .addr32) :
    PoolAddrs s.pools (xilinxDmaAllocChanResources (some segP) s).1 := by
  intro p hp
  have hmem : (xilinxDmaAllocChanResources (some segP) s).1.mem p = ringSegment segP p.index :=
    if_pos hp
  rw [hmem]
  rfl

/-! ## One start -/

/-- What the start writes into CURDESC and TAILDESC. -/
theorem startTransfer_descs {t : XilinxDmaChan .addr32} (hsg : t.hasSg = true)
    {headDesc : XilinxDmaTxDescriptor .addr32} {rest : List (XilinxDmaTxDescriptor .addr32)}
    (hp : t.pendingList = headDesc :: rest) (h : canStart t = true) :
    ((xilinxDmaStartTransfer true t).log.filterMap (Event.curdesc t.ctrlOffset)).getLast? =
        some headDesc.phys ∧
      ((xilinxDmaStartTransfer true t).log.filterMap (Event.taildesc t.ctrlOffset)).getLast? =
        some (t.mem ((headDesc :: rest).getLast (List.cons_ne_nil _ _)).lastSegment).phys := by
  have hwidth : ∀ a : DmaAddr .addr32, BitVec.setWidth 32 a = a := BitVec.setWidth_eq
  rw [startTransfer_started hp h]
  unfold startEvents goEvents
  rw [hsg]
  by_cases hc : t.descPendingcount ≤ xilinxDmaCoalesceMax <;>
    simp [hc, addrWrite, Event.curdesc, Event.taildesc, xilinxDmaRegCurdesc, xilinxDmaRegTaildesc,
      xilinxDmaRegControl, hwidth, List.getLast?_singleton]

/-- What is known about the queue of a channel when a batch is started. -/
structure QueueInv (pool : Nat) (t : XilinxDmaChan .addr32) : Prop where
  hasSg : t.hasSg = true
  addrs : PoolAddrs pool t
  nodup : (segsOf t.pendingList).Nodup
  fromPool : ∀ p ∈ segsOf t.pendingList, p.pool = pool
  heads : ∀ d ∈ t.pendingList, d.phys = (t.mem d.firstSegment).phys

/-- The first segment of a queue is that of its first descriptor. -/
theorem head?_segsOf_cons (d : XilinxDmaTxDescriptor .addr32)
    (ds : List (XilinxDmaTxDescriptor .addr32)) :
    (segsOf (d :: ds)).head? = some d.firstSegment := by
  rw [segsOf_cons, List.head?_append_of_ne_nil _ d.segments_ne, List.head?_eq_some_head d.segments_ne]
  rfl

/-- The last segment of a queue is that of its last descriptor. -/
theorem getLast?_segsOf {ds : List (XilinxDmaTxDescriptor .addr32)} (hne : ds ≠ []) :
    (segsOf ds).getLast? = some (ds.getLast hne).lastSegment := by
  rcases List.eq_nil_or_concat' ds with rfl | ⟨front, d, rfl⟩
  · exact absurd rfl hne
  · rw [List.getLast_concat, segsOf_append, segsOf_cons, segsOf_nil, List.append_nil,
      List.getLast?_append_of_ne_nil _ d.segments_ne, List.getLast?_eq_some_getLast d.segments_ne]
    rfl

/-- **One start.** The engine visits exactly the queued segments when, and only when, they are
linked. -/
theorem chainMatches_iff {pool : Nat} {t : XilinxDmaChan .addr32} (ht : QueueInv pool t)
    (hstart : canStart t = true) : ChainMatches pool t ↔ Linked t.mem (segsOf t.pendingList) := by
  obtain ⟨headDesc, rest, hp⟩ := List.exists_cons_of_ne_nil ((canStart_iff t).mp hstart).2.1
  obtain ⟨hcur, htail⟩ := startTransfer_descs ht.hasSg hp hstart
  have hhead : (queuedAddrs t).head? = some headDesc.phys := by
    unfold queuedAddrs
    rw [List.head?_map, hp, head?_segsOf_cons, Option.map_some,
      ht.heads headDesc (by rw [hp]; exact List.mem_cons_self)]
  have hlast : (queuedAddrs t).getLast? =
      some (t.mem ((headDesc :: rest).getLast (List.cons_ne_nil _ _)).lastSegment).phys := by
    unfold queuedAddrs
    rw [List.getLast?_map, hp, getLast?_segsOf (List.cons_ne_nil _ _), Option.map_some]
  have hnodup : (queuedAddrs t).Nodup := by
    refine ht.nodup.map_on fun p hp q hq heq => ?_
    exact ht.addrs.injective (ht.fromPool p hp) (ht.fromPool q hq) heq
  have hchain : (queuedAddrs t).IsChain (fun a b => linkAt pool t.mem a = some b) ↔
      Linked t.mem (segsOf t.pendingList) := by
    unfold queuedAddrs
    rw [List.isChain_map]
    refine List.IsChain.iff_of_mem_imp fun p q hp hq => ?_
    rw [ht.addrs.linkAt_phys (ht.fromPool p hp), Option.some.injEq]
    rfl
  constructor
  · rintro ⟨cur, tail, -, -, hwalk, -⟩
    exact hchain.mp (walk_eq_some_iff.mp hwalk).2.2.2.2
  · intro hlinked
    have hlen : (queuedAddrs t).length ≤ xilinxDmaNumDescs := by
      rw [queuedAddrs, List.length_map]
      exact VxdmaSys.segments_length_le ht.nodup ht.fromPool
    exact ⟨_, _, hcur, htail, walk_of_isChain hlen hnodup hhead hlast (hchain.mpr hlinked), hnodup,
      hlast⟩

/-- A descriptor whose segments are not linked breaks every batch it is in. -/
theorem not_chainMatches_of_unlinked {pool : Nat} {t : XilinxDmaChan .addr32}
    (ht : QueueInv pool t) (hstart : canStart t = true) {d : XilinxDmaTxDescriptor .addr32}
    (hd : d ∈ t.pendingList) (hnot : ¬ Linked t.mem d.segments) : ¬ ChainMatches pool t := by
  intro h
  obtain ⟨front, back, hsplit⟩ := List.append_of_mem hd
  have hlinked := (chainMatches_iff ht hstart).mp h
  rw [hsplit, segsOf_append, segsOf_cons] at hlinked
  exact hnot (List.isChain_append.mp (List.isChain_append.mp hlinked).2.1).1

/-! ## One action -/

/-- Only the links of all segments but the last one matter, and the addresses. -/
theorem Linked.of_dropLast {mem mem' : SegPtr → XilinxDmaTxSegment .addr32} {l : List SegPtr}
    (h : Linked mem l) (hlink : ∀ p ∈ l.dropLast, mem' p = mem p)
    (hphys : ∀ p, (mem' p).phys = (mem p).phys) : Linked mem' l := by
  induction l with
  | nil => exact List.IsChain.nil
  | cons p l ih =>
    cases l with
    | nil => exact List.IsChain.singleton p
    | cons q l =>
      obtain ⟨hpq, hrest⟩ := List.isChain_cons_cons.mp h
      rw [List.dropLast_cons_cons] at hlink
      refine List.isChain_cons_cons.mpr ⟨?_, ih hrest fun r hr => hlink r (List.mem_cons_of_mem p hr)⟩
      unfold LinksTo linkOf
      rw [hlink p List.mem_cons_self, hphys q]
      exact hpq

/-- **`append_desc_queue` joins two chains**: the queue and the descriptor behind it. -/
theorem Linked.append_linkTail {mem : SegPtr → XilinxDmaTxSegment .addr32}
    {pending : List (XilinxDmaTxDescriptor .addr32)} {d : XilinxDmaTxDescriptor .addr32}
    (hpending : Linked mem (segsOf pending)) (hd : Linked mem d.segments)
    (hnodup : (segsOf (pending ++ [d])).Nodup) (hphys : d.phys = (mem d.firstSegment).phys) :
    Linked (linkTail pending d.phys mem) (segsOf (pending ++ [d])) := by
  have hsame := linkTail_phys pending d.phys mem
  rw [segsOf_append, segsOf_cons, segsOf_nil, List.append_nil] at hnodup ⊢
  obtain ⟨hnodup, -, hdisj⟩ := List.nodup_append.mp hnodup
  have hd' : Linked (linkTail pending d.phys mem) d.segments := by
    refine hd.of_dropLast (fun p hp => linkTail_of_notMem (fun hmem => ?_) _ _) hsame
    exact hdisj p hmem p (List.dropLast_subset _ hp) rfl
  rcases List.eq_nil_or_concat' pending with rfl | ⟨front, e, rfl⟩
  · exact hd'
  · have hlast : (segsOf (front ++ [e])).getLast? = some e.lastSegment := by
      rw [getLast?_segsOf (by simp), List.getLast_concat]
    have hhead : d.segments.head? = some d.firstSegment := List.head?_eq_some_head d.segments_ne
    refine List.isChain_append.mpr ⟨?_, hd', ?_⟩
    · -- within the queue only the last segment was written
      obtain ⟨l, hl⟩ := List.getLast?_eq_some_iff.mp hlast
      refine hpending.of_dropLast (fun p hp => ?_) hsame
      rw [hl, List.dropLast_concat] at hp
      rw [hl] at hnodup
      rw [linkTail_append, Function.update_of_ne]
      rintro rfl
      exact (List.nodup_append.mp hnodup).2.2 _ hp _ (List.mem_singleton.mpr rfl) rfl
    · intro p hp q hq
      rw [hlast, Option.mem_some_iff] at hp
      rw [hhead, Option.mem_some_iff] at hq
      subst hp hq
      unfold LinksTo linkOf
      rw [hsame, ← hphys, linkTail_append, Function.update_self]
      exact BitVec.setWidth_eq d.phys

namespace VxdmaSys

/-- A use of the channel between its allocation and its release, without cyclic transfers. -/
def Op.sgUse : Op cfg → Bool
  | .freeChanResources => false
  | .allocChanResources _ => false
  | .prepDmaCyclic _ => false
  | _ => true

/-- What an action does to links, to the descriptors not yet submitted, and to the queue: it queues
a descriptor, it builds one, or it writes no link and only takes descriptors away. -/
theorem callStep_chain {s s' : VxdmaSys cfg} {op : Op cfg} (h : s.callStep op = some s')
    (hop : op.sgUse = true) :
    (∃ i callback k d, s.prepared[i]? = some d ∧ s'.prepared = s.prepared.eraseIdx i ∧
      s'.chan.pendingList = s.chan.pendingList ++ [{ d with callback := callback, cookie := k }] ∧
      s'.chan.mem = linkTail s.chan.pendingList d.phys s.chan.mem) ∨
    (∃ chunks b d, op.entry s.chan = some (.build chunks b) ∧
      Built chunks b s.chan d s'.chan.mem ∧ s'.prepared = s.prepared ++ [d] ∧
      s'.chan.pendingList = s.chan.pendingList) ∨
    (LinksKept s.chan.mem s'.chan.mem ∧ s'.prepared ⊆ s.prepared ∧
      s'.chan.pendingList <:+ s.chan.pendingList) := by
  obtain ⟨hbug, hstep⟩ := callStep_inv h
  cases hstep with
  | prepNull _ k mem _ _ hmem =>
    exact Or.inr (Or.inr ⟨hmem.1, List.Subset.refl _, List.suffix_refl _⟩)
  | prepDesc _ chunks b d mem hentry hbuilt =>
    exact Or.inr (Or.inl ⟨chunks, b, d, hentry, hbuilt, rfl, rfl⟩)
  | submitRefused i callback env d =>
    exact Or.inr (Or.inr
      ⟨cleanSegs_linksKept _ _, List.eraseIdx_subset, List.suffix_refl _⟩)
  | submitFailed i =>
    exact Or.inr (Or.inr ⟨LinksKept.refl _, List.eraseIdx_subset, List.suffix_refl _⟩)
  | submitQueue i callback env d c w hd =>
    refine Or.inl ⟨i, callback, nextCookie (resetFor s.chan c w), d, hd, rfl, ?_, ?_⟩
    · exact (submitLocked_lists _ (s := resetFor s.chan c w) hbug).2.1
    · exact submitLocked_mem _ (s := resetFor s.chan c w) hbug
  | issuePending startOk =>
    exact Or.inr (Or.inr ⟨startTransfer_linksKept _ _, List.Subset.refl _,
      ⟨_, (startTransfer_lists startOk s.chan).2.1.symm⟩⟩)
  | irqNone => exact Or.inr (Or.inr ⟨LinksKept.refl _, List.Subset.refl _, List.suffix_refl _⟩)
  | irqOther status =>
    refine Or.inr (Or.inr ⟨irqAck_linksKept status _, List.Subset.refl _, ?_⟩)
    change (irqAck status s.chan).pendingList <:+ _
    rw [(irqAck_sameQueues status s.chan).pendingList]
  | irqIoc status startOk =>
    refine Or.inr (Or.inr ⟨?_, List.Subset.refl _, ?_⟩)
    · exact ((irqAck_linksKept status _).trans (irqComplete_linksKept _)).trans
        (startTransfer_linksKept _ _)
    · have hsuffix := (startTransfer_lists startOk (irqComplete (irqAck status s.chan))).2.1
      have hsame : (irqComplete (irqAck status s.chan)).pendingList = s.chan.pendingList := by
        rw [irqComplete_eq]
        exact (irqAck_sameQueues status s.chan).pendingList
      rw [hsame] at hsuffix
      exact ⟨_, hsuffix.symm⟩
  | terminateAll haltOk =>
    refine Or.inr (Or.inr ⟨terminateAll_linksKept _ _, List.Subset.refl _, ?_⟩)
    rw [(terminateAll_queues haltOk s.chan).pendingList]
    exact List.nil_suffix
  | freeChanResources => cases hop
  | allocChanResources => cases hop
  | tasklet =>
    refine Or.inr (Or.inr ⟨cleanup_linksKept _, List.Subset.refl _, ?_⟩)
    rw [(cleanup_sameQueues { s.chan with tasklet := false }).pendingList]
  | callbackReturn =>
    refine Or.inr (Or.inr ⟨cleanupResume_linksKept _ _, List.Subset.refl _, ?_⟩)
    rw [(cleanupResume_sameQueues s.cleanup s.chan).pendingList]
  | device p status app =>
    exact Or.inr (Or.inr ⟨linksKept_setHw _ _ _ rfl rfl, List.Subset.refl _, List.suffix_refl _⟩)

/-! ## Runs -/

/-- The number of segments that a builder needs. -/
def Op.needs (s : XilinxDmaChan cfg) (op : Op cfg) : Option Nat :=
  match op.entry s with
  | some (.build chunks _) => some chunks.length
  | _ => none

/-- A builder that gets all its segments gets linked ones. -/
def TakesLinked (s : VxdmaSys .addr32) (op : Op .addr32) : Prop :=
  ∀ n ∈ op.needs s.chan, n ≤ s.chan.freeSegList.length →
    Linked s.chan.mem (s.chan.freeSegList.take n)

instance (s : VxdmaSys .addr32) (op : Op .addr32) : Decidable (s.TakesLinked op) :=
  inferInstanceAs (Decidable (∀ n ∈ op.needs s.chan, _ → _))

/-- What holds of a channel whatever its callers do with it: nothing is left of an earlier pool, no
segment is in two places, and every descriptor has the address of its first segment. -/
structure PoolInv (pool : Nat) (s : VxdmaSys .addr32) : Prop where
  once : OwnedOnce s
  fromPool : ∀ p ∈ s.owned, p.pool = pool
  hasSg : s.chan.hasSg = true
  addrs : PoolAddrs pool s.chan
  heads : ∀ d ∈ s.prepared ++ s.chan.pendingList, d.phys = (s.chan.mem d.firstSegment).phys

/-- The calls of a client leave the pool. -/
theorem sgUse_samePool {s s' : VxdmaSys cfg} {op : Op cfg} (hop : op.sgUse = true)
    (h : s.callStep op = some s') : SamePool s.chan s'.chan := by
  rcases callStep_pool h with ⟨zalloc, rfl⟩ | ⟨rfl, -⟩ | hpool
  · cases hop
  · cases hop
  · exact hpool

/-- The calls of a client bring no new segments. -/
theorem sgUse_owned {s s' : VxdmaSys cfg} {op : Op cfg} (hop : op.sgUse = true)
    (h : s.callStep op = some s') : s'.owned ≤ s.owned := by
  have hle := callStep_owned h
  have hgained : s.opGained op = 0 := by
    cases op with
    | allocChanResources zalloc => cases hop
    | _ => rfl
  rwa [hgained, add_zero] at hle

/-- The calls of a client keep what is known of the pool. -/
theorem callStep_poolInv {pool : Nat} {s s' : VxdmaSys .addr32} {op : Op .addr32}
    (hs : PoolInv pool s) (hop : op.sgUse = true) (h : s.callStep op = some s') : PoolInv pool s' := by
  have hpool := sgUse_samePool hop h
  have hold : ∀ d ∈ s.prepared ++ s.chan.pendingList,
      d.phys = (s'.chan.mem d.firstSegment).phys := fun d hd => by
    rw [hpool.phys]
    exact hs.heads d hd
  refine ⟨callStep_ownedOnce hs.once h, ?_, hpool.hasSg.trans hs.hasSg,
    hs.addrs.of_samePool hpool, ?_⟩
  · intro p hp
    exact hs.fromPool p (Multiset.mem_of_le (sgUse_owned hop h) hp)
  · intro d hd
    rcases callStep_chain h hop with ⟨i, callback, k, e, he, hprep, hpend, -⟩ |
      ⟨chunks, b, e, -, hbuilt, hprep, hpend⟩ | ⟨-, hprep, hpend⟩
    · rw [hprep, hpend] at hd
      rcases List.mem_append.mp hd with hd | hd
      · exact hold d (List.mem_append_left _ (List.eraseIdx_subset hd))
      · rcases List.mem_append.mp hd with hd | hd
        · exact hold d (List.mem_append_right _ hd)
        · rw [List.mem_singleton.mp hd]
          exact hold e (List.mem_append_left _ (List.mem_of_getElem? he))
    · rw [hprep, hpend, List.append_assoc] at hd
      rcases List.mem_append.mp hd with hd | hd
      · exact hold d (List.mem_append_left _ hd)
      · rcases List.mem_cons.mp hd with rfl | hd
        · rw [hpool.phys]
          exact hbuilt.phys
        · exact hold d (List.mem_append_right _ hd)
    · rcases List.mem_append.mp hd with hd | hd
      · exact hold d (List.mem_append_left _ (hprep hd))
      · exact hold d (List.mem_append_right _ (hpend.subset hd))

/-- The queue of a start is the queue of the channel. -/
theorem PoolInv.queueInv {pool : Nat} {s : VxdmaSys .addr32} (hs : PoolInv pool s)
    {op : Op .addr32} {t : XilinxDmaChan .addr32} {startOk : Bool}
    (hentry : s.startEntry op = some (t, startOk)) : QueueInv pool t := by
  have hle : (↑(segsOf s.chan.pendingList) : Multiset SegPtr) ≤ s.owned :=
    (Multiset.le_add_right _ _).trans s.pending_add_prepared_le
  have hchan : QueueInv pool s.chan :=
    ⟨hs.hasSg, hs.addrs, Multiset.coe_nodup.mp (Multiset.nodup_of_le hle hs.once.nodup),
      fun p hp => hs.fromPool p (Multiset.mem_of_le hle (Multiset.mem_coe.mpr hp)),
      fun d hd => hs.heads d (List.mem_append_right _ hd)⟩
  rcases startEntry_cases hentry with ⟨-, rfl⟩ | ⟨status, -, -, rfl⟩
  · exact hchan
  · rw [irqComplete_eq, irqAck_eq]
    exact ⟨hchan.hasSg, hchan.addrs, hchan.nodup, hchan.fromPool, hchan.heads⟩

/-- What the guard adds: all descriptors, and the queue as a whole, are linked. -/
structure ChainInv (pool : Nat) (s : VxdmaSys .addr32) : Prop extends PoolInv pool s where
  prepared : ∀ d ∈ s.prepared, Linked s.chan.mem d.segments
  pending : Linked s.chan.mem (segsOf s.chan.pendingList)

/-- Submitting a linked descriptor keeps everything linked. -/
theorem ChainInv.submit {pool : Nat} {s : VxdmaSys .addr32} (hs : ChainInv pool s) {i : Nat}
    {d : XilinxDmaTxDescriptor .addr32} (hd : s.prepared[i]? = some d) (callback : Option Nat)
    (k : Int) :
    (∀ e ∈ s.prepared.eraseIdx i,
      Linked (linkTail s.chan.pendingList d.phys s.chan.mem) e.segments) ∧
    Linked (linkTail s.chan.pendingList d.phys s.chan.mem)
      (segsOf (s.chan.pendingList ++ [{ d with callback := callback, cookie := k }])) := by
  have hmem : d ∈ s.prepared := List.mem_of_getElem? hd
  have hle := s.pending_add_prepared_le
  constructor
  · intro e he
    have he : e ∈ s.prepared := List.eraseIdx_subset he
    refine (hs.prepared e he).of_dropLast (fun p hp => ?_) (linkTail_phys _ _ _)
    refine linkTail_of_notMem (fun hq => ?_) _ _
    have hprep : p ∈ segsOf s.prepared := mem_segsOf.mpr ⟨e, he, List.dropLast_subset _ hp⟩
    exact hs.once.disjoint hle (Multiset.mem_coe.mpr hq) (Multiset.mem_coe.mpr hprep)
  · let d' : XilinxDmaTxDescriptor .addr32 := { d with callback := callback, cookie := k }
    have hnodup : (segsOf (s.chan.pendingList ++ [d'])).Nodup := by
      have hold := hs.once.pending_nodup hd
      simpa [d'] using hold
    have hphys : d'.phys = (s.chan.mem d'.firstSegment).phys :=
      hs.heads d (List.mem_append_left _ hmem)
    have hlinked : Linked s.chan.mem d'.segments := hs.prepared d hmem
    exact hs.pending.append_linkTail hlinked hnodup hphys

/-- **The step.** Each descriptor and the queue stay linked. -/
theorem callStep_chainInv {pool : Nat} {s s' : VxdmaSys .addr32} {op : Op .addr32}
    (hs : ChainInv pool s) (hop : op.sgUse = true) (hok : s.TakesLinked op)
    (h : s.callStep op = some s') : ChainInv pool s' := by
  have hpool := callStep_poolInv hs.toPoolInv hop h
  rcases callStep_chain h hop with ⟨i, callback, k, d, hd, hprep, hpend, hmem⟩ |
    ⟨chunks, b, d, hentry, hbuilt, hprep, hpend⟩ | ⟨hlinks, hprep, front, hpend⟩
  · obtain ⟨hprepared, hpending⟩ := hs.submit hd callback k
    refine ⟨hpool, ?_, ?_⟩
    · rw [hprep, hmem]
      exact hprepared
    · rw [hpend, hmem]
      exact hpending
  · have hlinks : LinksKept s.chan.mem s'.chan.mem := hbuilt.words.1
    have hneeds : chunks.length ∈ op.needs s.chan := by
      unfold Op.needs
      rw [hentry]
      rfl
    have hd : Linked s.chan.mem d.segments := by
      rw [hbuilt.segments]
      exact hok _ hneeds hbuilt.enough
    refine ⟨hpool, fun e he => ?_, ?_⟩
    · rw [hprep] at he
      rcases List.mem_append.mp he with he | he
      · exact (hs.prepared e he).of_linksKept hlinks
      · rw [List.mem_singleton.mp he]
        exact hd.of_linksKept hlinks
    · rw [hpend]
      exact hs.pending.of_linksKept hlinks
  · refine ⟨hpool, fun e he => (hs.prepared e (hprep he)).of_linksKept hlinks, ?_⟩
    have hpending := hs.pending
    rw [← hpend, segsOf_append] at hpending
    have hrest : Linked s.chan.mem (segsOf s'.chan.pendingList) :=
      (List.isChain_append.mp hpending).2.1
    exact hrest.of_linksKept hlinks

/-- An allocation of a channel of which nothing is left. -/
theorem alloc_chainInv {s s' : VxdmaSys .addr32} {segP : DmaAddr .addr32} (honce : OwnedOnce s)
    (hsg : s.chan.hasSg = true) (hclean : s.owned = 0)
    (h : s.callStep (.allocChanResources (some segP)) = some s') :
    ChainInv s.chan.pools s' := by
  have honce' := callStep_ownedOnce honce h
  have howned := callStep_owned h
  rw [hclean, zero_add] at howned
  rw [callStep_allocChanResources h] at honce' howned ⊢
  simp only [owned, XilinxDmaChan.owned, Multiset.coe_add, Multiset.coe_eq_zero,
    List.append_eq_nil_iff] at hclean
  obtain ⟨⟨⟨⟨⟨⟨-, hpending⟩, -⟩, -⟩, hprepared⟩, -⟩, -⟩ := hclean
  have hpending : s.chan.pendingList = [] := segsOf_eq_nil.mp hpending
  have hprepared : s.prepared = [] := segsOf_eq_nil.mp hprepared
  have hlist : (xilinxDmaAllocChanResources (some segP) s.chan).1.pendingList = [] := hpending
  refine ⟨⟨honce', fun p hp => ?_, hsg, alloc_poolAddrs segP s.chan, ?_⟩, ?_, ?_⟩
  · exact mem_poolSegs.mp (Multiset.mem_coe.mp (Multiset.mem_of_le howned hp))
  · simp [hprepared, hlist]
  · simp [hprepared]
  · rw [hlist]
    exact List.IsChain.nil

/-- **The hardware chain is the software queue.** After an allocation of a channel of which nothing
is left, in every run in which each builder that succeeds takes linked segments: whatever is
started, the engine visits exactly the queued segments, in list order and each once. -/
theorem chain_matches_queue {ctrlOffset : Nat} {dmacr : BitVec 32} {s₀ s₁ s : VxdmaSys .addr32}
    {segP : DmaAddr .addr32} {op : Op .addr32} {t : XilinxDmaChan .addr32}
    (hused : Reachable callStep always (probed true ctrlOffset dmacr) s₀) (hclean : s₀.owned = 0)
    (halloc : s₀.callStep (.allocChanResources (some segP)) = some s₁)
    (h : Reachable callStep (fun s op => op.sgUse = true ∧ s.TakesLinked op) s₁ s)
    (hentry : s.startEntry op = some (t, true)) (hstart : canStart t = true) :
    ChainMatches s₀.chan.pools t := by
  let Used : VxdmaSys .addr32 → Prop := fun s => OwnedOnce s ∧ s.chan.hasSg = true
  have hused : Used s₀ := hused.invariant ⟨probed_ownedOnce _ _ _, rfl⟩
    fun _ _ _ hs _ hstep => ⟨callStep_ownedOnce hs.1 hstep, (callStep_hasSg hstep).trans hs.2⟩
  have hinv : ChainInv s₀.chan.pools s :=
    h.invariant (alloc_chainInv hused.1 hused.2 hclean halloc)
      fun _ _ _ hs hok hstep => callStep_chainInv hs hok.1 hok.2 hstep
  refine (chainMatches_iff (hinv.queueInv hentry) hstart).mpr ?_
  rcases startEntry_cases hentry with ⟨-, rfl⟩ | ⟨status, -, -, rfl⟩
  · exact hinv.pending
  · rw [irqComplete_eq, irqAck_eq]
    exact hinv.pending

/-- Two descriptors of a fresh pool, submitted in the order of preparation. -/
def queuedTwo : List (Op .addr32) :=
  [.prepSlaveSg ⟨[⟨0, 1⟩, ⟨64, 1⟩], .memToDev, none, true⟩,
    .prepSlaveSg ⟨[⟨0, 1⟩], .memToDev, none, true⟩, .txSubmit 0 none ⟨0, true⟩,
    .txSubmit 0 none ⟨0, true⟩]

/-- Two descriptors wait for their start. -/
theorem chain_matches_queue_queuedTwo :
    ∃ s, exec callStep (allocated true 0 0 0) queuedTwo = some s ∧ canStart s.chan = true ∧
      ChainMatches 0 s.chan := by
  have hexec : (exec callStep (allocated true 0 0 0) queuedTwo).map (fun s => canStart s.chan) =
      some true := by
    decide +kernel
  obtain ⟨s, hs, hstart⟩ := Option.map_eq_some_iff.mp hexec
  have hrun : Reachable callStep (fun s op => op.sgUse = true ∧ s.TakesLinked op)
      (allocated true 0 0 0) s := Reachable.of_exec (by decide +kernel) hs
  have hclean : (probed true 0 0 : VxdmaSys .addr32).owned = 0 := rfl
  have hissue : s.startEntry (.issuePending true) = some (s.chan, true) := rfl
  exact ⟨s, hs, hstart,
    chain_matches_queue (Reachable.refl _ _ _) hclean rfl hrun hissue hstart⟩

/-- The second of three descriptors is submitted and completed before the first, so their segments
come back to the pool in the other order, and the next builder takes both of them. -/
def recycledOutOfOrder : List (Op .addr32) :=
  [.prepSlaveSg ⟨[⟨0, 1⟩], .memToDev, none, true⟩,
    .prepSlaveSg ⟨[⟨0, 1⟩], .memToDev, none, true⟩,
    .prepSlaveSg ⟨List.replicate 253 ⟨0, 1⟩, .memToDev, none, true⟩,
    .txSubmit 1 none ⟨0, true⟩, .issuePending true, .interrupt xilinxDmaXrIrqIocMask true,
    .txSubmit 0 none ⟨0, true⟩, .issuePending true, .interrupt xilinxDmaXrIrqIocMask true,
    .tasklet, .prepSlaveSg ⟨[⟨0, 1⟩, ⟨64, 1⟩], .memToDev, none, true⟩,
    .txSubmit 1 none ⟨0, true⟩]

/-- The engine leaves the queue after its first segment. -/
theorem chain_leaves_queue :
    ¬ ∀ (s : VxdmaSys .addr32) (op : Op .addr32) (t : XilinxDmaChan .addr32),
      Reachable callStep (fun _ op => op.sgUse = true) (allocated true 0 0 0) s →
        s.startEntry op = some (t, true) → canStart t = true → ChainMatches 0 t := by
  intro hclaim
  have hexec : (exec callStep (allocated true 0 0 0) recycledOutOfOrder).map
      (fun s => (canStart s.chan, decide (Linked s.chan.mem (segsOf s.chan.pendingList)))) =
        some (true, false) := by
    decide +kernel
  obtain ⟨s, hs, hfacts⟩ := Option.map_eq_some_iff.mp hexec
  simp only [Prod.mk.injEq, decide_eq_false_iff_not] at hfacts
  obtain ⟨hstart, hnot⟩ := hfacts
  have hrun : Reachable callStep (fun _ op => op.sgUse = true) (allocated true 0 0 0) s :=
    Reachable.of_exec (by decide +kernel) hs
  have halloc : (probed true 0 0 : VxdmaSys .addr32).callStep (.allocChanResources (some 0)) =
      some (allocated true 0 0 0) := rfl
  have hfresh := alloc_chainInv (probed_ownedOnce _ _ _) rfl rfl halloc
  have hinv : PoolInv 0 s := hrun.invariant hfresh.toPoolInv
    fun _ _ _ hs hop hstep => callStep_poolInv hs hop hstep
  have hissue : s.startEntry (.issuePending true) = some (s.chan, true) := rfl
  exact hnot ((chainMatches_iff (hinv.queueInv hissue) hstart).mp
    (hclaim s _ s.chan hrun hissue hstart))

end VxdmaSys

end PetalinuxDriver
