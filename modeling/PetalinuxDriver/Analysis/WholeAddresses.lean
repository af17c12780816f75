import PetalinuxDriver.Analysis.RingRotation
import PetalinuxDriver.Analysis.SegmentContents
import PetalinuxDriver.Analysis.SegmentWrites

/-!
# Addresses of 64 bits

In the build with `CONFIG_PHYS_ADDR_T_64BIT` an address is put into a segment in two halves and
into a register in one `writeq`. `Meant` is a history variable with the addresses that the
software means: the chunk of each segment, the segment that each segment is linked to, and the
address of each register write. `Whole` compares it with what the device sees.

Two of the five places drop the upper half. `append_desc_queue` writes only `next_desc` of the
tail it links, so that `next_desc_msb` is still that of the segment's former successor; and without
scatter-gather `xilinx_dma_start_transfer` writes `buf_addr` alone to the register that takes the
whole buffer address. `KeepsAddresses` excludes just the steps in which the half that is dropped
makes a difference, and `sectionStep_whole` shows that no other step loses an address.
-/

set_option autoImplicit false

namespace PetalinuxDriver

open Library

/-! ## The address registers -/

/-- A write of 64 bits, as its offset and its value. -/
def Event.address : Event → Option (Nat × DmaAddr .addr64)
  | .writeq offset value => some (offset, value)
  | _ => none

/-- A word is no address. -/
@[simp] theorem iowrite32_address (offset : Nat) (value : BitVec 32) :
    (Event.iowrite32 offset value).address = none := rfl

/-- An address is written whole. -/
@[simp] theorem addrWrite_address {n : Nat} (offset : Nat) (value : BitVec n) :
    (addrWrite .addr64 offset value).address = some (offset, value.setWidth 64) := rfl

/-- A 64-bit address has 64 bits. -/
@[simp] theorem setWidth_addr (a : DmaAddr .addr64) : a.setWidth 64 = a := BitVec.setWidth_eq a

/-- A control write has no address. -/
theorem address_of_isControlWrite {ctrlOffset : Nat} {e : Event}
    (h : e.isControlWrite ctrlOffset = true) : e.address = none := by
  cases e <;> first | rfl | cases h

/-- The address registers that a start writes, with what it puts into each of them for the first
and the last descriptor of the batch. -/
def startWrites (curdesc taildesc srcdstaddr : XilinxDmaTxDescriptor .addr64 → DmaAddr .addr64)
    (startOk : Bool) (s : XilinxDmaChan .addr64) : List (Nat × DmaAddr .addr64) :=
  match s.pendingList with
  | [] => []
  | headDesc :: rest =>
    if canStart s then
      (if s.hasSg then [(s.ctrlOffset + xilinxDmaRegCurdesc, curdesc headDesc)] else []) ++
      (if startOk then
        [if s.hasSg then
          (s.ctrlOffset + xilinxDmaRegTaildesc,
            taildesc ((headDesc :: rest).getLast (List.cons_ne_nil _ _)))
        else (s.ctrlOffset + xilinxDmaRegSrcdstaddr, srcdstaddr headDesc)]
      else [])
    else []

/-- What `xilinx_dma_start_transfer` writes to them. -/
def writtenAddresses (startOk : Bool) (s : XilinxDmaChan .addr64) : List (Nat × DmaAddr .addr64) :=
  startWrites XilinxDmaTxDescriptor.phys (fun d => (s.mem d.lastSegment).phys)
    (fun d => (s.mem d.firstSegment).hw.bufAddr.setWidth 64) startOk s

/-- Two ways to fill the registers come to the same when they agree on what is written. -/
theorem startWrites_eq_iff
    {curdesc curdesc' taildesc srcdstaddr srcdstaddr' :
      XilinxDmaTxDescriptor .addr64 → DmaAddr .addr64}
    {startOk : Bool} {s : XilinxDmaChan .addr64}
    (hcur : ∀ d ∈ s.pendingList.head?, curdesc d = curdesc' d) :
    startWrites curdesc taildesc srcdstaddr startOk s =
        startWrites curdesc' taildesc srcdstaddr' startOk s ↔
      (canStart s = true → startOk = true → s.hasSg = false →
        ∀ d ∈ s.pendingList.head?, srcdstaddr d = srcdstaddr' d) := by
  unfold startWrites
  cases hp : s.pendingList with
  | nil => simp
  | cons headDesc rest =>
    have hhead : curdesc headDesc = curdesc' headDesc := hcur headDesc (by simp [hp])
    cases canStart s <;> cases startOk <;> cases s.hasSg <;> simp [hhead]

/-- A start writes the address of the first descriptor, with scatter-gather. -/
theorem startEvents_addresses (s : XilinxDmaChan .addr64)
    (headDesc : XilinxDmaTxDescriptor .addr64) :
    (startEvents s headDesc).filterMap Event.address =
      if s.hasSg then [(s.ctrlOffset + xilinxDmaRegCurdesc, headDesc.phys)] else [] := by
  unfold startEvents
  split <;> split <;> simp [List.filterMap_cons] <;> rfl

/-- What makes the engine go writes the address of the last segment, or the low half of the
buffer's. -/
theorem goEvents_addresses (s : XilinxDmaChan .addr64)
    (headDesc tailDesc : XilinxDmaTxDescriptor .addr64) :
    (goEvents s headDesc tailDesc).filterMap Event.address =
      [if s.hasSg then
        (s.ctrlOffset + xilinxDmaRegTaildesc, (s.mem tailDesc.lastSegment).phys)
      else (s.ctrlOffset + xilinxDmaRegSrcdstaddr,
        (s.mem headDesc.firstSegment).hw.bufAddr.setWidth 64)] := by
  unfold goEvents
  split <;> simp [List.filterMap_cons] <;> rfl

/-- The addresses that a start writes. -/
theorem startTransfer_addresses (startOk : Bool) (s : XilinxDmaChan .addr64) :
    (xilinxDmaStartTransfer startOk s).log.filterMap Event.address =
      s.log.filterMap Event.address ++ writtenAddresses startOk s := by
  cases h : canStart s with
  | false =>
    rw [startTransfer_blocked startOk h]
    unfold writtenAddresses startWrites
    cases s.pendingList <;> simp [h]
  | true =>
    obtain ⟨headDesc, rest, hp⟩ := List.exists_cons_of_ne_nil ((canStart_iff s).mp h).2.1
    simp only [writtenAddresses, startWrites, hp, h, if_true]
    cases startOk with
    | false =>
      rw [startTransfer_timeout hp h, List.filterMap_append, startEvents_addresses]
      simp
    | true =>
      rw [startTransfer_started hp h, List.filterMap_append, List.filterMap_append,
        startEvents_addresses, goEvents_addresses, List.append_assoc]
      rfl

/-- The channel in which a section enters `xilinx_dma_start_transfer`. -/
def Call.startsIn {cfg : PhysAddrConfig} (s : XilinxDmaChan cfg) :
    Call cfg → Option (XilinxDmaChan cfg)
  | .issue => some s
  | .irqLock => some (irqComplete s)
  | _ => none

/-- The completion writes no address. -/
theorem completeEvents_address {cfg : PhysAddrConfig} (ds : List (XilinxDmaTxDescriptor cfg)) :
    (ds.flatMap completeEvents).filterMap Event.address = [] := by
  apply List.filterMap_eq_nil_iff.mpr
  intro e he
  rcases mem_completeEvents he with rfl | ⟨d, -, rfl⟩ <;> rfl

namespace VxdmaSys

/-- **The address writes of one section.** -/
theorem Section.addresses {env : CallEnv} {s t : XilinxDmaChan .addr64} {c : Call .addr64}
    {after : After .addr64} (h : Section env s c t after) :
    t.log.filterMap Event.address = s.log.filterMap Event.address ++
      (c.startsIn s).toList.flatMap (writtenAddresses env.startOk) := by
  have hquiet : ∀ {w : List Event}, (∀ e ∈ w, e.isControlWrite s.ctrlOffset = true) →
      (s.log ++ w).filterMap Event.address = s.log.filterMap Event.address := by
    intro w hw
    have hnone : w.filterMap Event.address = [] :=
      List.filterMap_eq_nil_iff.mpr fun e he => address_of_isControlWrite (hw e he)
    rw [List.filterMap_append, hnone, List.append_nil]
  cases h with
  | buildDone b => simpa [Call.startsIn] using hquiet (builtEvents_isControlWrite b s)
  | buildError =>
    rw [freeTxDescriptor_eq]
    simp [Call.startsIn]
  | submitRefused =>
    rw [freeTxDescriptor_eq]
    simp [Call.startsIn]
  | resetOk d w hok hw => simpa [Call.startsIn] using hquiet hw
  | resetFailed d w hok hw => simpa [Call.startsIn] using hquiet hw
  | queued => simp [Call.startsIn, Event.address]
  | queuedBug => simp [Call.startsIn, Event.address]
  | issue => simpa [Call.startsIn] using startTransfer_addresses env.startOk s
  | irqIoc =>
    rw [irqAck_eq]
    simp [Call.startsIn, Event.address]
  | irqOther =>
    rw [irqAck_eq]
    simp [Call.startsIn, Event.address]
  | irqLock =>
    rw [startTransfer_addresses, irqComplete_eq]
    simp [Call.startsIn, completeEvents_address, irqComplete_eq]
  | terminate =>
    rw [halt_eq]
    simp [Call.startsIn, Event.address]
  | terminateFree =>
    rw [freeDescriptors_eq]
    simp [Call.startsIn, Event.address, List.filterMap_eq_nil_iff]
  | terminateClear =>
    rw [clearCyclic_eq]
    simp [Call.startsIn, Event.address]
  | freeChan =>
    rw [freeDescriptors_eq]
    simp [Call.startsIn, Event.address, List.filterMap_eq_nil_iff]
  | _ => simp [Call.startsIn, taskletSchedule, initFreeSegList, dmaFreeCoherent]

/-! ## The two halves of an address -/

/-- A lower half with some upper half is the address when the upper half is its own. -/
theorem append_lower_eq_iff (msb : BitVec 32) (a : BitVec 64) :
    msb ++ lower32Bits a = a ↔ msb = upper32Bits a := by
  constructor
  · intro h
    have hhalves := h.trans (upper_append_lower a).symm
    exact (BitVec.append_left_inj _).mp hhalves
  · rintro rfl
    exact upper_append_lower a

/-- A lower half alone is the address when there is nothing above it. -/
theorem setWidth_eq_append_iff (msb lower : BitVec 32) :
    lower.setWidth 64 = (msb ++ lower : BitVec 64) ↔ msb = 0 := by
  have hzero : lower.setWidth 64 = (0#32 ++ lower : BitVec 64) := by
    rw [BitVec.setWidth_eq_append (by decide)]
    rfl
  rw [hzero, BitVec.append_left_inj]
  exact eq_comm

/-! ## What the software means -/

/-- The addresses that the software means: the chunk of a segment, 0 for a segment of the pool;
the segment that a segment is linked to; and the writes of the address registers. -/
structure Meant where
  buffer : SegPtr → DmaAddr .addr64
  next : SegPtr → SegPtr
  writes : List (Nat × DmaAddr .addr64)

/-- Before anything was done with the channel. -/
def Meant.start : Meant := ⟨fun _ => 0, SegPtr.succ, []⟩

/-- The segment that an action fills and the chunk that it fills it with. -/
def Act.fills (s : VxdmaSys .addr64) : Act .addr64 → Option (SegPtr × Chunk .addr64)
  | .run i _ =>
    match s.calls[i]?, s.chan.freeSegList with
    | some (.build (c :: _) _), p :: _ => some (p, c)
    | _, _ => none
  | _ => none

/-- The segment that an action links to another one, and the descriptor that starts there. -/
def Act.links (s : VxdmaSys .addr64) : Act .addr64 → Option (SegPtr × XilinxDmaTxDescriptor .addr64)
  | .run i _ =>
    match s.calls[i]?, s.chan.pendingList.getLast? with
    | some (.submitLock d), some tailDesc => some (tailDesc.lastSegment, d)
    | _, _ => none
  | _ => none

/-- The channel in which an action enters `xilinx_dma_start_transfer`, and whether it succeeds. -/
def Act.starts (s : VxdmaSys .addr64) : Act .addr64 → Option (XilinxDmaChan .addr64 × Bool)
  | .run i env => (s.calls[i]?.bind fun c => c.startsIn s.chan).map fun t => (t, env.startOk)
  | _ => none

namespace Meant

/-- The chunks after an action. -/
def bufferAfter (m : Meant) (s : VxdmaSys .addr64) (a : Act .addr64) (s' : VxdmaSys .addr64)
    (p : SegPtr) : DmaAddr .addr64 :=
  if p ∈ s'.chan.freeSegList then 0
  else
    match a.fills s with
    | some (q, c) => if p = q then c.addr else m.buffer p
    | none => m.buffer p

/-- The links after an action; those of a new pool are the ring. -/
def nextAfter (m : Meant) (s : VxdmaSys .addr64) (a : Act .addr64) (s' : VxdmaSys .addr64)
    (p : SegPtr) : SegPtr :=
  if p.pool = s.chan.pools ∧ s'.chan.pools = s.chan.pools + 1 then p.succ
  else
    match a.links s with
    | some (q, d) => if p = q then d.firstSegment else m.next p
    | none => m.next p

/-- The register writes that a start has to make: `CURDESC` and `TAILDESC` take the first and the
last segment of the batch, `SRCDSTADDR` the buffer of the first. -/
def startWrites (m : Meant) (startOk : Bool) (t : XilinxDmaChan .addr64) :
    List (Nat × DmaAddr .addr64) :=
  PetalinuxDriver.startWrites (fun d => (t.mem d.firstSegment).phys)
    (fun d => (t.mem d.lastSegment).phys) (fun d => m.buffer d.firstSegment) startOk t

/-- How the history variable follows an action. -/
def upd (m : Meant) (s : VxdmaSys .addr64) (a : Act .addr64) (s' : VxdmaSys .addr64) : Meant where
  buffer := m.bufferAfter s a s'
  next := m.nextAfter s a s'
  writes := m.writes ++ (a.starts s).toList.flatMap fun t => m.startWrites t.2 t.1

end Meant

/-- The next segment, as the engine reads it. -/
def nextAddr (hw : XilinxDmaDescHw) : DmaAddr .addr64 := hw.nextDescMsb ++ hw.nextDesc

/-- Every address that the device can see is the one that the software means. -/
structure Whole (s : VxdmaSys .addr64) (m : Meant) : Prop where
  buffers : ∀ p, (s.chan.mem p).hw.bufferAddr .addr64 = m.buffer p
  links : ∀ p : SegPtr, p.pool < s.chan.pools →
    nextAddr (s.chan.mem p).hw = (s.chan.mem (m.next p)).phys
  writes : s.chan.log.filterMap Event.address = m.writes

/-! ## The steps that keep them whole -/

/-- The segment that is linked has the upper half of the new address in its link already. -/
def LinkReaches (s : VxdmaSys .addr64) (a : Act .addr64) : Prop :=
  ∀ l ∈ a.links s, (s.chan.mem l.1).hw.nextDescMsb = upper32Bits l.2.phys

/-- What starts without scatter-gather starts with a buffer below 4 GiB. -/
def StartReaches (s : VxdmaSys .addr64) (a : Act .addr64) : Prop :=
  ∀ t ∈ a.starts s, canStart t.1 = true → t.2 = true → t.1.hasSg = false →
    ∀ d ∈ t.1.pendingList.head?, (t.1.mem d.firstSegment).hw.bufAddrMsb = 0

/-- No upper half is dropped that matters. -/
def KeepsAddresses (s : VxdmaSys .addr64) (a : Act .addr64) : Prop :=
  s.LinkReaches a ∧ s.StartReaches a

instance (s : VxdmaSys .addr64) (a : Act .addr64) : Decidable (s.KeepsAddresses a) := by
  unfold KeepsAddresses LinkReaches StartReaches
  infer_instance

/-! ## What an action does to the segments -/

/-- An action leaves the pools alone, or it allocates a ring. -/
theorem sectionStep_ring {s s' : VxdmaSys .addr64} {a : Act .addr64}
    (h : s.sectionStep a = some s') :
    s'.chan.pools = s.chan.pools ∨
      (s'.chan.pools = s.chan.pools + 1 ∧ RingLinked s.chan.pools s'.chan.mem) := by
  rcases sectionStep_pool h with ⟨zalloc, rfl⟩ | ⟨i, env, -, -, hchan⟩ | hpool
  · rw [(sectionStep_allocChanResources h).2]
    cases zalloc with
    | none => exact Or.inl rfl
    | some segP => exact Or.inr ⟨rfl, alloc_ringLinked segP s.chan⟩
  · rw [hchan]
    exact Or.inl rfl
  · exact Or.inl hpool.pools

/-- A segment of a new pool is free. -/
theorem SegmentWrite.fresh_free {s s' : VxdmaSys .addr64} {segP : DmaAddr .addr64}
    (h : s.sectionStep (.allocChanResources (some segP)) = some s') {p : SegPtr}
    (hp : p.pool = s.chan.pools) : p ∈ s'.chan.freeSegList := by
  rw [(sectionStep_allocChanResources h).2]
  exact List.mem_append_right _ (mem_poolSegs.mpr hp)

/-- The round that fills a segment. -/
theorem fills_eq_some {s : VxdmaSys .addr64} {a : Act .addr64} {p : SegPtr} {c : Chunk .addr64}
    (h : a.fills s = some (p, c)) :
    ∃ i env cs b ps, a = .run i env ∧ s.calls[i]? = some (.build (c :: cs) b) ∧
      s.chan.freeSegList = p :: ps := by
  cases a with
  | run i env =>
    simp only [Act.fills] at h
    split at h
    · rename_i c' cs b q ps hc hfree
      cases h
      exact ⟨i, env, cs, b, ps, rfl, hc, hfree⟩
    · cases h
  | _ => cases h

/-- The submit that links a segment. -/
theorem links_eq_some {s : VxdmaSys .addr64} {a : Act .addr64} {p : SegPtr}
    {d : XilinxDmaTxDescriptor .addr64} (h : a.links s = some (p, d)) :
    ∃ i env t, a = .run i env ∧ s.calls[i]? = some (.submitLock d) ∧
      s.chan.pendingList.getLast? = some t ∧ p = t.lastSegment := by
  cases a with
  | run i env =>
    simp only [Act.links] at h
    split at h
    · rename_i d' t hc ht
      cases h
      exact ⟨i, env, t, rfl, hc, ht, rfl⟩
    · cases h
  | _ => cases h

/-- The segment that an action fills has the address of its chunk. -/
theorem sectionStep_filled {s s' : VxdmaSys .addr64} {a : Act .addr64}
    (h : s.sectionStep a = some s') {p : SegPtr} {c : Chunk .addr64}
    (hfills : a.fills s = some (p, c)) : (s'.chan.mem p).hw.bufferAddr .addr64 = c.addr := by
  obtain ⟨i, env, cs, b, ps, rfl, hc, hfree⟩ := fills_eq_some hfills
  obtain ⟨c', hc', hsection, rfl⟩ := sectionStep_run h
  obtain rfl : c' = .build (c :: cs) b := Option.some.inj (hc'.symm.trans hc)
  simp only [Call.run, buildRound_cons c b hfree, Function.update_self]
  exact fillHwDesc_bufferAddr b.app c _

/-- A segment that an action neither fills nor frees keeps its buffer. -/
theorem sectionStep_buffer {s s' : VxdmaSys .addr64} {a : Act .addr64}
    (h : s.sectionStep a = some s') {p : SegPtr} (hfree : p ∉ s'.chan.freeSegList)
    (hfills : ∀ c, a.fills s ≠ some (p, c)) :
    (s'.chan.mem p).hw.bufferAddr .addr64 = (s.chan.mem p).hw.bufferAddr .addr64 := by
  cases sectionStep_write h p with
  | kept hmem => rw [hmem]
  | fresh segP ha hp _ =>
    subst ha
    exact absurd (SegmentWrite.fresh_free h hp) hfree
  | filled i env c cs b ha hc hlist _ =>
    subst ha
    refine absurd ?_ (hfills c)
    simp only [Act.fills, hc, hlist]
  | flagged _ _ _ _ _ _ _ hmem => rw [hmem]; rfl
  | linked _ _ _ _ _ _ _ _ hmem => rw [hmem]; rfl
  | device _ _ _ _ hmem => rw [hmem]; rfl
  | cleaned hp _ => exact absurd hp hfree

/-- The segment that an action links gets the lower half of its link. -/
theorem sectionStep_linked {s s' : VxdmaSys .addr64} {a : Act .addr64}
    (h : s.sectionStep a = some s') {p : SegPtr} {d : XilinxDmaTxDescriptor .addr64}
    (hlinks : a.links s = some (p, d)) :
    nextAddr (s'.chan.mem p).hw = (s.chan.mem p).hw.nextDescMsb ++ lower32Bits d.phys := by
  obtain ⟨i, env, t, rfl, hc, ht, rfl⟩ := links_eq_some hlinks
  obtain ⟨c, hc', hsection, rfl⟩ := sectionStep_run h
  obtain rfl : c = .submitLock d := Option.some.inj (hc'.symm.trans hc)
  have hmem := hsection.linkTail
  simp only [hmem, linkTail, ht, Function.update_self]
  rfl

/-- An allocated segment that an action does not link keeps its link. -/
theorem sectionStep_unlinked {s s' : VxdmaSys .addr64} {a : Act .addr64}
    (h : s.sectionStep a = some s') {p : SegPtr} (hp : p.pool < s.chan.pools)
    (hlinks : ∀ d, a.links s ≠ some (p, d)) :
    nextAddr (s'.chan.mem p).hw = nextAddr (s.chan.mem p).hw := by
  cases sectionStep_write h p with
  | kept hmem => rw [hmem]
  | fresh segP _ hnew _ => omega
  | filled _ _ c _ b _ _ _ hmem =>
    rw [hmem]
    cases b.app <;> rfl
  | flagged _ _ _ _ _ _ _ hmem => rw [hmem]; rfl
  | linked i env d t ha hc ht hq _ =>
    subst ha hq
    refine absurd ?_ (hlinks d)
    simp only [Act.links, hc, ht]
  | device _ _ _ _ hmem => rw [hmem]; rfl
  | cleaned _ hmem => rw [hmem]; rfl

/-! ## The addresses of descriptors -/

/-- What is queued after a section was queued before, or is the descriptor that the section
submits, with its cookie. -/
theorem Section.pending {cfg : PhysAddrConfig} {env : CallEnv} {s t : XilinxDmaChan cfg}
    {c : Call cfg} {after : After cfg} (h : Section env s c t after)
    {d : XilinxDmaTxDescriptor cfg} (hd : d ∈ t.pendingList) :
    d ∈ s.pendingList ∨ ∃ e ∈ c.submitting, ∃ cookie, d = { e with cookie := cookie } := by
  have hstart : ∀ {startOk : Bool} {u : XilinxDmaChan cfg},
      d ∈ (xilinxDmaStartTransfer startOk u).pendingList → d ∈ u.pendingList := by
    intro startOk u hu
    rw [(startTransfer_lists startOk u).2.1]
    exact List.mem_append_right _ hu
  cases h with
  | buildError =>
    rw [freeTxDescriptor_eq] at hd
    exact Or.inl hd
  | submitRefused =>
    rw [freeTxDescriptor_eq] at hd
    exact Or.inl hd
  | queued e =>
    rcases List.mem_append.mp hd with hd | hd
    · exact Or.inl hd
    · exact Or.inr ⟨e, List.mem_singleton_self e, _, List.mem_singleton.mp hd⟩
  | queuedBug e =>
    rcases List.mem_append.mp hd with hd | hd
    · exact Or.inl hd
    · exact Or.inr ⟨e, List.mem_singleton_self e, _, List.mem_singleton.mp hd⟩
  | issue => exact Or.inl (hstart hd)
  | irqIoc =>
    rw [irqAck_eq] at hd
    exact Or.inl hd
  | irqOther =>
    rw [irqAck_eq] at hd
    exact Or.inl hd
  | irqLock =>
    have hd := hstart hd
    rw [irqComplete_eq] at hd
    exact Or.inl hd
  | terminate =>
    rw [halt_eq] at hd
    exact Or.inl hd
  | terminateFree =>
    rw [freeDescriptors_eq] at hd
    cases hd
  | terminateClear =>
    rw [clearCyclic_eq] at hd
    exact Or.inl hd
  | freeChan =>
    rw [freeDescriptors_eq] at hd
    cases hd
  | _ => exact Or.inl hd

/-- The descriptors that can come to the head of a batch. -/
def heads (s : VxdmaSys .addr64) : List (XilinxDmaTxDescriptor .addr64) :=
  s.unsubmitted ++ s.chan.pendingList

/-- Their segments come from an allocated pool. -/
theorem OwnedOnce.heads {s : VxdmaSys .addr64} (hs : OwnedOnce s)
    {d : XilinxDmaTxDescriptor .addr64} (hd : d ∈ s.heads) {p : SegPtr} (hp : p ∈ d.segments) :
    p.pool < s.chan.pools := by
  apply hs.allocated
  simp only [owned, XilinxDmaChan.owned, Multiset.mem_add, Multiset.mem_coe]
  simp only [VxdmaSys.heads, unsubmitted, List.mem_append] at hd
  rcases hd with (hd | hd) | hd
  · exact Or.inl (Or.inl (Or.inr (mem_segsOf.mpr ⟨d, hd, hp⟩)))
  · obtain ⟨c, hc, hdc⟩ := List.mem_flatMap.mp hd
    refine Or.inr (List.mem_flatMap.mpr ⟨c, hc, ?_⟩)
    cases c <;> simp only [Call.submitting, List.mem_singleton, List.not_mem_nil] at hdc <;>
      subst hdc <;> exact hp
  · exact Or.inl (Or.inl (Or.inl (Or.inl (Or.inl (Or.inr (mem_segsOf.mpr ⟨d, hd, hp⟩))))))

/-- What is true in every reachable state, whole addresses or not. -/
structure AddrInv (s : VxdmaSys .addr64) (m : Meant) : Prop where
  once : OwnedOnce s
  clean : s.chan.PoolClean
  next : ∀ p : SegPtr, p.pool < s.chan.pools → (m.next p).pool < s.chan.pools
  phys : ∀ d ∈ s.heads, d.phys = (s.chan.mem d.firstSegment).phys

/-- One action keeps the addresses of the descriptors. -/
theorem AddrInv.step_phys {s s' : VxdmaSys .addr64} {m : Meant} {a : Act .addr64}
    (hs : AddrInv s m) (h : s.sectionStep a = some s') :
    ∀ d ∈ s'.heads, d.phys = (s'.chan.mem d.firstSegment).phys := by
  have hkept : ∀ d ∈ s.heads, d.phys = (s'.chan.mem d.firstSegment).phys := by
    intro d hd
    have hpool := hs.once.heads hd (List.head_mem d.segments_ne)
    rw [hs.phys d hd]
    exact (sectionStep_phys h hpool).symm
  obtain ⟨hbug, hstep⟩ := sectionStep_inv h
  intro d hd
  cases hstep with
  | txSubmit i callback e he =>
    have hmem : e ∈ s.heads :=
      List.mem_append_left _ (List.mem_append_left _ (List.mem_of_getElem? he))
    rcases List.mem_append.mp hd with hd | hd
    · rcases List.mem_append.mp hd with hd | hd
      · exact hkept d (List.mem_append_left _ (List.mem_append_left _
          (List.mem_of_mem_eraseIdx hd)))
      · rcases List.mem_cons.mp hd with rfl | hd
        · exact hkept e hmem
        · exact hkept d (List.mem_append_left _ (List.mem_append_right _ hd))
    · exact hkept d (List.mem_append_right _ hd)
  | allocChanResources zalloc =>
    apply hkept d
    cases zalloc <;> exact hd
  | run i env c s' hc hleave =>
    have hcalls : ∀ e ∈ c.submitting, e ∈ s.heads := fun e he =>
      List.mem_append_left _ (List.mem_append_right _
        (List.mem_flatMap.mpr ⟨c, List.mem_of_getElem? hc, he⟩))
    have hsection := run_inv env hbug c
    rcases List.mem_append.mp hd with hd | hd
    · rcases unsubmitted_of_run hleave d hd with hd | hd
      · exact hkept d (List.mem_append_left _ hd)
      · rcases hsection.submitting d hd with hd | hd
        · exact hkept d (hcalls d hd)
        · rw [leave_chan hleave]
          exact hd
    · rw [leave_chan hleave] at hd
      rcases hsection.pending hd with hd | ⟨e, he, cookie, rfl⟩
      · exact hkept d (List.mem_append_right _ hd)
      · exact hkept e (hcalls e he)
  | tasklet =>
    apply hkept d
    rwa [heads, (cleanup_sameQueues { s.chan with tasklet := false }).pendingList] at hd
  | callbackReturn =>
    apply hkept d
    rwa [heads, (cleanupResume_sameQueues s.cleanup s.chan).pendingList] at hd
  | _ => exact hkept d hd

/-! ## The run -/

/-- A cleanup writes no address. -/
theorem cleanup_addresses (s : XilinxDmaChan .addr64) :
    (xilinxDmaChanDescCleanup s).1.log.filterMap Event.address =
      s.log.filterMap Event.address := by
  obtain ⟨freed, rest, -, -, hcases⟩ := cleanupLoop_cases s.doneList s rfl
  unfold xilinxDmaChanDescCleanup
  rcases hcases with ⟨-, h⟩ | ⟨d, tl, -, -, -, h⟩ | ⟨d, tl, -, -, h⟩ | ⟨d, tl, -, -, h⟩ <;>
    rw [h] <;> simp [XilinxDmaChan.emit, Event.address]

/-- The address writes of one action. -/
theorem sectionStep_addresses {s s' : VxdmaSys .addr64} {a : Act .addr64}
    (h : s.sectionStep a = some s') :
    s'.chan.log.filterMap Event.address = s.chan.log.filterMap Event.address ++
      (a.starts s).toList.flatMap fun t => writtenAddresses t.2 t.1 := by
  obtain ⟨hbug, hstep⟩ := sectionStep_inv h
  have hquiet : ∀ {t : XilinxDmaChan .addr64}, a.starts s = none →
      t.log.filterMap Event.address = s.chan.log.filterMap Event.address →
      t.log.filterMap Event.address = s.chan.log.filterMap Event.address ++
        (a.starts s).toList.flatMap fun t => writtenAddresses t.2 t.1 := by
    intro t hstarts hlog
    rw [hstarts, hlog]
    simp
  cases hstep with
  | run i env c s' hc hleave =>
    rw [leave_chan hleave, (run_inv env hbug c).addresses]
    simp only [Act.starts, hc, Option.bind_some]
    cases c.startsIn s.chan <;> rfl
  | prepNull _ he => exact hquiet (by cases a <;> first | rfl | cases he) rfl
  | prepBuild _ _ _ he => exact hquiet (by cases a <;> first | rfl | cases he) rfl
  | allocChanResources zalloc =>
    apply hquiet rfl
    cases zalloc <;> simp [xilinxDmaAllocChanResources, XilinxDmaChan.dmaCtrlWrite,
      XilinxDmaChan.emit]
  | tasklet => exact hquiet rfl (cleanup_addresses { s.chan with tasklet := false })
  | callbackReturn =>
    apply hquiet rfl
    cases s.cleanup with
    | idle => rfl
    | cyclicCallback => rfl
    | callback d =>
      rw [cleanupResume, cleanup_addresses, freeTxDescriptor_eq]
  | _ => exact hquiet rfl rfl

/-- The chunks stay what the software means, in every step. -/
theorem AddrInv.step_buffers {s s' : VxdmaSys .addr64} {m : Meant} {a : Act .addr64}
    (hs : AddrInv s m) (hwhole : Whole s m) (h : s.sectionStep a = some s') (p : SegPtr) :
    (s'.chan.mem p).hw.bufferAddr .addr64 = m.bufferAfter s a s' p := by
  have hclean := sectionStep_poolClean hs.once hs.clean h
  unfold Meant.bufferAfter
  by_cases hfree : p ∈ s'.chan.freeSegList
  · have hzero : (0#32 ++ 0#32 : BitVec 64) = 0 := by decide
    rw [if_pos hfree, ← hclean p hfree]
    exact hzero
  · rw [if_neg hfree]
    cases hfills : a.fills s with
    | none =>
      rw [sectionStep_buffer h hfree (by simp [hfills])]
      exact hwhole.buffers p
    | some f =>
      obtain ⟨q, c⟩ := f
      by_cases hq : p = q
      · subst hq
        simp only [if_pos]
        exact sectionStep_filled h hfills
      · simp only [if_neg hq]
        rw [sectionStep_buffer h hfree (by simp [hfills, Ne.symm hq])]
        exact hwhole.buffers p

/-- The links that are meant stay within the pools. -/
theorem AddrInv.step_next {s s' : VxdmaSys .addr64} {m : Meant} {a : Act .addr64}
    (hs : AddrInv s m) (h : s.sectionStep a = some s') {p : SegPtr}
    (hp : p.pool < s'.chan.pools) : (m.nextAfter s a s' p).pool < s'.chan.pools := by
  unfold Meant.nextAfter
  split
  · exact hp
  · rename_i hnew
    have hold : p.pool < s.chan.pools ∧ s.chan.pools ≤ s'.chan.pools := by
      rcases sectionStep_ring h with hpools | ⟨hpools, -⟩ <;> omega
    have hkept := lt_of_lt_of_le (hs.next p hold.1) hold.2
    cases hlinks : a.links s with
    | none => exact hkept
    | some l =>
      obtain ⟨q, d⟩ := l
      by_cases hq : p = q
      · obtain ⟨i, env, t, rfl, hc, -, -⟩ := links_eq_some hlinks
        have hd : d ∈ s.heads := List.mem_append_left _ (List.mem_append_right _
          (List.mem_flatMap.mpr ⟨_, List.mem_of_getElem? hc, List.mem_singleton_self d⟩))
        simp only [if_pos hq]
        exact lt_of_lt_of_le (hs.once.heads hd (List.head_mem d.segments_ne)) hold.2
      · simp only [if_neg hq]
        exact hkept

/-- The links stay what the software means when the upper half of a new one is there. -/
theorem AddrInv.step_links {s s' : VxdmaSys .addr64} {m : Meant} {a : Act .addr64}
    (hs : AddrInv s m) (hwhole : Whole s m) (h : s.sectionStep a = some s') :
    (∀ p : SegPtr, p.pool < s'.chan.pools →
      nextAddr (s'.chan.mem p).hw = (s'.chan.mem (m.nextAfter s a s' p)).phys) ↔
      s.LinkReaches a := by
  -- every segment but the one that is linked
  have hother : ∀ p : SegPtr, p.pool < s'.chan.pools → (∀ d, a.links s ≠ some (p, d)) →
      nextAddr (s'.chan.mem p).hw = (s'.chan.mem (m.nextAfter s a s' p)).phys := by
    intro p hp hlinks
    unfold Meant.nextAfter
    split
    · rename_i hnew
      rcases sectionStep_ring h with hpools | ⟨-, hring⟩
      · omega
      · obtain ⟨hnext, hmsb⟩ := hring p hnew.1
        rw [nextAddr, hnext, hmsb]
        exact upper_append_lower _
    · rename_i hnew
      have hold : p.pool < s.chan.pools := by
        rcases sectionStep_ring h with hpools | ⟨hpools, -⟩ <;> omega
      have hsame : (match a.links s with
          | some (q, d) => if p = q then d.firstSegment else m.next p
          | none => m.next p) = m.next p := by
        cases hl : a.links s with
        | none => rfl
        | some l =>
          have hne : p ≠ l.1 := fun hq => hlinks l.2 (by rw [hl, hq])
          simp only [if_neg hne]
      rw [hsame, sectionStep_unlinked h hold hlinks, hwhole.links p hold]
      exact (sectionStep_phys h (hs.next p hold)).symm
  -- the one that is linked
  have hlinked : ∀ p d, a.links s = some (p, d) →
      p.pool < s'.chan.pools ∧
        (nextAddr (s'.chan.mem p).hw = (s'.chan.mem (m.nextAfter s a s' p)).phys ↔
          (s.chan.mem p).hw.nextDescMsb = upper32Bits d.phys) := by
    intro p d hl
    obtain ⟨i, env, t, rfl, hc, ht, rfl⟩ := links_eq_some hl
    have hd : d ∈ s.heads := List.mem_append_left _ (List.mem_append_right _
      (List.mem_flatMap.mpr ⟨_, List.mem_of_getElem? hc, List.mem_singleton_self d⟩))
    have ht : t ∈ s.heads := List.mem_append_right _ (List.mem_of_getLast? ht)
    have hold : t.lastSegment.pool < s.chan.pools :=
      hs.once.heads ht (List.getLast_mem t.segments_ne)
    have hfirst : d.firstSegment.pool < s.chan.pools :=
      hs.once.heads hd (List.head_mem d.segments_ne)
    have hpools : s'.chan.pools = s.chan.pools := by
      rcases sectionStep_pool h with ⟨zalloc, ha⟩ | ⟨_, _, -, -, hchan⟩ | hpool
      · cases ha
      · rw [hchan]
        rfl
      · exact hpool.pools
    have hnext : m.nextAfter s (.run i env) s' t.lastSegment = d.firstSegment := by
      unfold Meant.nextAfter
      rw [if_neg (by omega)]
      simp only [hl, if_true]
    refine ⟨hpools ▸ hold, ?_⟩
    rw [hnext, sectionStep_linked h hl, sectionStep_phys h hfirst, ← hs.phys d hd]
    exact append_lower_eq_iff _ _
  constructor
  · rintro hall ⟨p, d⟩ hl
    obtain ⟨hp, hiff⟩ := hlinked p d hl
    exact hiff.mp (hall p hp)
  · intro hreach p hp
    by_cases hl : ∃ d, a.links s = some (p, d)
    · obtain ⟨d, hl⟩ := hl
      exact (hlinked p d hl).2.mpr (hreach (p, d) hl)
    · exact hother p hp fun d hd => hl ⟨d, hd⟩

/-- The register writes stay what the software means when a start has no upper half to drop. -/
theorem AddrInv.step_writes {s : VxdmaSys .addr64} {m : Meant} {a : Act .addr64}
    (hs : AddrInv s m) (hwhole : Whole s m) :
    ((a.starts s).toList.flatMap fun t => writtenAddresses t.2 t.1) =
        ((a.starts s).toList.flatMap fun t => m.startWrites t.2 t.1) ↔
      s.StartReaches a := by
  unfold StartReaches
  cases hstart : a.starts s with
  | none => simp
  | some t =>
    -- a start finds the queue and the memory of the state before the action
    have hchan : t.1.pendingList = s.chan.pendingList ∧ t.1.mem = s.chan.mem := by
      cases a with
      | run i env =>
        simp only [Act.starts, Option.map_eq_some_iff, Option.bind_eq_some_iff] at hstart
        obtain ⟨u, ⟨c, -, hc⟩, rfl⟩ := hstart
        cases c with
        | issue =>
          cases hc
          exact ⟨rfl, rfl⟩
        | irqLock =>
          cases hc
          rw [irqComplete_eq]
          exact ⟨rfl, rfl⟩
        | _ => cases hc
      | _ => cases hstart
    have hphys : ∀ d ∈ t.1.pendingList.head?, d.phys = (t.1.mem d.firstSegment).phys := by
      intro d hd
      rw [hchan.1] at hd
      rw [hchan.2]
      exact hs.phys d (List.mem_append_right _ (List.mem_of_head? hd))
    have hbuffer : ∀ d : XilinxDmaTxDescriptor .addr64,
        ((t.1.mem d.firstSegment).hw.bufAddr.setWidth 64 : DmaAddr .addr64) =
            m.buffer d.firstSegment ↔ (t.1.mem d.firstSegment).hw.bufAddrMsb = 0 := by
      intro d
      rw [hchan.2, ← hwhole.buffers d.firstSegment]
      exact setWidth_eq_append_iff _ _
    simp only [Option.toList_some, List.flatMap_cons, List.flatMap_nil, List.append_nil,
      writtenAddresses, Meant.startWrites, Option.mem_some_iff, forall_eq']
    refine (startWrites_eq_iff hphys).trans ?_
    refine forall₃_congr fun _ _ _ => forall₂_congr fun d _ => ?_
    exact hbuffer d

/-- **One action** loses no address exactly when it drops no upper half that matters. -/
theorem sectionStep_whole {s s' : VxdmaSys .addr64} {m : Meant} {a : Act .addr64}
    (hs : AddrInv s m) (hwhole : Whole s m) (h : s.sectionStep a = some s') :
    Whole s' (m.upd s a s') ↔ s.KeepsAddresses a := by
  have hlog : s'.chan.log.filterMap Event.address = (m.upd s a s').writes ↔ s.StartReaches a := by
    rw [sectionStep_addresses h, hwhole.writes, Meant.upd, List.append_right_inj]
    exact hs.step_writes hwhole
  constructor
  · intro hnext
    exact ⟨(hs.step_links hwhole h).mp hnext.links, hlog.mp hnext.writes⟩
  · rintro ⟨hlink, hstart⟩
    exact ⟨hs.step_buffers hwhole h, (hs.step_links hwhole h).mpr hlink, hlog.mpr hstart⟩

/-- Every action keeps the invariant. -/
theorem sectionStep_addrInv {s s' : VxdmaSys .addr64} {m : Meant} {a : Act .addr64}
    (hs : AddrInv s m) (h : s.sectionStep a = some s') : AddrInv s' (m.upd s a s') :=
  ⟨sectionStep_ownedOnce hs.once h, sectionStep_poolClean hs.once hs.clean h,
    fun _ hp => hs.step_next h hp, hs.step_phys h⟩

/-- After the probe nothing is meant. -/
theorem probed_addrInv (hasSg : Bool) (ctrlOffset : Nat) (dmacr : BitVec 32) :
    AddrInv (probed hasSg ctrlOffset dmacr) Meant.start := by
  refine ⟨probed_ownedOnce hasSg ctrlOffset dmacr, ?_, ?_, ?_⟩
  · intro p hp
    cases hp
  · intro p hp
    cases hp
  · intro d hd
    cases hd

/-- After the probe no address is cut. -/
theorem probed_whole (hasSg : Bool) (ctrlOffset : Nat) (dmacr : BitVec 32) :
    Whole (probed hasSg ctrlOffset dmacr) Meant.start := by
  have hzero : (0#32 ++ 0#32 : BitVec 64) = 0 := by decide
  refine ⟨fun _ => hzero, ?_, rfl⟩
  intro p hp
  cases hp

end VxdmaSys

open VxdmaSys in
/-- **Addresses of 64 bits reach the hardware whole** in every run that drops no upper half that
matters, from the probe on and for every pool. In any state of such a run the condition on the
next step is exact. -/
theorem addresses_whole (hasSg : Bool) (ctrlOffset : Nat) (dmacr : BitVec 32)
    (s : VxdmaSys .addr64) (m : Meant)
    (h : Reachable (withGhost sectionStep Meant.upd) (fun sm a => sm.1.KeepsAddresses a)
      (probed hasSg ctrlOffset dmacr, Meant.start) (s, m)) :
    Whole s m ∧ ∀ a s', s.sectionStep a = some s' →
      (Whole s' (m.upd s a s') ↔ s.KeepsAddresses a) := by
  let Inv : VxdmaSys .addr64 → Meant → Prop := fun s m => AddrInv s m ∧ Whole s m
  have hinv : Inv s m := by
    refine h.ghost_invariant ⟨probed_addrInv hasSg ctrlOffset dmacr,
      probed_whole hasSg ctrlOffset dmacr⟩ ?_
    intro s m a s' hs hok hstep
    exact ⟨sectionStep_addrInv hs.1 hstep, (sectionStep_whole hs.1 hs.2 hstep).mpr hok⟩
  exact ⟨hinv.2, fun a s' hstep => sectionStep_whole hinv.1 hinv.2 hstep⟩

namespace VxdmaSys

/-- Two descriptors in a pool whose second segment is at 4 GiB, submitted and started; the one that
is submitted first is the `i`-th. Their buffers are at `addr`. -/
def straddlingPool (i : Nat) (addr : DmaAddr .addr64) : List (Act .addr64) :=
  let env : CallEnv := ⟨⟨0, true⟩, 0, true, true⟩
  [.allocChanResources (some 0xFFFFFF80), .prepSlaveSg ⟨[⟨addr, 1⟩], .memToDev, none, true⟩] ++
  sections 2 env ++ [.prepSlaveSg ⟨[⟨addr, 1⟩], .memToDev, none, true⟩] ++ sections 2 env ++
  [.txSubmit i none] ++ sections 3 env ++ [.txSubmit 0 none] ++ sections 3 env ++
  [.issuePending] ++ sections 1 env

end VxdmaSys

open VxdmaSys in

/-- A pool across a boundary of 4 GiB, used in order. -/
theorem addresses_whole_straddlingPool :
    ∃ s m, exec (withGhost sectionStep Meant.upd) (probed true 0 0, Meant.start)
        (straddlingPool 0 0x140000000) = some (s, m) ∧
      m.next ⟨0, 0⟩ = ⟨0, 1⟩ ∧ (s.chan.mem ⟨0, 1⟩).phys = 0x100000000 ∧
      m.writes = [(8, 0xFFFFFF80), (16, 0x100000000)] ∧ Whole s m := by
  have hexec : (exec (withGhost sectionStep Meant.upd) (probed true 0 0, Meant.start)
      (straddlingPool 0 0x140000000)).map (fun sm =>
        (sm.2.next ⟨0, 0⟩, (sm.1.chan.mem ⟨0, 1⟩).phys, sm.2.writes)) =
      some (⟨0, 1⟩, 0x100000000, [(8, 0xFFFFFF80), (16, 0x100000000)]) := by
    decide +kernel
  obtain ⟨⟨s, m⟩, hsm, hfacts⟩ := Option.map_eq_some_iff.mp hexec
  obtain ⟨hnext, hrest⟩ := Prod.mk.inj hfacts
  obtain ⟨hphys, hwrites⟩ := Prod.mk.inj hrest
  have hrun : Reachable (withGhost sectionStep Meant.upd) (fun sm a => sm.1.KeepsAddresses a)
      (probed true 0 0, Meant.start) (s, m) := Reachable.of_exec (by decide +kernel) hsm
  exact ⟨s, m, hsm, hnext, hphys, hwrites, (addresses_whole true 0 0 s m hrun).1⟩

open VxdmaSys in
/-- Submitted the other way round, the second segment links to an address above 4 GiB where the
first one is not; and without scatter-gather a buffer above 4 GiB is programmed without its upper
half. -/
theorem addresses_not_whole :
    (∃ s m, exec (withGhost sectionStep Meant.upd) (probed true 0 0, Meant.start)
        (straddlingPool 1 0x1000) = some (s, m) ∧
      nextAddr (s.chan.mem ⟨0, 1⟩).hw = 0x1FFFFFF80 ∧ m.next ⟨0, 1⟩ = ⟨0, 0⟩ ∧
      (s.chan.mem ⟨0, 0⟩).phys = 0xFFFFFF80 ∧ ¬ Whole s m) ∧
    ∃ s m, exec (withGhost sectionStep Meant.upd) (probed false 0 0, Meant.start)
        (straddlingPool 0 0x140000000) = some (s, m) ∧
      s.chan.log.filterMap Event.address = [(24, 0x40000000)] ∧
      m.writes = [(24, 0x140000000)] ∧ ¬ Whole s m := by
  constructor
  · have hexec : (exec (withGhost sectionStep Meant.upd) (probed true 0 0, Meant.start)
        (straddlingPool 1 0x1000)).map (fun sm =>
          (nextAddr (sm.1.chan.mem ⟨0, 1⟩).hw, sm.2.next ⟨0, 1⟩, (sm.1.chan.mem ⟨0, 0⟩).phys,
            decide (1 ≤ sm.1.chan.pools))) =
        some (0x1FFFFFF80, ⟨0, 0⟩, 0xFFFFFF80, true) := by
      decide +kernel
    obtain ⟨⟨s, m⟩, hsm, hfacts⟩ := Option.map_eq_some_iff.mp hexec
    obtain ⟨haddr, hrest⟩ := Prod.mk.inj hfacts
    obtain ⟨hnext, hrest⟩ := Prod.mk.inj hrest
    obtain ⟨hphys, hpool⟩ := Prod.mk.inj hrest
    refine ⟨s, m, hsm, haddr, hnext, hphys, ?_⟩
    intro hwhole
    have hlink := hwhole.links ⟨0, 1⟩ (of_decide_eq_true hpool)
    rw [haddr, hnext, hphys] at hlink
    exact absurd hlink (by decide)
  · have hexec : (exec (withGhost sectionStep Meant.upd) (probed false 0 0, Meant.start)
        (straddlingPool 0 0x140000000)).map (fun sm =>
          (sm.1.chan.log.filterMap Event.address, sm.2.writes)) =
        some ([(24, 0x40000000)], [(24, 0x140000000)]) := by
      decide +kernel
    obtain ⟨⟨s, m⟩, hsm, hfacts⟩ := Option.map_eq_some_iff.mp hexec
    obtain ⟨hlog, hwrites⟩ := Prod.mk.inj hfacts
    refine ⟨s, m, hsm, hlog, hwrites, ?_⟩
    intro hwhole
    have hwritten := hwhole.writes
    rw [hlog, hwrites] at hwritten
    exact absurd hwritten (by decide)

end PetalinuxDriver
