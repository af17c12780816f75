import PetalinuxDriver.Analysis.ProxySteps
import PetalinuxDriver.Analysis.SegmentContents

/-!
# What the proxy lets user space reach

User space reaches memory through the proxy in two ways: the engine transfers what the descriptor
of an `ioctl` covers, and `mmap` maps pages. Neither is checked against the size of what the proxy
allocated. `start_transfer` passes on the length that it finds in the shared interface, and `mmap`
the size of the vma, so it is user space that decides: a descriptor stays in the buffer exactly
when the length does, and a mapping stays in the interface exactly when the vma does.

A length of zero is no way out. The builder then takes the first entry of an empty segment list,
and what it writes there is not defined.
-/

set_option autoImplicit false

namespace PetalinuxDriver

open Library

variable {cfg : PhysAddrConfig}

/-! ## Segments in a buffer -/

/-- What the engine accesses for this hardware descriptor lies in the `size` bytes from `base`
on. -/
def XilinxDmaDescHw.Within (hw : XilinxDmaDescHw) (base : DmaAddr cfg) (size : Nat) : Prop :=
  (hw.bufferAddr cfg - base).toNat + hw.bufferLength ≤ size

/-- For a buffer that does not wrap around this is a comparison of addresses. -/
theorem within_iff {hw : XilinxDmaDescHw} {base : DmaAddr cfg} {size : Nat}
    (hsize : base.toNat + size ≤ 2 ^ cfg.width) (hpos : 0 < hw.bufferLength) :
    hw.Within base size ↔ base.toNat ≤ (hw.bufferAddr cfg).toNat ∧
      (hw.bufferAddr cfg).toNat + hw.bufferLength ≤ base.toNat + size := by
  have hbase := base.isLt
  have haddr := (hw.bufferAddr cfg).isLt
  rw [XilinxDmaDescHw.Within, BitVec.toNat_sub]
  by_cases hle : base.toNat ≤ (hw.bufferAddr cfg).toNat
  · have hdiff : (2 ^ cfg.width - base.toNat + (hw.bufferAddr cfg).toNat) % 2 ^ cfg.width =
        (hw.bufferAddr cfg).toNat - base.toNat := by
      rw [show 2 ^ cfg.width - base.toNat + (hw.bufferAddr cfg).toNat =
        ((hw.bufferAddr cfg).toNat - base.toNat) + 2 ^ cfg.width by omega, Nat.add_mod_right]
      apply Nat.mod_eq_of_lt
      omega
    rw [hdiff]
    omega
  · rw [Nat.mod_eq_of_lt (by omega)]
    omega

/-- Where a chunk ends, counted from the beginning of the length it is a part of. -/
def Chunk.endFrom (base : DmaAddr cfg) (c : Chunk cfg) : Nat := (c.addr - base).toNat + c.copy

/-- A word stays within a buffer when its chunk ends in it. -/
theorem within_iff_endFrom {hw : XilinxDmaDescHw} {c : Chunk cfg} (h : hw.Covers c)
    (base : DmaAddr cfg) (size : Nat) : hw.Within base size ↔ c.endFrom base ≤ size := by
  rw [XilinxDmaDescHw.Within, h.1, h.2, Chunk.endFrom]

/-- A round ends where it has copied to. -/
theorem endFrom_round {base : DmaAddr cfg} {sgUsed copy : Nat} (h : sgUsed < 2 ^ 32) :
    Chunk.endFrom base ⟨base + BitVec.ofNat cfg.width sgUsed, copy⟩ = sgUsed + copy := by
  have hwidth := le_two_pow_width cfg
  have hoffset : base + BitVec.ofNat cfg.width sgUsed - base = BitVec.ofNat cfg.width sgUsed := by
    rw [BitVec.add_comm, BitVec.add_sub_cancel]
  rw [Chunk.endFrom, hoffset, BitVec.toNat_ofNat, Nat.mod_eq_of_lt (by omega)]

/-- A round starts within its entry. -/
theorem chunkLoop_start_lt {len fuel sgUsed : Nat} :
    ∀ r ∈ chunkLoop len fuel sgUsed, r.1 < len := by
  induction fuel generalizing sgUsed with
  | zero => simp [chunkLoop]
  | succ fuel ih =>
    unfold chunkLoop
    split
    · intro r hr
      rcases List.mem_cons.mp hr with rfl | hr
      · assumption
      · exact ih r hr
    · simp

/-- No chunk ends behind the length. -/
theorem chunksOf_endFrom_le (base : DmaAddr cfg) {len : Nat} (hlen : len < 2 ^ 32) :
    ∀ c ∈ chunksOf base len, c.endFrom base ≤ len := by
  intro c hc
  obtain ⟨r, hr, rfl⟩ := List.mem_map.mp hc
  have hstart := chunkLoop_start_lt r hr
  rw [endFrom_round (by omega)]
  exact (chunkLoop_bounds r hr).1

/-- The last chunk ends with the length. -/
theorem chunksOf_endFrom_last (base : DmaAddr cfg) {len : Nat} (hpos : 0 < len)
    (hlen : len < 2 ^ 32) : ∃ pre c, chunksOf base len = pre ++ [c] ∧ c.endFrom base = len := by
  obtain ⟨pre, r, hloop, hend⟩ := chunkLoop_last hpos (Nat.sub_le len 0)
  refine ⟨pre.map fun r => ⟨base + BitVec.ofNat cfg.width r.1, r.2⟩,
    ⟨base + BitVec.ofNat cfg.width r.1, r.2⟩, ?_, ?_⟩
  · rw [chunksOf, hloop, List.map_append, List.map_singleton]
  · have hstart : r.1 < len := by
      apply chunkLoop_start_lt r
      rw [hloop]
      exact List.mem_append_right pre List.mem_cons_self
    rw [endFrom_round (by omega)]
    exact hend

/-! ## One preparation -/

/-- Every segment of a descriptor that is built lies in the buffer. -/
def PrepConfined (handle : DmaAddr cfg) : XilinxDmaChan cfg × PrepResult cfg → Prop
  | (chan, .desc d) => ∀ p ∈ d.segments, (chan.mem p).hw.Within handle sizeofProxyBuffer
  | (_, .null) => True
  | (_, .wild) => False

/-- `start_transfer` does not get a descriptor, or asks for at least one byte and for no more
than the buffer has. -/
def LengthFits (s : ProxySys cfg) (env : ProxyEnv cfg) : Prop :=
  isSlaveDirection s.ch.direction = false ∨ env.kzallocOk = false ∨
    env.chan.freeSegList.length * xilinxDmaMaxTransLen.toNat < env.length.toNat ∨
    (0 < env.length.toNat ∧ env.length.toNat ≤ sizeofProxyBuffer)

instance (s : ProxySys cfg) (env : ProxyEnv cfg) : Decidable (LengthFits s env) :=
  inferInstanceAs (Decidable (_ ∨ _ ∨ _ ∨ (_ ∧ _)))

/-- A scatterlist of one entry is one buffer. -/
theorem sgChunks_single (handle : DmaAddr cfg) (length : BitVec 32) :
    sgChunks [⟨handle, length⟩] = chunksOf handle length.toNat := by
  simp [sgChunks]

/-- A descriptor lies in the buffer exactly when its length does. -/
theorem prepSlaveSingle_within_iff {handle : DmaAddr cfg} {length : BitVec 32}
    {direction : DmaTransferDirection} {kzallocOk : Bool} {chan chan' : XilinxDmaChan cfg}
    {d : XilinxDmaTxDescriptor cfg} {size : Nat} (hpos : 0 < length.toNat)
    (h : dmaenginePrepSlaveSingle handle length direction kzallocOk chan = (chan', .desc d)) :
    (∀ p ∈ d.segments, (chan'.mem p).hw.Within handle size) ↔ length.toNat ≤ size := by
  obtain ⟨hall, hlast⟩ := prepSlaveSg_covers h
  simp only [sgChunks_single] at hall hlast
  constructor
  · intro hin
    obtain ⟨pre, c, hsplit, hend⟩ := chunksOf_endFrom_last handle hpos length.isLt
    obtain ⟨p, hp, hcov⟩ := hlast pre c hsplit
    have hwithin := (within_iff_endFrom hcov handle size).mp (hin p hp)
    rw [hend] at hwithin
    exact hwithin
  · intro hlen p hp
    obtain ⟨c, hc, hcov⟩ := hall p hp
    rw [within_iff_endFrom hcov]
    exact (chunksOf_endFrom_le handle length.isLt c hc).trans hlen

/-- A prep stays within the interface exactly when the length fits. -/
theorem prepConfined_iff (s : ProxySys cfg) (env : ProxyEnv cfg) :
    PrepConfined s.ch.dmaHandle (dmaenginePrepSlaveSingle s.ch.dmaHandle env.length s.ch.direction
      env.kzallocOk env.chan) ↔ LengthFits s env := by
  have hprep := prepSlaveSg_outcome ⟨[⟨s.ch.dmaHandle, env.length⟩], s.ch.direction, none,
    env.kzallocOk⟩ env.chan
  simp only [sgChunks_single, lt_chunksOf_length, chunksOf_ne_nil_iff] at hprep
  generalize hr : dmaenginePrepSlaveSingle s.ch.dmaHandle env.length s.ch.direction
    env.kzallocOk env.chan = r
  have hr' := hr
  rw [dmaenginePrepSlaveSingle] at hr'
  rw [hr'] at hprep
  obtain ⟨chan', result⟩ := r
  rcases hprep with ⟨hwhy, rfl⟩ | ⟨hdir, hkzalloc, ⟨hnil, rfl⟩ | ⟨hlen, hpos, d, rfl⟩⟩
  · -- no descriptor
    refine iff_of_true trivial ?_
    rcases hwhy with h | h | h
    · exact Or.inl h
    · exact Or.inr (Or.inl h)
    · exact Or.inr (Or.inr (Or.inl h))
  · -- a descriptor without segments
    have hzero : ¬ 0 < env.length.toNat := by
      rw [← chunksOf_ne_nil_iff s.ch.dmaHandle]
      exact not_not_intro hnil
    simp only [PrepConfined, LengthFits, hdir, hkzalloc, Bool.true_eq_false, false_or, false_iff]
    omega
  · have henough : ¬ env.chan.freeSegList.length * xilinxDmaMaxTransLen.toNat <
        env.length.toNat := by
      rw [← lt_chunksOf_length s.ch.dmaHandle]
      omega
    simp only [PrepConfined, LengthFits, hdir, hkzalloc]
    rw [prepSlaveSingle_within_iff hpos hr]
    simp [henough, hpos]

/-! ## One mmap -/

/-- `mmap` fails, or maps no more pages than the interface has. -/
def VmaFits (s : ProxySys cfg) (vmaPages pgoff : Nat) (remapOk : Bool) : Prop :=
  remapOk = false ∨ (s.ch.cachedBuffers = false ∧ pgoff ≠ 0) ∨
    vmaPages ≤ pagesOf sizeofProxyInterface

instance (s : ProxySys cfg) (vmaPages pgoff : Nat) (remapOk : Bool) :
    Decidable (VmaFits s vmaPages pgoff remapOk) :=
  inferInstanceAs (Decidable (_ ∨ (_ ∧ _) ∨ _))

/-- A mapping of whole pages has as many. -/
theorem pagesOf_vma (vmaPages : Nat) : pagesOf (vmaPages * pageSize) = vmaPages := by
  unfold pagesOf pageSize
  omega

/-- An mmap stays within the interface exactly when its pages fit. -/
theorem mmap_confined_iff (s : ProxySys cfg) (vmaPages pgoff : Nat) (remapOk : Bool) :
    (∀ pages, proxyMmap s.ch vmaPages pgoff remapOk = some pages →
        ∀ page ∈ pages, page < pagesOf sizeofProxyInterface) ↔
      VmaFits s vmaPages pgoff remapOk := by
  have hrange : (∀ page < vmaPages, page < pagesOf sizeofProxyInterface) ↔
      vmaPages ≤ pagesOf sizeofProxyInterface := by
    constructor
    · intro h
      by_contra hlt
      have := h (pagesOf sizeofProxyInterface) (by omega)
      omega
    · intro h page hpage
      omega
  cases remapOk with
  | false =>
    refine iff_of_true ?_ (Or.inl rfl)
    intro pages hmap
    simp [proxyMmap] at hmap
  | true =>
    cases hcached : s.ch.cachedBuffers with
    | true => simp [proxyMmap, VmaFits, hcached, hrange]
    | false =>
      by_cases hoff : pgoff = 0
      · subst hoff
        by_cases hzero : vmaPages = 0
        · subst hzero
          simp [proxyMmap, VmaFits, hcached]
        · have hfits : 0 < vmaPages ∧ vmaPages ≤ vmaPages - 0 := by omega
          have hmaps : proxyMmap s.ch vmaPages 0 true = some (List.range vmaPages) := by
            simp only [proxyMmap, hcached, pagesOf_vma, if_pos hfits]
            simp
          rw [hmaps]
          simp only [VmaFits, hcached, ← hrange]
          simp
      · have hfail : ¬ (pgoff < vmaPages ∧ vmaPages ≤ vmaPages - pgoff) := by omega
        simp [proxyMmap, VmaFits, hcached, pagesOf_vma, hfail, hoff]

/-! ## Runs -/

namespace ProxySys

/-- This step keeps user space to the buffer: a descriptor that it builds lies in there, and a
page that it maps belongs to the interface. -/
def Confines (s : ProxySys cfg) : ProxyAct cfg → Prop
  | .mmap vmaPages pgoff remapOk => ∀ pages, proxyMmap s.ch vmaPages pgoff remapOk = some pages →
      ∀ page ∈ pages, page < pagesOf sizeofProxyInterface
  | .run i env => ∀ c ∈ s.calls[i]?, c.pc = .startTransfer →
      PrepConfined s.ch.dmaHandle (dmaenginePrepSlaveSingle s.ch.dmaHandle env.length
        s.ch.direction env.kzallocOk env.chan)
  | _ => True

/-- This step finds a length or a vma that fits. -/
def FitsBuffer (s : ProxySys cfg) : ProxyAct cfg → Prop
  | .mmap vmaPages pgoff remapOk => VmaFits s vmaPages pgoff remapOk
  | .run i env => ∀ c ∈ s.calls[i]?, c.pc = .startTransfer → LengthFits s env
  | _ => True

instance (s : ProxySys cfg) : ∀ a, Decidable (s.FitsBuffer a)
  | .open => isTrue trivial
  | .mmap vmaPages pgoff remapOk => inferInstanceAs (Decidable (VmaFits s vmaPages pgoff remapOk))
  | .ioctl => isTrue trivial
  | .run i env =>
    inferInstanceAs (Decidable (∀ c ∈ s.calls[i]?, c.pc = .startTransfer → LengthFits s env))
  | .complete _ => isTrue trivial
  | .callback _ => isTrue trivial

/-- An action stays within the interface exactly when it fits. -/
theorem confines_iff (s : ProxySys cfg) (a : ProxyAct cfg) : s.Confines a ↔ s.FitsBuffer a := by
  cases a with
  | mmap vmaPages pgoff remapOk => exact mmap_confined_iff s vmaPages pgoff remapOk
  | run i env =>
    refine forall₂_congr fun c _ => ?_
    refine imp_congr_right fun _ => ?_
    exact prepConfined_iff s env
  | «open» => exact Iff.rfl
  | ioctl => exact Iff.rfl
  | complete k => exact Iff.rfl
  | callback k => exact Iff.rfl

/-- **Confinement.** A run keeps user space to its buffer exactly when the lengths that
`start_transfer` finds and the vmas that `mmap` is called with fit. -/
theorem confined_iff (s : ProxySys cfg) (as : List (ProxyAct cfg)) :
    ExecOk proxyStep Confines s as ↔ ExecOk proxyStep FitsBuffer s as :=
  Reachable.execOk_congr confines_iff s as

/-- One byte more than the buffer has gets a descriptor, and a page more than the interface has is
mapped. -/
theorem not_confined :
    ¬ ExecOk proxyStep Confines (created false .devToMem 0 : ProxySys .addr32)
        [.open, .ioctl, .run 0 (.serving 1048577), .run 0 (.serving 1048577)] ∧
      ¬ ExecOk proxyStep Confines (created false .devToMem 0 : ProxySys .addr32)
        [.open, .mmap 258 0 true] := by
  constructor
  · rw [Reachable.execOk_congr confines_iff]
    decide +kernel
  · rw [Reachable.execOk_congr confines_iff]
    decide +kernel

/-! ## Where the handle points -/

/-- The handle is that of the interface once a call has set it. -/
def UncachedHandle (addr : DmaAddr cfg) (s : ProxySys cfg) : Prop :=
  s.ch.cachedBuffers = false ∧ s.ch.interfacePhysAddr = addr ∧
    ((∀ c ∈ s.calls, c.pc = .transfer) ∨ s.ch.dmaHandle = addr)

/-- No step moves the handle away. -/
theorem uncachedHandle_step {addr : DmaAddr cfg} {s s' : ProxySys cfg} {a : ProxyAct cfg}
    (hinv : UncachedHandle addr s) (h : s.proxyStep a = some s') : UncachedHandle addr s' := by
  obtain ⟨hcached, haddr, hhandle⟩ := hinv
  cases a with
  | «open» =>
    cases h
    exact ⟨hcached, haddr, hhandle⟩
  | mmap vmaPages pgoff remapOk =>
    cases h
    exact ⟨hcached, haddr, hhandle⟩
  | ioctl =>
    cases h
    refine ⟨hcached, haddr, ?_⟩
    rcases hhandle with hall | hset
    · left
      intro c hc
      rcases List.mem_cons.mp hc with rfl | hc
      · rfl
      · exact hall c hc
    · exact Or.inr hset
  | run i env =>
    obtain ⟨c, t, hc, hend⟩ := proxyStep_run h
    have hconfig := ProxyCall.run_config env (s.without i) c
    have hset : (c.run env (s.without i)).1.ch.dmaHandle = addr := by
      by_cases hpc : c.pc = .transfer
      · simp [ProxyCall.run, hpc, hcached, haddr]
      · rw [ProxyCall.run_dmaHandle env _ hpc]
        rcases hhandle with hall | hset
        · exact absurd (hall c (List.mem_of_getElem? hc)) hpc
        · exact hset
    rcases hend with ⟨c', hrun, rfl⟩ | ⟨c', hrun, rfl⟩
    · rw [hrun] at hconfig hset
      exact ⟨hconfig.1.trans hcached, hconfig.2.2.1.trans haddr, Or.inr hset⟩
    · rw [hrun] at hconfig hset
      exact ⟨hconfig.1.trans hcached, hconfig.2.2.1.trans haddr, Or.inr hset⟩
  | complete k =>
    obtain ⟨tx, -, -, rfl⟩ := proxyStep_complete h
    exact ⟨hcached, haddr, hhandle⟩
  | callback k =>
    obtain ⟨tx, -, -, -, rfl⟩ := proxyStep_callback h
    exact ⟨hcached, haddr, hhandle⟩

/-- Without cached buffers a call that is past the beginning of `transfer` finds the handle of the
interface, of which the buffer is the first member. -/
theorem uncached_handle {direction : DmaTransferDirection} {addr : DmaAddr cfg} {s : ProxySys cfg}
    (h : Reachable proxyStep always (created false direction addr) s) {c : ProxyCall cfg}
    (hc : c ∈ s.calls) (hpc : c.pc ≠ .transfer) : s.ch.dmaHandle = addr := by
  have hinv : UncachedHandle addr s := by
    refine h.invariant ⟨rfl, rfl, Or.inl ?_⟩ ?_
    · intro c hc
      cases hc
    · intro s a s' hinv _ hs
      exact uncachedHandle_step hinv hs
  rcases hinv.2.2 with hall | hset
  · exact absurd (hall c hc) hpc
  · exact hset

end ProxySys

end PetalinuxDriver
