import Mathlib.Data.BitVec
import PetalinuxDriver.Analysis.BuilderSafety
import PetalinuxDriver.Analysis.EngineChain
import PetalinuxDriver.Library.AddressStream
import PetalinuxDriver.Library.Packets

/-!
# The bytes and the packets that words stand for

To the engine a segment is a span of addresses, and the marks of a packet. The spans of the words
that a request gives rise to, one after the other, are the bytes that the request names, each once
and in order, wherever the builder cuts them (`transfers_bytes`). A cyclic request names its whole
buffer, of which the builder takes whole periods only, so there the buffer has to be made of them.
A request to the device gives rise to one packet (`transfers_isPacket`), and one from the device to
no mark at all.
-/

set_option autoImplicit false

namespace PetalinuxDriver

open Library

variable {cfg : PhysAddrConfig}

/-! ## Bytes -/

/-- The addresses of the bytes of a segment. -/
def XilinxDmaDescHw.bytes (cfg : PhysAddrConfig) (hw : XilinxDmaDescHw) : List (DmaAddr cfg) :=
  span (hw.bufferAddr cfg) hw.bufferLength

/-- The addresses of the bytes of a piece. -/
def Chunk.bytes (c : Chunk cfg) : List (DmaAddr cfg) := span c.addr c.copy

/-- The addresses of the bytes of an entry of a scatterlist. -/
def ScatterEntry.bytes (sg : ScatterEntry cfg) : List (DmaAddr cfg) :=
  span sg.dmaAddress sg.dmaLength.toNat

/-- The addresses of the bytes that a prep is asked to transfer: those of its buffers, and for a
cyclic one those of the whole buffer. -/
def VxdmaSys.Act.bytes : VxdmaSys.Act cfg → List (DmaAddr cfg)
  | .prepSlaveSg args => args.sgl.flatMap ScatterEntry.bytes
  | .prepDmaCyclic args => span args.bufAddr args.bufLen.toNat
  | _ => []

/-- The buffer of a cyclic prep is made of whole periods, whose number fits an `unsigned int`. -/
def VxdmaSys.Act.WholePeriods : VxdmaSys.Act cfg → Prop
  | .prepDmaCyclic args => args.periodLen.toNat ∣ args.bufLen.toNat ∧
      args.bufLen.toNat / args.periodLen.toNat < 2 ^ 32
  | _ => True

instance : ∀ a : VxdmaSys.Act cfg, Decidable a.WholePeriods
  | .prepDmaCyclic _ => inferInstanceAs (Decidable (_ ∧ _))
  | .prepSlaveSg _ | .txSubmit _ _ | .issuePending | .interrupt | .terminateAll
  | .freeChanResources | .allocChanResources _ | .run _ _ | .tasklet | .callbackReturn
  | .device _ _ _ => isTrue trivial

/-- The bytes of a word are in the part that is transferred. -/
theorem transfer_bytes (hw : XilinxDmaDescHw) : hw.transfer.bytes cfg = hw.bytes cfg := by
  cases cfg <;> rfl

/-- Pieces that lie end to end are one piece. -/
theorem Tiles.span_eq {lo hi : Nat} {rs : List (Nat × Nat)} (h : Tiles lo rs hi)
    (base : DmaAddr cfg) :
    lo ≤ hi ∧ (rs.flatMap fun r => span (base + BitVec.ofNat cfg.width r.1) r.2) =
      span (base + BitVec.ofNat cfg.width lo) (hi - lo) := by
  induction rs generalizing lo with
  | nil =>
    obtain rfl : lo = hi := h
    simp
  | cons r rs ih =>
    obtain ⟨rfl, -, hrest⟩ := h
    obtain ⟨hle, hspan⟩ := ih hrest
    refine ⟨by omega, ?_⟩
    have hlen : hi - r.1 = r.2 + (hi - (r.1 + r.2)) := by omega
    rw [List.flatMap_cons, hspan, hlen, span_add, BitVec.natCast_eq_ofNat, BitVec.ofNat_add,
      BitVec.add_assoc]

/-- The chunks of a buffer are its bytes. -/
theorem chunksOf_bytes (base : DmaAddr cfg) (len : Nat) :
    (chunksOf base len).flatMap Chunk.bytes = span base len := by
  have htiles := chunkLoop_tiles (Nat.zero_le len) (Nat.sub_le len 0)
  have hspan := (htiles.span_eq base).2
  rw [Nat.sub_zero, BitVec.add_zero] at hspan
  rw [chunksOf, List.flatMap_map]
  exact hspan

/-- The chunks of a scatterlist are the bytes of its entries. -/
theorem sgChunks_bytes (sgl : List (ScatterEntry cfg)) :
    (sgChunks sgl).flatMap Chunk.bytes = sgl.flatMap ScatterEntry.bytes := by
  rw [sgChunks, List.flatMap_assoc]
  exact List.flatMap_congr fun sg _ => chunksOf_bytes sg.dmaAddress sg.dmaLength.toNat

/-- The periods follow one another. -/
theorem cyclicChunks_bytes (bufAddr : DmaAddr cfg) (numPeriods periodLen : Nat) :
    (cyclicChunks bufAddr numPeriods periodLen).flatMap Chunk.bytes =
      span bufAddr (numPeriods * periodLen) := by
  rw [cyclicChunks, List.flatMap_assoc, span_mul]
  apply List.flatMap_congr
  intro i _
  rw [chunksOf_bytes, BitVec.natCast_eq_ofNat]

/-- No chunk of a period is too long for a segment. -/
theorem cyclicChunks_copy_le (bufAddr : DmaAddr cfg) (numPeriods periodLen : Nat) :
    ∀ c ∈ cyclicChunks bufAddr numPeriods periodLen, c.copy ≤ xilinxDmaMaxTransLen.toNat := by
  intro c hc
  obtain ⟨i, -, hc⟩ := List.mem_flatMap.mp hc
  obtain ⟨r, hr, rfl⟩ := List.mem_map.mp hc
  exact (chunkLoop_bounds r hr).2

/-- A word has the bytes of its piece, whatever its flags are. -/
theorem newWord_bytes (app : Option AppWords) {c : Chunk cfg}
    (hcopy : c.copy ≤ xilinxDmaMaxTransLen.toNat) (direction : DmaTransferDirection) (n i : Nat) :
    ((fillHwDesc app c zeroDescHw).flagged (placeFlags direction n i)).bytes cfg = c.bytes := by
  obtain ⟨haddr, hlength⟩ := fillHwDesc_covers app zeroDescHw hcopy
  have hflags : placeFlags direction n i &&& xilinxDmaMaxTransLen = 0 := by
    unfold placeFlags
    split <;> split <;> decide
  have hkept : ((fillHwDesc app c zeroDescHw).flagged (placeFlags direction n i)).bufferAddr cfg =
      (fillHwDesc app c zeroDescHw).bufferAddr cfg := by
    cases cfg <;> rfl
  have hlen : ((fillHwDesc app c zeroDescHw).flagged (placeFlags direction n i)).bufferLength =
      (fillHwDesc app c zeroDescHw).bufferLength := by
    simp only [XilinxDmaDescHw.bufferLength, XilinxDmaDescHw.flagged, or_and_maxTransLen _ hflags]
  rw [XilinxDmaDescHw.bytes, hkept, hlen, haddr, hlength]
  rfl

/-- The words of chunks have the bytes of the chunks. -/
theorem newWords_bytes (app : Option AppWords) (direction : DmaTransferDirection)
    {chunks : List (Chunk cfg)} (hcopy : ∀ c ∈ chunks, c.copy ≤ xilinxDmaMaxTransLen.toNat) :
    (newWords app direction chunks).flatMap (XilinxDmaDescHw.bytes cfg) =
      chunks.flatMap Chunk.bytes := by
  have hmap : (newWords app direction chunks).map (XilinxDmaDescHw.bytes cfg) =
      chunks.map Chunk.bytes := by
    apply List.ext_getElem
    · simp [newWords]
    · intro i hi hi'
      have hlt : i < chunks.length := by simpa using hi'
      simp only [newWords, List.getElem_map, List.getElem_mapIdx]
      exact newWord_bytes app (hcopy _ (List.getElem_mem hlt)) direction chunks.length i
  rw [List.flatMap_def, List.flatMap_def, hmap]

/-- No byte of such a buffer is left over after its periods. -/
theorem PrepDmaCyclicArgs.numPeriods_mul {args : PrepDmaCyclicArgs cfg}
    (hdvd : args.periodLen.toNat ∣ args.bufLen.toNat)
    (hfits : args.bufLen.toNat / args.periodLen.toNat < 2 ^ 32) :
    args.numPeriods * args.periodLen.toNat = args.bufLen.toNat := by
  rw [PrepDmaCyclicArgs.numPeriods, Nat.mod_eq_of_lt hfits, Nat.div_mul_cancel hdvd]

/-- **The words that a prep asks for stand for the bytes that it names**, in order and each once. -/
theorem transfers_bytes {a : VxdmaSys.Act cfg} (hwhole : a.WholePeriods) :
    a.transfers.flatMap (XilinxDmaDescHw.bytes cfg) = a.bytes := by
  have hwords : a.transfers.flatMap (XilinxDmaDescHw.bytes cfg) =
      a.newWords.flatMap (XilinxDmaDescHw.bytes cfg) := by
    rw [VxdmaSys.Act.transfers, List.flatMap_map]
    exact List.flatMap_congr fun hw _ => transfer_bytes hw
  rw [hwords]
  cases a with
  | prepSlaveSg args =>
    rw [VxdmaSys.Act.newWords, newWords_bytes _ _ fun c hc => (sgChunks_copy_le args.sgl c hc).2,
      sgChunks_bytes]
    rfl
  | prepDmaCyclic args =>
    rw [VxdmaSys.Act.newWords, newWords_bytes _ _ (cyclicChunks_copy_le _ _ _),
      cyclicChunks_bytes]
    exact congrArg (span args.bufAddr) (PrepDmaCyclicArgs.numPeriods_mul hwhole.1 hwhole.2)
  | _ => rfl

/-! ## Packets -/

/-- The mark on the first segment of a packet. -/
def XilinxDmaDescHw.sop (hw : XilinxDmaDescHw) : Bool := hasBits hw.control xilinxDmaBdSop

/-- The mark on the last segment of a packet. -/
def XilinxDmaDescHw.eop (hw : XilinxDmaDescHw) : Bool := hasBits hw.control xilinxDmaBdEop

/-- The direction of a prep. -/
def VxdmaSys.Act.direction : VxdmaSys.Act cfg → Option DmaTransferDirection
  | .prepSlaveSg args => some args.direction
  | .prepDmaCyclic args => some args.direction
  | _ => none

/-- The marks of a word are those of its place. -/
theorem newWord_marks (app : Option AppWords) {c : Chunk cfg}
    (hcopy : c.copy ≤ xilinxDmaMaxTransLen.toNat) (direction : DmaTransferDirection) (n i : Nat) :
    let hw := ((fillHwDesc app c zeroDescHw).flagged (placeFlags direction n i)).transfer
    (hw.sop = true ↔ direction = .memToDev ∧ i = 0) ∧
      (hw.eop = true ↔ direction = .memToDev ∧ i + 1 = n) := by
  have hcontrol : ((fillHwDesc app c zeroDescHw).flagged
      (placeFlags direction n i)).transfer.control =
        BitVec.ofNat 32 c.copy ||| placeFlags direction n i := by
    rw [← fillHwDesc_control app c zeroDescHw]
    rfl
  simp only [XilinxDmaDescHw.sop, XilinxDmaDescHw.eop, hcontrol]
  exact hasBits_flags hcopy _ _

/-- The marks are at the first word and at the last one. -/
theorem newWords_marks (app : Option AppWords) (direction : DmaTransferDirection)
    {chunks : List (Chunk cfg)} (hcopy : ∀ c ∈ chunks, c.copy ≤ xilinxDmaMaxTransLen.toNat)
    (i : Nat) (hi : i < ((newWords app direction chunks).map XilinxDmaDescHw.transfer).length) :
    (((newWords app direction chunks).map XilinxDmaDescHw.transfer)[i].sop = true ↔
        direction = .memToDev ∧ i = 0) ∧
      (((newWords app direction chunks).map XilinxDmaDescHw.transfer)[i].eop = true ↔
        direction = .memToDev ∧
          i + 1 = ((newWords app direction chunks).map XilinxDmaDescHw.transfer).length) := by
  have hlen : ((newWords app direction chunks).map XilinxDmaDescHw.transfer).length =
      chunks.length := by
    simp [newWords]
  have hlt : i < chunks.length := hlen ▸ hi
  rw [hlen]
  simp only [newWords, List.getElem_map, List.getElem_mapIdx]
  exact newWord_marks app (hcopy _ (List.getElem_mem hlt)) direction chunks.length i

/-- The marks of the words of a request are on its first and its last word, when it is one to the
device. -/
theorem transfers_marks {a : VxdmaSys.Act cfg} {direction : DmaTransferDirection}
    (hdir : a.direction = some direction) (i : Nat) (hi : i < a.transfers.length) :
    (a.transfers[i].sop = true ↔ direction = .memToDev ∧ i = 0) ∧
      (a.transfers[i].eop = true ↔ direction = .memToDev ∧ i + 1 = a.transfers.length) := by
  cases a with
  | prepSlaveSg args =>
    cases hdir
    exact newWords_marks _ _ (fun c hc => (sgChunks_copy_le args.sgl c hc).2) i hi
  | prepDmaCyclic args =>
    cases hdir
    exact newWords_marks _ _ (cyclicChunks_copy_le _ _ _) i hi
  | _ => cases hdir

/-- **A request to the device is one packet.** -/
theorem transfers_isPacket {a : VxdmaSys.Act cfg} (hdir : a.direction = some .memToDev)
    (hne : a.transfers ≠ []) :
    IsPacket XilinxDmaDescHw.sop XilinxDmaDescHw.eop a.transfers := by
  refine ⟨hne, ?_, ?_⟩
  · intro i hi
    rw [(transfers_marks hdir i hi).1]
    exact and_iff_right rfl
  · intro i hi
    rw [(transfers_marks hdir i hi).2]
    exact and_iff_right rfl

end PetalinuxDriver
