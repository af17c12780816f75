import PetalinuxDriver.Model.Vxhls

/-!
# Which register the accelerator is read from

What the two accessors are for is a file of registers (`registerFile`). The writer of `vxhls.c` puts
register `r` at four times `r`, the reader looks for it at `r` bytes, and so they agree on register
0 alone. `hls_registers_exactly` says which sequences of accesses are still those of a register file,
for all values that are written: a read of a register that was written before has to be of register
0, and no register that was written since may reach into the word that is read.
-/

set_option autoImplicit false

namespace PetalinuxDriver

open Library

variable {cfg : PhysAddrConfig}

/-! ## Register files -/

/-- What the reads return when every register is a word of its own. -/
def registerFile (table : BitVec 32 → Int) : List RegCall → List Int
  | [] => []
  | .read reg :: calls => table reg :: registerFile table calls
  | .write reg value :: calls => registerFile (Function.update table reg value.toInt) calls

/-- What a call accesses, whatever the value. -/
inductive RegAccess where
  | read (reg : BitVec 32)
  | write (reg : BitVec 32)
deriving DecidableEq, Repr

/-- The access of a call. -/
def RegCall.access : RegCall → RegAccess
  | .read reg => .read reg
  | .write reg _ => .write reg

/-- A call with that access. -/
def RegAccess.call : RegAccess → RegCall
  | .read reg => .read reg
  | .write reg => .write reg 0

/-- Every list of accesses is that of some calls. -/
theorem map_access_call (accesses : List RegAccess) :
    accesses.map (RegCall.access ∘ RegAccess.call) = accesses := by
  have hcall : RegCall.access ∘ RegAccess.call = id := by
    funext access
    cases access <;> rfl
  rw [hcall]
  exact List.map_id accesses

/-! ## The condition -/

/-- The word where a register is written has no byte in the word where another one is read. -/
def Clear (cfg : PhysAddrConfig) (written read : BitVec 32) : Prop :=
  WordsApart (4 * written.setWidth cfg.width) (read.setWidth cfg.width)

/-- A register is read from where it was written last, the last write first: it is register 0, or it
was not written, and no register that was written since reaches into it. -/
def ReadsBack (cfg : PhysAddrConfig) : List (BitVec 32) → BitVec 32 → Prop
  | [], _ => True
  | written :: earlier, reg =>
    if written = reg then reg = 0 else Clear cfg written reg ∧ ReadsBack cfg earlier reg

/-- Every read of the accesses is of a register that is read from where it was written. -/
def AllReadBack (cfg : PhysAddrConfig) : List (BitVec 32) → List RegAccess → Prop
  | _, [] => True
  | written, .read reg :: accesses =>
    ReadsBack cfg written reg ∧ AllReadBack cfg written accesses
  | written, .write reg :: accesses => AllReadBack cfg (reg :: written) accesses

/-! ## The two addresses -/

section Addresses

variable (st : VxhlsState cfg) (r w : BitVec 32)

/-- An address has at least three bits. -/
theorem three_le_width (cfg : PhysAddrConfig) : 3 ≤ cfg.width :=
  Nat.le_trans (by decide) (le_width cfg)

/-- A write is clear of a read exactly when their words are apart. -/
theorem clear_iff : WordsApart (st.writeAddr w) (st.readAddr r) ↔ Clear cfg w r :=
  wordsApart_add_left st.regs _ _

/-- Reader and writer mean the same address for register 0 only. -/
theorem writeAddr_eq_readAddr_iff : st.writeAddr r = st.readAddr r ↔ r = 0 := by
  have hzero : r.setWidth cfg.width = 0 ↔ r = 0 := by
    have hlt := Nat.lt_of_lt_of_le r.isLt (le_two_pow_width cfg)
    rw [← BitVec.toNat_inj, ← BitVec.toNat_inj, BitVec.toNat_setWidth, Nat.mod_eq_of_lt hlt]
    rfl
  unfold VxhlsState.writeAddr VxhlsState.readAddr
  rw [add_right_inj, four_mul_eq_self_iff (three_le_width cfg), hzero]

/-- A register that is written shows in every register it reaches into. -/
theorem not_clear_ne_zero {r w : BitVec 32} (h : ¬ Clear cfg w r) (m : ByteMem cfg.width) :
    readWord (writeWord m (st.writeAddr w) (BitVec.allOnes 32)) (st.readAddr r) ≠ 0 := by
  apply readWord_overlapping_ne_zero
  rwa [clear_iff]

/-- A register other than 0 is not read back in full. -/
theorem ne_zero_ne_allOnes {r : BitVec 32} (h : r ≠ 0) {m : ByteMem cfg.width}
    (hzero : readWord m (st.readAddr r) = 0) :
    readWord (writeWord m (st.writeAddr r) (BitVec.allOnes 32)) (st.readAddr r)
      ≠ BitVec.allOnes 32 := by
  refine readWord_elsewhere_ne_allOnes (three_le_width cfg) ?_ hzero
  rwa [Ne, writeAddr_eq_readAddr_iff]

end Addresses

/-! ## After some writes -/

/-- The memory after some writes, the last one first. -/
def memAfter (st : VxhlsState cfg) (m : ByteMem cfg.width) :
    List (BitVec 32 × BitVec 32) → ByteMem cfg.width
  | [] => m
  | (reg, value) :: stored => writeWord (memAfter st m stored) (st.writeAddr reg) value

/-- What a register file then has, where it had what the reader finds in the first memory. -/
def fileAfter (st : VxhlsState cfg) (m : ByteMem cfg.width) :
    List (BitVec 32 × BitVec 32) → BitVec 32 → Int
  | [] => fun reg => (readWord m (st.readAddr reg)).toInt
  | (reg, value) :: stored => Function.update (fileAfter st m stored) reg value.toInt

/-- The word that the reader finds after some writes, where it found `m` before. -/
abbrev found (st : VxhlsState cfg) (m : ByteMem cfg.width) (stored : List (BitVec 32 × BitVec 32))
    (reg : BitVec 32) : BitVec 32 :=
  readWord (memAfter st m stored) (st.readAddr reg)

section Writes

variable (st : VxhlsState cfg)

/-- A write that is clear of a register changes nothing there. -/
theorem found_cons_clear {w r value : BitVec 32} (h : Clear cfg w r) (m : ByteMem cfg.width)
    (stored : List (BitVec 32 × BitVec 32)) :
    found st m ((w, value) :: stored) r = found st m stored r :=
  readWord_writeWord_apart value ((clear_iff st r w).mpr h)

/-- Writes of zero to empty memory leave it empty. -/
theorem found_zeros (ws : List (BitVec 32)) (r : BitVec 32) :
    found st (fun _ => 0) (ws.map fun w => (w, 0)) r = 0 := by
  have hempty : memAfter st (fun _ => 0) (ws.map fun w => (w, 0)) = fun _ => 0 := by
    induction ws with
    | nil => rfl
    | cons w ws ih => rw [List.map_cons, memAfter, ih, writeWord_zero]
  unfold found
  rw [hempty, readWord_zero]

/-- The register file has zero then, too. -/
theorem fileAfter_zeros (ws : List (BitVec 32)) (r : BitVec 32) :
    fileAfter st (fun _ => 0) (ws.map fun w => (w, 0)) r = 0 := by
  induction ws with
  | nil =>
    show (readWord (fun _ => 0) (st.readAddr r)).toInt = 0
    rw [readWord_zero]
    rfl
  | cons w ws ih =>
    rw [List.map_cons, fileAfter]
    rcases eq_or_ne r w with rfl | hne
    · rw [Function.update_self]
      rfl
    · rw [Function.update_of_ne hne]
      exact ih

/-- Where a register reads back, its word is that of the register file. -/
theorem ReadsBack.found_eq {stored : List (BitVec 32 × BitVec 32)} {reg : BitVec 32}
    (h : ReadsBack cfg (stored.map Prod.fst) reg) (m : ByteMem cfg.width) :
    (found st m stored reg).toInt = fileAfter st m stored reg := by
  induction stored with
  | nil => rfl
  | cons write stored ih =>
    obtain ⟨w, value⟩ := write
    rw [List.map_cons, ReadsBack] at h
    unfold fileAfter
    split at h
    · rename_i hsame
      replace hsame : w = reg := hsame
      rw [hsame, Function.update_self]
      have haddr : st.writeAddr reg = st.readAddr reg := (writeAddr_eq_readAddr_iff st reg).mpr h
      unfold found memAfter
      rw [haddr, readWord_writeWord_self (three_le_width cfg)]
    · rename_i hother
      rw [found_cons_clear st h.1, Function.update_of_ne (Ne.symm hother)]
      exact ih h.2

/-- Where a register does not read back, some values show it: the write that gets in the way sets all
bits, and everything else is zero. -/
theorem readsBack_of_found {written : List (BitVec 32)} {reg : BitVec 32}
    (h : ∀ m stored, stored.map Prod.fst = written →
      (found st m stored reg).toInt = fileAfter st m stored reg) : ReadsBack cfg written reg := by
  induction written with
  | nil => trivial
  | cons w written ih =>
    have hmap : ∀ ws : List (BitVec 32), (ws.map fun w => (w, (0 : BitVec 32))).map Prod.fst = ws := by
      intro ws
      rw [List.map_map]
      exact List.map_id ws
    have hones := h (fun _ => 0) ((w, BitVec.allOnes 32) :: written.map fun w => (w, 0)) (by
      rw [List.map_cons, hmap])
    unfold ReadsBack
    split
    · rename_i hsame
      rw [hsame] at hones
      by_contra hne
      apply ne_zero_ne_allOnes st hne (found_zeros st written reg)
      apply BitVec.eq_of_toInt_eq
      rw [fileAfter, Function.update_self] at hones
      exact hones
    · rename_i hother
      have hclear : Clear cfg w reg := by
        by_contra hnot
        apply not_clear_ne_zero st hnot (memAfter st (fun _ => 0) (written.map fun w => (w, 0)))
        apply BitVec.eq_of_toInt_eq
        rw [fileAfter, Function.update_of_ne (Ne.symm hother), fileAfter_zeros] at hones
        exact hones
      refine ⟨hclear, ih ?_⟩
      intro m stored hstored
      have hzero := h m ((w, 0) :: stored) (by rw [List.map_cons, hstored])
      rw [found_cons_clear st hclear, fileAfter, Function.update_of_ne (Ne.symm hother)] at hzero
      exact hzero

/-- A register reads back, whatever was written, exactly under the condition. -/
theorem readsBack_iff_found (written : List (BitVec 32)) (reg : BitVec 32) :
    (∀ m stored, stored.map Prod.fst = written →
      (found st m stored reg).toInt = fileAfter st m stored reg) ↔ ReadsBack cfg written reg := by
  refine ⟨readsBack_of_found st, ?_⟩
  rintro h m stored rfl
  exact h.found_eq st m

end Writes

/-! ## Runs -/

/-- After some writes, accesses return what the register file has, for all values that are written,
before and now, and whatever was in the registers at first. -/
def Agree (st : VxhlsState cfg) (written : List (BitVec 32)) (accesses : List RegAccess) : Prop :=
  ∀ m stored io calls, stored.map Prod.fst = written → io.mem = memAfter st m stored →
    calls.map RegCall.access = accesses →
    (vxhlsCalls st calls io).1 = registerFile (fileAfter st m stored) calls

/-- What the reads return depends on the memory only. -/
theorem vxhlsCalls_of_mem (st : VxhlsState cfg) (calls : List RegCall) {io io' : Io cfg}
    (h : io.mem = io'.mem) : (vxhlsCalls st calls io).1 = (vxhlsCalls st calls io').1 := by
  induction calls generalizing io io' with
  | nil => rfl
  | cons call calls ih =>
    cases call with
    | read reg =>
      have htail := @ih (vxhlsReadReg st reg io).2 (vxhlsReadReg st reg io').2 h
      have hhead : (vxhlsReadReg st reg io).1 = (vxhlsReadReg st reg io').1 := by
        rw [vxhlsReadReg_value, vxhlsReadReg_value, h]
      exact congrArg₂ List.cons hhead htail
    | write reg value =>
      apply ih
      rw [vxhlsWriteReg_mem, vxhlsWriteReg_mem, h]

section Runs

variable (st : VxhlsState cfg) (written : List (BitVec 32)) (reg : BitVec 32)
  (accesses : List RegAccess)

/-- Without an access there is nothing to disagree about. -/
theorem agree_nil : Agree st written [] := by
  intro m stored io calls _ _ hcalls
  rw [List.map_eq_nil_iff.mp hcalls]
  rfl

/-- A read agrees when the register reads back, and leaves everything as it is. -/
theorem agree_read :
    Agree st written (.read reg :: accesses) ↔
      (∀ m stored, stored.map Prod.fst = written →
        (found st m stored reg).toInt = fileAfter st m stored reg) ∧
      Agree st written accesses := by
  constructor
  · intro h
    refine ⟨?_, ?_⟩
    · intro m stored hstored
      have hrun := h m stored ⟨memAfter st m stored, []⟩
        (.read reg :: accesses.map RegAccess.call) hstored rfl
        (by rw [List.map_cons, List.map_map]; exact congrArg _ (map_access_call accesses))
      exact (List.cons_eq_cons.mp hrun).1
    · intro m stored io calls hstored hmem hcalls
      have hrun := h m stored io (.read reg :: calls) hstored hmem
        (by rw [List.map_cons, hcalls]; rfl)
      rw [vxhlsCalls_of_mem st calls (vxhlsReadReg_mem st reg io).symm]
      exact (List.cons_eq_cons.mp hrun).2
  · rintro ⟨hfound, hrest⟩ m stored io calls hstored hmem hcalls
    obtain ⟨call, later, rfl, hcall, hlater⟩ := List.map_eq_cons_iff.mp hcalls
    cases call with
    | write _ _ => cases hcall
    | read r =>
      cases hcall
      have htail := hrest m stored (vxhlsReadReg st reg io).2 later hstored hmem hlater
      have hhead := hfound m stored hstored
      rw [found, ← hmem] at hhead
      exact congrArg₂ List.cons hhead htail

/-- A write is one more of the writes so far. -/
theorem agree_write :
    Agree st written (.write reg :: accesses) ↔ Agree st (reg :: written) accesses := by
  constructor
  · intro h m stored io calls hstored hmem hcalls
    obtain ⟨⟨r, value⟩, earlier, rfl, hreg, hearlier⟩ := List.map_eq_cons_iff.mp hstored
    replace hreg : r = reg := hreg
    subst hreg
    have hrun := h m earlier ⟨memAfter st m earlier, []⟩ (.write r value :: calls) hearlier rfl
      (by rw [List.map_cons, hcalls]; rfl)
    have hwritten : io.mem
        = (vxhlsWriteReg st r value ⟨memAfter st m earlier, []⟩).mem := hmem
    rw [vxhlsCalls_of_mem st calls hwritten]
    exact hrun
  · intro h m stored io calls hstored hmem hcalls
    obtain ⟨call, later, rfl, hcall, hlater⟩ := List.map_eq_cons_iff.mp hcalls
    cases call with
    | read _ => cases hcall
    | write r value =>
      cases hcall
      apply h m ((reg, value) :: stored) (vxhlsWriteReg st reg value io) later
      · rw [List.map_cons, hstored]
      · rw [vxhlsWriteReg_mem, hmem]
        rfl
      · exact hlater

/-- **Runs.** Accesses agree with the register file when every read is of a register that reads
back. -/
theorem agree_iff : Agree st written accesses ↔ AllReadBack cfg written accesses := by
  induction accesses generalizing written with
  | nil => exact iff_of_true (agree_nil st written) trivial
  | cons access accesses ih =>
    cases access with
    | read reg =>
      rw [agree_read, ih written, AllReadBack, readsBack_iff_found st]
    | write reg => rw [agree_write, ih (reg :: written), AllReadBack]

end Runs

/-! ## What the accessors are good for -/

/-- What the reader finds in the registers. -/
def initially (st : VxhlsState cfg) (io : Io cfg) (reg : BitVec 32) : Int :=
  (vxhlsReadReg st reg io).1

/-- **Registers that are read from where they were written.** A sequence of accesses is that of a
register file, whatever is written and whatever was there at first, exactly when every read is of a
register that reads back. A write keeps what a register reads exactly when its word is clear of it.
And the two accessors mean the same address for register 0 only. -/
theorem hls_registers_exactly (st : VxhlsState cfg) :
    (∀ accesses, (∀ io calls, calls.map RegCall.access = accesses →
      (vxhlsCalls st calls io).1 = registerFile (initially st io) calls) ↔
        AllReadBack cfg [] accesses) ∧
    (∀ w r, (∀ io value,
      (vxhlsReadReg st r (vxhlsWriteReg st w value io)).1 = (vxhlsReadReg st r io).1) ↔
        Clear cfg w r) ∧
    ∀ r, st.writeAddr r = st.readAddr r ↔ r = 0 := by
  refine ⟨?_, ?_, ?_⟩
  · intro accesses
    rw [← agree_iff st [] accesses]
    constructor
    · intro h m stored io calls hstored hmem hcalls
      rw [List.map_eq_nil_iff.mp hstored] at hmem ⊢
      replace hmem : io.mem = m := hmem
      subst hmem
      exact h io calls hcalls
    · intro h io calls hcalls
      exact h io.mem [] io calls rfl rfl hcalls
  · intro w r
    constructor
    · intro h
      by_contra hnot
      apply not_clear_ne_zero st hnot (fun _ => 0)
      apply BitVec.eq_of_toInt_eq
      have hkept := h ⟨fun _ => 0, []⟩ (BitVec.allOnes 32)
      rw [vxhlsReadReg_value, vxhlsReadReg_value, vxhlsWriteReg_mem, readWord_zero] at hkept
      exact hkept
    · intro hclear io value
      rw [vxhlsReadReg_value, vxhlsReadReg_value, vxhlsWriteReg_mem,
        readWord_writeWord_apart value ((clear_iff st r w).mpr hclear)]
  · exact writeAddr_eq_readAddr_iff st

/-- Of register 1 only the lowest byte is read back, as the highest one, and register 2, `IER`, returns
half of what is written to register 0. -/
theorem hls_registers_differ :
    let st : VxhlsState .addr64 := ⟨0, BitVec.ofNat 64 0xa0000000⟩
    let io : Io .addr64 := ⟨fun _ => 0, []⟩
    (vxhlsCalls st [.write 1 0x11223344, .read 1] io).1 = [0x44000000] ∧
      registerFile (initially st io) [.write 1 0x11223344, .read 1] = [0x11223344] ∧
      (vxhlsReadReg st 2 io).1 = 0 ∧
      (vxhlsReadReg st 2 (vxhlsWriteReg st 0 0x11223344 io)).1 = 0x1122 := by
  decide

end PetalinuxDriver
