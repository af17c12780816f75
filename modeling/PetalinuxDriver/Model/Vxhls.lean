import PetalinuxDriver.Model.PlIpcore

/-!
# The registers of the accelerator

The two accessors of `vxhls.c` and the functions that the module exports for them. The reader adds
the register to a `void *`, the writer to a `u32 *`. The registers are taken as memory, and every
access to them is written down.
-/

set_option autoImplicit false

namespace PetalinuxDriver

open Library

variable {cfg : PhysAddrConfig}

/-- `vxhls_state`. -/
structure VxhlsState (cfg : PhysAddrConfig) where
  id : Int
  regs : VirtAddr cfg
deriving DecidableEq, Repr

/-- `st->regs + reg`: one byte for each register. -/
def VxhlsState.readAddr (st : VxhlsState cfg) (reg : BitVec 32) : VirtAddr cfg :=
  st.regs + reg.setWidth cfg.width

/-- `(u32 *) st->regs + reg`: four bytes for each register. -/
def VxhlsState.writeAddr (st : VxhlsState cfg) (reg : BitVec 32) : VirtAddr cfg :=
  st.regs + 4 * reg.setWidth cfg.width

/-- `vxhls_read`. -/
def vxhlsRead (st : VxhlsState cfg) (reg : BitVec 32) (io : Io cfg) : Int × Io cfg :=
  let (value, io) := ioread32 (st.readAddr reg) io
  (value.toInt, io)

/-- `vxhls_write`. -/
def vxhlsWrite (st : VxhlsState cfg) (reg val : BitVec 32) (io : Io cfg) : Io cfg :=
  iowrite32 val (st.writeAddr reg) io

/-- `vxhls_read_reg`. -/
def vxhlsReadReg (st : VxhlsState cfg) (reg : BitVec 32) (io : Io cfg) : Int × Io cfg :=
  vxhlsRead st reg io

/-- `vxhls_write_reg`. -/
def vxhlsWriteReg (st : VxhlsState cfg) (reg value : BitVec 32) (io : Io cfg) : Io cfg :=
  vxhlsWrite st reg value io

/-- A call of one of the two. -/
inductive RegCall where
  | read (reg : BitVec 32)
  | write (reg value : BitVec 32)
deriving DecidableEq, Repr

/-- Calls one after the other, with what the reads return. -/
def vxhlsCalls (st : VxhlsState cfg) : List RegCall → Io cfg → List Int × Io cfg
  | [], io => ([], io)
  | .read reg :: calls, io =>
    let (value, io) := vxhlsReadReg st reg io
    let (values, io) := vxhlsCalls st calls io
    (value :: values, io)
  | .write reg value :: calls, io => vxhlsCalls st calls (vxhlsWriteReg st reg value io)

/-! ## What the accessors do -/

section Accessors

variable (st : VxhlsState cfg) (reg value : BitVec 32) (io : Io cfg)

/-- A read returns the word at the address of the register. -/
@[simp] theorem vxhlsReadReg_value :
    (vxhlsReadReg st reg io).1 = (readWord io.mem (st.readAddr reg)).toInt := rfl

/-- A read changes no memory. -/
@[simp] theorem vxhlsReadReg_mem : (vxhlsReadReg st reg io).2.mem = io.mem := rfl

/-- A write stores the word at the address of the register. -/
@[simp] theorem vxhlsWriteReg_mem :
    (vxhlsWriteReg st reg value io).mem = writeWord io.mem (st.writeAddr reg) value := rfl

end Accessors

end PetalinuxDriver
