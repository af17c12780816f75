import PetalinuxDriver.Library.WordMemory
import PetalinuxDriver.Model.Kernel

/-!
# The registers of the IP cores

The device list of `plIpcore.c`, the accessors of `plIpcore_utils.c` and `plipdev_ioctl` of
`plIpcore_dev.c` for one request that nothing interrupts. A pointer has the width of `size_t`, and
`char` is unsigned, as it is on ARM. The registers are taken as memory, and every access to them is
written down.
-/

set_option autoImplicit false

namespace PetalinuxDriver

open Library

variable {cfg : PhysAddrConfig}

/-- A kernel pointer. -/
abbrev VirtAddr (cfg : PhysAddrConfig) := BitVec cfg.width

/-- `EFAULT`. -/
def efault : Int := 14

/-- `RRU_IOC_REG_READ`. -/
def rruIocRegRead : BitVec 32 := 100

/-- `RRU_IOC_REG_WRITE`. -/
def rruIocRegWrite : BitVec 32 := 101

/-- The two commands are different numbers. -/
@[simp] theorem rruIocRegWrite_ne_read : rruIocRegWrite ≠ rruIocRegRead := by decide

/-- `plip_iocReg_t`. -/
structure PlipIocReg where
  addr : BitVec 32
  value : BitVec 32
  id : BitVec 8
deriving DecidableEq, Repr

/-- `plipcore_dev_t`. The callbacks are `ip_core_read` and `ip_core_write`, or not set. -/
structure PlipcoreDev (cfg : PhysAddrConfig) where
  id : Int
  data : VirtAddr cfg
  write : Bool
  read : Bool
deriving DecidableEq, Repr

/-- The memory behind the mappings, and the words that were accessed. -/
structure Io (cfg : PhysAddrConfig) where
  mem : ByteMem cfg.width
  accesses : List (VirtAddr cfg)

/-- `ioread32`. -/
def ioread32 (p : VirtAddr cfg) (io : Io cfg) : BitVec 32 × Io cfg :=
  (readWord io.mem p, { io with accesses := io.accesses ++ [p] })

/-- `iowrite32`. -/
def iowrite32 (val : BitVec 32) (p : VirtAddr cfg) (io : Io cfg) : Io cfg :=
  { mem := writeWord io.mem p val, accesses := io.accesses ++ [p] }

/-- `(u32 *) dev->data + addr`: four bytes for each register, at the width of a pointer. -/
def PlipcoreDev.regAddr (dev : PlipcoreDev cfg) (addr : BitVec 32) : VirtAddr cfg :=
  dev.data + 4 * addr.setWidth cfg.width

/-- `ip_core_read`. -/
def ipCoreRead (dev : PlipcoreDev cfg) (addr : BitVec 32) (io : Io cfg) : BitVec 32 × Io cfg :=
  ioread32 (dev.regAddr addr) io

/-- `ip_core_write`. -/
def ipCoreWrite (dev : PlipcoreDev cfg) (addr val : BitVec 32) (io : Io cfg) : Int × Io cfg :=
  (0, iowrite32 val (dev.regAddr addr) io)

/-- `ipcore_find_device`. -/
def ipcoreFindDevice (devs : List (PlipcoreDev cfg)) (id : Int) : Option (PlipcoreDev cfg) :=
  devs.find? fun dev => dev.id = id

/-- A request: the command, what `copy_from_user` leaves in `iocReg`, whose result is not looked at,
and whether `copy_to_user` succeeds. -/
structure PlipRequest where
  cmd : BitVec 32
  iocReg : PlipIocReg
  copyToUserOk : Bool
deriving DecidableEq, Repr

/-- `iocReg.id` as an `int`. -/
def PlipRequest.id (r : PlipRequest) : Int := r.iocReg.id.toNat

/-- What the caller gets: the result of the call and what is in its structure then. -/
abbrev PlipAnswer := Int × PlipIocReg

/-- `plipdev_ioctl`. -/
def plipdevIoctl (devs : List (PlipcoreDev cfg)) (r : PlipRequest) (io : Io cfg) :
    PlipAnswer × Io cfg :=
  if r.cmd = rruIocRegRead then
    match ipcoreFindDevice devs r.id with
    | none => ((-1, r.iocReg), io)
    | some plipDev =>
      if !plipDev.read then ((-1, r.iocReg), io)
      else
        let (value, io) := ipCoreRead plipDev r.iocReg.addr io
        if r.copyToUserOk then ((value.toInt, { r.iocReg with value := value }), io)
        else ((-efault, r.iocReg), io)
  else if r.cmd = rruIocRegWrite then
    match ipcoreFindDevice devs r.id with
    | none => ((-1, r.iocReg), io)
    | some plipDev =>
      if !plipDev.write then ((-1, r.iocReg), io)
      else
        let (ret, io) := ipCoreWrite plipDev r.iocReg.addr r.iocReg.value io
        ((ret, r.iocReg), io)
  else ((0, r.iocReg), io)

/-- Requests one after the other. -/
def plipdevIoctls (devs : List (PlipcoreDev cfg)) :
    List PlipRequest → Io cfg → List PlipAnswer × Io cfg
  | [], io => ([], io)
  | r :: rs, io =>
    let (answer, io) := plipdevIoctl devs r io
    let (answers, io) := plipdevIoctls devs rs io
    (answer :: answers, io)

/-! ## The copies from and to the caller -/

/-- A word after the first `n` bytes of another one were copied over it. -/
def copyWord (n : Nat) (src dst : BitVec 32) : BitVec 32 :=
  let mask : BitVec 32 := BitVec.ofNat 32 (2 ^ (8 * min n 4) - 1)
  (src &&& mask) ||| (dst &&& ~~~mask)

/-- A structure after the first `n` bytes of another one were copied over it. -/
def copyBytes (n : Nat) (src dst : PlipIocReg) : PlipIocReg where
  addr := copyWord n src.addr dst.addr
  value := copyWord (n - 4) src.value dst.value
  id := if 8 < n then src.id else dst.id

/-- How far a copy gets: to its end, or up to the byte that faults. -/
inductive UserCopy where
  | done
  | fault (n : Nat)
deriving DecidableEq, Repr

/-- What `copy_from_user` leaves in `iocReg`: after a fault the rest is zero. -/
def copyFromUser (user : PlipIocReg) : UserCopy → PlipIocReg
  | .done => user
  | .fault n => copyBytes n user ⟨0, 0, 0⟩

/-- What `copy_to_user` leaves in the caller's structure. -/
def copyToUser (iocReg user : PlipIocReg) : UserCopy → PlipIocReg
  | .done => iocReg
  | .fault n => copyBytes n iocReg user

/-- A copy that succeeds brings in the structure of the caller. -/
@[simp] theorem copyFromUser_done (user : PlipIocReg) : copyFromUser user .done = user := rfl

/-- A copy that succeeds gives the caller the structure of the driver. -/
@[simp] theorem copyToUser_done (iocReg user : PlipIocReg) :
    copyToUser iocReg user .done = iocReg := rfl

/-- `plipdev_ioctl` with the structure of its caller: `copyIn` and `copyOut` say how far the two
copies get, and the answer is what the caller then has. -/
def plipdevIoctlUser (devs : List (PlipcoreDev cfg)) (cmd : BitVec 32) (copyIn copyOut : UserCopy)
    (user : PlipIocReg) (io : Io cfg) : PlipAnswer × Io cfg :=
  if cmd = rruIocRegRead then
    let iocReg := copyFromUser user copyIn
    match ipcoreFindDevice devs iocReg.id.toNat with
    | none => ((-1, user), io)
    | some plipDev =>
      if !plipDev.read then ((-1, user), io)
      else
        let (value, io) := ipCoreRead plipDev iocReg.addr io
        let iocReg := { iocReg with value := value }
        match copyOut with
        | .done => ((value.toInt, copyToUser iocReg user .done), io)
        | .fault n => ((-efault, copyToUser iocReg user (.fault n)), io)
  else if cmd = rruIocRegWrite then
    let iocReg := copyFromUser user copyIn
    match ipcoreFindDevice devs iocReg.id.toNat with
    | none => ((-1, user), io)
    | some plipDev =>
      if !plipDev.write then ((-1, user), io)
      else
        let (ret, io) := ipCoreWrite plipDev iocReg.addr iocReg.value io
        ((ret, user), io)
  else ((0, user), io)

end PetalinuxDriver
