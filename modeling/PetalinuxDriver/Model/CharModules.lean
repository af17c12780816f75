import PetalinuxDriver.Model.IntrProbe

/-!
# Loading and unloading the modules with a character device

What `module_init` and `module_exit` name in `vxdma_dev.c`, `vxhls_dev.c`, `plIpcore_dev.c` and
`intrDemo.c`. The four functions bring up a character device with the same calls; taken down it is
with fewer calls by each. What the kernel answers is an argument.

The kernel loads a module that is not loaded, with new statics, and unloads one whose init did not
return a negative number. What a module did not give back stays from one load to the next.
`class_create` and `device_create` return an error pointer when they fail, and the code looks for
`NULL`. Where it hands an error pointer to a function that follows it, there is no result: `none`.

What only prints is left out, and so is `plip_init`, which acquires nothing.
-/

set_option autoImplicit false

namespace PetalinuxDriver

open Library

/-- What a module acquires. The result of `cdev_add` is not looked at. -/
inductive CharResource where
  /-- The private struct. -/
  | priv
  | chrdevRegion
  | cl
  | device
  /-- Between `cdev_init` and `cdev_del`. -/
  | cdev
  | platformDriver
deriving DecidableEq, Repr

/-- What the kernel answers while a module is loaded. The numbers are return codes. -/
structure CharInitEnv where
  kzallocOk : Bool
  allocChrdevRegion : Int
  classCreate : KernelPtr
  deviceCreate : KernelPtr
  platformDriverRegister : Int
deriving DecidableEq, Repr

/-- A module: its statics, whether there is a device for its number, and the ledger. -/
structure CharModule where
  loaded : Bool
  /-- The pointer to the private struct is not `NULL`. -/
  priv : Bool
  /-- The field `cl` of the private struct. -/
  cl : KernelPtr
  device : Bool
  ledger : List (LedgerEntry CharResource)
deriving DecidableEq, Repr

namespace CharModule

/-- A module that is not loaded, after what it has left. -/
def unloaded (ledger : List (LedgerEntry CharResource)) : CharModule where
  loaded := false
  priv := false
  cl := .null
  device := false
  ledger := ledger

/-- An entry of the ledger. -/
def enter (e : LedgerEntry CharResource) (m : CharModule) : CharModule :=
  { m with ledger := m.ledger ++ [e] }

/-- `class_create`, assigned to the field. -/
def classCreate (p : KernelPtr) (m : CharModule) : CharModule :=
  match p with
  | .object => { m.enter (.acquire .cl) with cl := .object }
  | _ => { m with cl := p }

/-- `class_destroy`, which does nothing with an error pointer. -/
def classDestroy (m : CharModule) : CharModule :=
  match m.cl with
  | .object => m.enter (.release .cl)
  | _ => m

/-- `device_create`, which returns an error pointer when it is given one. -/
def deviceCreate (p : KernelPtr) (m : CharModule) : CharModule × KernelPtr :=
  match m.cl, p with
  | .object, .object => ({ m.enter (.acquire .device) with device := true }, .object)
  | .object, p => (m, p)
  | _, _ => (m, .err)

/-- `device_destroy`, which looks for the device in the class. -/
def deviceDestroy (m : CharModule) : Option CharModule :=
  match m.cl with
  | .object =>
    some (if m.device then { m.enter (.release .device) with device := false } else m)
  | _ => none

end CharModule

/-! ## Init -/

/-- The init functions from `device_create` on. -/
def charInitDevice (env : CharInitEnv) (m : CharModule) : CharModule × Int :=
  match m.deviceCreate env.deviceCreate with
  | (m, .null) => (m.classDestroy.enter (.release .chrdevRegion), -1)
  | (m, _) => (m.enter (.acquire .cdev), 0)

/-- The init functions from `class_create` on. -/
def charInitClass (env : CharInitEnv) (m : CharModule) : CharModule × Int :=
  let m := m.classCreate env.classCreate
  if m.cl = .null then (m.enter (.release .chrdevRegion), -1) else charInitDevice env m

/-- What the init functions have in common; `failed` is how they look at what `alloc_chrdev_region`
returns. -/
def charInit (failed : Int → Bool) (env : CharInitEnv) (m : CharModule) : CharModule × Int :=
  if !env.kzallocOk then (m, -enomem)
  else
    let m := { m.enter (.acquire .priv) with priv := true }
    let rc := env.allocChrdevRegion
    if failed rc then (m, rc) else charInitClass env (m.enter (.acquire .chrdevRegion))

/-- `vxdma_dev_init`. -/
def vxdmaDevInit (env : CharInitEnv) (m : CharModule) : CharModule × Int :=
  charInit (fun rc => rc != 0) env m

/-- `vxhls_init` of `vxhls_dev.c`. -/
def vxhlsInit (env : CharInitEnv) (m : CharModule) : CharModule × Int :=
  charInit (fun rc => rc != 0) env m

/-- `plipdev_init`. -/
def plipdevInit (env : CharInitEnv) (m : CharModule) : CharModule × Int :=
  charInit (fun rc => rc < 0) env m

/-- `egModule_init`. -/
def egModuleInit (env : CharInitEnv) (m : CharModule) : CharModule × Int :=
  match charInit (fun rc => rc < 0) env m with
  | (m, 0) =>
    let rc := env.platformDriverRegister
    (if rc = 0 then m.enter (.acquire .platformDriver) else m, rc)
  | (m, rc) => (m, rc)

/-! ## Exit -/

/-- What `vxdma_dev_exit` and `vxhls_exit` have in common. -/
def charExit (m : CharModule) : Option CharModule :=
  match (m.enter (.release .cdev)).deviceDestroy with
  | none => none
  | some m => some (m.classDestroy.enter (.release .chrdevRegion))

/-- `vxdma_dev_exit`. -/
def vxdmaDevExit (m : CharModule) : Option CharModule := charExit m

/-- `vxhls_exit` of `vxhls_dev.c`. -/
def vxhlsExit (m : CharModule) : Option CharModule := charExit m

/-- `plipdev_exit`. -/
def plipdevExit (m : CharModule) : Option CharModule :=
  if !m.priv then some m
  else
    some (((m.enter (.release .cdev)).enter (.release .chrdevRegion)).enter (.release .priv))

/-- `egModule_exit`. -/
def egModuleExit (m : CharModule) : Option CharModule :=
  some (m.enter (.release .platformDriver))

/-! ## The kernel -/

/-- The modules. -/
inductive CharDriver where
  | vxdmaDev
  | vxhls
  | plipdev
  | egModule
deriving DecidableEq, Repr

namespace CharDriver

/-- The function for `module_init`. -/
def init : CharDriver → CharInitEnv → CharModule → CharModule × Int
  | .vxdmaDev => vxdmaDevInit
  | .vxhls => vxhlsInit
  | .plipdev => plipdevInit
  | .egModule => egModuleInit

/-- The function for `module_exit`. -/
def exit : CharDriver → CharModule → Option CharModule
  | .vxdmaDev => vxdmaDevExit
  | .vxhls => vxhlsExit
  | .plipdev => plipdevExit
  | .egModule => egModuleExit

end CharDriver

/-- The module is loaded or unloaded. -/
inductive CharAct where
  | load (env : CharInitEnv)
  | unload
deriving DecidableEq, Repr

namespace CharDriver

/-- One action of the kernel. -/
def step (d : CharDriver) (m : CharModule) : CharAct → Option CharModule
  | .load env =>
    if m.loaded then none
    else
      let r := d.init env (.unloaded m.ledger)
      some { r.1 with loaded := decide (0 ≤ r.2) }
  | .unload =>
    if m.loaded then (d.exit m).map fun m => { m with loaded := false } else none

end CharDriver

end PetalinuxDriver
