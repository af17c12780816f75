import Mathlib.Logic.Function.Basic
import PetalinuxDriver.Library.Ledger
import PetalinuxDriver.Library.Transition
import PetalinuxDriver.Model.Kernel

/-!
# Probe and removal of the interrupt demo

`egModule_probe` and `egModule_remove` of `intrDemo.c`, for any number of devices. What the kernel
answers is an argument. The ledger has what is acquired and given back, and for which device. The
driver core probes a device that is not bound, and removes one whose probe returned zero.
-/

set_option autoImplicit false

namespace PetalinuxDriver

open Library

variable {cfg : PhysAddrConfig}

/-- `ENODEV`. -/
def enodev : Int := 19

/-- `ENOMEM`. -/
def enomem : Int := 12

/-- `EBUSY`. -/
def ebusy : Int := 16

/-- `EIO`. -/
def eio : Int := 5

/-- `egModule_local`, with `base_addr` as an address or `NULL`. -/
structure EgModuleLocal (cfg : PhysAddrConfig) where
  irq : Int
  memStart : DmaAddr cfg
  memEnd : DmaAddr cfg
  baseAddr : Option Nat
deriving DecidableEq, Repr

/-- What a probe acquires: the private struct at an address, a memory region with its length, a
mapping, and an irq for the handler with this argument. -/
inductive EgResource (cfg : PhysAddrConfig) where
  | localStruct (lp : Nat)
  | memRegion (start len : DmaAddr cfg)
  | mapping (baseAddr : Nat)
  | irq (irq : Int) (lp : Nat)
deriving DecidableEq, Repr

/-- What the kernel answers during a probe. -/
structure EgProbeEnv (cfg : PhysAddrConfig) where
  /-- The memory resource of the device: its start and its end. -/
  rMem : Option (DmaAddr cfg × DmaAddr cfg)
  /-- `kmalloc`: an address, and what is in the memory there. -/
  kmalloc : Option (Nat × EgModuleLocal cfg)
  requestMemRegion : Bool
  ioremap : Option Nat
  /-- The start of the irq resource of the device. -/
  rIrq : Option (DmaAddr cfg)
  requestIrq : Int
deriving DecidableEq, Repr

/-- The devices: which are bound, their private structs, and the ledger. -/
structure EgModule (cfg : PhysAddrConfig) where
  bound : List Nat
  /-- `dev_get_drvdata`: the address of the struct, and the struct. -/
  drvdata : Nat → Option (Nat × EgModuleLocal cfg)
  ledger : List (LedgerEntry (Nat × EgResource cfg))

namespace EgModule

/-- The module as it is loaded. -/
def loaded : EgModule cfg where
  bound := []
  drvdata := fun _ => none
  ledger := []

/-- An entry of the ledger. -/
def enter (e : LedgerEntry (Nat × EgResource cfg)) (s : EgModule cfg) : EgModule cfg :=
  { s with ledger := s.ledger ++ [e] }

/-- `dev_set_drvdata`, and what is stored through the pointer later. -/
def setDrvdata (dev : Nat) (lp : Option (Nat × EgModuleLocal cfg)) (s : EgModule cfg) :
    EgModule cfg :=
  { s with drvdata := Function.update s.drvdata dev lp }

end EgModule

open EgModule

/-- `lp->mem_end - lp->mem_start + 1`. -/
def EgModuleLocal.memLen (lp : EgModuleLocal cfg) : DmaAddr cfg := lp.memEnd - lp.memStart + 1

/-! ## Probe -/

/-- `error1`. -/
def egModuleError1 (dev p : Nat) (s : EgModule cfg) : EgModule cfg :=
  (s.enter (.release (dev, .localStruct p))).setDrvdata dev none

/-- `error2`. -/
def egModuleError2 (dev p : Nat) (lp : EgModuleLocal cfg) (s : EgModule cfg) : EgModule cfg :=
  egModuleError1 dev p (s.enter (.release (dev, .memRegion lp.memStart lp.memLen)))

/-- `error3`. -/
def egModuleError3 (dev p : Nat) (lp : EgModuleLocal cfg) (s : EgModule cfg) : EgModule cfg :=
  egModuleError2 dev p lp (s.enter (.release (dev, .irq lp.irq p)))

/-- `egModule_probe` from `platform_get_resource` for the irq on. -/
def egModuleProbeIrq (dev p : Nat) (lp : EgModuleLocal cfg) (env : EgProbeEnv cfg)
    (s : EgModule cfg) : EgModule cfg × Int :=
  match env.rIrq with
  | none => (s, 0)
  | some start =>
    let lp := { lp with irq := (start.setWidth 32).toInt }
    let s := s.setDrvdata dev (some (p, lp))
    let rc := env.requestIrq
    if rc ≠ 0 then (egModuleError3 dev p lp s, rc) else (s.enter (.acquire (dev, .irq lp.irq p)), 0)

/-- `egModule_probe` from `request_mem_region` on. -/
def egModuleProbeMem (dev p : Nat) (lp : EgModuleLocal cfg) (env : EgProbeEnv cfg)
    (s : EgModule cfg) : EgModule cfg × Int :=
  if !env.requestMemRegion then (egModuleError1 dev p s, -ebusy)
  else
    let s := s.enter (.acquire (dev, .memRegion lp.memStart lp.memLen))
    let lp := { lp with baseAddr := env.ioremap }
    let s := s.setDrvdata dev (some (p, lp))
    match env.ioremap with
    | none => (egModuleError2 dev p lp s, -eio)
    | some baseAddr => egModuleProbeIrq dev p lp env (s.enter (.acquire (dev, .mapping baseAddr)))

/-- `egModule_probe`. -/
def egModuleProbe (dev : Nat) (env : EgProbeEnv cfg) (s : EgModule cfg) : EgModule cfg × Int :=
  match env.rMem with
  | none => (s, -enodev)
  | some (memStart, memEnd) =>
    match env.kmalloc with
    | none => (s, -enomem)
    | some (p, lp) =>
      let s := s.enter (.acquire (dev, .localStruct p))
      let lp := { lp with memStart := memStart, memEnd := memEnd }
      egModuleProbeMem dev p lp env (s.setDrvdata dev (some (p, lp)))

/-! ## Removal -/

/-- `egModule_remove`, which follows the pointer that `dev_get_drvdata` returns. -/
def egModuleRemove (dev : Nat) (s : EgModule cfg) : Option (EgModule cfg) :=
  match s.drvdata dev with
  | none => none
  | some (p, lp) =>
    let s := s.enter (.release (dev, .irq lp.irq p))
    let s := s.enter (.release (dev, .memRegion lp.memStart lp.memLen))
    let s := s.enter (.release (dev, .localStruct p))
    some (s.setDrvdata dev none)

/-! ## The driver core -/

/-- A call of the driver core. -/
inductive EgCall (cfg : PhysAddrConfig) where
  | probe (dev : Nat) (env : EgProbeEnv cfg)
  | remove (dev : Nat)
deriving DecidableEq, Repr

namespace EgModule

/-- One call: a device is bound when its probe returns zero, until it is removed. -/
def call (s : EgModule cfg) : EgCall cfg → Option (EgModule cfg)
  | .probe dev env =>
    if dev ∈ s.bound then none
    else
      match egModuleProbe dev env s with
      | (s, 0) => some { s with bound := dev :: s.bound }
      | (s, _) => some s
  | .remove dev =>
    if dev ∈ s.bound then
      (egModuleRemove dev s).map fun s => { s with bound := s.bound.filter (· ≠ dev) }
    else none

end EgModule

end PetalinuxDriver
