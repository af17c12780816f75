import Mathlib.Logic.Function.Basic
import PetalinuxDriver.Model.PlIpcore

/-!
# The IP cores with their probes, removes and requests

`plipdev_init` of `plIpcore_dev.c`, `plIpcore_probe` and `plIpcore_remove` of `commonIp.c` with what
they call of `plIpcore.c`, and any number of `plipdev_ioctl` calls, step by step. The kernel probes
and removes one device at a time; nothing orders the requests with them. The list is the order in
which its links are followed, and devices are numbered as they are allocated.

A step that follows the links of a head that is not initialised, looks at a freed or an unlinked
device, or hands an error pointer to an accessor has no result: `wild`.
-/

set_option autoImplicit false

namespace PetalinuxDriver

open Library

variable {cfg : PhysAddrConfig}

/-- `IS_ERR`: the last `MAX_ERRNO` addresses. -/
def isErr (p : VirtAddr cfg) : Bool := 2 ^ cfg.width - 4095 ≤ p.toNat

/-- `enum rru_device_id`, the data of the match table. -/
inductive RruDeviceId where
  | ledctl
  | capctl
  | fpgainfo
deriving DecidableEq, Repr

/-- The numbers of the enumeration. -/
def RruDeviceId.toInt : RruDeviceId → Int
  | .ledctl => 0
  | .capctl => 1
  | .fpgainfo => 2

/-! ## Initialisation -/

/-- Where `plipdev_init` is: before one of its calls, or it has returned. -/
inductive PlipInitPc where
  | kzalloc
  | allocChrdevRegion
  | classCreate
  | deviceCreate
  | cdevAdd
  | plipInit
  | returned (ret : Int)
deriving DecidableEq, Repr

/-- What the calls of `plipdev_init` return. -/
structure PlipInitEnv where
  kzallocOk : Bool
  allocChrdevRegion : Int
  classCreate : KernelPtr
  deviceCreate : KernelPtr
  cdevAddOk : Bool
deriving DecidableEq, Repr

/-! ## Probe and remove -/

/-- What a probe gets: the entry of the match table, memory for the device and for its private data,
and the registers or an error pointer. -/
structure PlipProbeEnv (cfg : PhysAddrConfig) where
  ofMatch : Option RruDeviceId
  kzallocOk : Bool
  privOk : Bool
  regs : VirtAddr cfg
deriving DecidableEq, Repr

/-- Where the probe or the remove of a platform device is. -/
inductive PlipWork where
  | matchDevice (pdev : Nat)
  | deviceAlloc (pdev : Nat) (id : RruDeviceId)
  | ioremap (pdev d : Nat)
  | addDevice (d : Nat)
  | setWrite (d : Nat)
  | setRead (d : Nat)
  | getDrvdata (pdev : Nat)
  | listDel (pdev d : Nat)
  | deviceFree (pdev d : Nat)
deriving DecidableEq, Repr

/-! ## Requests -/

/-- Where a request is. -/
inductive PlipPc where
  /-- Before the first link of the list is followed. -/
  | start
  /-- In `ipcore_find_device`, at a device. -/
  | find (d : Nat)
  /-- Before the callback is looked at. -/
  | check (d : Nat)
  /-- Before the callback runs. -/
  | call (d : Nat)
  /-- Before `copy_to_user`. -/
  | copyBack (value : BitVec 32)
deriving DecidableEq, Repr

/-- A request in flight. -/
structure PlipCall where
  req : PlipRequest
  pc : PlipPc
deriving DecidableEq, Repr

/-- How a step of a request ends. -/
inductive PlipAfter where
  | goesOn (c : PlipCall)
  | returns (answer : PlipAnswer)
  | wild
deriving DecidableEq, Repr

/-! ## The machine -/

/-- The state of the modules. -/
structure PlipSys (cfg : PhysAddrConfig) where
  init : PlipInitPc
  /-- `plip_init` has run. -/
  headReady : Bool
  /-- The character device takes requests. -/
  chardev : Bool
  /-- The devices in memory, those that were freed, and how many there have been. -/
  dev : Nat → PlipcoreDev cfg
  freed : Nat → Bool
  next : Nat
  plipDevList : List Nat
  drvdata : Nat → Option Nat
  work : Option PlipWork
  calls : List PlipCall
  io : Io cfg

/-- The device behind another one in the list. -/
def nextEntry (d : Nat) : List Nat → Option Nat
  | [] => none
  | e :: rest => if e = d then rest.head? else nextEntry d rest

namespace PlipSys

/-- The modules before any of their code has run. -/
def loaded (io : Io cfg) : PlipSys cfg where
  init := .kzalloc
  headReady := false
  chardev := false
  dev := fun _ => ⟨0, 0, false, false⟩
  freed := fun _ => false
  next := 0
  plipDevList := []
  drvdata := fun _ => none
  work := none
  calls := []
  io := io

/-- The contents of one device change. -/
def setDev (d : Nat) (f : PlipcoreDev cfg → PlipcoreDev cfg) (s : PlipSys cfg) : PlipSys cfg :=
  { s with dev := Function.update s.dev d (f (s.dev d)) }

/-- The next step of `plipdev_init`. What `class_create` and `device_create` return is compared with
`NULL`, and what `cdev_add` returns is not looked at. -/
def initStep (env : PlipInitEnv) (s : PlipSys cfg) : Option (PlipSys cfg) :=
  match s.init with
  | .kzalloc => some { s with init := if env.kzallocOk then .allocChrdevRegion else .returned (-12) }
  | .allocChrdevRegion =>
    some { s with init :=
      if env.allocChrdevRegion < 0 then .returned env.allocChrdevRegion else .classCreate }
  | .classCreate =>
    some { s with init := if env.classCreate = .null then .returned (-1) else .deviceCreate }
  | .deviceCreate =>
    some { s with init := if env.deviceCreate = .null then .returned (-1) else .cdevAdd }
  | .cdevAdd => some { s with chardev := env.cdevAddOk, init := .plipInit }
  | .plipInit => some { s with headReady := true, plipDevList := [], init := .returned 0 }
  | .returned _ => none

/-- The next step of the probe or the remove. -/
def workStep (env : PlipProbeEnv cfg) (s : PlipSys cfg) : Option (PlipSys cfg) :=
  match s.work with
  | none => none
  | some (.matchDevice pdev) =>
    match env.ofMatch with
    | none => some { s with work := none }
    | some id => some { s with work := some (.deviceAlloc pdev id) }
  | some (.deviceAlloc pdev id) =>
    if env.kzallocOk ∧ env.privOk then
      some { s with
        dev := Function.update s.dev s.next ⟨id.toInt, 0, false, false⟩
        next := s.next + 1
        work := some (.ioremap pdev s.next) }
    else some { s with work := none }
  | some (.ioremap pdev d) =>
    some { s.setDev d (fun dev => { dev with data := env.regs }) with
      drvdata := Function.update s.drvdata pdev (some d)
      work := some (.addDevice d) }
  | some (.addDevice d) =>
    if s.headReady then
      some { s with plipDevList := s.plipDevList ++ [d], work := some (.setWrite d) }
    else none
  | some (.setWrite d) =>
    some { s.setDev d (fun dev => { dev with write := true }) with work := some (.setRead d) }
  | some (.setRead d) =>
    some { s.setDev d (fun dev => { dev with read := true }) with work := none }
  | some (.getDrvdata pdev) =>
    match s.drvdata pdev with
    | none => some { s with work := none }
    | some d => some { s with work := some (.listDel pdev d) }
  | some (.listDel pdev d) =>
    some { s with plipDevList := s.plipDevList.erase d, work := some (.deviceFree pdev d) }
  | some (.deviceFree pdev d) =>
    -- the kernel forgets the driver data of a device without a driver
    some { s with
      freed := Function.update s.freed d true
      drvdata := Function.update s.drvdata pdev none
      work := none }

end PlipSys

/-- The callback that a request needs is set. -/
def PlipRequest.callback (req : PlipRequest) (dev : PlipcoreDev cfg) : Bool :=
  if req.cmd = rruIocRegRead then dev.read else dev.write

/-- The next step of a request. -/
def PlipCall.run (s : PlipSys cfg) (c : PlipCall) : Io cfg × PlipAfter :=
  match c.pc with
  | .start =>
    if c.req.cmd = rruIocRegRead ∨ c.req.cmd = rruIocRegWrite then
      if !s.headReady then (s.io, .wild)
      else
        match s.plipDevList.head? with
        | none => (s.io, .returns (-1, c.req.iocReg))
        | some d => (s.io, .goesOn { c with pc := .find d })
    else (s.io, .returns (0, c.req.iocReg))
  | .find d =>
    if s.freed d then (s.io, .wild)
    else if (s.dev d).id = c.req.id then (s.io, .goesOn { c with pc := .check d })
    else if d ∈ s.plipDevList then
      match nextEntry d s.plipDevList with
      | none => (s.io, .returns (-1, c.req.iocReg))
      | some e => (s.io, .goesOn { c with pc := .find e })
    else (s.io, .wild)
  | .check d =>
    if s.freed d then (s.io, .wild)
    else if c.req.callback (s.dev d) then (s.io, .goesOn { c with pc := .call d })
    else (s.io, .returns (-1, c.req.iocReg))
  | .call d =>
    if s.freed d ∨ isErr (s.dev d).data then (s.io, .wild)
    else if c.req.cmd = rruIocRegRead then
      let (value, io) := ipCoreRead (s.dev d) c.req.iocReg.addr s.io
      (io, .goesOn { c with pc := .copyBack value })
    else
      let (ret, io) := ipCoreWrite (s.dev d) c.req.iocReg.addr c.req.iocReg.value s.io
      (io, .returns (ret, c.req.iocReg))
  | .copyBack value =>
    if c.req.copyToUserOk then
      (s.io, .returns (value.toInt, { c.req.iocReg with value := value }))
    else (s.io, .returns (-efault, c.req.iocReg))

/-- A step of `plipdev_init`, of the kernel with a platform device, of a request, or of the
hardware, which changes its registers. -/
inductive PlipAct (cfg : PhysAddrConfig) where
  | init (env : PlipInitEnv)
  | probe (pdev : Nat)
  | remove (pdev : Nat)
  | work (env : PlipProbeEnv cfg)
  | ioctl (req : PlipRequest)
  | request (i : Nat)
  | hardware (mem : ByteMem cfg.width)

namespace PlipSys

/-- The request that was taken out of `calls` has made a step. -/
def leave (s : PlipSys cfg) : PlipAfter → Option (PlipSys cfg)
  | .goesOn c => some { s with calls := c :: s.calls }
  | .returns _ => some s
  | .wild => none

/-- One action. -/
def plipStep (s : PlipSys cfg) : PlipAct cfg → Option (PlipSys cfg)
  | .init env => s.initStep env
  | .probe pdev =>
    if s.work = none ∧ s.drvdata pdev = none then
      some { s with work := some (.matchDevice pdev) }
    else none
  | .remove pdev =>
    if s.work = none then some { s with work := some (.getDrvdata pdev) } else none
  | .work env => s.workStep env
  | .ioctl req =>
    if s.chardev then some { s with calls := ⟨req, .start⟩ :: s.calls } else none
  | .request i =>
    match s.calls[i]? with
    | none => none
    | some c =>
      let r := c.run s
      leave { s with calls := s.calls.eraseIdx i, io := r.1 } r.2
  | .hardware mem => some { s with io := { s.io with mem := mem } }

end PlipSys

end PetalinuxDriver
