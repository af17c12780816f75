import Mathlib.Data.Fin.VecNotation
import Mathlib.Logic.Function.Basic
import PetalinuxDriver.Library.Ledger
import PetalinuxDriver.Model.Kernel

/-!
# Initialisation and exit of the DMA proxy

`cdevice_init` to `dma_proxy_exit` of `vdmaproxy/dma_proxy.c`. What the kernel answers to each call
is an argument. The ledger has what the module acquires and gives back, in the order of the calls.

An error pointer is not `NULL`, and the code tells the two apart in some places only. Where it hands
an error pointer, or the class after its destruction, to a function that follows it, there is no
result: `none`.
-/

set_option autoImplicit false

namespace PetalinuxDriver

open Library

/-- `CHANNEL_COUNT`. -/
abbrev channelCount : Nat := 2

/-- `ERROR`. -/
def proxyError : Int := -1

/-- What the module acquires. Memory from `dmam_alloc_coherent` is given back by the kernel when the
device it was allocated for is destroyed. -/
inductive ProxyResource where
  | dmaChannel (i : Fin channelCount)
  | chrdevRegion (i : Fin channelCount)
  | cdev (i : Fin channelCount)
  | cdevClass
  | deviceNode (i : Fin channelCount)
  | interface (i : Fin channelCount)
deriving DecidableEq, Repr

/-- What `dma_proxy_exit` looks at in a `struct dma_proxy_channel`, and its direction. Pointers that
are never error pointers are there or not. -/
structure ProxyChannelSetup where
  channelP : Bool
  proxyDeviceP : KernelPtr
  classP : KernelPtr
  interfaceP : Bool
  direction : Option DmaTransferDirection
deriving DecidableEq, Repr

/-- The statics of the module, whether the class still exists, and the ledger. -/
structure ProxyModule where
  cachedBuffers : Bool
  channels : Fin channelCount → ProxyChannelSetup
  /-- `local_class_p`. -/
  localClassP : KernelPtr
  classLive : Bool
  ledger : List (LedgerEntry ProxyResource)

namespace ProxyModule

/-- The module as it is loaded. -/
def loaded (cachedBuffers : Bool) : ProxyModule where
  cachedBuffers := cachedBuffers
  channels := fun _ => ⟨false, .null, .null, false, none⟩
  localClassP := .null
  classLive := false
  ledger := []

/-- An entry of the ledger. -/
def enter (e : LedgerEntry ProxyResource) (m : ProxyModule) : ProxyModule :=
  { m with ledger := m.ledger ++ [e] }

/-- The contents of one channel change. -/
def setChannel (i : Fin channelCount) (f : ProxyChannelSetup → ProxyChannelSetup)
    (m : ProxyModule) : ProxyModule :=
  { m with channels := Function.update m.channels i (f (m.channels i)) }

/-- `class_destroy`, which does nothing with an error pointer. -/
def classDestroy (classP : KernelPtr) (m : ProxyModule) : ProxyModule :=
  match classP with
  | .object => { m.enter (.release .cdevClass) with classLive := false }
  | _ => m

end ProxyModule

open ProxyModule

/-- What the kernel answers during a `create_channel`. The numbers are return codes. -/
structure CreateEnv where
  /-- `dma_request_channel` finds a channel. -/
  requestOk : Bool
  allocChrdevRegion : Int
  cdevAdd : Int
  classCreateOk : Bool
  /-- The class of the DMA engine's own device is an error pointer. -/
  dmaClassErr : Bool
  deviceCreateOk : Bool
  /-- `kzalloc` or `dmam_alloc_coherent` returns memory. -/
  interfaceOk : Bool
deriving DecidableEq, Repr

/-! ## The character device -/

/-- `init_error2` and `init_error1`. -/
def initError2 (i : Fin channelCount) (m : ProxyModule) : ProxyModule :=
  (m.enter (.release (.cdev i))).enter (.release (.chrdevRegion i))

/-- The creation of the class, for the first channel that gets there. The check behind it looks at
another class. The boolean says that it was passed. -/
def createClass (env : CreateEnv) (m : ProxyModule) : ProxyModule × Bool :=
  match m.localClassP with
  | .null =>
    let m := if env.classCreateOk then
      { m.enter (.acquire .cdevClass) with localClassP := .object, classLive := true }
      else { m with localClassP := .err }
    (m, !env.dmaClassErr)
  | _ => (m, true)

/-- `device_create`, which returns an error pointer when it is given one. -/
def deviceCreate (env : CreateEnv) (i : Fin channelCount) (m : ProxyModule) :
    Option (ProxyModule × KernelPtr) :=
  match (m.channels i).classP with
  | .object =>
    if !m.classLive then none
    else if env.deviceCreateOk then some (m.enter (.acquire (.deviceNode i)), .object)
    else some (m, .err)
  | _ => some (m, .err)

/-- `cdevice_init` from `device_create` on. Behind `init_error3`, `rc` is still that of
`cdev_add`. -/
def createDevice (env : CreateEnv) (i : Fin channelCount) (m : ProxyModule) :
    Option (ProxyModule × Int) :=
  match deviceCreate env i (m.setChannel i fun c => { c with classP := m.localClassP }) with
  | none => none
  | some (m, device) =>
    let m := m.setChannel i fun c => { c with proxyDeviceP := device }
    if device = .err then some (initError2 i (m.classDestroy (m.channels i).classP), env.cdevAdd)
    else some (m, 0)

/-- `cdevice_init`. -/
def cdeviceInit (env : CreateEnv) (i : Fin channelCount) (m : ProxyModule) :
    Option (ProxyModule × Int) :=
  let rc := env.allocChrdevRegion
  if rc ≠ 0 then some (m, rc)
  else
    let m := m.enter (.acquire (.chrdevRegion i))
    let rc := env.cdevAdd
    if rc ≠ 0 then some (m.enter (.release (.chrdevRegion i)), rc)
    else
      match createClass env (m.enter (.acquire (.cdev i))) with
      | (m, false) => some (initError2 i m, proxyError)
      | (m, true) => createDevice env i m

/-- `device_destroy`, for a channel with a device: with it goes memory allocated for it. -/
def deviceDestroy (i : Fin channelCount) (m : ProxyModule) : Option ProxyModule :=
  if (m.channels i).classP = .object ∧ m.classLive then
    let m := m.enter (.release (.deviceNode i))
    if (m.channels i).interfaceP ∧ !m.cachedBuffers then
      some (m.enter (.release (.interface i)))
    else some m
  else none

/-- `cdevice_exit`. -/
def cdeviceExit (i : Fin channelCount) (lastChannel : Bool) (m : ProxyModule) :
    Option ProxyModule :=
  if (m.channels i).proxyDeviceP ≠ .null then
    match deviceDestroy i m with
    | none => none
    | some m =>
      let m := if lastChannel then m.classDestroy (m.channels i).classP else m
      some ((m.enter (.release (.cdev i))).enter (.release (.chrdevRegion i)))
  else some m

/-! ## The channels and the module -/

/-- `dma_set_coherent_mask` and `dmam_alloc_coherent` follow the pointer to the device. -/
def allocInterface (env : CreateEnv) (i : Fin channelCount) (m : ProxyModule) :
    Option (ProxyModule × Int) :=
  if !m.cachedBuffers ∧ (m.channels i).proxyDeviceP ≠ .object then none
  else if env.interfaceOk then
    some ((m.setChannel i fun c => { c with interfaceP := true }).enter
      (.acquire (.interface i)), 0)
  else some (m, proxyError)

/-- `create_channel`. -/
def createChannel (env : CreateEnv) (i : Fin channelCount) (direction : DmaTransferDirection)
    (m : ProxyModule) : Option (ProxyModule × Int) :=
  if !env.requestOk then some (m, proxyError)
  else
    let m := (m.setChannel i fun c => { c with channelP := true }).enter (.acquire (.dmaChannel i))
    match cdeviceInit env i m with
    | none => none
    | some (m, rc) =>
      if rc ≠ 0 then some (m, rc)
      else allocInterface env i (m.setChannel i fun c => { c with direction := some direction })

/-- `dma_proxy_init`. -/
def dmaProxyInit (cachedBuffers : Bool) (tx rx : CreateEnv) : Option (ProxyModule × Int) :=
  match createChannel tx 0 .memToDev (.loaded cachedBuffers) with
  | none => none
  | some (m, rc) => if rc ≠ 0 then some (m, rc) else createChannel rx 1 .devToMem m

/-- The end of `dma_proxy_exit`, for one channel. -/
def releaseChannel (i : Fin channelCount) (m : ProxyModule) : ProxyModule :=
  let m := if (m.channels i).channelP then m.enter (.release (.dmaChannel i)) else m
  if (m.channels i).interfaceP ∧ m.cachedBuffers then m.enter (.release (.interface i)) else m

/-- `dma_proxy_exit`. -/
def dmaProxyExit (m : ProxyModule) : Option ProxyModule :=
  match cdeviceExit 0 false m with
  | none => none
  | some m =>
    match cdeviceExit 1 true m with
    | none => none
    | some m => some (releaseChannel 1 (releaseChannel 0 m))

end PetalinuxDriver
