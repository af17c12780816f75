import PetalinuxDriver.Model.VxdmaCalls

/-!
# A call of tx_status between the others

`xilinx_dma_tx_status` looks at the cookies and at the end of `active_list` before it takes the
lock, adds up the residue under the lock, and stores it after the unlock. `statusStep` is the
machine of sections with one such call in flight: between any two of its four parts every other
call, the engine and the cleanup can do anything.

What it took from `active_list` is a pointer. `list_last_entry` of an empty list points in front
of the list head, where there is no descriptor, and a descriptor that was freed in the meantime is
none either: `wild` is what the loop reads there.
-/

set_option autoImplicit false

namespace PetalinuxDriver

variable {cfg : PhysAddrConfig}

/-- What the locked loop read: the hardware words of these segments, with the residue it added up,
or whatever lies where there is no descriptor. -/
inductive StatusRead where
  | segments (read : List SegPtr) (residue : BitVec 32)
  | wild
deriving DecidableEq, Repr

/-- A call of `xilinx_dma_tx_status`, at the boundary that it has reached. -/
inductive StatusCall (cfg : PhysAddrConfig) where
  /-- At its entry; `txstate` says that the caller passed one. -/
  | check (cookie : Int) (txstate : Bool)
  /-- Before it looks at `active_list`. -/
  | pick (cookie : Int)
  /-- Before its locked section; without a descriptor when the list was empty. -/
  | lock (cookie : Int) (desc : Option (XilinxDmaTxDescriptor cfg))
  /-- Before it stores the residue. -/
  | store (cookie : Int) (read : StatusRead)
deriving DecidableEq

namespace VxdmaSys

/-- The submitted descriptors that were not freed: those on a list, and the one that the cleanup
holds. -/
def liveDescs (s : VxdmaSys cfg) : List (XilinxDmaTxDescriptor cfg) :=
  s.chan.pendingList ++ s.chan.activeList ++ s.chan.doneList ++ s.held

/-- The locked section of `xilinx_dma_tx_status`. The segments of a descriptor stay the same until
it is freed. -/
def txStatusLocked (s : VxdmaSys cfg) (desc : Option (XilinxDmaTxDescriptor cfg)) : StatusRead :=
  if !s.chan.hasSg then .segments [] 0
  else
    match desc with
    | none => .wild
    | some desc =>
      if desc.id ∈ s.liveDescs.map XilinxDmaTxDescriptor.id then
        .segments desc.segments (residueOf s.chan desc)
      else .wild

end VxdmaSys

/-- The driver with at most one call of `xilinx_dma_tx_status`. -/
structure StatusSys (cfg : PhysAddrConfig) where
  sys : VxdmaSys cfg
  call : Option (StatusCall cfg)

/-- An action: any of the other calls, a call of `xilinx_dma_tx_status`, or its next part. -/
inductive StatusAct (cfg : PhysAddrConfig) where
  | other (a : VxdmaSys.Act cfg)
  | txStatus (cookie : Int) (txstate : Bool)
  | status

namespace StatusSys

/-- The next part of a call of `xilinx_dma_tx_status`: what is left of the call, and the residue
that it has stored in the channel. -/
def runStatus (s : VxdmaSys cfg) : StatusCall cfg → Option (Option (StatusCall cfg) × BitVec 32)
  | .check cookie txstate =>
    let ret := dmaCookieStatus s.chan.common cookie
    if ret = .complete || !txstate then some (none, s.chan.residue)
    else some (some (.pick cookie), s.chan.residue)
  | .pick cookie => some (some (.lock cookie s.chan.activeList.getLast?), s.chan.residue)
  | .lock cookie desc => some (some (.store cookie (s.txStatusLocked desc)), s.chan.residue)
  | .store _ (.segments _ residue) => some (none, residue)
  | .store _ .wild => none

/-- One action. -/
def statusStep (s : StatusSys cfg) : StatusAct cfg → Option (StatusSys cfg)
  | .other a => (s.sys.sectionStep a).map fun sys => { s with sys := sys }
  | .txStatus cookie txstate =>
    match s.call with
    | none => some { s with call := some (.check cookie txstate) }
    | some _ => none
  | .status =>
    if s.sys.chan.bug then none
    else
      (s.call.bind (runStatus s.sys)).map fun r =>
        { sys := { s.sys with chan := { s.sys.chan with residue := r.2 } }, call := r.1 }

/-- A probed channel that nobody uses. -/
def probed (hasSg : Bool) (ctrlOffset : Nat) (dmacr : BitVec 32) : StatusSys cfg where
  sys := VxdmaSys.probed hasSg ctrlOffset dmacr
  call := none

end StatusSys

end PetalinuxDriver
