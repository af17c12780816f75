import Mathlib.Data.Fintype.Basic
import PetalinuxDriver.Model.DmaClients

/-!
# The channels that the modules share

`vxaxidma_test` of `vxdma_dev.c`, `axidma_init` of `axidma.c`, `xhls_test` of `vxhls_dev.c` and
`dma_proxy_init` with `dma_proxy_exit` of `dma_proxy.c`, as far as they request and release DMA
channels, all at the same time. Each requests one channel to transmit and one to receive; the DMA
engine gives out a channel that nobody has. The four keep their pointers in statics, so each of
them runs once at a time.

The steps of a call are its calls into the DMA engine and what comes between them. A pointer is
`NULL` or not: the channel that it points to is one of its side. Nobody sets a pointer back, so that
one that is not `NULL` does not mean that there is a channel to release. The model keeps the two
apart: `ptr` is what the code looks at, and `has` is what the DMA engine has given and not got back.
A `dma_release_channel` makes one more channel free, whether the caller had it or not.
-/

set_option autoImplicit false

namespace PetalinuxDriver

open Library

/-- Who requests channels. -/
inductive ChannelClient where
  | vxaxidmaTest
  | axidmaInit
  | xhlsTest
  | dmaProxy
deriving DecidableEq, Repr

namespace ChannelClient

/-- The clients. -/
def all : List ChannelClient := [.vxaxidmaTest, .axidmaInit, .xhlsTest, .dmaProxy]

/-- `all` leaves none of them out. -/
theorem mem_all (k : ChannelClient) : k ∈ all := by cases k <;> decide

instance instFintype : Fintype ChannelClient := ⟨⟨all, by decide⟩, mem_all⟩

/-- The call is that of a module that is being loaded, whose statics are zero. -/
def loads : ChannelClient → Bool
  | .axidmaInit | .dmaProxy => true
  | .vxaxidmaTest | .xhlsTest => false

/-- Behind its check the client calls `dma_release_channel`, with a pointer that is not `NULL` or is:
two of them do so in any case, and two look at the pointer first. -/
def callsRelease (k : ChannelClient) (ptr : Bool) : Bool :=
  match k with
  | .vxaxidmaTest | .axidmaInit => true
  | .xhlsTest | .dmaProxy => ptr

/-- The client reads a buffer without a look at whether it got one. -/
def mayOops : ChannelClient → Bool
  | .xhlsTest => true
  | .vxaxidmaTest | .axidmaInit | .dmaProxy => false

end ChannelClient

/-- Where a call is. -/
inductive ChannelPc where
  /-- Before `dma_request_channel`. -/
  | request (side : DmaSide)
  /-- In `create_channel`, behind the request. -/
  | create (side : DmaSide)
  /-- Before the check that both channels are there. -/
  | check
  /-- The channels are used; the proxy is loaded. -/
  | use
  /-- Before `dma_release_channel`, or the check that there is something to release. -/
  | release (side : DmaSide)
deriving DecidableEq, Repr

/-- A call, its pointers that are not `NULL`, and the channels that it was given and has not
released. -/
structure ChannelCall where
  pc : ChannelPc
  ptr : DmaSide → Bool
  has : DmaSide → Bool

/-- What a step of a call leads to. -/
structure ChannelTurn where
  free : DmaSide → Nat
  call : ChannelCall
  goesOn : Bool

namespace ChannelCall

/-- A call as it begins, with what is in the pointers. -/
def start (ptr : DmaSide → Bool) : ChannelCall := ⟨.request .tx, ptr, fun _ => false⟩

/-- `dma_request_channel`, and where the client goes on. The proxy looks at the result at once. -/
def request (k : ChannelClient) (side : DmaSide) (ok : Bool) (free : DmaSide → Nat)
    (c : ChannelCall) : ChannelTurn :=
  let got := ok && decide (0 < free side)
  let free := if got then Function.update free side (free side - 1) else free
  let ptr := Function.update c.ptr side got
  let has := Function.update c.has side got
  match k, side with
  | .dmaProxy, side => ⟨free, ⟨.create side, ptr, has⟩, got⟩
  | _, .tx => ⟨free, ⟨.request .rx, ptr, has⟩, true⟩
  | _, .rx => ⟨free, ⟨.check, ptr, has⟩, true⟩

/-- `dma_release_channel`, where it is called. -/
def release (k : ChannelClient) (side : DmaSide) (free : DmaSide → Nat) (c : ChannelCall) :
    ChannelTurn :=
  let called := k.callsRelease (c.ptr side)
  let free := if called then Function.update free side (free side + 1) else free
  let has := if called then Function.update c.has side false else c.has
  match side with
  | .tx => ⟨free, ⟨.release .rx, c.ptr, has⟩, true⟩
  | .rx => ⟨free, ⟨.release .rx, c.ptr, has⟩, false⟩

/-- The next step of a call. The kernel answers `ok` when a request finds a free channel and can set
it up, when the rest of a `create_channel` succeeds, and when `xhls_test` has a buffer for its
output: without one it ends in an oops, with its channels. -/
def run (k : ChannelClient) (ok : Bool) (free : DmaSide → Nat) (c : ChannelCall) : ChannelTurn :=
  match c.pc with
  | .request side => c.request k side ok free
  | .create .tx => ⟨free, { c with pc := .request .rx }, ok⟩
  | .create .rx => ⟨free, { c with pc := .use }, ok⟩
  | .check =>
    if c.ptr .rx && c.ptr .tx then ⟨free, { c with pc := .use }, true⟩
    else
      match k with
      | .xhlsTest => ⟨free, { c with pc := .release .tx }, true⟩
      | _ => ⟨free, c, false⟩
  | .use =>
    if k.mayOops && !ok then ⟨free, c, false⟩ else ⟨free, { c with pc := .release .tx }, true⟩
  | .release side => c.release k side free

end ChannelCall

/-- The channels that nobody has, the pointers of the clients without a call, and the calls. -/
structure ChannelSys where
  free : DmaSide → Nat
  statics : ChannelClient → DmaSide → Bool
  calls : ChannelClient → Option ChannelCall

/-- A client starts a call, or makes the next step of its call. -/
inductive ChannelAct where
  | start (k : ChannelClient)
  | step (k : ChannelClient) (ok : Bool)
deriving DecidableEq, Repr

namespace ChannelSys

/-- So many channels, and no call yet. -/
def idle (n : DmaSide → Nat) : ChannelSys := ⟨n, fun _ _ => false, fun _ => none⟩

/-- The pointers that a call finds: those of the one before, unless its module is being loaded. -/
def pointers (s : ChannelSys) (k : ChannelClient) : DmaSide → Bool :=
  if k.loads then fun _ => false else s.statics k

/-- One action. -/
def channelStep (s : ChannelSys) : ChannelAct → Option ChannelSys
  | .start k =>
    match s.calls k with
    | some _ => none
    | none => some { s with calls := Function.update s.calls k (some (.start (s.pointers k))) }
  | .step k ok =>
    match s.calls k with
    | none => none
    | some c =>
      let t := c.run k ok s.free
      some ⟨t.free, if t.goesOn then s.statics else Function.update s.statics k t.call.ptr,
        Function.update s.calls k (if t.goesOn then some t.call else none)⟩

end ChannelSys

end PetalinuxDriver
