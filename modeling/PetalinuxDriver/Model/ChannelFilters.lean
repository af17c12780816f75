import PetalinuxDriver.Model.VxdmaProbe

/-!
# How the clients look for a channel

A client passes a filter and a pointer to a match word to `dma_request_channel`, which gives out a
channel for which the filter answers true. The filters of `vxdma/vxdma_dev.c`,
`vdmaproxy/dma_proxy.c` and `vxhls/vxhls_dev.c` have the same body: they compare the match word with
what the `private` of the channel points to.
-/

set_option autoImplicit false

namespace PetalinuxDriver

variable {cfg : PhysAddrConfig}

/-- `struct dma_chan` as a filter sees it. -/
structure DmaChan where
  /-- What `private` points to. -/
  tag : Option (BitVec 32)
deriving DecidableEq, Repr

/-- `chan->common`, with the `common.private` that a probe sets which succeeds. -/
def ProbedChannel.common (c : ProbedChannel cfg) : DmaChan := ⟨some c.tag⟩

/-! ## The filters -/

/-- The body of the filters; the words are compared as `int`. -/
def filterByTag (chan : Option DmaChan) (param : Option (BitVec 32)) : Bool :=
  match chan.bind DmaChan.tag with
  | none => false
  | some tag =>
    match param with
    | none => true
    | some param => tag.toInt = param.toInt

/-- `xdma_filter`. -/
def xdmaFilter (chan : Option DmaChan) (param : Option (BitVec 32)) : Bool :=
  filterByTag chan param

/-- `xdma_filter_1`. -/
def xdmaFilter1 (chan : Option DmaChan) (param : Option (BitVec 32)) : Bool :=
  filterByTag chan param

/-- `xdma_filter_2`. -/
def xdmaFilter2 (chan : Option DmaChan) (param : Option (BitVec 32)) : Bool :=
  filterByTag chan param

/-! ## The match words -/

/-- `XILINX_DMA_IP_DMA` of `vdmaproxy/dma_proxy.c`. -/
def proxyXilinxDmaIpDma : BitVec 32 := 0x00100000

/-- `match`, from a direction. -/
def matchWord (ipDma direction : BitVec 32) : BitVec 32 := (direction &&& 0xFF) ||| ipDma

/-- A call of `dma_request_channel`. -/
structure ChannelRequest where
  filter : Option DmaChan → Option (BitVec 32) → Bool
  param : BitVec 32

/-- The answer of the filter for a channel. -/
def ChannelRequest.accepts (request : ChannelRequest) (chan : DmaChan) : Bool :=
  request.filter (some chan) (some request.param)

/-- The requests of `vxaxidma_test`. -/
def vxaxidmaTestRequest (direction : DmaTransferDirection) : ChannelRequest :=
  ⟨xdmaFilter, matchWord xilinxDmaIpDma direction.word⟩

/-- The request of `create_channel`. -/
def createChannelRequest (direction : BitVec 32) : ChannelRequest :=
  ⟨xdmaFilter1, matchWord proxyXilinxDmaIpDma direction⟩

/-- The requests of `xhls_setup_dma`. -/
def xhlsSetupDmaRequest (direction : DmaTransferDirection) : ChannelRequest :=
  ⟨xdmaFilter2, matchWord xilinxDmaIpDma direction.word⟩

/-- What the clients request for a direction. -/
def clientRequests (direction : DmaTransferDirection) : List ChannelRequest :=
  [vxaxidmaTestRequest direction, createChannelRequest direction.word,
    xhlsSetupDmaRequest direction]

end PetalinuxDriver
