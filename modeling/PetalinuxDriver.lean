import PetalinuxDriver.Library.Transition
import PetalinuxDriver.Library.Pipeline
import PetalinuxDriver.Library.Walk
import PetalinuxDriver.Model.Kernel
import PetalinuxDriver.Model.VxdmaTypes
import PetalinuxDriver.Model.VxdmaProgram
import PetalinuxDriver.Model.VxdmaCalls
import PetalinuxDriver.Analysis.ChannelEffects
import PetalinuxDriver.Analysis.BuilderEffects
import PetalinuxDriver.Analysis.Steps
import PetalinuxDriver.Analysis.Ownership
import PetalinuxDriver.Analysis.SegmentConservation
import PetalinuxDriver.Analysis.Queues
import PetalinuxDriver.Analysis.PendingCounter
import PetalinuxDriver.Analysis.IdleFlag
import PetalinuxDriver.Analysis.ErrorRecovery
import PetalinuxDriver.Analysis.Reacquire
import PetalinuxDriver.Analysis.OutstandingBatch
import PetalinuxDriver.Analysis.History
import PetalinuxDriver.Analysis.SimpleMode
import PetalinuxDriver.Analysis.CompletionOrder
import PetalinuxDriver.Analysis.FifoCompletion
import PetalinuxDriver.Analysis.WholeCalls
import PetalinuxDriver.Analysis.Links
import PetalinuxDriver.Analysis.RingRotation
import PetalinuxDriver.Analysis.HardwareChain
import PetalinuxDriver.Analysis.CyclicPlacement
import PetalinuxDriver.Analysis.ControlRegister
import PetalinuxDriver.Analysis.ControlSanity
import PetalinuxDriver.Analysis.CyclicMode
import PetalinuxDriver.Analysis.ErrorReports
import PetalinuxDriver.Analysis.ReleaseRace
import PetalinuxDriver.Library.Ledger
import PetalinuxDriver.Model.VxdmaProbe
import PetalinuxDriver.Analysis.ChannelTable
import PetalinuxDriver.Analysis.ProbeUnwinding
import PetalinuxDriver.Model.DmaProxy
import PetalinuxDriver.Analysis.SegmentContents
import PetalinuxDriver.Analysis.SgTiling
import PetalinuxDriver.Analysis.BuilderSafety
import PetalinuxDriver.Analysis.CyclicRing
import PetalinuxDriver.Analysis.FailedPrep
import PetalinuxDriver.Analysis.ProxySteps
import PetalinuxDriver.Analysis.ProxyConfinement
import PetalinuxDriver.Analysis.ProxyMappings
import PetalinuxDriver.Analysis.ProxyStatus
import PetalinuxDriver.Model.ProxyInit
import PetalinuxDriver.Analysis.ProxyBalance
import PetalinuxDriver.Library.WordMemory
import PetalinuxDriver.Library.WordFields
import PetalinuxDriver.Model.PlIpcore
import PetalinuxDriver.Model.PlipSystem
import PetalinuxDriver.Analysis.PlipRegisters
import PetalinuxDriver.Analysis.PlipDispatch
import PetalinuxDriver.Model.IntrDemo
import PetalinuxDriver.Analysis.IntrSignals
import PetalinuxDriver.Model.DmaClients
import PetalinuxDriver.Analysis.ClientSteps
import PetalinuxDriver.Analysis.ClientWakeups
import PetalinuxDriver.Analysis.ClientBuffers
import PetalinuxDriver.Analysis.BuiltWords
import PetalinuxDriver.Analysis.BuilderAgreement
import PetalinuxDriver.Analysis.ChunkAlignment
import PetalinuxDriver.Analysis.SegmentWrites
import PetalinuxDriver.Analysis.RecycledSegments
import PetalinuxDriver.Analysis.StartOutcome
import PetalinuxDriver.Analysis.WholeAddresses
import PetalinuxDriver.Model.VxdmaStatus
import PetalinuxDriver.Analysis.StatusResidue
import PetalinuxDriver.Analysis.PlipOutcome
import PetalinuxDriver.Model.Vxhls
import PetalinuxDriver.Analysis.HlsRegisters
import PetalinuxDriver.Model.ClientResources
import PetalinuxDriver.Analysis.ClientBalance
import PetalinuxDriver.Model.IntrProbe
import PetalinuxDriver.Analysis.IntrBalance
import PetalinuxDriver.Model.ChannelFilters
import PetalinuxDriver.Analysis.ChannelTags
import PetalinuxDriver.Analysis.ResidueArithmetic
import PetalinuxDriver.Library.Packets
import PetalinuxDriver.Library.AddressStream
import PetalinuxDriver.Library.CommitPoints
import PetalinuxDriver.Analysis.CarriedWords
import PetalinuxDriver.Analysis.EngineChain
import PetalinuxDriver.Analysis.RequestedBytes
import PetalinuxDriver.Analysis.EngineStream
import PetalinuxDriver.Analysis.RegisterWindows
import PetalinuxDriver.Analysis.BoundedWork
import PetalinuxDriver.Analysis.CompletionLatency
import PetalinuxDriver.Analysis.DeviceRemoval
import PetalinuxDriver.Model.CharModules
import PetalinuxDriver.Analysis.ModuleSessions
import PetalinuxDriver.Model.SharedChannels
import PetalinuxDriver.Analysis.ChannelConservation
import PetalinuxDriver.Analysis.PlipRegistry
import PetalinuxDriver.Analysis.PlipAtomic
import PetalinuxDriver.Analysis.DescriptorMemory
import PetalinuxDriver.Analysis.CookieStatus
import PetalinuxDriver.Analysis.ClientStreams
import PetalinuxDriver.Analysis.LoopbackTest
import PetalinuxDriver.Analysis.CyclicCallbacks
