import UvMbt.ThreadAffinity
import UvMbt.FsAgreement
import UvMbt.Readdir
import UvMbt.AllocReturn
import UvMbt.LoopReference
import UvMbt.UdpReceive
import UvMbt.RequestLifecycle
import UvMbt.CalleeSaved
import UvMbt.ReadView
import UvMbt.SenderAddress
import UvMbt.SignalDelivery
import UvMbt.SignalBalance
import UvMbt.ProcessReuse
import UvMbt.StdioContainers
import UvMbt.SharedBlock
import UvMbt.ScatterGather
import UvMbt.Marshalling
import UvMbt.StringCodec
import UvMbt.Constructors
import UvMbt.FailedSpawn
import UvMbt.Finalizers
import UvMbt.FsCleanup
import UvMbt.Descriptors
import UvMbt.CpuSetMembers
import UvMbt.AddressText
import UvMbt.UserIds
import UvMbt.Getters
import UvMbt.Ports
import UvMbt.Args
import UvMbt.WhileLoop
import UvMbt.ProcessTitle
import UvMbt.ThreadKey
import UvMbt.IncludeScan
import UvMbt.Outcome
import UvMbt.Prepare
import UvMbt.PrepareNames
import UvMbt.PrepareCopy
import UvMbt.PrepareClosure
import UvMbt.PrepareConfigure
import UvMbt.PrepareTarget
import UvMbt.PrepareRuns
import UvMbt.ForeignBlocks
import UvMbt.Snapshots
import UvMbt.SnapshotRuns
import UvMbt.OrderedMap
import UvMbt.ErrnoTable
import UvMbt.RandomViews
import UvMbt.Launch
import UvMbt.LaunchOptions
import UvMbt.LaunchRuns
import UvMbt.LaunchShutdown
import UvMbt.BitFields
import UvMbt.FlagWords
import UvMbt.HexText
import UvMbt.Interfaces
