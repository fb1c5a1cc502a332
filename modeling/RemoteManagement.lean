import RemoteManagement.Library.SqlLiteral
import RemoteManagement.Library.DecimalText
import RemoteManagement.Library.QueryProgram
import RemoteManagement.Library.GuardedRun
import RemoteManagement.Library.RowTable
import RemoteManagement.Library.KeyedList
import RemoteManagement.Library.PeriodicTrigger
import RemoteManagement.ThriftTypes
import RemoteManagement.SqlStatements
import RemoteManagement.ExecuteQuery
import RemoteManagement.InsertIdRace
import RemoteManagement.Database
import RemoteManagement.Computer
import RemoteManagement.Handshake
import RemoteManagement.DirtyFlags
import RemoteManagement.Usage
import RemoteManagement.Ingestor
import RemoteManagement.Server
import RemoteManagement.ReporterThreads
import RemoteManagement.ReporterShutdown
import RemoteManagement.Library.Headcount
import RemoteManagement.Library.AtLeastOnce
import RemoteManagement.RmsConfig
import RemoteManagement.RequestClient
import RemoteManagement.RequestPermits
import RemoteManagement.RequestDelivery
import RemoteManagement.RequestFailures
import RemoteManagement.ReporterExecutors
import RemoteManagement.ExecutorTable
import RemoteManagement.Responses
import RemoteManagement.QuotelessStatements
import RemoteManagement.Identity
import RemoteManagement.ReporterCommands
import RemoteManagement.CommandResults
import RemoteManagement.DatabaseCalls
import RemoteManagement.StorageLinks
import RemoteManagement.SetSysInfo
import RemoteManagement.LiveView
import RemoteManagement.ComputerColumns
import RemoteManagement.StorageColumns
import RemoteManagement.WideIds
import RemoteManagement.TerminalHandles
import RemoteManagement.DatabaseStart
import RemoteManagement.CommandLoss
import RemoteManagement.Library.SlidingWindow
import RemoteManagement.Library.CString
import RemoteManagement.Library.BoundedPipe
import RemoteManagement.UpdateResult
import RemoteManagement.UsageContainers
import RemoteManagement.UsageTable
import RemoteManagement.PushSlots
import RemoteManagement.RamUsage
import RemoteManagement.ExecutorOutput
import RemoteManagement.ExecutorLoop
import RemoteManagement.Library.Stdio
import RemoteManagement.Library.LongArithmetic
import RemoteManagement.Library.StringStream
import RemoteManagement.Library.DoublePrecision
import RemoteManagement.SysReporter
import RemoteManagement.ReportedNetwork
import RemoteManagement.ReportedStorage
import RemoteManagement.ReportedCpu
import RemoteManagement.RamReporter
import RemoteManagement.CpuReporter
import RemoteManagement.ConfigFile
import RemoteManagement.TerminalLines
import RemoteManagement.PushTicks
import RemoteManagement.Library.LineInput
import RemoteManagement.TerminalSession
import RemoteManagement.Library.Mailbox
import RemoteManagement.Library.RunTrace
import RemoteManagement.ServerReplies
import RemoteManagement.SysInfoLines
import RemoteManagement.Registry
import RemoteManagement.Library.GrowingList
import RemoteManagement.RowHistory
import RemoteManagement.Library.Spacing
import RemoteManagement.Consumers
import RemoteManagement.Library.ForwardSimulation
import RemoteManagement.ReporterRefinement
import RemoteManagement.RequestProtocols
import RemoteManagement.Library.Potential
import RemoteManagement.RequestProgress
import RemoteManagement.ReporterRestarts
import RemoteManagement.ResultCodes
import RemoteManagement.StatementTables
import RemoteManagement.UsageHistory
import RemoteManagement.ComputerHistory
import RemoteManagement.ExecutorPipes
