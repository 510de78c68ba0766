import PerfMonitor.Foundation.Run
import PerfMonitor.Foundation.Interleaving
import PerfMonitor.Foundation.Containers
import PerfMonitor.Foundation.Counters
import PerfMonitor.Foundation.InputStream
import PerfMonitor.Foundation.StreamFields
import PerfMonitor.Foundation.StreamState
import PerfMonitor.Foundation.Text
import PerfMonitor.Foundation.QuotedText
import PerfMonitor.Foundation.Separated
import PerfMonitor.Foundation.Numeral
import PerfMonitor.Foundation.Conversion
import PerfMonitor.Foundation.Awk
import PerfMonitor.Foundation.Json
import PerfMonitor.Foundation.Throwing
import PerfMonitor.Foundation.Exposition
import PerfMonitor.Foundation.Shell
import PerfMonitor.Proto.Messages
import PerfMonitor.Manager.HostManager
import PerfMonitor.Manager.GrpcServer
import PerfMonitor.Manager.HostLogs
import PerfMonitor.Manager.Freshness
import PerfMonitor.Manager.Expiry
import PerfMonitor.Manager.MetricsExporter
import PerfMonitor.Manager.MetricsPage
import PerfMonitor.Manager.ObserveTotals
import PerfMonitor.Manager.HttpServer
import PerfMonitor.Manager.QueryParams
import PerfMonitor.Manager.SplitRequests
import PerfMonitor.Manager.EventsJson
import PerfMonitor.Manager.FlamegraphShell
import PerfMonitor.Ebpf.ObserveEvents
import PerfMonitor.Ebpf.TcpFlow
import PerfMonitor.Ebpf.FlowLifecycle
import PerfMonitor.Ebpf.FlowAccounting
import PerfMonitor.Ebpf.ConnectLatency
import PerfMonitor.Ebpf.ProcessTrace
import PerfMonitor.Worker.ProcScan
import PerfMonitor.Worker.DiagnoseFiles
import PerfMonitor.Worker.CmdRunner
import PerfMonitor.Worker.RunnerReaping
import PerfMonitor.Worker.BpfDiagnoser
import PerfMonitor.Worker.ToolFilter
import PerfMonitor.Worker.ToolOwnership
import PerfMonitor.Worker.ReapLoop
import PerfMonitor.Worker.Rotation
import PerfMonitor.Worker.ToolTrace
import PerfMonitor.Worker.ToolCycles
import PerfMonitor.Worker.OutputFiles
import PerfMonitor.Worker.DiskUsage
import PerfMonitor.Worker.PerfDiagnoser
import PerfMonitor.Worker.NewestFiles
import PerfMonitor.Worker.PerfRecordings
import PerfMonitor.Worker.Debounce
import PerfMonitor.Worker.TriggerTiming
import PerfMonitor.Worker.CpuPercent
import PerfMonitor.Worker.RecycledPid
import PerfMonitor.Worker.StatLine
import PerfMonitor.Worker.ObserveCollector
import PerfMonitor.Worker.MonitorStructs
import PerfMonitor.Worker.CpuStatMonitor
import PerfMonitor.Worker.CpuAccounting
import PerfMonitor.Worker.MemMonitor
import PerfMonitor.Worker.NetMonitor
import PerfMonitor.Worker.NetDeltas
import PerfMonitor.Worker.DiskMonitor
import PerfMonitor.Worker.DiskDeltas
import PerfMonitor.Worker.FailedSamples
import PerfMonitor.Worker.CounterRestarts
import PerfMonitor.Worker.SeedAndSample
import PerfMonitor.Worker.ConfigManager
import PerfMonitor.Worker.HotReload
import PerfMonitor.Worker.LoadFailure
import PerfMonitor.Worker.MonitorPusher
import PerfMonitor.Worker.Threads
import PerfMonitor.Worker.EventStreams
import PerfMonitor.Worker.Delivery
import PerfMonitor.Worker.LateManager
import PerfMonitor.Worker.PerfHandoff
import PerfMonitor.EndToEnd.ObserveConservation
import PerfMonitor.EndToEnd.FlamegraphFiles
import PerfMonitor.EndToEnd.CpuRange
import PerfMonitor.EndToEnd.MemReference
import PerfMonitor.Foundation.Joining
import PerfMonitor.EndToEnd.Rates
import PerfMonitor.EndToEnd.NetReference
import PerfMonitor.EndToEnd.DiskReference
import PerfMonitor.EndToEnd.Scraping
import PerfMonitor.Benchmarks.FakeWorker
import PerfMonitor.Benchmarks.Reports
import PerfMonitor.Benchmarks.Latencies
import PerfMonitor.Ebpf.FlowLedger
import PerfMonitor.EndToEnd.FlowBytes
import PerfMonitor.Foundation.Http
import PerfMonitor.Manager.Responses
import PerfMonitor.Foundation.FileTree
import PerfMonitor.Worker.OutputDir
import PerfMonitor.Worker.Startup
import PerfMonitor.Foundation.Descriptors
import PerfMonitor.Foundation.Listing
import PerfMonitor.Worker.ToolChild
import PerfMonitor.EndToEnd.ToolOutput
import PerfMonitor.Foundation.Regions
import PerfMonitor.Foundation.Rounding
import PerfMonitor.Worker.ConcurrentRotation
