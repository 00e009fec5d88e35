import SystemMonitor.Common
import SystemMonitor.Lib.Machine
import SystemMonitor.Lib.Slot
import SystemMonitor.Lib.LowerBound
import SystemMonitor.Lib.SortedVector
import SystemMonitor.Lib.Journal
import SystemMonitor.Monitor.Sampler
import SystemMonitor.Monitor.Handoff
import SystemMonitor.Monitor.Topology
import SystemMonitor.Lib.Doorbell
import SystemMonitor.Lib.Arena
import SystemMonitor.Lib.SlotCaches
import SystemMonitor.Windows.Sampler
import SystemMonitor.Windows.Handoff
import SystemMonitor.Windows.Topology
import SystemMonitor.Windows.ProcessRuntime
import SystemMonitor.Windows.ProcessWorker
import SystemMonitor.Windows.ProcessScan
import SystemMonitor.Windows.ProcessTransaction
import SystemMonitor.Lib.FirstMatch
import SystemMonitor.Performance.Pages
import SystemMonitor.Performance.History
import SystemMonitor.Bluetooth.Traffic
import SystemMonitor.Bluetooth.Links
import SystemMonitor.Lib.Totals
import SystemMonitor.Bluetooth.Accounting
import SystemMonitor.Bluetooth.Refresh
import SystemMonitor.Lib.Framing
import SystemMonitor.Lib.Last
import SystemMonitor.Sources.Netlink
import SystemMonitor.Sources.LinkDump
import SystemMonitor.Storage.Model
import SystemMonitor.Storage.Disks
import SystemMonitor.Storage.DiskRates
import SystemMonitor.Storage.Networks
import SystemMonitor.Storage.Topology
import SystemMonitor.Storage.Interfaces
import SystemMonitor.Storage.NetworkRates
import SystemMonitor.Hardware.Model
import SystemMonitor.Hardware.Telemetry
import SystemMonitor.Hardware.Identities
import SystemMonitor.Hardware.Pairing
import SystemMonitor.Lib.Slots
import SystemMonitor.Process.Efficiency
import SystemMonitor.Lib.CStrings
import SystemMonitor.Process.Enrichment
import SystemMonitor.Lib.ParentWalk
import SystemMonitor.Mounts.Model
import SystemMonitor.Mounts.Record
import SystemMonitor.Mounts.Inventory
import SystemMonitor.Desktop.Catalog
import SystemMonitor.Desktop.Cgroup
import SystemMonitor.Lib.Precedence
import SystemMonitor.Desktop.Startup
import SystemMonitor.Desktop.Precedence
import SystemMonitor.Lib.FixedPoint
import SystemMonitor.Recorder.Metrics
import SystemMonitor.Recorder.Timestamps
import SystemMonitor.Recorder.Rows
import SystemMonitor.Lib.Ring
import SystemMonitor.Recorder.Plot
import SystemMonitor.Recorder.Import
import SystemMonitor.Recorder.Replay
import SystemMonitor.Lib.Once
import SystemMonitor.Procfs.Library
import SystemMonitor.Procfs.Pressure
import SystemMonitor.Procfs.PressureText
import SystemMonitor.Procfs.Stat
import SystemMonitor.Procfs.CpuAccounting
import SystemMonitor.Procfs.CpuTicks
import SystemMonitor.Procfs.CpuGaps
import SystemMonitor.Pages.Rows
import SystemMonitor.Pages.Details
import SystemMonitor.Pages.Forest
import SystemMonitor.Pages.Shape
import SystemMonitor.Pages.Update
import SystemMonitor.Pages.Groups
import SystemMonitor.Lib.SingleFlight
import SystemMonitor.Pages.Startup
import SystemMonitor.Pages.Filesystems
import SystemMonitor.Services.Inventory
import SystemMonitor.Pages.Services
import SystemMonitor.Hidpp.Tracking
import SystemMonitor.Pages.Processes
import SystemMonitor.Pages.Identities
import SystemMonitor.Pages.Heatmap
import SystemMonitor.Smbios.Table
import SystemMonitor.Smbios.Strings
import SystemMonitor.Smbios.Structures
import SystemMonitor.Smbios.Encoding
import SystemMonitor.Smbios.Decoding
import SystemMonitor.Overview.Sample
import SystemMonitor.Overview.Top
import SystemMonitor.Hardware.Reconcile
import SystemMonitor.Overview.Window
import SystemMonitor.Overview.Devices
import SystemMonitor.Lib.Meter
import SystemMonitor.Procfs.CpuRates
import SystemMonitor.Hardware.IntelGpu
import SystemMonitor.Hardware.EngineBusy
import SystemMonitor.Lib.Reconcile
import SystemMonitor.Lib.Csv
import SystemMonitor.Pages.Export
import SystemMonitor.Lib.Schema
import SystemMonitor.Settings.SavedLayout
import SystemMonitor.Settings.Saving
import SystemMonitor.Lib.Arrange
import SystemMonitor.Monitor.Retry
import SystemMonitor.Lib.Backoff
import SystemMonitor.History.Oversized
import SystemMonitor.Temporal.Complete
import SystemMonitor.Windows.DiskRates
import SystemMonitor.Windows.EngineLoads
import SystemMonitor.Hardware.NpuBusy
import SystemMonitor.Mounts.Escapes
import SystemMonitor.Graphs.Geometry
import SystemMonitor.Desktop.Toggle
import SystemMonitor.Process.MapItems
import SystemMonitor.Windows.ProcessEnrich
import SystemMonitor.Hardware.NvmlMapping
import SystemMonitor.Lib.Tally
import SystemMonitor.Process.DrmClients
import SystemMonitor.Process.DrmLines
import SystemMonitor.Process.DrmReports
import SystemMonitor.Process.DrmTables
import SystemMonitor.Process.DrmFiles
import SystemMonitor.Process.DrmTotals
import SystemMonitor.Process.DrmSnapshot
import SystemMonitor.Process.DrmInvariance
import SystemMonitor.Hardware.Generation
import SystemMonitor.Hidpp.Model
import SystemMonitor.Hidpp.Answers
import SystemMonitor.Scanner.Model
import SystemMonitor.Scanner.Lifetime
import SystemMonitor.Scanner.Requests
import SystemMonitor.Scanner.Delivery
import SystemMonitor.Process.Model
import SystemMonitor.Process.Control
import SystemMonitor.Process.Signals
import SystemMonitor.Process.Tree
import SystemMonitor.Process.Samples
import SystemMonitor.Process.Scan
import SystemMonitor.Process.Rollback
import SystemMonitor.Process.Identity
import SystemMonitor.Process.Turns
import SystemMonitor.Process.Ownership
import SystemMonitor.Process.Transaction
import SystemMonitor.Lib.Table
import SystemMonitor.Lib.Eviction
import SystemMonitor.Lib.Decimal
import SystemMonitor.Lib.Lines
import SystemMonitor.Lib.Linked
import SystemMonitor.Recorder.Queue
import SystemMonitor.App.Workspace
import SystemMonitor.App.Publication
import SystemMonitor.App.Recordings
import SystemMonitor.History.Model
import SystemMonitor.History.Ingest
import SystemMonitor.History.Retention
import SystemMonitor.History.Credit
import SystemMonitor.History.Numerals
import SystemMonitor.History.Record
import SystemMonitor.History.Loading
import SystemMonitor.History.RoundTrip
import SystemMonitor.History.Coordinator
import SystemMonitor.History.Session
import SystemMonitor.History.Reset
import SystemMonitor.History.Dirty
import SystemMonitor.History.Survival
