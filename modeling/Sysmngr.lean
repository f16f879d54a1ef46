import Sysmngr.Text
import Sysmngr.Machine
import Sysmngr.Lines
import Sysmngr.Libbbfdm
import Sysmngr.Uci
import Sysmngr.Fifo
import Sysmngr.Calendar
import Sysmngr.Attributes
import Sysmngr.Polling
import Sysmngr.Intervals
import Sysmngr.Reboots.Model
import Sysmngr.Reboots.Records
import Sysmngr.Reboots.Registration
import Sysmngr.Reboots.Cause
import Sysmngr.Reboots.Counters
import Sysmngr.Hysteresis
import Sysmngr.Monitor.Model
import Sysmngr.Monitor.Automaton
import Sysmngr.Monitor.Clock
import Sysmngr.RingBuffer
import Sysmngr.Monitor.StatText
import Sysmngr.Monitor.Samples
import Sysmngr.Blobmsg
import Sysmngr.Fwbank.Dump
import Sysmngr.Fwbank.Tasks
import Sysmngr.Fwbank.Listener
import Sysmngr.Fwbank.Upgrade
import Sysmngr.Fwbank.Requests
import Sysmngr.Fwbank.Daemon
import Sysmngr.Fwbank.EventOrder
import Sysmngr.FwImages.Model
import Sysmngr.FwImages.Activate
import Sysmngr.FwImages.Available
import Sysmngr.FwImages.Crontab
import Sysmngr.FwImages.Handler
import Sysmngr.FwImages.Schedule
import Sysmngr.FwImages.BootBank
import Sysmngr.FwImages.WhenIdle
import Sysmngr.FwImages.Download
import Sysmngr.FwImages.Windows
import Sysmngr.Shell
import Sysmngr.Shell.Unquoted
import Sysmngr.Monitor.LogFile
import Sysmngr.Cron
import Sysmngr.Json
import Sysmngr.Scanf
import Sysmngr.Changes
import Sysmngr.Processes.Model
import Sysmngr.Processes.Instances
import Sysmngr.Processes.Fields
import Sysmngr.Processes.Failures
import Sysmngr.Processes.StatLine
import Sysmngr.Processes.Updater
import Sysmngr.Processes.Cmdline
import Sysmngr.Processes.Table
import Sysmngr.Daemon.Package
import Sysmngr.Daemon.CriticalStamps
import Sysmngr.Fwbank.TaskOutput
import Sysmngr.FwImages.Faults
import Sysmngr.FwImages.Reference
import Sysmngr.Monitor.Settings
import Sysmngr.Monitor.Steady
import Sysmngr.Monitor.Delays
import Sysmngr.Monitor.Decreasing
import Sysmngr.Reboots.OwnRecords
import Sysmngr.Reboots.ResetReason
import Sysmngr.Upsert
import Sysmngr.FwImages.Aliases
import Sysmngr.FwImages.Availability
import Sysmngr.FwImages.BankPolicy
import Sysmngr.FileTree
import Sysmngr.Monitor.LogFrame
import Sysmngr.Paths
import Sysmngr.Monitor.LogPath
import Sysmngr.Words
import Sysmngr.Configs.Vcf
import Sysmngr.Network.Congestion
import Sysmngr.Monitor.Meminfo
import Sysmngr.Monitor.Malformed
import Sysmngr.Monitor.CpuLoad
import Sysmngr.Routine
import Sysmngr.Transfer.Model
import Sysmngr.Configs.Transfer
import Sysmngr.FwImages.Transfer
import Sysmngr.Transfer.Reported
import Sysmngr.Descriptors
import Sysmngr.Fwbank.Pipes
import Sysmngr.Monitor.Lifecycle
import Sysmngr.Monitor.MemoryTexts
import Sysmngr.IsoTime
import Sysmngr.Reboots.TimeStamps
import Sysmngr.JsonValue
import Sysmngr.BlobmsgJson
import Sysmngr.Fwbank.Pipeline
import Sysmngr.FwImages.Confirmation
import Sysmngr.Transfer.Operate
import Sysmngr.FwImages.KeepConfig
import Sysmngr.FwImages.Scheduled
import Sysmngr.FwImages.Shown
import Sysmngr.Configs.Table
