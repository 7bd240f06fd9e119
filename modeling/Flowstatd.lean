import Flowstatd.Framework.Loop
import Flowstatd.Framework.Bisect
import Flowstatd.Framework.Bytes
import Flowstatd.Netflow.Time
import Flowstatd.Netflow.SubnetTable
import Flowstatd.Netflow.Lookup
import Flowstatd.Netflow.HostSlots
import Flowstatd.Netflow.Accounting
import Flowstatd.Netflow.Machine
import Flowstatd.Netflow.HandlerV5
import Flowstatd.Netflow.Buffer
import Flowstatd.Netflow.WireV5
import Flowstatd.Netflow.Bounds
import Flowstatd.Netflow.TemplateOwnership
import Flowstatd.Netflow.V9Refinement
import Flowstatd.Framework.SideBySide
import Flowstatd.Netflow.Locality
import Flowstatd.Netflow.Announced
import Flowstatd.Netflow.Replay
import Flowstatd.Daemon.Days
import Flowstatd.Framework.StableSort
import Flowstatd.Framework.Inet
import Flowstatd.Framework.Json
import Flowstatd.Netflow.Counting
import Flowstatd.Query.Queries
import Flowstatd.Daemon.Labels
import Flowstatd.Query.Agreement
import Flowstatd.Query.Confidential
import Flowstatd.Query.PastDate
import Flowstatd.Daemon.Truncated
import Flowstatd.Daemon.DumpFlowData
import Flowstatd.Daemon.LargeTables
import Flowstatd.Daemon.Handling
import Flowstatd.Daemon.Restart
import Flowstatd.Daemon.BehindBuffer
import Flowstatd.Daemon.ExportedDay
import Flowstatd.Daemon.Archive
import Flowstatd.Daemon.FileNames
import Flowstatd.Framework.History
import Flowstatd.Daemon.Processes
import Flowstatd.Daemon.Signals
import Flowstatd.Daemon.Endings
import Flowstatd.Daemon.Sequential
import Flowstatd.Daemon.Edits
import Flowstatd.Query.Scans
import Flowstatd.Netflow.FlowStart
import Flowstatd.Daemon.Midnight
import Flowstatd.Query.Requests
import Flowstatd.Framework.Text
import Flowstatd.Daemon.ConfigFile
import Flowstatd.Daemon.Startup
import Flowstatd.Netflow.Uninitialised
import Flowstatd.Netflow.LongTemplates
import Flowstatd.Netflow.TemplateSlots
import Flowstatd.Netflow.NetworkOrder
import Flowstatd.Daemon.Multiplexer
import Flowstatd.Daemon.Kqueue
import Flowstatd.Daemon.EventLoop
import Flowstatd.Daemon.KqueueLoop
import Flowstatd.Framework.CString
import Flowstatd.Daemon.QuerySocket
import Flowstatd.Daemon.QueryChild
import Flowstatd.Query.WhitelistBounds
import Flowstatd.Query.SecretKey
import Flowstatd.Query.Answers
import Flowstatd.Query.PastDays
import Flowstatd.Query.PastReports
import Flowstatd.Query.DayLists
