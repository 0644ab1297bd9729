import FiberNet.Foundation.Machine
import FiberNet.Foundation.OrderedSet
import FiberNet.Foundation.Ordered
import FiberNet.Foundation.Totals
import FiberNet.Concurrent.Fiber
import FiberNet.Concurrent.FiberRuns
import FiberNet.Scheduler.TimerManager
import FiberNet.Scheduler.TimerLifecycle
import FiberNet.Scheduler.TimerWakeup
import FiberNet.Scheduler.PeriodicTimers
import FiberNet.Scheduler.WorkQueue
import FiberNet.Scheduler.Scheduler
import FiberNet.Scheduler.Exclusive
import FiberNet.Scheduler.Notification
import FiberNet.Scheduler.Shutdown
import FiberNet.Scheduler.LiveFibers
import FiberNet.Scheduler.BulkInsertion
import FiberNet.Scheduler.FetchOrder
import FiberNet.Scheduler.Balance
import FiberNet.Scheduler.PayLoad
import FiberNet.Scheduler.TSQueue
import FiberNet.Scheduler.DescriptorTables
import FiberNet.Scheduler.Reactor
import FiberNet.Scheduler.Registration
import FiberNet.Latch.CoSemaphore
import FiberNet.Latch.CoSemaphoreContract
import FiberNet.Netio.Hook
import FiberNet.Netio.Parking
import FiberNet.Netio.Timeout
import FiberNet.Netio.Recycled
import FiberNet.Netio.Wrappers
import FiberNet.Netio.Transparent
import FiberNet.Netio.NonBlocking
import FiberNet.Netio.Sleep
import FiberNet.Bytes.Blocks
import FiberNet.Bytes.Codec
import FiberNet.Bytes.CodecRoundTrip
import FiberNet.Bytes.Overwrite
import FiberNet.Bytes.ReadBack
import FiberNet.Bytes.Buffers
import FiberNet.Bytes.ReadWindows
import FiberNet.Bytes.Receiving
import FiberNet.Bytes.Files
import FiberNet.Bytes.Varint
import FiberNet.Bytes.RawReads
import FiberNet.Bytes.CompoundReads
import FiberNet.Bytes.Tape
import FiberNet.Stream.FixSize
import FiberNet.Foundation.Scanner
import FiberNet.Foundation.OrderedMap
import FiberNet.Foundation.Bits
import FiberNet.Foundation.EditedTable
import FiberNet.Http.Message
import FiberNet.Http.Forms
import FiberNet.Crypto.UrlCodec
import FiberNet.Crypto.Base64
import FiberNet.Http.Grammar
import FiberNet.Http.RequestTable
import FiberNet.Http.ResponseTable
import FiberNet.Http.Parser
import FiberNet.Http.Receive
import FiberNet.Http.Bounds
import FiberNet.Http.CutHeader
import FiberNet.Http.RequestLimits
import FiberNet.Http.Limits
import FiberNet.Http.Tokens
import FiberNet.Http.Framing
import FiberNet.Http.Pieces
import FiberNet.Http.RequestPieces
import FiberNet.Http.RequestRoundTrip
import FiberNet.Http.HeaderSection
import FiberNet.Http.ResponsePieces
import FiberNet.Http.ResponseRoundTrip
import FiberNet.Http.ResponseFraming
import FiberNet.Http.ChunkLine
import FiberNet.Http.Servlet
import FiberNet.Http.Server
import FiberNet.Foundation.Loops
import FiberNet.Foundation.Words
import FiberNet.Foundation.GroupText
import FiberNet.Http.Numerals
import FiberNet.Socket.Address
import FiberNet.Socket.Ipv4
import FiberNet.Socket.Ipv6
import FiberNet.Socket.Ipv6Text
import FiberNet.Socket.HostService
import FiberNet.Socket.Interfaces
import FiberNet.Config.Registry
import FiberNet.Config.Containers
import FiberNet.Config.ConfigVar
import FiberNet.Config.LexicalCast
import FiberNet.Log.Event
import FiberNet.Log.Formatter
import FiberNet.Log.Define
import FiberNet.Db.MySQLManager
import FiberNet.Db.MySQLStmt
import FiberNet.Log.LogThread
import FiberNet.Socket.TcpServer
import FiberNet.Log.Logger
import FiberNet.Log.LoggerTable
import FiberNet.Http.Chunked
import FiberNet.Foundation.Custody
import FiberNet.Foundation.Refinement
import FiberNet.Socket.Descriptors
import FiberNet.Socket.ServerBind
