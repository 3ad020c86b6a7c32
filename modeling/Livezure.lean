import Livezure.Core.Memory
import Livezure.Core.Framing
import Livezure.Core.Transition
import Livezure.Rpc.Shell
import Livezure.Rpc.RingBuffer
import Livezure.Rpc.RingInvariant
import Livezure.Rpc.Buffer
import Livezure.Rpc.Keypair
import Livezure.Rpc.Io
import Livezure.Rpc.IoLinear
import Livezure.Rpc.IoRounds
import Livezure.Rpc.IoDelivery
import Livezure.Rpc.IoWorker
import Livezure.Rpc.IoHeaders
import Livezure.Rpc.IoLayer
import Livezure.Rpc.IoLifetime
import Livezure.Rpc.IoWakeup
import Livezure.Rpc.IoSending
import Livezure.Rpc.Request
import Livezure.Rpc.RequestMatching
import Livezure.Rpc.Pool
import Livezure.Rpc.PoolWorkers
import Livezure.Rpc.PoolRuns
import Livezure.Rpc.PoolEnd
import Livezure.Rpc.HandleLifetime
import Livezure.Core.Table
import Livezure.Db.Account
import Livezure.Db.Integrity
import Livezure.Service.Session
import Livezure.Service.Handlers
import Livezure.Service.Tenant
import Livezure.Service.Listing
import Livezure.Service.Connections
import Livezure.Service.SessionList
import Livezure.Service.References
import Livezure.Core.Counters
import Livezure.Core.Counting
import Livezure.Service.DeviceTable
import Livezure.Service.Playing
import Livezure.Db.Devices
import Livezure.Core.Reservation
import Livezure.Service.Creations
import Livezure.Service.AccountCreation
import Livezure.Rpc.Frames
import Livezure.Rpc.Lookup
import Livezure.Service.Decimal
import Livezure.Client.Records
import Livezure.Client.DeviceList
import Livezure.Client.AccountList
import Livezure.Core.Literal
import Livezure.Db.Statements
import Livezure.Db.UuidBuffers
import Livezure.Rpc.Replies
import Livezure.Core.Attempt
import Livezure.Db.Atomicity
import Livezure.Db.Sections
import Livezure.Db.Providers
import Livezure.Core.Blocks
import Livezure.Rpc.Tea
import Livezure.Rpc.Crypt
import Livezure.Rpc.CryptInPlace
import Livezure.Rpc.HostileBody
import Livezure.Rpc.RoundTrip
import Livezure.Service.Balance
import Livezure.Service.Reaper
import Livezure.Db.HashKey
import Livezure.Rpc.Appends
import Livezure.Rpc.RingQueue
import Livezure.Rpc.IoHostile
import Livezure.Core.CondWait
import Livezure.Rpc.QueueWaits
import Livezure.Rpc.RequestWaits
import Livezure.Db.Deletion
import Livezure.Service.Modification
import Livezure.Service.DeviceCreation
import Livezure.Service.SessionLookup
import Livezure.Core.Ledger
import Livezure.Service.DeviceTouch
import Livezure.Core.Signed
import Livezure.Common.TimedWaits
import Livezure.Common.RollbufPool
import Livezure.Core.CursorList
import Livezure.Common.Timer
import Livezure.Common.TimerDeletion
import Livezure.Common.TimerClock
import Livezure.Core.Calls
import Livezure.Core.Cells
import Livezure.Common.RollbufThreads
import Livezure.Common.Pref
import Livezure.Common.PrefRelease
import Livezure.Rpc.ClientSend
import Livezure.Rpc.ServerWrites
import Livezure.Common.TimerSteps
import Livezure.Client.Heartbeat
import Livezure.Client.HostileList
import Livezure.Db.Printing
import Livezure.Service.Printing
import Livezure.Service.Prints
import Livezure.Core.Program
import Livezure.Db.Locking
import Livezure.Db.LockDiscipline
import Livezure.Db.LockedReads
import Livezure.Service.DayHours
import Livezure.Rpc.RingCounts
import Livezure.Core.Reader
import Livezure.Rpc.FrameSequence
import Livezure.Service.SafeReplies
import Livezure.Service.Authority
import Livezure.Service.Strangers
import Livezure.Core.Gf256
import Livezure.Core.Rijndael
import Livezure.Utils.AesTables
import Livezure.Utils.Aes
import Livezure.Utils.AesRounds
import Livezure.Utils.AesSchedule
import Livezure.Client.Calls
import Livezure.Client.Transport
import Livezure.Client.Conversation
import Livezure.Client.ReceivedLists
