import SubstanceConnector.Library.StepSystem
import SubstanceConnector.Library.ThreadPool
import SubstanceConnector.Library.RingIndex
import SubstanceConnector.Library.ByteCodec
import SubstanceConnector.Library.Interaction
import SubstanceConnector.Library.Monitor
import SubstanceConnector.Library.LinkedChain
import SubstanceConnector.Library.SwapRemove
import SubstanceConnector.Library.Block
import SubstanceConnector.Base
import SubstanceConnector.Message.Header
import SubstanceConnector.Message.Layout
import SubstanceConnector.Context.Struct
import SubstanceConnector.Network.ReadWrite
import SubstanceConnector.Network.RoundTrip
import SubstanceConnector.Network.Framing
import SubstanceConnector.Network.Bounds
import SubstanceConnector.Network.Padding
import SubstanceConnector.System.DirectoryList
import SubstanceConnector.System.Autoconnect
import SubstanceConnector.Queue.UintQueue
import SubstanceConnector.Queue.Machine
import SubstanceConnector.Queue.Concurrent
import SubstanceConnector.Queue.Spurious
import SubstanceConnector.Queue.LockedQueue
import SubstanceConnector.Library.Linearization
import SubstanceConnector.Queue.MessageQueue
import SubstanceConnector.Queue.Linearizable
import SubstanceConnector.System.PortDirectory
import SubstanceConnector.Context.Connection
import SubstanceConnector.Context.Table
import SubstanceConnector.Context.SlotWord
import SubstanceConnector.Context.ReadThread
import SubstanceConnector.Context.Cases
import SubstanceConnector.Queue.Sequential
import SubstanceConnector.Queue.Create
import SubstanceConnector.Queue.Wrap
import SubstanceConnector.Context.System
import SubstanceConnector.Context.Exhaustion
import SubstanceConnector.Context.Calls
import SubstanceConnector.Context.Configuration
import SubstanceConnector.Context.ConnectionData
import SubstanceConnector.Context.Ownership
import SubstanceConnector.Context.Undo
import SubstanceConnector.Context.Range
import SubstanceConnector.Context.OpenUnix
import SubstanceConnector.Context.Broadcast
import SubstanceConnector.Context.Cleanup
import SubstanceConnector.Lifecycle.State
import SubstanceConnector.Threads.ReadRoutine
import SubstanceConnector.Threads.Routine
import SubstanceConnector.Threads.Events
import SubstanceConnector.Threads.Pool
import SubstanceConnector.Threads.DispatchPool
import SubstanceConnector.Threads.WritePool
import SubstanceConnector.Threads.Wakeup
import SubstanceConnector.Threads.Termination
import SubstanceConnector.Threads.ReadWakeup
import SubstanceConnector.Threads.Simulation
import SubstanceConnector.Threads.Delivery
import SubstanceConnector.Lifecycle.Allocators
import SubstanceConnector.Lifecycle.Shutdown
import SubstanceConnector.Lifecycle.Descriptors
import SubstanceConnector.Lifecycle.Books
import SubstanceConnector.Lifecycle.Release
import SubstanceConnector.Messaging.Dispatch
import SubstanceConnector.Messaging.Instance
import SubstanceConnector.Messaging.Reuse
import SubstanceConnector.Handshake.Tally
import SubstanceConnector.Handshake.Exchange
import SubstanceConnector.Handshake.Lifetime
import SubstanceConnector.Messaging.Order
import SubstanceConnector.Library.Ledger
import SubstanceConnector.Callbacks.Trampolines
import SubstanceConnector.Callbacks.Notify
import SubstanceConnector.Framework.Uuid
import SubstanceConnector.Framework.PythonUuid
import SubstanceConnector.Library.Numeral
import SubstanceConnector.Lifecycle.Atomics
import SubstanceConnector.Library.Json
import SubstanceConnector.Framework.Schemas
import SubstanceConnector.Framework.MeshSchema
import SubstanceConnector.Framework.MeshNames
import SubstanceConnector.Framework.PythonSchemas
import SubstanceConnector.Framework.Core
import SubstanceConnector.Framework.ConnectionContext
import SubstanceConnector.Library.LockWord
import SubstanceConnector.Framework.Registration
import SubstanceConnector.Library.StateCalls
import SubstanceConnector.Framework.PythonInstance
import SubstanceConnector.Framework.PythonDispatch
import SubstanceConnector.Framework.PythonSystem
import SubstanceConnector.System.PortFile
import SubstanceConnector.Library.ThreeWay
import SubstanceConnector.Framework.UuidOrder
import SubstanceConnector.System.StringUtils
import SubstanceConnector.Library.BinarySearch
import SubstanceConnector.Messaging.CallbackSearch
import SubstanceConnector.Handshake.Delivery
import SubstanceConnector.Framework.Applications
import SubstanceConnector.Framework.ContextExchange
import SubstanceConnector.Library.LockOrder
import SubstanceConnector.Threads.Core
import SubstanceConnector.Threads.Locks
import SubstanceConnector.Threads.Startup
import SubstanceConnector.Threads.Stopping
import SubstanceConnector.Framework.PeerContexts
import SubstanceConnector.Library.SoloRun
import SubstanceConnector.Threads.Shutdown
import SubstanceConnector.Threads.Returning
import SubstanceConnector.Threads.LostWakeup
import SubstanceConnector.Threads.Interpreter
