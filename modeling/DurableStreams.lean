import DurableStreams.Handlers.JsonStreams
import DurableStreams.Handlers.Locations
import DurableStreams.Handlers.Precedence
import DurableStreams.Handlers.LongPoll
import DurableStreams.Handlers.Server
import DurableStreams.Handlers.Sse
import DurableStreams.Handlers.Closing
import DurableStreams.Protocol.SseWire
import DurableStreams.Storage.Memory.Accounting
import DurableStreams.Storage.Memory.Network
import DurableStreams.Storage.Memory.Positions
import DurableStreams.Storage.Memory.Serializability
import DurableStreams.Storage.File.Crash
import DurableStreams.Storage.File.Leftovers
import DurableStreams.Storage.File.Owners
import DurableStreams.Storage.File.Paths
import DurableStreams.Storage.File.Readers
import DurableStreams.Storage.File.Rebuild
import DurableStreams.Storage.Acid.Concurrent
import DurableStreams.Storage.AppendOnly
import DurableStreams.Storage.Expiry
import DurableStreams.Storage.Retries
import DurableStreams.Storage.Sequences
import DurableStreams.Storage.Wakeups
