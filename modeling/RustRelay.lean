import RustRelay.Core.Run
import RustRelay.Core.Simulation
import RustRelay.Core.DashMap
import RustRelay.Core.MaxMerge
import RustRelay.Core.Coalesce
import RustRelay.Core.Receiver
import RustRelay.Core.InOrder
import RustRelay.Core.Sql
import RustRelay.Core.Pagination
import RustRelay.Models
import RustRelay.RateLimit
import RustRelay.Db
import RustRelay.ReadState.Upsert
import RustRelay.ReadState.Cache
import RustRelay.ReadState.Buffer
import RustRelay.ReadState.Counter
import RustRelay.ReadState.Shutdown
import RustRelay.ReadState.Accounting
import RustRelay.ReadState.Drain
import RustRelay.ReadState.Isolation
import RustRelay.ReadState.Latest
import RustRelay.ReadState.Custody
import RustRelay.Gateway.Session
import RustRelay.Gateway.Registry
import RustRelay.Gateway.Connection
import RustRelay.Gateway.Heartbeat
import RustRelay.Gateway.Silence
import RustRelay.Gateway.Stream
import RustRelay.Gateway.HeartbeatAck
import RustRelay.ReadState.Ready
import RustRelay.Presence.Tracker
import RustRelay.Presence.Race
import RustRelay.Presence.Timers
import RustRelay.Presence.Cluster
import RustRelay.Presence.Debounce
import RustRelay.Presence.SessionCount
import RustRelay.Presence.Ghost
import RustRelay.Presence.Publish
import RustRelay.Presence.UserView
import RustRelay.Presence.Operations
import RustRelay.Presence.Sequence
import RustRelay.Presence.Serial
import RustRelay.Presence.Announce
import RustRelay.Presence.Broadcast
import RustRelay.Router.RedisBridge
import RustRelay.Router.Subscriber
import RustRelay.Presence.Audience
import RustRelay.Presence.Flush
import RustRelay.Router.Fanout
import RustRelay.Router.Failure
import RustRelay.Router.MemberCache
import RustRelay.Routes.SendMessage
import RustRelay.Routes.History
import RustRelay.Router.Delivery
import RustRelay.Router.Order
import RustRelay.Router.Agreement
import RustRelay.Presence.Convergence
import RustRelay.ReadState.Cluster
import RustRelay.Core.JsonCodec
import RustRelay.Router.Wire
import RustRelay.Gateway.Auth
import RustRelay.Gateway.Dispatch
import RustRelay.Gateway.Hearing
import RustRelay.Core.Expiring
import RustRelay.Gateway.Guilds
import RustRelay.Presence.Keys
import RustRelay.Routes.Messages
