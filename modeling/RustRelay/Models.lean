import Mathlib.Algebra.Group.Nat.Defs
import Mathlib.Data.Fin.Basic
import Mathlib.Order.Fin.Basic

/-!
# Data types

The types of `models.rs`: identifiers, presence, the messages between client, server and nodes.
-/

namespace RustRelay

/-- A UUID. Rust and PostgreSQL both compare UUIDs byte by byte from the left, that is, as
128-bit numbers. -/
structure Uuid where
  bits : Fin (2 ^ 128)
  deriving DecidableEq, Repr

instance : LinearOrder Uuid where
  __ := PartialOrder.lift Uuid.bits fun ⟨_⟩ ⟨_⟩ h => congrArg Uuid.mk h
  le_total a b := le_total a.bits b.bits
  toDecidableLE a b := inferInstanceAs (Decidable (a.bits ≤ b.bits))
  toDecidableEq := inferInstance

instance (n : ℕ) : OfNat Uuid n := ⟨⟨Fin.ofNat _ n⟩⟩

abbrev UserId := Uuid
abbrev ChannelId := Uuid
abbrev GuildId := Uuid
abbrev MessageId := Uuid
abbrev SessionId := Uuid

/-- A `DateTime<Utc>` or `TIMESTAMPTZ`, in microseconds from the epoch. -/
abbrev Timestamp := ℤ

inductive PresenceStatus
  | online
  | idle
  | dnd
  | offline
  deriving DecidableEq, Repr

/-! ## Database models -/

structure Message where
  id : MessageId
  channelId : ChannelId
  authorId : UserId
  content : String
  editedAt : Option Timestamp
  createdAt : Timestamp
  deriving DecidableEq, Repr

/-! ## Client to server -/

inductive ClientMessage
  | sendMessage (channelId : ChannelId) (content : String)
  | ackMessage (channelId : ChannelId) (messageId : MessageId)
  | updatePresence (status : PresenceStatus)
  | heartbeat (seq : UInt64)
  | startTyping (channelId : ChannelId)
  deriving DecidableEq, Repr

/-! ## Server to client -/

structure UserInfo where
  id : UserId
  username : String
  deriving DecidableEq, Repr

structure ChannelInfo where
  id : ChannelId
  name : String
  deriving DecidableEq, Repr

structure GuildInfo where
  id : GuildId
  name : String
  channels : List ChannelInfo
  memberCount : ℤ
  deriving DecidableEq, Repr

structure MessagePayload where
  id : MessageId
  channelId : ChannelId
  authorId : UserId
  content : String
  timestamp : Timestamp
  editedAt : Option Timestamp
  deriving DecidableEq, Repr

structure ReadState where
  channelId : ChannelId
  lastReadMessageId : MessageId
  deriving DecidableEq, Repr

inductive ServerEvent
  | ready (sessionId : SessionId) (user : UserInfo) (guilds : List GuildInfo)
      (readStates : List ReadState) (heartbeatIntervalMs : UInt64)
  | messageCreate (payload : MessagePayload)
  | messageUpdate (payload : MessagePayload)
  | messageDelete (id : MessageId) (channelId : ChannelId)
  | presenceUpdate (userId : UserId) (status : PresenceStatus)
  | typingStart (userId : UserId) (channelId : ChannelId) (timestamp : Timestamp)
  | heartbeatAck (seq : UInt64)
  deriving DecidableEq, Repr

/-! ## Node to node -/

/-- The payload published for other nodes; `event` is a serialized `ServerEvent`. -/
structure CrossNodePayload where
  sourceNode : String
  targetUserIds : List UserId
  event : String
  deriving DecidableEq, Repr

end RustRelay
