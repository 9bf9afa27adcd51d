import RustRelay.Core.JsonCodec
import RustRelay.Presence.Audience

/-!
# The wire format

The JSON of the types of `models.rs`, as `serde` derives it: what clients send, what they are sent,
and what nodes publish for each other. The texts of a UUID (`uuid`), of a time (`chrono`) and of a
JSON value (`serde_json`) are parameters, of which only a round trip is assumed.

**Theorem (`published_read`).** What one node publishes, an event as text inside the JSON of a
payload or a presence update as an object of its own, every node reads as just that.

**Theorem (`client_message_iff`).** A text is read as a client message *if and only if* it shows the
name of its operation under `op`, or first of two items, and the fields of the operation under `d`,
or second of the two, by name in any order and with others between them.
-/

namespace RustRelay

open JsonCodec

/-- The text forms that are used: `uuid`, `chrono` and `serde_json`. -/
structure TextForms where
  uuid : TextForm Uuid
  time : TextForm Timestamp
  json : TextForm Value

/-! ## Codecs -/

def u64 : Codec UInt64 :=
  (Codec.int 0 (2 ^ 64 - 1)).map (fun i => UInt64.ofNat i.toNat) (fun n => (n.toNat : ℤ))
    fun n => by simp

def i64 : Codec ℤ := Codec.int (-2 ^ 63) (2 ^ 63 - 1)

namespace PresenceStatus

/-- `#[serde(rename_all = "lowercase")]`, and `Display`. -/
def name : PresenceStatus → String
  | .online => "online"
  | .idle => "idle"
  | .dnd => "dnd"
  | .offline => "offline"

def ofName (s : String) : Option PresenceStatus :=
  if s = "online" then some .online
  else if s = "idle" then some .idle
  else if s = "dnd" then some .dnd
  else if s = "offline" then some .offline
  else none

theorem ofName_eq_some_iff {s : String} {status : PresenceStatus} :
    ofName s = some status ↔ s = status.name := by
  constructor
  · intro h
    unfold ofName at h
    split_ifs at h with h1 h2 h3 h4 <;> obtain rfl := Option.some.inj h <;> assumption
  · rintro rfl
    cases status <;> simp [ofName, name]

def codec (source : Source) : Codec PresenceStatus :=
  Codec.unit source name ofName fun _ => ofName_eq_some_iff.2 rfl

end PresenceStatus

section
variable (forms : TextForms)

/-- A field with an identifier. -/
def idField (name : String) : Fields Uuid := Fields.one name (.text forms.uuid)

def timeField (name : String) : Fields Timestamp := Fields.one name (.text forms.time)

def stringField (name : String) : Fields String := Fields.one name .string

def UserInfo.codec : Codec UserInfo :=
  (record ((idField forms "id").and (stringField "username"))
    (by simp [Fields.and, Fields.one, idField, stringField])).map
    (fun p => ⟨p.1, p.2⟩) (fun u => (u.id, u.username)) fun _ => rfl

def ChannelInfo.codec : Codec ChannelInfo :=
  (record ((idField forms "id").and (stringField "name"))
    (by simp [Fields.and, Fields.one, idField, stringField])).map
    (fun p => ⟨p.1, p.2⟩) (fun c => (c.id, c.name)) fun _ => rfl

def GuildInfo.codec : Codec GuildInfo :=
  (record ((idField forms "id").and ((stringField "name").and
      ((Fields.one "channels" (.list (ChannelInfo.codec forms))).and
        (Fields.one "member_count" i64))))
    (by simp [Fields.and, Fields.one, idField, stringField])).map
    (fun (id, name, channels, memberCount) => ⟨id, name, channels, memberCount⟩)
    (fun g => (g.id, g.name, g.channels, g.memberCount)) fun _ => rfl

def MessagePayload.codec : Codec MessagePayload :=
  (record ((idField forms "id").and ((idField forms "channel_id").and
      ((idField forms "author_id").and ((stringField "content").and
        ((timeField forms "timestamp").and
          (Fields.optional "edited_at" (.text forms.time) nofun))))))
    (by simp [Fields.and, Fields.one, Fields.optional, idField, timeField, stringField])).map
    (fun (id, channelId, authorId, content, timestamp, editedAt) =>
      ⟨id, channelId, authorId, content, timestamp, editedAt⟩)
    (fun m => (m.id, m.channelId, m.authorId, m.content, m.timestamp, m.editedAt)) fun _ => rfl

def ReadState.codec : Codec ReadState :=
  (record ((idField forms "channel_id").and (idField forms "last_read_message_id"))
    (by simp [Fields.and, Fields.one, idField])).map
    (fun p => ⟨p.1, p.2⟩) (fun r => (r.channelId, r.lastReadMessageId)) fun _ => rfl

/-! ## Server to client -/

namespace ServerEvent

def readyCodec : Codec (SessionId × UserInfo × List GuildInfo × List ReadState × UInt64) :=
  named ((idField forms "session_id").and ((Fields.one "user" (UserInfo.codec forms)).and
      ((Fields.one "guilds" (.list (GuildInfo.codec forms))).and
        ((Fields.one "read_states" (.list (ReadState.codec forms))).and
          (Fields.one "heartbeat_interval_ms" u64)))))
    (by simp [Fields.and, Fields.one, idField])

def messageDeleteCodec : Codec (MessageId × ChannelId) :=
  named ((idField forms "id").and (idField forms "channel_id"))
    (by simp [Fields.and, Fields.one, idField])

def presenceUpdateCodec (source : Source) : Codec (UserId × PresenceStatus) :=
  named ((idField forms "user_id").and (Fields.one "status" (PresenceStatus.codec source)))
    (by simp [Fields.and, Fields.one, idField])

def typingStartCodec : Codec (UserId × ChannelId × Timestamp) :=
  named ((idField forms "user_id").and ((idField forms "channel_id").and
      (timeField forms "timestamp")))
    (by simp [Fields.and, Fields.one, idField, timeField])

def heartbeatAckCodec : Codec UInt64 :=
  named (Fields.one "seq" u64) (Fields.nodup_one _ _)

/-- The variants, by their names in SCREAMING_SNAKE_CASE. -/
def variants : Variants ServerEvent where
  encode
    | .ready sessionId user guilds readStates heartbeatIntervalMs => ("READY",
      (readyCodec forms).encode (sessionId, user, guilds, readStates, heartbeatIntervalMs))
    | .messageCreate payload => ("MESSAGE_CREATE", (MessagePayload.codec forms).encode payload)
    | .messageUpdate payload => ("MESSAGE_UPDATE", (MessagePayload.codec forms).encode payload)
    | .messageDelete id channelId =>
      ("MESSAGE_DELETE", (messageDeleteCodec forms).encode (id, channelId))
    | .presenceUpdate userId status =>
      ("PRESENCE_UPDATE", (presenceUpdateCodec forms .text).encode (userId, status))
    | .typingStart userId channelId timestamp =>
      ("TYPING_START", (typingStartCodec forms).encode (userId, channelId, timestamp))
    | .heartbeatAck seq => ("HEARTBEAT_ACK", heartbeatAckCodec.encode seq)
  decode source name value :=
    if name = "READY" then
      ((readyCodec forms).decode value).map
        fun (sessionId, user, guilds, readStates, heartbeatIntervalMs) =>
          .ready sessionId user guilds readStates heartbeatIntervalMs
    else if name = "MESSAGE_CREATE" then
      ((MessagePayload.codec forms).decode value).map .messageCreate
    else if name = "MESSAGE_UPDATE" then
      ((MessagePayload.codec forms).decode value).map .messageUpdate
    else if name = "MESSAGE_DELETE" then
      ((messageDeleteCodec forms).decode value).map fun (id, channelId) =>
        .messageDelete id channelId
    else if name = "PRESENCE_UPDATE" then
      ((presenceUpdateCodec forms source).decode value).map fun (userId, status) =>
        .presenceUpdate userId status
    else if name = "TYPING_START" then
      ((typingStartCodec forms).decode value).map fun (userId, channelId, timestamp) =>
        .typingStart userId channelId timestamp
    else if name = "HEARTBEAT_ACK" then (heartbeatAckCodec.decode value).map .heartbeatAck
    else none
  valid
    | .ready sessionId user guilds readStates heartbeatIntervalMs =>
      (readyCodec forms).valid (sessionId, user, guilds, readStates, heartbeatIntervalMs)
    | .messageCreate payload | .messageUpdate payload => (MessagePayload.codec forms).valid payload
    | .messageDelete id channelId => (messageDeleteCodec forms).valid (id, channelId)
    | .presenceUpdate userId status => (presenceUpdateCodec forms .text).valid (userId, status)
    | .typingStart userId channelId timestamp =>
      (typingStartCodec forms).valid (userId, channelId, timestamp)
    | .heartbeatAck seq => heartbeatAckCodec.valid seq
  decode_encode source event h := by
    cases event with
    | presenceUpdate userId status =>
      -- What is written does not depend on where it will be read from.
      have hread : (presenceUpdateCodec forms source).decode
          ((presenceUpdateCodec forms .text).encode (userId, status)) = some (userId, status) :=
        (presenceUpdateCodec forms source).decode_encode _ h
      simp [hread]
    | _ => simp [Codec.decode_encode _ _ h]

/-- `#[serde(tag = "t", content = "d")]`. -/
def codec : Codec ServerEvent := adjacent "t" "d" (by simp) (variants forms)

end ServerEvent

/-! ## Client to server -/

namespace ClientMessage

/-- The name of the operation, in snake_case. -/
def op : ClientMessage → String
  | .sendMessage .. => "send_message"
  | .ackMessage .. => "ack_message"
  | .updatePresence _ => "update_presence"
  | .heartbeat _ => "heartbeat"
  | .startTyping _ => "start_typing"

def sendMessageCodec : Codec (ChannelId × String) :=
  named ((Fields.one "channel_id" (.text forms.uuid)).and (Fields.one "content" .string))
    (by simp [Fields.and, Fields.one])

def ackMessageCodec : Codec (ChannelId × MessageId) :=
  named ((Fields.one "channel_id" (.text forms.uuid)).and
    (Fields.one "message_id" (.text forms.uuid))) (by simp [Fields.and, Fields.one])

def updatePresenceCodec (source : Source) : Codec PresenceStatus :=
  named (Fields.one "status" (PresenceStatus.codec source)) (Fields.nodup_one _ _)

def heartbeatCodec : Codec UInt64 := named (Fields.one "seq" u64) (Fields.nodup_one _ _)

def startTypingCodec : Codec ChannelId :=
  named (Fields.one "channel_id" (.text forms.uuid)) (Fields.nodup_one _ _)

/-- The variants. The server only reads them. -/
def variants : Variants ClientMessage where
  encode message := (message.op, match message with
    | .sendMessage channelId content => (sendMessageCodec forms).encode (channelId, content)
    | .ackMessage channelId messageId => (ackMessageCodec forms).encode (channelId, messageId)
    | .updatePresence status => (updatePresenceCodec .text).encode status
    | .heartbeat seq => heartbeatCodec.encode seq
    | .startTyping channelId => (startTypingCodec forms).encode channelId)
  decode source name value :=
    if name = "send_message" then
      ((sendMessageCodec forms).decode value).map fun (channelId, content) =>
        .sendMessage channelId content
    else if name = "ack_message" then
      ((ackMessageCodec forms).decode value).map fun (channelId, messageId) =>
        .ackMessage channelId messageId
    else if name = "update_presence" then
      ((updatePresenceCodec source).decode value).map .updatePresence
    else if name = "heartbeat" then (heartbeatCodec.decode value).map .heartbeat
    else if name = "start_typing" then
      ((startTypingCodec forms).decode value).map .startTyping
    else none
  valid
    | .sendMessage channelId content => (sendMessageCodec forms).valid (channelId, content)
    | .ackMessage channelId messageId => (ackMessageCodec forms).valid (channelId, messageId)
    | .updatePresence status => (updatePresenceCodec .text).valid status
    | .heartbeat seq => heartbeatCodec.valid seq
    | .startTyping channelId => (startTypingCodec forms).valid channelId
  decode_encode source message h := by
    cases message with
    | updatePresence status =>
      have hread : (updatePresenceCodec source).decode
          ((updatePresenceCodec .text).encode status) = some status :=
        (updatePresenceCodec source).decode_encode _ h
      simp [op, hread]
    | _ => simp [op, Codec.decode_encode _ _ h]

/-- `#[serde(tag = "op", content = "d")]`. -/
def codec : Codec ClientMessage := adjacent "op" "d" (by simp) (variants forms)

end ClientMessage

/-! ## Node to node -/

def CrossNodePayload.codec : Codec CrossNodePayload :=
  (record ((stringField "source_node").and
      ((Fields.one "target_user_ids" (.list (.text forms.uuid))).and (stringField "event")))
    (by simp [Fields.and, Fields.one, stringField])).map
    (fun (sourceNode, targetUserIds, event) => ⟨sourceNode, targetUserIds, event⟩)
    (fun p => (p.sourceNode, p.targetUserIds, p.event)) fun _ => rfl

def PresencePayload.fields : Fields (String × UserId × PresenceStatus) :=
  (stringField "source_node").and
    ((idField forms "user_id").and (Fields.one "status" (PresenceStatus.codec .text)))

/-- Read as the record it is. Written by `json!`, whose objects are sorted by name. -/
def PresencePayload.codec : Codec PresencePayload where
  encode p := .obj [("source_node", .str p.sourceNode), ("status", .str p.status.name),
    ("user_id", .str (forms.uuid.toString p.userId))]
  decode v := ((fieldsOf (fields forms).names v).bind (fields forms).decode).map
    fun (sourceNode, userId, status) => ⟨sourceNode, userId, status⟩
  valid p := forms.uuid.valid p.userId
  decode_encode p hp := by
    obtain ⟨sourceNode, userId, status⟩ := p
    have hnodup : (fields forms).names.Nodup := by
      simp [fields, stringField, idField, Fields.and, Fields.one]
    have hfound : fieldsOf (fields forms).names (.obj [("source_node", .str sourceNode),
        ("status", .str status.name), ("user_id", .str (forms.uuid.toString userId))]) =
        some (((fields forms).encode (sourceNode, userId, status)).map some) :=
      (namedFieldsOf_eq_map_some_iff hnodup).2
        (@Holds.obj _ _ [] _ rfl (fun _ => nofun) (.cons _ (.swap _ _ _)))
    have hvalid : (fields forms).valid (sourceNode, userId, status) = true := by
      simpa [fields, stringField, idField, Fields.and, Fields.one, Codec.string, Codec.text,
        PresenceStatus.codec, Codec.unit] using hp
    rw [hfound]
    exact congrArg (Option.map _) ((fields forms).decode_encode _ hvalid)

end

/-! ## Text -/

/-- `serde_json`, for the values that a type of the source can hold. -/
def Serde.ofCodec {α : Type} (json : TextForm Value) (c : Codec α) : Serde α where
  toString a :=
    if c.valid a && json.valid (c.encode a) then .ok (json.toString (c.encode a))
    else .error "no text"
  fromStr text := match (json.parse text).bind c.decode with
    | some a => .ok a
    | none => .error "invalid text"

theorem Serde.ofCodec_toString {α : Type} {json : TextForm Value} {c : Codec α} {a : α}
    {text : String} (h : (c.valid a && json.valid (c.encode a)) = true)
    (htext : json.toString (c.encode a) = text) :
    (Serde.ofCodec json c).toString a = .ok text := by
  rw [ofCodec, ← htext]
  exact if_pos h

theorem Serde.ofCodec_fromStr_iff {α : Type} {json : TextForm Value} {c : Codec α} {text : String}
    {a : α} : (Serde.ofCodec json c).fromStr text = .ok a ↔
      ∃ v, json.parse text = some v ∧ c.decode v = some a := by
  rw [← Option.bind_eq_some_iff]
  simp only [ofCodec]
  cases (json.parse text).bind c.decode <;> simp

theorem Serde.ofCodec_roundTrip {α : Type} (json : TextForm Value) (c : Codec α) :
    (Serde.ofCodec json c).RoundTrip := by
  intro a text h
  simp only [ofCodec] at h
  split_ifs at h with hvalid
  obtain rfl := Except.ok.inj h
  rw [Bool.and_eq_true] at hvalid
  exact ofCodec_fromStr_iff.2 ⟨_, json.parse_toString _ hvalid.2, c.decode_encode _ hvalid.1⟩

namespace TextForms

variable (forms : TextForms)

def event : Serde ServerEvent := .ofCodec forms.json (ServerEvent.codec forms)

def payload : Serde CrossNodePayload := .ofCodec forms.json (CrossNodePayload.codec forms)

def presence : Serde PresencePayload := .ofCodec forms.json (PresencePayload.codec forms)

def client : Serde ClientMessage := .ofCodec forms.json (ClientMessage.codec forms)

def wire : Json := ⟨forms.event, forms.payload⟩

theorem wire_roundTrip : forms.wire.RoundTrip :=
  ⟨Serde.ofCodec_roundTrip _ _, Serde.ofCodec_roundTrip _ _⟩

/-- **What is published is read**, by every node but the one that published it. -/
theorem published_read (bridge : RedisBridge) (redis : Except String Unit) (sessions : SessionStore)
    (p : Pipes) (myNodeId : String) :
    (∀ targets event text raw, forms.event.toString event = .ok text →
      bridge.publishEvent forms.wire redis ⟨bridge.nodeId, targets, text⟩ = .ok (some raw) →
      handleMessage forms.wire forms.presence sessions p myNodeId
        ⟨"rustrelay:events", some raw⟩ =
        if bridge.nodeId = myNodeId then p else (sessions.sendToUsers p targets event).2) ∧
    ∀ u status message, bridge.publishPresence redis forms.presence u status = some message →
      handleMessage forms.wire forms.presence sessions p myNodeId message =
        if bridge.nodeId = myNodeId then p
        else (sessions.sendToUsers p sessions.connectedUserIds (.presenceUpdate u status)).2 := by
  constructor
  · intro targets event text raw htext hpublish
    have hraw : forms.wire.payload.toString ⟨bridge.nodeId, targets, text⟩ = .ok raw := by
      simp only [RedisBridge.publishEvent] at hpublish
      split_ifs at hpublish
      · cases hpublish
      split at hpublish
      · cases hpublish
      · next raw' hraw =>
        split at hpublish
        · cases hpublish
        · rw [hraw, Option.some.inj (Except.ok.inj hpublish)]
    simp only [handleMessage, handleCrossNodeEvent,
      acceptPayload_published forms.wire_roundTrip htext hraw]
    split_ifs <;> rfl
  · intro u status message hpublish
    simp only [RedisBridge.publishPresence] at hpublish
    split_ifs at hpublish
    split at hpublish
    · next raw hraw =>
      obtain rfl := Option.some.inj hpublish
      exact PresenceHost.handleMessage_published (Serde.ofCodec_roundTrip _ _) _ hraw sessions p
        myNodeId
    · cases hpublish

/-- A message, as a node writes it. -/
def createdEvent : ServerEvent := .messageCreate ⟨7, 7, 7, "hi", 0, none⟩

def createdText : String :=
  "\x7b\"t\":\"MESSAGE_CREATE\",\"d\":\x7b" ++
    "\"id\":\"00000000-0000-0000-0000-000000000007\"," ++
    "\"channel_id\":\"00000000-0000-0000-0000-000000000007\"," ++
    "\"author_id\":\"00000000-0000-0000-0000-000000000007\"," ++
    "\"content\":\"hi\",\"timestamp\":\"1970-01-01T00:00:00Z\",\"edited_at\":null\x7d\x7d"

def createdPayload : String :=
  "\x7b\"source_node\":\"node-1\"," ++
    "\"target_user_ids\":[\"00000000-0000-0000-0000-000000000008\"]," ++
    "\"event\":\"" ++
    "\x7b\\\"t\\\":\\\"MESSAGE_CREATE\\\",\\\"d\\\":\x7b" ++
    "\\\"id\\\":\\\"00000000-0000-0000-0000-000000000007\\\"," ++
    "\\\"channel_id\\\":\\\"00000000-0000-0000-0000-000000000007\\\"," ++
    "\\\"author_id\\\":\\\"00000000-0000-0000-0000-000000000007\\\"," ++
    "\\\"content\\\":\\\"hi\\\",\\\"timestamp\\\":\\\"1970-01-01T00:00:00Z\\\"," ++
    "\\\"edited_at\\\":null\x7d\x7d\"\x7d"

/-- The texts that are needed for it. -/
def createdForms : TextForms :=
  let uuid := TextForm.table [((7 : Uuid), "00000000-0000-0000-0000-000000000007"),
    (8, "00000000-0000-0000-0000-000000000008")] (by decide)
  let time := TextForm.table [((0 : Timestamp), "1970-01-01T00:00:00Z")] (by decide)
  let empty : TextForms := ⟨uuid, time, TextForm.table [] List.nodup_nil⟩
  ⟨uuid, time, TextForm.table [((ServerEvent.codec empty).encode createdEvent, createdText),
    ((CrossNodePayload.codec empty).encode ⟨"node-1", [8], createdText⟩, createdPayload)]
    (by decide +kernel)⟩

theorem event_created : createdForms.event.toString createdEvent = .ok createdText :=
  Serde.ofCodec_toString (by decide +kernel) (by decide +kernel)

theorem payload_created :
    createdForms.payload.toString ⟨"node-1", [8], createdText⟩ = .ok createdPayload :=
  Serde.ofCodec_toString (by decide +kernel) (by decide +kernel)

theorem published_read_created :
    (handleMessage createdForms.wire createdForms.presence (SessionStore.new.insert ⟨3, 8⟩)
      ⟨fun _ => [], fun _ => false⟩ "node-2" ⟨"rustrelay:events", some createdPayload⟩).queue 3 =
      [createdEvent] := by
  have hpublish : (RedisBridge.mk "node-1" false).publishEvent createdForms.wire (.ok ())
      ⟨"node-1", [8], createdText⟩ = .ok (some createdPayload) := by
    simp [RedisBridge.publishEvent, wire, payload_created]
  rw [(published_read createdForms ⟨"node-1", false⟩ (.ok ()) _ _ "node-2").1 [8] createdEvent
    createdText createdPayload event_created hpublish, if_neg (by decide)]
  rfl

end TextForms

/-! ## What is read as a client message -/

namespace ClientMessage

variable (forms : TextForms)

/-- The fields of an operation, and what each shows where it is read from a source. -/
def fields (source : Source) : ClientMessage → List (String × (Value → Prop))
  | .sendMessage channelId content =>
    [("channel_id", fun v => ∃ s, v = .str s ∧ forms.uuid.parse s = some channelId),
      ("content", fun v => v = .str content)]
  | .ackMessage channelId messageId =>
    [("channel_id", fun v => ∃ s, v = .str s ∧ forms.uuid.parse s = some channelId),
      ("message_id", fun v => ∃ s, v = .str s ∧ forms.uuid.parse s = some messageId)]
  | .updatePresence status => [("status", fun v => v.unitName source = some status.name)]
  | .heartbeat seq => [("seq", fun v => v = .int seq.toNat)]
  | .startTyping channelId =>
    [("channel_id", fun v => ∃ s, v = .str s ∧ forms.uuid.parse s = some channelId)]

/-- The fields of the operation, each with what it shows. -/
def ShowsFields (source : Source) (message : ClientMessage) (v : Value) : Prop :=
  ∃ values, Holds ((message.fields forms source).map Prod.fst) v values ∧
    List.Forall₂ (fun field x => field.2 x) (message.fields forms source) values

/-- The operation under `op`, and its fields under `d`. -/
def Shows (message : ClientMessage) (v : Value) : Prop :=
  ∃ source content, Tagged "op" "d" v source message.op content ∧
    message.ShowsFields forms source content

variable {forms}

theorem decode_id_iff {v : Value} {id : Uuid} : (Codec.text forms.uuid).decode v = some id ↔
    ∃ s, v = .str s ∧ forms.uuid.parse s = some id := by
  cases v <;> simp [Codec.text]

theorem decode_string_iff {v : Value} {s : String} :
    Codec.string.decode v = some s ↔ v = .str s := by
  cases v <;> simp [Codec.string]

theorem decode_u64_iff {v : Value} {n : UInt64} : u64.decode v = some n ↔ v = .int n.toNat := by
  constructor
  · intro h
    obtain ⟨i, hi, rfl⟩ := Option.map_eq_some_iff.1 h
    cases v with
    | int j =>
      simp only [Codec.int] at hi
      split_ifs at hi with hbounds
      obtain rfl := Option.some.inj hi
      rw [UInt64.toNat_ofNat_of_lt' (by simp [UInt64.size]; omega), Int.toNat_of_nonneg hbounds.1]
    | _ => cases hi
  · rintro rfl
    exact u64.decode_encode n (by simp [u64, Codec.map, Codec.int]; have := n.toNat_lt; omega)

theorem decode_status_iff {source : Source} {v : Value} {status : PresenceStatus} :
    (PresenceStatus.codec source).decode v = some status ↔
      v.unitName source = some status.name := by
  simp [PresenceStatus.codec, Codec.unit, Option.bind_eq_some_iff,
    PresenceStatus.ofName_eq_some_iff]

theorem shows_one_iff {name : String} {R : Value → Prop} {v : Value} :
    (∃ values, Holds ([(name, R)].map Prod.fst) v values ∧
      List.Forall₂ (fun field x => field.2 x) [(name, R)] values) ↔
      ∃ x, Holds [name] v [x] ∧ R x := by
  constructor
  · rintro ⟨values, hholds, hvalues⟩
    cases hvalues with
    | cons hx hnil =>
      cases hnil
      exact ⟨_, hholds, hx⟩
  · rintro ⟨x, hholds, hx⟩
    exact ⟨[x], hholds, .cons hx .nil⟩

theorem shows_two_iff {name name' : String} {R R' : Value → Prop} {v : Value} :
    (∃ values, Holds ([(name, R), (name', R')].map Prod.fst) v values ∧
      List.Forall₂ (fun field x => field.2 x) [(name, R), (name', R')] values) ↔
      ∃ x y, Holds [name, name'] v [x, y] ∧ R x ∧ R' y := by
  constructor
  · rintro ⟨values, hholds, hvalues⟩
    cases hvalues with
    | cons hx hrest =>
      cases hrest with
      | cons hy hnil =>
        cases hnil
        exact ⟨_, _, hholds, hx, hy⟩
  · rintro ⟨x, y, hholds, hx, hy⟩
    exact ⟨[x, y], hholds, .cons hx (.cons hy .nil)⟩

theorem decode_op_iff {source : Source} {message : ClientMessage} {v : Value} :
    (variants forms).decode source message.op v = some message ↔
      message.ShowsFields forms source v := by
  cases message with
  | sendMessage channelId content =>
    have hdecode : (variants forms).decode source "send_message" v =
        some (.sendMessage channelId content) ↔
        (sendMessageCodec forms).decode v = some (channelId, content) := by
      simp [variants]
    rw [op, hdecode, sendMessageCodec, named_two_decode_iff, ShowsFields, fields, shows_two_iff]
    simp only [decode_id_iff, decode_string_iff]
  | ackMessage channelId messageId =>
    have hdecode : (variants forms).decode source "ack_message" v =
        some (.ackMessage channelId messageId) ↔
        (ackMessageCodec forms).decode v = some (channelId, messageId) := by
      simp [variants]
    rw [op, hdecode, ackMessageCodec, named_two_decode_iff, ShowsFields, fields, shows_two_iff]
    simp only [decode_id_iff]
  | updatePresence status =>
    have hdecode : (variants forms).decode source "update_presence" v =
        some (.updatePresence status) ↔ (updatePresenceCodec source).decode v = some status := by
      simp [variants]
    rw [op, hdecode, updatePresenceCodec, named_one_decode_iff, ShowsFields, fields,
      shows_one_iff]
    simp only [decode_status_iff]
  | heartbeat seq =>
    have hdecode : (variants forms).decode source "heartbeat" v = some (.heartbeat seq) ↔
        heartbeatCodec.decode v = some seq := by
      simp [variants]
    rw [op, hdecode, heartbeatCodec, named_one_decode_iff, ShowsFields, fields, shows_one_iff]
    simp only [decode_u64_iff]
  | startTyping channelId =>
    have hdecode : (variants forms).decode source "start_typing" v = some (.startTyping channelId) ↔
        (startTypingCodec forms).decode v = some channelId := by
      simp [variants]
    rw [op, hdecode, startTypingCodec, named_one_decode_iff, ShowsFields, fields, shows_one_iff]
    simp only [decode_id_iff]

theorem variants_decode_iff {source : Source} {name : String} {v : Value}
    {message : ClientMessage} : (variants forms).decode source name v = some message ↔
      name = message.op ∧ message.ShowsFields forms source v := by
  have hop (h : (variants forms).decode source name v = some message) : name = message.op := by
    simp only [variants] at h
    split_ifs at h with h1 h2 h3 h4 h5 <;>
      obtain ⟨payload, -, rfl⟩ := Option.map_eq_some_iff.1 h <;> assumption
  rw [← decode_op_iff]
  constructor
  · intro h
    exact ⟨hop h, hop h ▸ h⟩
  · rintro ⟨rfl, h⟩
    exact h

/-- An empty object does for null, but only before the operation is known. -/
example : (codec forms).decode (.obj [("d", .obj [("status", .obj [("idle", .obj [])])]),
    ("op", .str "update_presence")]) = some (.updatePresence .idle) := by rfl

example : (codec forms).decode (.obj [("op", .str "update_presence"),
    ("d", .obj [("status", .obj [("idle", .obj [])])])]) = none := by rfl

end ClientMessage

end RustRelay
