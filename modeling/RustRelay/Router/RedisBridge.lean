import RustRelay.Db
import RustRelay.Gateway.Session

/-!
# The Redis bridge

A node publishes a `CrossNodePayload` as JSON on `rustrelay:events`; every node that receives it
delivers it to its own sessions, unless it published it itself. `serde_json` is given by a
`Serde` for each type, of which only a round trip is ever assumed.
-/

namespace RustRelay

/-! ## JSON -/

/-- `serde_json::to_string` and `serde_json::from_str` for one type. -/
structure Serde (α : Type) where
  toString : α → Except String String
  fromStr : String → Except String α

/-- What was written is read back. -/
def Serde.RoundTrip {α : Type} (serde : Serde α) : Prop :=
  ∀ a text, serde.toString a = .ok text → serde.fromStr text = .ok a

/-- The codec of one value, by its text. -/
def Serde.single {α : Type} [DecidableEq α] (a : α) (text : String) : Serde α where
  toString b := if b = a then .ok text else .error "unknown value"
  fromStr s := if s = text then .ok a else .error "unknown text"

theorem Serde.single_toString {α : Type} [DecidableEq α] (a : α) (text : String) :
    (Serde.single a text).toString a = .ok text := if_pos rfl

theorem Serde.single_roundTrip {α : Type} [DecidableEq α] (a : α) (text : String) :
    (Serde.single a text).RoundTrip := by
  intro b s h
  simp only [Serde.single] at h ⊢
  split_ifs at h with hb
  rw [if_pos (Except.ok.inj h).symm, hb]

/-- The codec of two values, by their texts. -/
def Serde.two {α : Type} [DecidableEq α] (a b : α) (text text' : String) : Serde α where
  toString c := if c = a then .ok text else if c = b then .ok text' else .error "unknown value"
  fromStr s := if s = text then .ok a else if s = text' then .ok b else .error "unknown text"

theorem Serde.two_roundTrip {α : Type} [DecidableEq α] (a b : α) {text text' : String}
    (hne : text' ≠ text) : (Serde.two a b text text').RoundTrip := by
  intro c s h
  simp only [Serde.two] at h ⊢
  split_ifs at h with ha hb
  · rw [if_pos (Except.ok.inj h).symm, ha]
  · obtain rfl := Except.ok.inj h
    rw [if_neg hne, if_pos rfl, hb]

/-- The types that travel between nodes. -/
structure Json where
  event : Serde ServerEvent
  payload : Serde CrossNodePayload

structure Json.RoundTrip (json : Json) : Prop where
  event : json.event.RoundTrip
  payload : json.payload.RoundTrip

/-! ## Publishing -/

/-- The errors of `handle_send`. -/
inductive SendError
  | db (e : DbError)
  | json (message : String)
  | redis (message : String)
  deriving DecidableEq, Repr

/-- Without a `REDIS_URL` the bridge is disabled. -/
structure RedisBridge where
  nodeId : String
  disabled : Bool

/-- `publish_event`, with the answer of Redis and the text that was published. -/
def RedisBridge.publishEvent (bridge : RedisBridge) (json : Json) (redis : Except String Unit)
    (payload : CrossNodePayload) : Except SendError (Option String) :=
  if bridge.disabled then .ok none
  else match json.payload.toString payload with
    | .error e => .error (.json e)
    | .ok text => match redis with
      | .error e => .error (.redis e)
      | .ok () => .ok (some text)

/-! ## Receiving -/

/-- The checks of `handle_cross_node_event`: whom to send what, if the payload is from another
node and can be read. -/
def acceptPayload (json : Json) (myNodeId raw : String) : Option (List UserId × ServerEvent) :=
  match json.payload.fromStr raw with
  | .error _ => none
  | .ok payload =>
    if payload.sourceNode = myNodeId then none
    else match json.event.fromStr payload.event with
      | .error _ => none
      | .ok event => some (payload.targetUserIds, event)

/-- `handle_cross_node_event`. -/
def handleCrossNodeEvent (json : Json) (sessions : SessionStore) (p : Pipes) (myNodeId : String)
    (raw : String) : Pipes :=
  match acceptPayload json myNodeId raw with
  | none => p
  | some (targetUserIds, event) => (sessions.sendToUsers p targetUserIds event).2

/-- **A node accepts what another node published**, and ignores what it published itself. -/
theorem acceptPayload_published {json : Json} (hjson : json.RoundTrip) {sourceNode : String}
    {targets : List UserId} {event : ServerEvent} {text raw : String}
    (htext : json.event.toString event = .ok text)
    (hraw : json.payload.toString ⟨sourceNode, targets, text⟩ = .ok raw) (myNodeId : String) :
    acceptPayload json myNodeId raw =
      if sourceNode = myNodeId then none else some (targets, event) := by
  simp only [acceptPayload, hjson.payload _ _ hraw, hjson.event _ _ htext]

end RustRelay
