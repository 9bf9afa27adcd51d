import RustRelay.Core.InOrder
import RustRelay.Gateway.Registry
import RustRelay.Router.Fanout

/-!
# The messages of one connection, in order

Any number of connections on any number of nodes send messages. The reader of a connection handles
one operation at a time, but between its steps everything moves: other readers, the subscribers, the
member caches, sessions that come and go, and a user who was remote for one message may be local for
the next.

**Theorem (`connection_fifo`).** In every run, if the `i`-th message of a connection and the `j`-th
were both received by some session, on any node, and `i < j`, then the `i`-th was received first.

From Redis this takes one thing: what one node publishes arrives at each subscriber in that order,
and what is lost on the way is just missing. A payload travels from a publisher to a subscriber
through `net`, and is then handled; `path` is everything a session has from one node, in that order,
received and not yet. The invariant is that no path has two messages of a connection the wrong way
round.
-/

namespace RustRelay

open Machine InOrder

/-! ## The machine -/

/-- A connection: where it is, and whose. -/
structure Connected (ι : Type) where
  node : ι
  userId : UserId

/-- A `SendMessage` of a client, with what the world will answer to its `handle_send`. -/
structure SendOp where
  channelId : ChannelId
  content : String
  answers : Answers

/-- The event of the operation. -/
def SendOp.event (op : SendOp) (authorId : UserId) : ServerEvent :=
  messageEvent (storedMessage op.answers authorId op.channelId op.content)

/-- Where the reader loop of a connection is. -/
inductive ReaderPc
  /-- `ws_stream.next()`. -/
  | next
  /-- `insert_message` is next. -/
  | persist (op : SendOp)
  /-- `get_channel_members` is next. -/
  | lookup (op : SendOp)
  /-- The loop over the members that are left, with the remote targets so far. -/
  | loop (op : SendOp) (members remoteTargets : List UserId)
  /-- The member is connected; `send_to_user` is next. -/
  | send (op : SendOp) (member : UserId) (members remoteTargets : List UserId)
  /-- `send_to_user` has still to send to these sessions. -/
  | push (op : SendOp) (sessions : List Session) (members remoteTargets : List UserId)

/-- The operation whose message is stored and which goes on. -/
def ReaderPc.stored : ReaderPc → Option SendOp
  | .next | .persist _ => none
  | .lookup op | .loop op _ _ | .send op _ _ _ | .push op _ _ _ => some op

/-- A payload that `handle_cross_node_event` is working through. -/
structure Handling where
  event : ServerEvent
  /-- The targets it has not looked up. -/
  targetUserIds : List UserId
  /-- What `send_to_user` has still to send to. -/
  sessions : List Session

structure Relay (ι κ : Type) where
  registry : ι → Registry
  pipes : ι → Pipes
  /-- How many events the writer task of a session has written. -/
  written : ι → SessionId → ℕ
  routers : ι → MessageRouter
  readers : κ → ReaderPc
  /-- The operations of each connection that the database has answered, with their messages. -/
  created : κ → List (Option ServerEvent)
  /-- The message ids that were given out. -/
  issued : List MessageId
  /-- What a node has published and a subscriber has not received. -/
  net : ι → ι → List String
  handling : ι → Option Handling

namespace Relay

variable {ι κ : Type}

/-- What a session has received. -/
def received (s : Relay ι κ) (b : ι) (sid : SessionId) : List ServerEvent :=
  ((s.pipes b).queue sid).take (s.written b sid)

def init (routers : ι → MessageRouter) : Relay ι κ where
  registry _ := .init
  pipes _ := ⟨fun _ => [], fun _ => false⟩
  written _ _ := 0
  routers := routers
  readers _ := .next
  created _ := []
  issued := []
  net _ _ := []
  handling _ := none

inductive Action (ι κ : Type)
  /-- The reader of a connection gets an operation of its client. -/
  | next (k : κ) (op : SendOp)
  /-- The database, as it is now, stores the message under a new id, or refuses. -/
  | persist (k : κ) (db : Database)
  | lookup (k : κ) (db : Database)
  /-- `is_connected` for the next member. -/
  | check (k : κ)
  /-- `send_to_user` looks the member up. -/
  | get (k : κ)
  /-- `send_to_user` sends to the next session, or returns. -/
  | push (k : κ)
  | publish (k : κ)
  /-- The subscriber of `b` receives the next payload of `a`. -/
  | poll (b a : ι)
  /-- A payload of `a` does not arrive at `b`. -/
  | lose (b a : ι) (n : ℕ)
  /-- `handle_cross_node_event` goes on. -/
  | deliver (b : ι)
  /-- Some task sends an event that is no MESSAGE_CREATE. -/
  | other (b : ι) (sessionId : SessionId) (event : ServerEvent)
  /-- The writer task of a session writes the next event. -/
  | write (b : ι) (sessionId : SessionId)
  /-- The writer task of a session ends. -/
  | hangUp (b : ι) (sessionId : SessionId)
  /-- A call of `insert` or `remove` on a node. -/
  | registry (b : ι) (a : Registry.Action)
  /-- Another call of `get_channel_members` on a node. -/
  | refresh (b : ι) (db : Database) (fetch : Except DbError Unit) (instant : ℕ)
      (channelId : ChannelId)
  /-- `invalidate_channel_cache`, or an entry that the cache cleanup drops. -/
  | invalidate (b : ι) (channelId : ChannelId)

variable [DecidableEq ι] [DecidableEq κ]

def setReader (s : Relay ι κ) (k : κ) (pc : ReaderPc) : Relay ι κ :=
  { s with readers := Function.update s.readers k pc }

/-- `Session::send` on a node. -/
def sendOn (s : Relay ι κ) (b : ι) (sid : SessionId) (event : ServerEvent) : Relay ι κ :=
  { s with pipes := Function.update s.pipes b ((s.pipes b).send sid event).2 }

/-- What a node has published to each subscriber. -/
def setNet (s : Relay ι κ) (a : ι) (raws : ι → List String) : Relay ι κ :=
  { s with net := Function.update s.net a raws }

def setHandling (s : Relay ι κ) (b : ι) (h : Option Handling) : Relay ι κ :=
  { s with handling := Function.update s.handling b h }

def setRouter (s : Relay ι κ) (b : ι) (router : MessageRouter) : Relay ι κ :=
  { s with routers := Function.update s.routers b router }

/-- The database has answered the operation of a connection. -/
def record (s : Relay ι κ) (k : κ) (event : Option ServerEvent) : Relay ι κ :=
  { s with created := Function.update s.created k (s.created k ++ [event]) }

variable (json : Json) (names : ι → String) (clients : κ → Connected ι)

def step (s : Relay ι κ) : Action ι κ → Option (Relay ι κ)
  | .next k op => match s.readers k with
    | .next => some (s.setReader k (.persist op))
    | _ => none
  | .persist k db => match s.readers k with
    | .persist op =>
      match op.answers.insert.bind fun _ => insertMessage db op.answers.messageId
        op.answers.createdAt op.channelId (clients k).userId op.content with
      | .error _ => some ((s.record k none).setReader k .next)
      | .ok _ =>
        if op.answers.messageId ∈ s.issued then none
        else some { (s.record k (some (op.event (clients k).userId))).setReader k (.lookup op) with
          issued := op.answers.messageId :: s.issued }
    | _ => none
  | .lookup k db => match s.readers k with
    | .lookup op =>
      match (s.routers (clients k).node).getChannelMembers db op.answers.fetch op.answers.instant
        op.channelId with
      | (.error _, router) => some ((s.setRouter (clients k).node router).setReader k .next)
      | (.ok members, router) =>
        some ((s.setRouter (clients k).node router).setReader k (.loop op members []))
    | _ => none
  | .check k => match s.readers k with
    | .loop op (member :: members) remoteTargets =>
      if (s.registry (clients k).node).store.isConnected member then
        some (s.setReader k (.send op member members remoteTargets))
      else some (s.setReader k (.loop op members (remoteTargets ++ [member])))
    | _ => none
  | .get k => match s.readers k with
    | .send op member members remoteTargets =>
      let sessions := (s.registry (clients k).node).store.vec member
      some (s.setReader k (.push op sessions members remoteTargets))
    | _ => none
  | .push k => match s.readers k with
    | .push op (session :: sessions) members remoteTargets =>
      some ((s.sendOn (clients k).node session.sessionId (op.event (clients k).userId)).setReader k
        (.push op sessions members remoteTargets))
    | .push op [] members remoteTargets => some (s.setReader k (.loop op members remoteTargets))
    | _ => none
  | .publish k => match s.readers k with
    | .loop op [] remoteTargets =>
      let a := (clients k).node
      match (s.routers a).publishRemote json op.answers (op.event (clients k).userId)
        remoteTargets with
      | .error _ | .ok none => some (s.setReader k .next)
      -- The payload is on its way to every subscriber when the await returns.
      | .ok (some raw) => some ((s.setNet a fun b => s.net a b ++ [raw]).setReader k .next)
    | _ => none
  | .poll b a => match s.handling b, s.net a b with
    | none, raw :: raws => some ((s.setNet a (Function.update (s.net a) b raws)).setHandling b
        ((acceptPayload json (names b) raw).map fun p => ⟨p.2, p.1, []⟩))
    | _, _ => none
  | .lose b a n => some (s.setNet a (Function.update (s.net a) b ((s.net a b).eraseIdx n)))
  | .deliver b => match s.handling b with
    | some ⟨_, [], []⟩ => some (s.setHandling b none)
    | some ⟨event, u :: us, []⟩ =>
      some (s.setHandling b (some ⟨event, us, (s.registry b).store.vec u⟩))
    | some ⟨event, us, session :: sessions⟩ =>
      some ((s.sendOn b session.sessionId event).setHandling b (some ⟨event, us, sessions⟩))
    | none => none
  | .other b sid event => match event with
    | .messageCreate _ => none
    | _ => some (s.sendOn b sid event)
  | .write b sid =>
    if s.written b sid < ((s.pipes b).queue sid).length then some { s with
      written := Function.update s.written b
        (Function.update (s.written b) sid (s.written b sid + 1)) }
    else none
  | .hangUp b sid => some { s with
      pipes := Function.update s.pipes b
        { s.pipes b with closed := Function.update (s.pipes b).closed sid true } }
  | .registry b a => ((s.registry b).step a).map fun r =>
    { s with registry := Function.update s.registry b r }
  | .refresh b db fetch instant channelId =>
    some (s.setRouter b ((s.routers b).getChannelMembers db fetch instant channelId).2)
  | .invalidate b channelId => some (s.setRouter b ((s.routers b).invalidateChannelCache channelId))

/-! ## The invariant -/

omit [DecidableEq ι] [DecidableEq κ] in
/-- The messages of a connection, in the order of its operations. -/
def sent (s : Relay ι κ) (k : κ) : List ServerEvent := (s.created k).reduceOption

/-- The event of a payload, if the node accepts it. -/
def accepts (b : ι) (raw : String) : Option ServerEvent :=
  (acceptPayload json (names b) raw).map Prod.snd

/-- The events that node `b` has still to handle of those that node `a` published, if the payload
it is handling is one of them. -/
def underway (s : Relay ι κ) (a b : ι) : List ServerEvent :=
  (s.handling b).toList.map Handling.event ++ (s.net a b).filterMap (accepts json names b)

/-- Everything a session gets from node `a`, in its order. -/
def path (s : Relay ι κ) (a b : ι) (sid : SessionId) : List ServerEvent :=
  (s.pipes b).queue sid ++ s.underway json names a b

structure Inv (s : Relay ι κ) : Prop where
  nodup : ∀ k, (s.sent k).Nodup
  disjoint : ∀ k k' e, e ∈ s.sent k → e ∈ s.sent k' → k = k'
  messages : ∀ k, ∀ e ∈ s.sent k, ∃ m, e = .messageCreate m ∧ m.id ∈ s.issued
  nodeId : ∀ b, (s.routers b).nodeId = names b
  /-- The message that a reader is at is the latest one of its connection. -/
  latest : ∀ k op, (s.readers k).stored = some op →
    ∃ l, s.sent k = l ++ [op.event (clients k).userId]
  /-- Every message anywhere was sent by a connection. -/
  queue : ∀ b sid m, .messageCreate m ∈ (s.pipes b).queue sid → ∃ k, .messageCreate m ∈ s.sent k
  handling : ∀ b h, s.handling b = some h → ∃ k, (clients k).node ≠ b ∧ h.event ∈ s.sent k
  net : ∀ a b, ∀ raw ∈ s.net a b, ∀ e, accepts json names b raw = some e →
    a ≠ b ∧ ∃ k, (clients k).node = a ∧ e ∈ s.sent k
  /-- No path has two messages of a connection the wrong way round. -/
  order : ∀ k b sid, Follows (s.sent k) (s.path json names (clients k).node b sid)

variable {json names clients} {s s' : Relay ι κ}

/-! ## What one step keeps -/

omit [DecidableEq ι] in
theorem sent_record (k : κ) (event : Option ServerEvent) (k' : κ) :
    (s.record k event).sent k' = if k' = k then s.sent k ++ event.toList else s.sent k' := by
  simp only [sent, record, Function.update_apply]
  split_ifs
  · rw [List.reduceOption_append]
    cases event <;> rfl
  · rfl

omit [DecidableEq ι] [DecidableEq κ] in
/-- Everything on a path that is a message was sent. -/
theorem Inv.mem_path (h : s.Inv json names clients) {a b : ι} {sid : SessionId}
    {m : MessagePayload} (hm : .messageCreate m ∈ s.path json names a b sid) :
    ∃ k, .messageCreate m ∈ s.sent k := by
  rcases List.mem_append.1 hm with hm | hm
  · exact h.queue b sid m hm
  · rcases List.mem_append.1 hm with hm | hm
    · obtain ⟨hd, hhd, heq⟩ := List.mem_map.1 hm
      obtain ⟨k, -, hk⟩ := h.handling b hd (Option.mem_toList.1 hhd)
      exact ⟨k, heq ▸ hk⟩
    · obtain ⟨raw, hraw, haccept⟩ := List.mem_filterMap.1 hm
      obtain ⟨-, k, -, hk⟩ := h.net a b raw hraw _ haccept
      exact ⟨k, hk⟩

omit [DecidableEq ι] [DecidableEq κ] in
/-- What a node handles or will handle is not of its own connections. -/
theorem Inv.notMem_underway (h : s.Inv json names clients) (k : κ) {e : ServerEvent}
    (he : e ∈ s.underway json names (clients k).node (clients k).node) : e ∉ s.sent k := by
  rcases List.mem_append.1 he with he | he
  · obtain ⟨hd, hhd, rfl⟩ := List.mem_map.1 he
    obtain ⟨k', hne, hk'⟩ := h.handling _ hd (Option.mem_toList.1 hhd)
    intro hmem
    obtain rfl := h.disjoint k' k _ hk' hmem
    exact hne rfl
  · obtain ⟨raw, hraw, haccept⟩ := List.mem_filterMap.1 he
    exact absurd rfl (h.net _ _ raw hraw _ haccept).1

omit [DecidableEq ι] in
theorem Inv.setReader (h : s.Inv json names clients) {k : κ} {pc : ReaderPc}
    (hpc : ∀ op, pc.stored = some op → ∃ l, s.sent k = l ++ [op.event (clients k).userId]) :
    (s.setReader k pc).Inv json names clients := by
  refine { h with latest := fun k' op hop => ?_ }
  simp only [Relay.setReader, Function.update_apply] at hop
  split_ifs at hop with hk
  · subst hk
    exact hpc op hop
  · exact h.latest k' op hop

omit [DecidableEq ι] [DecidableEq κ] in
/-- A reader that goes on with its operation is at the latest message still. -/
theorem Inv.goesOn (h : s.Inv json names clients) {k : κ} {op : SendOp}
    (hop : (s.readers k).stored = some op) (op' : SendOp) (hop' : some op = some op') :
    ∃ l, s.sent k = l ++ [op'.event (clients k).userId] :=
  h.latest k op' (hop.trans hop')

omit [DecidableEq κ] in
theorem Inv.setRouter (h : s.Inv json names clients) {b : ι} {router : MessageRouter}
    (hid : router.nodeId = names b) : (s.setRouter b router).Inv json names clients := by
  refine { h with nodeId := fun b' => ?_ }
  simp only [Relay.setRouter, Function.update_apply]
  split_ifs with hb
  · rw [hb, hid]
  · exact h.nodeId b'

end Relay

/-- A send adds the event to the queue of its session, or does nothing. -/
theorem Pipes.send_queue (p : Pipes) (sid : SessionId) (event : ServerEvent) (sid' : SessionId) :
    (p.send sid event).2.queue sid' = p.queue sid' ∨
      sid' = sid ∧ (p.send sid event).2.queue sid' = p.queue sid ++ [event] := by
  unfold Pipes.send
  split_ifs
  · exact .inl rfl
  · by_cases hsid : sid' = sid
    · exact .inr ⟨hsid, by rw [hsid]; exact Function.update_self _ _ _⟩
    · exact .inl (Function.update_of_ne hsid _ _)

namespace Relay

variable {ι κ : Type} [DecidableEq ι] [DecidableEq κ] {json : Json} {names : ι → String}
  {clients : κ → Connected ι} {s s' : Relay ι κ}

omit [DecidableEq κ] in
/-- An event may be sent to a session where the paths of the session allow it. -/
theorem Inv.sendOn (h : s.Inv json names clients) {b : ι} {sid : SessionId} {e : ServerEvent}
    (hsent : ∀ m, e = .messageCreate m → ∃ k, e ∈ s.sent k)
    (horder : ∀ k, Follows (s.sent k)
      ((s.pipes b).queue sid ++ e :: s.underway json names (clients k).node b)) :
    (s.sendOn b sid e).Inv json names clients := by
  refine { h with queue := fun b' sid' m hm => ?_, order := fun k b' sid' => ?_ }
  · by_cases hb : b' = b
    · subst hb
      simp only [Relay.sendOn, Function.update_self] at hm
      rcases (s.pipes b').send_queue sid e sid' with hq | ⟨rfl, hq⟩
      · rw [hq] at hm
        exact h.queue b' sid' m hm
      · rw [hq] at hm
        rcases List.mem_append.1 hm with hm | hm
        · exact h.queue b' sid' m hm
        · obtain rfl := List.mem_singleton.1 hm
          exact hsent m rfl
    · simp only [Relay.sendOn, Function.update_of_ne hb] at hm
      exact h.queue b' sid' m hm
  · have hold := h.order k b' sid'
    by_cases hb : b' = b
    · subst hb
      simp only [path, underway, Relay.sendOn, Function.update_self] at hold ⊢
      rcases (s.pipes b').send_queue sid e sid' with hq | ⟨rfl, hq⟩
      · rw [hq]
        exact hold
      · rw [hq, List.append_assoc]
        exact horder k
    · simp only [path, underway, Relay.sendOn, Function.update_of_ne hb] at hold ⊢
      exact hold

omit [DecidableEq ι] [DecidableEq κ] in
/-- The message that a reader is at was sent by its connection. -/
theorem Inv.latest_mem (h : s.Inv json names clients) {k : κ} {op : SendOp}
    (hop : (s.readers k).stored = some op) : op.event (clients k).userId ∈ s.sent k := by
  obtain ⟨l, hl⟩ := h.latest k op hop
  rw [hl]
  exact List.mem_append_right _ (List.mem_singleton_self _)

omit [DecidableEq ι] in
/-- The message that a reader is at may come where no other of its connection comes after it. -/
theorem Inv.insertLatest (h : s.Inv json names clients) {k : κ} {op : SendOp}
    (hop : (s.readers k).stored = some op) {k' : κ} {q₁ q₂ : List ServerEvent}
    (hold : Follows (s.sent k') (q₁ ++ q₂)) (hq₂ : k' = k → ∀ e ∈ q₂, e ∉ s.sent k) :
    Follows (s.sent k') (q₁ ++ op.event (clients k).userId :: q₂) := by
  by_cases hk : k' = k
  · subst hk
    obtain ⟨l, hl⟩ := h.latest k' op hop
    exact hold.insert_last hl (h.nodup k') (hq₂ rfl)
  · apply hold.insert_of_notMem
    intro hmem
    exact hk (h.disjoint k' k _ hmem (h.latest_mem hop))

/-- The message that a reader is at goes to a session of its node. -/
theorem Inv.sendLatest (h : s.Inv json names clients) {k : κ} {op : SendOp}
    (hop : (s.readers k).stored = some op) (sid : SessionId) :
    (s.sendOn (clients k).node sid (op.event (clients k).userId)).Inv json names clients := by
  apply h.sendOn (fun _ _ => ⟨k, h.latest_mem hop⟩)
  intro k'
  apply h.insertLatest hop (h.order k' _ sid)
  intro hk e he
  subst hk
  exact h.notMem_underway k' he

omit [DecidableEq ι] in
/-- Another message is in a list than before, or was sent. -/
theorem mem_sent_record {k k' : κ} {e x : ServerEvent} :
    x ∈ (s.record k (some e)).sent k' ↔ x ∈ s.sent k' ∨ (k' = k ∧ x = e) := by
  rw [sent_record]
  split_ifs with hk
  · rw [hk, List.mem_append, Option.toList_some, List.mem_singleton]
    exact or_congr_right (and_iff_right rfl).symm
  · exact (or_iff_left fun hnew => hk hnew.1).symm

omit [DecidableEq ι] in
/-- The database has refused. -/
theorem Inv.recordNone (h : s.Inv json names clients) (k : κ) :
    (s.record k none).Inv json names clients := by
  have hsent (k' : κ) : (s.record k none).sent k' = s.sent k' := by
    rw [sent_record]
    split_ifs with hk
    · rw [hk]
      exact List.append_nil _
    · rfl
  refine ⟨?_, ?_, ?_, h.nodeId, ?_, ?_, ?_, ?_, ?_⟩ <;> simp only [hsent]
  · exact h.nodup
  · exact h.disjoint
  · exact h.messages
  · exact h.latest
  · exact h.queue
  · exact h.handling
  · exact h.net
  · exact h.order

omit [DecidableEq ι] in
/-- The database has stored a message under a new id. -/
theorem Inv.recordSome (h : s.Inv json names clients) {k : κ}
    (hpc : (s.readers k).stored = none) {m : MessagePayload} (hm : m.id ∉ s.issued) :
    Inv json names clients
      { s.record k (some (.messageCreate m)) with issued := m.id :: s.issued } := by
  have hnew (k' : κ) : .messageCreate m ∉ s.sent k' := fun hmem => by
    obtain ⟨m', heq, hid⟩ := h.messages k' _ hmem
    obtain rfl := ServerEvent.messageCreate.inj heq
    exact hm hid
  have hsent (k' : κ) : Relay.sent { s.record k (some (.messageCreate m)) with
      issued := m.id :: s.issued } k' =
      if k' = k then s.sent k ++ [.messageCreate m] else s.sent k' := sent_record k _ k'
  have hmem {k' : κ} {x : ServerEvent} : x ∈ Relay.sent { s.record k (some (.messageCreate m)) with
      issued := m.id :: s.issued } k' ↔ x ∈ s.sent k' ∨ (k' = k ∧ x = .messageCreate m) :=
    mem_sent_record
  refine ⟨?_, ?_, ?_, h.nodeId, ?_, ?_, ?_, ?_, ?_⟩
  · intro k'
    rw [hsent]
    split_ifs
    · exact (h.nodup k).append (List.nodup_singleton _) (by simpa using hnew k)
    · exact h.nodup k'
  · intro k₁ k₂ x h₁ h₂
    rcases hmem.1 h₁ with hold₁ | ⟨hk₁, hx₁⟩ <;> rcases hmem.1 h₂ with hold₂ | ⟨hk₂, hx₂⟩
    · exact h.disjoint k₁ k₂ x hold₁ hold₂
    · exact absurd (hx₂ ▸ hold₁) (hnew k₁)
    · exact absurd (hx₁ ▸ hold₂) (hnew k₂)
    · exact hk₁.trans hk₂.symm
  · intro k' x hx
    rcases hmem.1 hx with hx | ⟨rfl, rfl⟩
    · obtain ⟨m', heq, hid⟩ := h.messages k' x hx
      exact ⟨m', heq, List.mem_cons_of_mem _ hid⟩
    · exact ⟨m, rfl, List.mem_cons_self⟩
  · intro k' op hop
    have hne : k' ≠ k := fun heq => by
      rw [heq] at hop
      exact absurd (hpc.symm.trans hop) nofun
    rw [hsent, if_neg hne]
    exact h.latest k' op hop
  · intro b sid m' hm'
    obtain ⟨k', hk'⟩ := h.queue b sid m' hm'
    exact ⟨k', hmem.2 (.inl hk')⟩
  · intro b hd hhd
    obtain ⟨k', hne, hk'⟩ := h.handling b hd hhd
    exact ⟨k', hne, hmem.2 (.inl hk')⟩
  · intro a b raw hraw x hx
    obtain ⟨hne, k', hk', hx⟩ := h.net a b raw hraw x hx
    exact ⟨hne, k', hk', hmem.2 (.inl hx)⟩
  · intro k' b sid
    rw [hsent]
    split_ifs with hk
    · subst hk
      apply (h.order k' b sid).send
      intro hpath
      obtain ⟨k₀, hk₀⟩ := h.mem_path hpath
      exact hnew k₀ hk₀
    · exact h.order k' b sid

theorem inv_persist (h : s.Inv json names clients) {k : κ} {db : Database}
    (hstep : s.step json names clients (.persist k db) = some s') :
    s'.Inv json names clients := by
  simp only [step] at hstep
  split at hstep
  · next op hpc =>
    split at hstep
    · obtain rfl := Option.some.inj hstep
      exact (h.recordNone k).setReader fun _ hop => absurd hop nofun
    · split_ifs at hstep with hnew
      obtain rfl := Option.some.inj hstep
      have hstored : (s.readers k).stored = none := by rw [hpc]; rfl
      refine (h.recordSome (m := ⟨op.answers.messageId, op.channelId, (clients k).userId,
        op.content, op.answers.createdAt, none⟩) hstored hnew).setReader fun op' hop' => ?_
      obtain rfl := Option.some.inj hop'
      refine ⟨s.sent k, (sent_record k _ k).trans ?_⟩
      rw [if_pos rfl]
      rfl
  · exact absurd hstep nofun

theorem inv_lookup (h : s.Inv json names clients) {k : κ} {db : Database}
    (hstep : s.step json names clients (.lookup k db) = some s') :
    s'.Inv json names clients := by
  simp only [step] at hstep
  split at hstep
  · next op hpc =>
    have hfields := (getChannelMembers_fields (s.routers (clients k).node) db op.answers.fetch
      op.answers.instant op.channelId).1
    split at hstep
    · next hget =>
      obtain rfl := Option.some.inj hstep
      rw [hget, h.nodeId] at hfields
      exact (h.setRouter hfields).setReader fun _ hop => absurd hop nofun
    · next hget =>
      obtain rfl := Option.some.inj hstep
      rw [hget, h.nodeId] at hfields
      exact (h.setRouter hfields).setReader (h.goesOn (by rw [hpc]; rfl))
  · exact absurd hstep nofun

theorem inv_check (h : s.Inv json names clients) {k : κ}
    (hstep : s.step json names clients (.check k) = some s') : s'.Inv json names clients := by
  simp only [step] at hstep
  split at hstep
  · next op member members remoteTargets hpc =>
    have hop : (s.readers k).stored = some op := by rw [hpc]; rfl
    split_ifs at hstep
    · obtain rfl := Option.some.inj hstep
      exact h.setReader (h.goesOn hop)
    · obtain rfl := Option.some.inj hstep
      exact h.setReader (h.goesOn hop)
  · exact absurd hstep nofun

theorem inv_get (h : s.Inv json names clients) {k : κ}
    (hstep : s.step json names clients (.get k) = some s') : s'.Inv json names clients := by
  simp only [step] at hstep
  split at hstep
  · next op member members remoteTargets hpc =>
    have hop : (s.readers k).stored = some op := by rw [hpc]; rfl
    obtain rfl := Option.some.inj hstep
    exact h.setReader (h.goesOn hop)
  · exact absurd hstep nofun

theorem inv_push (h : s.Inv json names clients) {k : κ}
    (hstep : s.step json names clients (.push k) = some s') : s'.Inv json names clients := by
  simp only [step] at hstep
  split at hstep
  · next op session sessions members remoteTargets hpc =>
    have hop : (s.readers k).stored = some op := by rw [hpc]; rfl
    obtain rfl := Option.some.inj hstep
    exact (h.sendLatest hop session.sessionId).setReader (h.goesOn hop)
  · next op members remoteTargets hpc =>
    have hop : (s.readers k).stored = some op := by rw [hpc]; rfl
    obtain rfl := Option.some.inj hstep
    exact h.setReader (h.goesOn hop)
  · exact absurd hstep nofun

/-! ### What is published -/

omit [DecidableEq κ] in
/-- What a node has published changes, and the paths from it keep their order. -/
theorem Inv.setNet (h : s.Inv json names clients) {a : ι} {raws : ι → List String}
    (hnet : ∀ b, ∀ raw ∈ raws b, ∀ e, accepts json names b raw = some e →
      a ≠ b ∧ ∃ k, (clients k).node = a ∧ e ∈ s.sent k)
    (horder : ∀ k b sid, (clients k).node = a →
      Follows (s.sent k) ((s.pipes b).queue sid ++ ((s.handling b).toList.map Handling.event ++
        (raws b).filterMap (accepts json names b)))) :
    (s.setNet a raws).Inv json names clients := by
  refine { h with net := fun a' b raw hraw => ?_, order := fun k b sid => ?_ }
  · by_cases ha : a' = a
    · subst ha
      simp only [Relay.setNet, Function.update_self] at hraw
      exact hnet b raw hraw
    · simp only [Relay.setNet, Function.update_of_ne ha] at hraw
      exact h.net a' b raw hraw
  · by_cases ha : (clients k).node = a
    · simp only [path, underway, Relay.setNet, ha, Function.update_self]
      exact horder k b sid ha
    · simp only [path, underway, Relay.setNet, Function.update_of_ne ha]
      exact h.order k b sid

omit [DecidableEq κ] in
/-- Payloads are lost. -/
theorem Inv.loseNet (h : s.Inv json names clients) {a b : ι} {raws : List String}
    (hraws : raws.Sublist (s.net a b)) :
    (s.setNet a (Function.update (s.net a) b raws)).Inv json names clients := by
  have hsub (b' : ι) : (Function.update (s.net a) b raws b').Sublist (s.net a b') := by
    by_cases hb : b' = b
    · rw [hb, Function.update_self]
      exact hraws
    · rw [Function.update_of_ne hb]
  refine h.setNet (fun b' raw hraw => h.net a b' raw ((hsub b').subset hraw))
    fun k b' sid hnode => ?_
  subst hnode
  exact (h.order k b' sid).sublist
    ((List.Sublist.refl _).append ((List.Sublist.refl _).append ((hsub b').filterMap _)))

omit [DecidableEq ι] [DecidableEq κ] in
/-- Every node but the publisher accepts its payload. -/
theorem accepts_published (hjson : json.RoundTrip) {a : ι} {targets : List UserId}
    {event : ServerEvent} {text raw : String} (htext : json.event.toString event = .ok text)
    (hraw : json.payload.toString ⟨names a, targets, text⟩ = .ok raw) (b : ι) :
    accepts json names b raw = if names a = names b then none else some event := by
  rw [accepts, acceptPayload_published hjson htext hraw]
  split_ifs <;> rfl

/-- The message that a reader is at is published. -/
theorem Inv.publishLatest (hjson : json.RoundTrip) (h : s.Inv json names clients) {k : κ}
    {op : SendOp} (hop : (s.readers k).stored = some op) {targets : List UserId}
    {text raw : String}
    (htext : json.event.toString (op.event (clients k).userId) = .ok text)
    (hraw : json.payload.toString ⟨names (clients k).node, targets, text⟩ = .ok raw) :
    (s.setNet (clients k).node fun b => s.net (clients k).node b ++ [raw]).Inv
      json names clients := by
  have haccepts (b : ι) : accepts json names b raw =
      if names (clients k).node = names b then none else some (op.event (clients k).userId) :=
    accepts_published hjson htext hraw b
  refine h.setNet (fun b raw' hraw' e he => ?_) fun k' b sid hnode => ?_
  · rcases List.mem_append.1 hraw' with hraw' | hraw'
    · exact h.net _ b raw' hraw' e he
    · obtain rfl := List.mem_singleton.1 hraw'
      rw [haccepts] at he
      split_ifs at he with hname
      obtain rfl := Option.some.inj he
      exact ⟨fun heq => hname (congrArg names heq), k, rfl, h.latest_mem hop⟩
  · have hold := h.order k' b sid
    rw [hnode, path, underway] at hold
    have hlast : [raw].filterMap (accepts json names b) = (accepts json names b raw).toList := by
      cases haccept : accepts json names b raw with
      | none => rw [List.filterMap_cons_none haccept]; rfl
      | some e => rw [List.filterMap_cons_some haccept]; rfl
    rw [List.filterMap_append, hlast, ← List.append_assoc, ← List.append_assoc, List.append_assoc
      ((s.pipes b).queue sid)]
    rw [haccepts]
    split_ifs with hname
    · rw [Option.toList_none, List.append_nil]
      exact hold
    · rw [Option.toList_some]
      rw [← List.append_nil (_ ++ _)] at hold
      exact h.insertLatest hop hold fun _ _ he => absurd he List.not_mem_nil

theorem inv_publish (hjson : json.RoundTrip) (h : s.Inv json names clients) {k : κ}
    (hstep : s.step json names clients (.publish k) = some s') : s'.Inv json names clients := by
  simp only [step] at hstep
  split at hstep
  · next op remoteTargets hpc =>
    have hop : (s.readers k).stored = some op := by rw [hpc]; rfl
    split at hstep
    · obtain rfl := Option.some.inj hstep
      exact h.setReader fun _ hnone => absurd hnone nofun
    · obtain rfl := Option.some.inj hstep
      exact h.setReader fun _ hnone => absurd hnone nofun
    · next raw hpublish =>
      obtain rfl := Option.some.inj hstep
      obtain ⟨hnone, -⟩ | ⟨text, raw', htext, hraw, -, heq⟩ := publishRemote_ok hpublish
      · exact absurd hnone nofun
      · obtain rfl := Option.some.inj heq
        rw [h.nodeId] at hraw
        exact (h.publishLatest hjson hop htext hraw).setReader fun _ hnone => absurd hnone nofun
  · exact absurd hstep nofun

/-! ### What is received -/

omit [DecidableEq κ] in
/-- A node handles something else, and the paths to it keep their order. -/
theorem Inv.setHandling (h : s.Inv json names clients) {b : ι} {hd : Option Handling}
    (hsent : ∀ x, hd = some x → ∃ k, (clients k).node ≠ b ∧ x.event ∈ s.sent k)
    (horder : ∀ k sid, Follows (s.sent k) ((s.pipes b).queue sid ++
      (hd.toList.map Handling.event ++
        (s.net (clients k).node b).filterMap (accepts json names b)))) :
    (s.setHandling b hd).Inv json names clients := by
  refine { h with handling := fun b' x hx => ?_, order := fun k b' sid => ?_ }
  · by_cases hb : b' = b
    · subst hb
      simp only [Relay.setHandling, Function.update_self] at hx
      exact hsent x hx
    · simp only [Relay.setHandling, Function.update_of_ne hb] at hx
      exact h.handling b' x hx
  · by_cases hb : b' = b
    · subst hb
      simp only [path, underway, Relay.setHandling, Function.update_self]
      exact horder k sid
    · simp only [path, underway, Relay.setHandling, Function.update_of_ne hb]
      exact h.order k b' sid

theorem inv_poll (h : s.Inv json names clients) {b a : ι}
    (hstep : s.step json names clients (.poll b a) = some s') : s'.Inv json names clients := by
  simp only [step] at hstep
  split at hstep
  · next raw raws hnone hnet =>
    obtain rfl := Option.some.inj hstep
    have hrest : (s.setNet a (Function.update (s.net a) b raws)).Inv json names clients := by
      apply h.loseNet
      rw [hnet]
      exact List.sublist_cons_self raw raws
    have hhead := h.net a b raw (by rw [hnet]; exact List.mem_cons_self)
    cases haccept : acceptPayload json (names b) raw with
    | none =>
      refine hrest.setHandling (fun _ hx => absurd hx nofun) fun k sid => ?_
      have hold := hrest.order k b sid
      rw [path, underway] at hold
      refine hold.sublist ((List.Sublist.refl _).append ?_)
      exact List.sublist_append_right _ _
    | some p =>
      have he : accepts json names b raw = some p.2 := by rw [accepts, haccept]; rfl
      obtain ⟨hab, k₀, hk₀, hmem⟩ := hhead p.2 he
      refine hrest.setHandling (fun x hx => ?_) fun k sid => ?_
      · obtain rfl := Option.some.inj hx
        exact ⟨k₀, fun heq => hab (hk₀.symm.trans heq), hmem⟩
      · have hold := h.order k b sid
        rw [path, underway, hnone] at hold
        by_cases hk : (clients k).node = a
        · rw [hk, hnet, List.filterMap_cons_some he] at hold
          simp only [Relay.setNet, hk, Function.update_self]
          exact hold
        · simp only [Relay.setNet, Function.update_of_ne hk]
          refine hold.insert_of_notMem fun hsent => hk ?_
          rw [h.disjoint k k₀ _ hsent hmem, hk₀]
  · exact absurd hstep nofun

theorem inv_deliver (h : s.Inv json names clients) {b : ι}
    (hstep : s.step json names clients (.deliver b) = some s') : s'.Inv json names clients := by
  simp only [step] at hstep
  split at hstep
  · next event hhd =>
    obtain rfl := Option.some.inj hstep
    refine h.setHandling (fun _ hx => absurd hx nofun) fun k sid => ?_
    refine (h.order k b sid).sublist ((List.Sublist.refl _).append ?_)
    exact List.sublist_append_right _ _
  · next event u us hhd =>
    obtain rfl := Option.some.inj hstep
    refine h.setHandling (fun x hx => ?_) fun k sid => ?_
    · obtain rfl := Option.some.inj hx
      obtain ⟨k₀, hne, hmem⟩ := h.handling b _ hhd
      exact ⟨k₀, hne, hmem⟩
    · have hold := h.order k b sid
      rw [path, underway, hhd] at hold
      exact hold
  · next event us session sessions hhd =>
    obtain rfl := Option.some.inj hstep
    obtain ⟨k₀, hne, hmem⟩ := h.handling b _ hhd
    have hsend : (s.sendOn b session.sessionId event).Inv json names clients := by
      refine h.sendOn (fun _ _ => ⟨k₀, hmem⟩) fun k => ?_
      have hold := h.order k b session.sessionId
      rw [path, underway, hhd] at hold
      rw [underway, hhd]
      exact hold.double (h.nodup k)
    refine hsend.setHandling (fun x hx => ?_) fun k sid => ?_
    · obtain rfl := Option.some.inj hx
      exact ⟨k₀, hne, hmem⟩
    · have hold := hsend.order k b sid
      rw [path, underway] at hold
      simp only [Relay.sendOn, hhd] at hold
      exact hold
  · exact absurd hstep nofun

/-! ### Everything else -/

theorem inv_other (h : s.Inv json names clients) {b : ι} {sid : SessionId} {event : ServerEvent}
    (hstep : s.step json names clients (.other b sid event) = some s') :
    s'.Inv json names clients := by
  simp only [step] at hstep
  split at hstep
  · exact absurd hstep nofun
  · next hevent =>
    obtain rfl := Option.some.inj hstep
    refine h.sendOn (fun m hm => absurd hm (hevent m)) fun k => ?_
    apply (h.order k b sid).insert_of_notMem
    intro hmem
    obtain ⟨m, hm, -⟩ := h.messages k event hmem
    exact hevent m hm

theorem inv_hangUp (h : s.Inv json names clients) {b : ι} {sid : SessionId}
    (hstep : s.step json names clients (.hangUp b sid) = some s') : s'.Inv json names clients := by
  obtain rfl := Option.some.inj hstep
  have hqueue (b' : ι) : (Function.update s.pipes b
      { s.pipes b with closed := Function.update (s.pipes b).closed sid true } b').queue =
      (s.pipes b').queue := by
    by_cases hb : b' = b
    · rw [hb, Function.update_self]
    · rw [Function.update_of_ne hb]
  refine { h with queue := fun b' sid' m hm => ?_, order := fun k b' sid' => ?_ }
  · dsimp only at hm
    rw [hqueue] at hm
    exact h.queue b' sid' m hm
  · simp only [path, underway, hqueue]
    exact h.order k b' sid'

/-- **Every step keeps the invariant.** -/
theorem step_inv (hjson : json.RoundTrip) {a : Action ι κ} (h : s.Inv json names clients)
    (hstep : s.step json names clients a = some s') : s'.Inv json names clients := by
  cases a with
  | next k op =>
    simp only [step] at hstep
    split at hstep
    · obtain rfl := Option.some.inj hstep
      exact h.setReader fun _ hnone => absurd hnone nofun
    · exact absurd hstep nofun
  | persist k db => exact inv_persist h hstep
  | lookup k db => exact inv_lookup h hstep
  | check k => exact inv_check h hstep
  | get k => exact inv_get h hstep
  | push k => exact inv_push h hstep
  | publish k => exact inv_publish hjson h hstep
  | poll b a => exact inv_poll h hstep
  | lose b a n =>
    obtain rfl := Option.some.inj hstep
    exact h.loseNet (List.eraseIdx_sublist _ n)
  | deliver b => exact inv_deliver h hstep
  | other b sid event => exact inv_other h hstep
  | write b sid =>
    simp only [step] at hstep
    split_ifs at hstep
    obtain rfl := Option.some.inj hstep
    exact { h with }
  | hangUp b sid => exact inv_hangUp h hstep
  | registry b a =>
    simp only [step, Option.map_eq_some_iff] at hstep
    obtain ⟨r, -, rfl⟩ := hstep
    exact { h with }
  | refresh b db fetch instant channelId =>
    obtain rfl := Option.some.inj hstep
    apply h.setRouter
    rw [(getChannelMembers_fields (s.routers b) db fetch instant channelId).1, h.nodeId]
  | invalidate b channelId =>
    obtain rfl := Option.some.inj hstep
    exact h.setRouter (h.nodeId b)

/-! ## Runs -/

omit [DecidableEq ι] [DecidableEq κ] in
theorem init_inv {routers : ι → MessageRouter} (hrouters : ∀ b, (routers b).nodeId = names b) :
    (init routers : Relay ι κ).Inv json names clients where
  nodup _ := List.nodup_nil
  disjoint _ _ _ he := absurd he List.not_mem_nil
  messages _ _ he := absurd he List.not_mem_nil
  nodeId := hrouters
  latest _ _ hop := absurd hop nofun
  queue _ _ _ hm := absurd hm List.not_mem_nil
  handling _ _ hhd := absurd hhd nofun
  net _ _ _ hraw := absurd hraw List.not_mem_nil
  order _ _ _ := follows_nil _

/-- **The messages of a connection arrive in their order**, at every session that receives them. -/
theorem connection_fifo {routers : ι → MessageRouter} (hjson : json.RoundTrip)
    (hrouters : ∀ b, (routers b).nodeId = names b) {as : List (Action ι κ)}
    (hrun : exec (step json names clients) (init routers) as = some s) {k : κ} {i j : ℕ}
    (hij : i < j) {e₁ e₂ : ServerEvent} (h₁ : (s.created k)[i]? = some (some e₁))
    (h₂ : (s.created k)[j]? = some (some e₂)) (b : ι) (sid : SessionId) {m n : ℕ}
    (hm : (s.received b sid)[m]? = some e₁) (hn : (s.received b sid)[n]? = some e₂) : m < n := by
  have hinv : s.Inv json names clients :=
    exec_invariant (fun _ _ _ h hstep => step_inv hjson h hstep) (init_inv hrouters) hrun
  have hpair : [e₁, e₂].Sublist (s.sent k) := (pair_of_getElem hij h₁ h₂).filterMap id
  have hreceived : Follows (s.sent k) (s.received b sid) :=
    (hinv.order k b sid).sublist ((List.take_sublist _ _).trans (List.sublist_append_left _ _))
  exact hreceived.lt (hinv.nodup k) hpair hm hn

/-- User 1 sends this message; it gets the given id. -/
def chat (id : MessageId) : SendOp := ⟨20, "hi", { allWell with messageId := id }⟩

/-- The text of its event, for an id of one digit. -/
def chatText (digit : String) : String :=
  "\x7b\"t\":\"MESSAGE_CREATE\",\"d\":\x7b\"id\":\"00000000-0000-0000-0000-00000000000" ++ digit ++
  "\",\"channel_id\":\"00000000-0000-0000-0000-000000000014\"," ++
  "\"author_id\":\"00000000-0000-0000-0000-000000000001\"," ++
  "\"content\":\"hi\",\"timestamp\":\"1970-01-01T00:00:00Z\",\"edited_at\":null\x7d\x7d"

/-- The text of the payload that carries it to user 2. -/
def chatPayload (digit : String) : String :=
  "\x7b\"source_node\":\"node-1\"," ++
  "\"target_user_ids\":[\"00000000-0000-0000-0000-000000000002\"]," ++
  "\"event\":\"\x7b\\\"t\\\":\\\"MESSAGE_CREATE\\\",\\\"d\\\":\x7b" ++
  "\\\"id\\\":\\\"00000000-0000-0000-0000-00000000000" ++ digit ++
  "\\\",\\\"channel_id\\\":\\\"00000000-0000-0000-0000-000000000014\\\"," ++
  "\\\"author_id\\\":\\\"00000000-0000-0000-0000-000000000001\\\"," ++
  "\\\"content\\\":\\\"hi\\\",\\\"timestamp\\\":\\\"1970-01-01T00:00:00Z\\\"," ++
  "\\\"edited_at\\\":null\x7d\x7d\"\x7d"

def chatJson : Json where
  event := .two ((chat 8).event 1) ((chat 9).event 1) (chatText "8") (chatText "9")
  payload := .two ⟨"node-1", [2], chatText "8"⟩ ⟨"node-1", [2], chatText "9"⟩ (chatPayload "8")
    (chatPayload "9")

/-- Two messages go to user 2 on the other node. -/
def twoMessages : List (Action Bool Unit) :=
  [.registry true (.callInsert 0 ⟨100, 1⟩), .registry true (.op 0),
    .registry false (.callInsert 0 ⟨200, 2⟩), .registry false (.op 0),
    .next () (chat 9), .persist () pair, .lookup () pair, .check (), .get (), .push (), .push (),
    .check (), .publish (), .next () (chat 8), .persist () pair, .lookup () pair, .check (),
    .get (), .push (), .push (), .check (), .publish (), .poll false true, .deliver false,
    .deliver false, .deliver false, .poll false true, .deliver false, .deliver false,
    .write false 200, .write false 200]

theorem connection_fifo_twoMessages :
    ∃ s, exec (step chatJson (fun b => cond b "node-1" "node-2") fun _ => ⟨true, 1⟩)
        (init fun b => (twoNodes ⟨100, 1⟩ ⟨200, 2⟩ b).router) twoMessages = some s ∧
      s.received false 200 = [(chat 9).event 1, (chat 8).event 1] ∧
      ∀ m n : ℕ, (s.received false 200)[m]? = some ((chat 9).event 1) →
        (s.received false 200)[n]? = some ((chat 8).event 1) → m < n := by
  have hjson : chatJson.RoundTrip :=
    ⟨Serde.two_roundTrip _ _ (by decide +kernel), Serde.two_roundTrip _ _ (by decide +kernel)⟩
  have hrouters (b : Bool) : (twoNodes ⟨100, 1⟩ ⟨200, 2⟩ b).router.nodeId =
    cond b "node-1" "node-2" := rfl
  have hrun : (exec (step chatJson (fun b => cond b "node-1" "node-2") fun _ => ⟨true, 1⟩)
      (init fun b => (twoNodes ⟨100, 1⟩ ⟨200, 2⟩ b).router) twoMessages).map
        (fun s => (s.created (), s.received false 200)) =
      some ([some ((chat 9).event 1), some ((chat 8).event 1)],
        [(chat 9).event 1, (chat 8).event 1]) := by decide +kernel
  obtain ⟨s, hs, heq⟩ := Option.map_eq_some_iff.1 hrun
  obtain ⟨hcreated, hreceived⟩ := Prod.mk.inj heq
  refine ⟨s, hs, hreceived, ?_⟩
  intro m n hm hn
  exact connection_fifo (i := 0) (j := 1) hjson hrouters hs Nat.zero_lt_one
    (by rw [hcreated]; rfl) (by rw [hcreated]; rfl) false 200 hm hn

end Relay

end RustRelay
