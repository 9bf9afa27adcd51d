import RustRelay.Router.Failure

/-!
# Sending over REST

`POST /api/channels/:channel_id/messages` inserts the message, builds its response from the row,
and then calls `handle_send` for the delivery. But `handle_send` inserts the message itself.

**Theorem (`send_message_twice`).** Whenever everything succeeds, two rows are new: the response
names the first, what is delivered and published is the second. No send over the WebSocket leaves
the table and the sessions like this and has the response's id.
-/

namespace RustRelay

/-! ## The two ways in -/

structure SendMessageRequest where
  authorId : UserId
  content : String

/-- The outcome of `send_message`, and the state it leaves. -/
structure Posted where
  response : Except DbError MessagePayload
  /-- What `handle_send` returned, if it was called. An error is only logged. -/
  routed : Option (Except SendError Unit)
  node : Node
  db : Database
  published : Option String

/-- The payload of the response. -/
def messagePayload (message : Message) : MessagePayload :=
  ⟨message.id, message.channelId, message.authorId, message.content, message.createdAt, none⟩

/-- `send_message`. The world answers twice: `w` the insert of the route, `w'` all that
`handle_send` asks. -/
def Node.sendMessage (json : Json) (w w' : Answers) (node : Node) (db : Database)
    (channelId : ChannelId) (req : SendMessageRequest) : Posted :=
  match persist w db req.authorId channelId req.content with
  | .error e => ⟨.error e, none, node, db, none⟩
  | .ok (message, db) =>
    let sent := node.handleSend json w' db req.authorId channelId req.content
    ⟨.ok (messagePayload message), some sent.result, sent.node, sent.db, sent.published⟩

/-- `handle_client_message` for a `SendMessage` of the user: an error is only logged. -/
def Node.handleClientMessage (json : Json) (w : Answers) (node : Node) (db : Database)
    (userId : UserId) (channelId : ChannelId) (content : String) : Node × Database :=
  let sent := node.handleSend json w db userId channelId content
  (sent.node, sent.db)

/-- What was posted is what one `SendMessage` by the author does, for some answers of the world:
the same rows, the same events in every queue, and the id of the response is the one that the
database chose. -/
def Posted.RefinesSend (json : Json) (node : Node) (db : Database) (channelId : ChannelId)
    (req : SendMessageRequest) (posted : Posted) : Prop :=
  ∃ w payload, posted.response = .ok payload ∧ payload.id = w.messageId ∧
    (∀ id, posted.db.messages.lookup id = (node.handleClientMessage json w db req.authorId
      channelId req.content).2.messages.lookup id) ∧
    ∀ sid, posted.node.pipes.queue sid = (node.handleClientMessage json w db req.authorId
      channelId req.content).1.pipes.queue sid

/-! ## Rows -/

variable {json : Json} {w w' : Answers} {node : Node} {db : Database} {channelId : ChannelId}
  {req : SendMessageRequest} {authorId : UserId} {content : String}

/-- A call adds a row under the id that the database chose, or none. -/
theorem handleSend_lookup_of_ne {id : MessageId} (hid : id ≠ w.messageId) :
    (node.handleSend json w db authorId channelId content).db.messages.lookup id =
      db.messages.lookup id := by
  rcases handleSend_cases json w node db authorId channelId content with
    ⟨e, -, hsent⟩ | ⟨message, db', hpersist, hdb', -⟩
  · rw [hsent]
  · obtain ⟨rfl, -, hdb⟩ := persist_ok hpersist
    rw [hdb', hdb]
    exact AList.lookup_insert_ne hid

/-- What a call that returned `Ok` has stored and delivered. -/
theorem handleSend_ok_effect
    (hok : (node.handleSend json w db authorId channelId content).result = .ok ()) :
    ∃ members, (node.router.getChannelMembers db w.fetch w.instant channelId).1 = .ok members ∧
      db.messages.lookup w.messageId = none ∧
      (node.handleSend json w db authorId channelId content).db =
        { db with messages :=
          db.messages.insert w.messageId (storedMessage w authorId channelId content) } ∧
      (node.handleSend json w db authorId channelId content).node.pipes =
        (node.sessions.sendToUsers node.pipes members
          (messageEvent (storedMessage w authorId channelId content))).2 := by
  rcases handleSend_cases json w node db authorId channelId content with
    ⟨e, -, hsent⟩ | ⟨message, db', hpersist, hdb', hrest⟩
  · rw [hsent] at hok
    cases hok
  · obtain ⟨rfl, hnew, hdb⟩ := persist_ok hpersist
    rcases hrest with ⟨e, -, hsent⟩ | ⟨members, hmembers, -, hpipes, -⟩
    · rw [hsent] at hok
      cases hok
    · exact ⟨members, hmembers, hnew, hdb'.trans hdb, hpipes⟩

theorem sendMessage_ok {payload : MessagePayload}
    (hresponse : (node.sendMessage json w w' db channelId req).response = .ok payload)
    (hrouted : (node.sendMessage json w w' db channelId req).routed = some (.ok ())) :
    ∃ members, (node.router.getChannelMembers db w'.fetch w'.instant channelId).1 = .ok members ∧
      w.messageId ≠ w'.messageId ∧
      db.messages.lookup w.messageId = none ∧ db.messages.lookup w'.messageId = none ∧
      payload = messagePayload (storedMessage w req.authorId channelId req.content) ∧
      (node.sendMessage json w w' db channelId req).db.messages =
        (db.messages.insert w.messageId
          (storedMessage w req.authorId channelId req.content)).insert w'.messageId
          (storedMessage w' req.authorId channelId req.content) ∧
      (node.sendMessage json w w' db channelId req).node.pipes =
        (node.sessions.sendToUsers node.pipes members
          (messageEvent (storedMessage w' req.authorId channelId req.content))).2 := by
  cases hpersist : persist w db req.authorId channelId req.content with
  | error e =>
    simp only [Node.sendMessage, hpersist] at hresponse
    cases hresponse
  | ok stored =>
    obtain ⟨message, db'⟩ := stored
    obtain ⟨rfl, hnew, hdb⟩ := persist_ok hpersist
    simp only [Node.sendMessage, hpersist] at hresponse hrouted ⊢
    obtain ⟨members, hmembers, hnew', hdb', hpipes⟩ :=
      handleSend_ok_effect (Option.some.inj hrouted)
    rw [getChannelMembers_congr (persist_members hpersist)] at hmembers
    have hne : w.messageId ≠ w'.messageId := by
      intro hsame
      rw [hdb, ← hsame] at hnew'
      cases (AList.lookup_insert _).symm.trans hnew'
    have hnew'' : db.messages.lookup w'.messageId = none := by
      rw [hdb] at hnew'
      exact (AList.lookup_insert_ne hne.symm).symm.trans hnew'
    refine ⟨members, hmembers, hne, hnew, hnew'', (Except.ok.inj hresponse).symm, ?_, hpipes⟩
    rw [hdb', hdb]
    rfl

/-- Two new rows are one too many. -/
theorem not_refinesSend
    (hresponse : ∃ payload, (node.sendMessage json w w' db channelId req).response = .ok payload)
    (hrouted : (node.sendMessage json w w' db channelId req).routed = some (.ok ())) :
    ¬ (node.sendMessage json w w' db channelId req).RefinesSend json node db channelId req := by
  obtain ⟨payload, hresponse⟩ := hresponse
  obtain ⟨members, -, hne, hnew, hnew', hpayload, hrows, -⟩ := sendMessage_ok hresponse hrouted
  intro hrefines
  obtain ⟨w₀, payload', hresponse', hid, hsame, -⟩ := hrefines
  obtain rfl := Except.ok.inj (hresponse.symm.trans hresponse')
  have hid : w.messageId = w₀.messageId := by rw [← hid, hpayload]; rfl
  -- The row of `handle_send` is there, and one `SendMessage` would not have stored it.
  have hrow := hsame w'.messageId
  rw [hrows, AList.lookup_insert, Node.handleClientMessage,
    handleSend_lookup_of_ne (hid ▸ hne.symm), hnew'] at hrow
  cases hrow

/-- **Every message sent over REST is stored twice.** The response names the one row, the
recipients get the other; so no successful post does what one `SendMessage` does. -/
theorem send_message_twice {payload : MessagePayload}
    (hresponse : (node.sendMessage json w w' db channelId req).response = .ok payload)
    (hrouted : (node.sendMessage json w w' db channelId req).routed = some (.ok ())) :
    (∃ message message', message.id ≠ message'.id ∧
      db.messages.lookup message.id = none ∧ db.messages.lookup message'.id = none ∧
      (node.sendMessage json w w' db channelId req).db.messages =
        (db.messages.insert message.id message).insert message'.id message' ∧
      payload.id = message.id ∧
      ∃ members,
        (node.router.getChannelMembers db w'.fetch w'.instant channelId).1 = .ok members ∧
        (node.sendMessage json w w' db channelId req).node.pipes =
          (node.sessions.sendToUsers node.pipes members (messageEvent message')).2) ∧
    ¬ (node.sendMessage json w w' db channelId req).RefinesSend json node db channelId req := by
  obtain ⟨members, hmembers, hne, hnew, hnew', hpayload, hrows, hpipes⟩ :=
    sendMessage_ok hresponse hrouted
  refine ⟨?_, not_refinesSend ⟨payload, hresponse⟩ hrouted⟩
  exact ⟨_, _, hne, hnew, hnew', hrows, congrArg MessagePayload.id hpayload, members, hmembers,
    hpipes⟩

/-! ## One request -/

/-- A node with a session of each member of channel 20. -/
def bothHere : Node where
  router := ⟨"node-1", ⟨"node-1", false⟩, ∅, 300⟩
  sessions := (SessionStore.new.insert ⟨100, 1⟩).insert ⟨200, 2⟩
  pipes := ⟨fun _ => [], fun _ => false⟩

/-- User 1 posts to channel 20; the database chooses the ids 9 and 10. -/
def posting : Posted :=
  bothHere.sendMessage greetingJson allWell { allWell with messageId := 10 } pair 20 ⟨1, "hi"⟩

theorem posting_response : posting.response = .ok (messagePayload greeting) := rfl

theorem posting_routed : posting.routed = some (.ok ()) := rfl

/-- The response to user 1 says 9, user 2 is sent 10, and both rows are there. -/
theorem send_message_twice_posting :
    posting.response = .ok (messagePayload greeting) ∧
    (∃ message message', message.id ≠ message'.id ∧
      pair.messages.lookup message.id = none ∧ pair.messages.lookup message'.id = none ∧
      posting.db.messages = (pair.messages.insert message.id message).insert message'.id message' ∧
      (messagePayload greeting).id = message.id ∧
      ∃ members, (bothHere.router.getChannelMembers pair (.ok ()) 0 20).1 = .ok members ∧
        posting.node.pipes = (bothHere.sessions.sendToUsers bothHere.pipes members
          (messageEvent message')).2) ∧
    ¬ posting.RefinesSend greetingJson bothHere pair 20 ⟨1, "hi"⟩ :=
  ⟨posting_response, send_message_twice posting_response posting_routed⟩

/-- **REST does not refine the WebSocket**: everything succeeds, and two rows are stored. -/
theorem rest_not_refines :
    ¬ ∀ (json : Json) (w w' : Answers) (node : Node) (db : Database) (channelId : ChannelId)
      (req : SendMessageRequest),
      (∃ payload, (node.sendMessage json w w' db channelId req).response = .ok payload) →
      (node.sendMessage json w w' db channelId req).routed = some (.ok ()) →
        (node.sendMessage json w w' db channelId req).RefinesSend json node db channelId req := by
  intro h
  have hrefines := h _ _ _ _ _ _ _ ⟨_, posting_response⟩ posting_routed
  exact not_refinesSend ⟨_, posting_response⟩ posting_routed hrefines

end RustRelay
