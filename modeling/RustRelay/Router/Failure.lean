import RustRelay.Router.Fanout

/-!
# When sending fails

`handle_send` has four steps that can fail, each behind a `?`: the insert, the lookup of the
members, the two serializations and the publication. Nothing undoes what came before.

**Theorem (`handle_send_failed`).** A call that returned `Err` published nothing. If its insert
failed it has done nothing at all. Otherwise its row is in the table; and if it had also found
the members, the event is with every session of theirs.

So a call that failed may be repeated without effect exactly if its insert failed
(`publish_failure_delivers` is one that may not).
-/

namespace RustRelay

/-! ## The steps -/

/-- Step 1 of `handle_send`. -/
def persist (w : Answers) (db : Database) (authorId : UserId) (channelId : ChannelId)
    (content : String) : Except DbError (Message × Database) :=
  w.insert.bind fun _ => insertMessage db w.messageId w.createdAt channelId authorId content

variable {json : Json} {w : Answers} {node : Node} {db db' : Database} {authorId : UserId}
  {channelId : ChannelId} {content : String} {message : Message}

theorem persist_ok (h : persist w db authorId channelId content = .ok (message, db')) :
    message = storedMessage w authorId channelId content ∧
      db.messages.lookup message.id = none ∧
      db' = { db with messages := db.messages.insert message.id message } := by
  cases hinsert : w.insert with
  | error e =>
    rw [persist, hinsert] at h
    cases h
  | ok _ =>
    rw [persist, hinsert] at h
    exact insertMessage_ok h

theorem persist_messages_ne (h : persist w db authorId channelId content = .ok (message, db')) :
    db'.messages ≠ db.messages := by
  obtain ⟨-, hnew, rfl⟩ := persist_ok h
  intro hsame
  have hfound : (db.messages.insert message.id message).lookup message.id = some message :=
    AList.lookup_insert _
  rw [show db.messages.insert message.id message = db.messages from hsame, hnew] at hfound
  cases hfound

theorem persist_members (h : persist w db authorId channelId content = .ok (message, db')) :
    getChannelMemberIds db' = getChannelMemberIds db := by
  obtain ⟨-, -, rfl⟩ := persist_ok h
  rfl

/-- A lookup that fails leaves the router alone: the old entry stays, with its age. -/
theorem getChannelMembers_error {router router' : MessageRouter} {fetch : Except DbError Unit}
    {instant : ℕ} {e : DbError}
    (h : router.getChannelMembers db fetch instant channelId = (.error e, router')) :
    router' = router := by
  have hfetch (h : router.fetchMembers db fetch instant channelId = (.error e, router')) :
      router' = router := by
    cases fetch with
    | error e' => exact (Prod.mk.inj h).2.symm
    | ok _ => cases (Prod.mk.inj h).1
  unfold MessageRouter.getChannelMembers at h
  cases hentry : router.memberCache.lookup channelId with
  | none =>
    rw [hentry] at h
    exact hfetch h
  | some entry =>
    rw [hentry] at h
    dsimp only at h
    split_ifs at h
    · cases (Prod.mk.inj h).1
    · exact hfetch h

/-! ## What a failed step leaves behind -/

theorem handleSend_insert_failed {e : DbError}
    (h : persist w db authorId channelId content = .error e) :
    node.handleSend json w db authorId channelId content = ⟨.error (.db e), node, db, none⟩ := by
  rw [persist] at h
  rw [Node.handleSend, h]

theorem handleSend_lookup_failed {router : MessageRouter} {e : DbError}
    (h : persist w db authorId channelId content = .ok (message, db'))
    (hlookup : node.router.getChannelMembers db' w.fetch w.instant channelId =
      (.error e, router)) :
    node.handleSend json w db authorId channelId content =
      ⟨.error (.db e), node, db', none⟩ := by
  rw [persist] at h
  simp only [Node.handleSend, h, hlookup, getChannelMembers_error hlookup]

/-- With the members found, whatever the publication does, the row is stored and the members'
sessions have been sent the event. -/
theorem handleSend_delivers {router : MessageRouter} {members : List UserId}
    (h : persist w db authorId channelId content = .ok (message, db'))
    (hlookup : node.router.getChannelMembers db' w.fetch w.instant channelId =
      (.ok members, router)) :
    (node.handleSend json w db authorId channelId content).db = db' ∧
      (node.handleSend json w db authorId channelId content).node =
        ⟨router, node.sessions,
          (node.sessions.sendToUsers node.pipes members (messageEvent message)).2⟩ := by
  rw [persist] at h
  simp only [Node.handleSend, h, hlookup, SessionStore.fanOut_eq]
  cases router.publishRemote json w (messageEvent message)
      (members.filter fun m => !node.sessions.isConnected m) with
  | error e => exact ⟨rfl, rfl⟩
  | ok published => exact ⟨rfl, rfl⟩

theorem publishRemote_refused {router : MessageRouter} {event : ServerEvent}
    {remoteTargets : List UserId} {text raw reason : String} (hne : remoteTargets ≠ [])
    (htext : json.event.toString event = .ok text)
    (hraw : json.payload.toString ⟨router.nodeId, remoteTargets, text⟩ = .ok raw)
    (hdisabled : router.redis.disabled = false) (hpublish : w.publish = .error reason) :
    router.publishRemote json w event remoteTargets = .error (.redis reason) := by
  rw [MessageRouter.publishRemote, if_neg (by simpa using hne), htext]
  simp only [RedisBridge.publishEvent, hdisabled, hraw, hpublish, Bool.false_eq_true, if_false]

theorem handleSend_publish_failed {router : MessageRouter} {members : List UserId} {e : SendError}
    (h : persist w db authorId channelId content = .ok (message, db'))
    (hlookup : node.router.getChannelMembers db' w.fetch w.instant channelId =
      (.ok members, router))
    (hfailed : (node.handleSend json w db authorId channelId content).result = .error e) :
    (node.handleSend json w db authorId channelId content).published = none := by
  rw [persist] at h
  simp only [Node.handleSend, h, hlookup] at hfailed ⊢
  cases hpublish : router.publishRemote json w (messageEvent message)
      (node.sessions.fanOut (messageEvent message) members node.pipes).1 with
  | error e' => rfl
  | ok published =>
    rw [hpublish] at hfailed
    cases hfailed

/-- **How far a call gets**: not past the insert, not past the lookup, or to the publication. -/
theorem handleSend_cases (json : Json) (w : Answers) (node : Node) (db : Database)
    (authorId : UserId) (channelId : ChannelId) (content : String) :
    let sent := node.handleSend json w db authorId channelId content
    (∃ e, persist w db authorId channelId content = .error e ∧
      sent = ⟨.error (.db e), node, db, none⟩) ∨
    ∃ message db', persist w db authorId channelId content = .ok (message, db') ∧ sent.db = db' ∧
      ((∃ e, (node.router.getChannelMembers db w.fetch w.instant channelId).1 = .error e ∧
        sent = ⟨.error (.db e), node, db', none⟩) ∨
      ∃ members, (node.router.getChannelMembers db w.fetch w.instant channelId).1 = .ok members ∧
        sent.node.sessions = node.sessions ∧
        sent.node.pipes =
          (node.sessions.sendToUsers node.pipes members (messageEvent message)).2 ∧
        ∀ e, sent.result = .error e → sent.published = none) := by
  intro sent
  cases hpersist : persist w db authorId channelId content with
  | error e => exact .inl ⟨e, rfl, handleSend_insert_failed hpersist⟩
  | ok stored =>
    obtain ⟨message, db'⟩ := stored
    -- The new row does not change who the members are.
    rw [← getChannelMembers_congr (persist_members hpersist)]
    cases hlookup : node.router.getChannelMembers db' w.fetch w.instant channelId with
    | mk found router =>
      cases found with
      | error e =>
        have hsent : sent = ⟨.error (.db e), node, db', none⟩ :=
          handleSend_lookup_failed hpersist hlookup
        exact .inr ⟨message, db', rfl, congrArg Sent.db hsent, .inl ⟨e, rfl, hsent⟩⟩
      | ok members =>
        obtain ⟨hdb, hnode⟩ : sent.db = db' ∧ sent.node = _ := handleSend_delivers hpersist hlookup
        refine .inr ⟨message, db', rfl, hdb, .inr ⟨members, rfl, ?_, ?_, ?_⟩⟩
        · rw [hnode]
        · rw [hnode]
        · exact fun e hfailed => handleSend_publish_failed hpersist hlookup hfailed

/-- **What a failed `handle_send` has done**, by the step that failed; and it has done nothing
exactly if that was the insert. -/
theorem handle_send_failed {e : SendError}
    (h : (node.handleSend json w db authorId channelId content).result = .error e) :
    let sent := node.handleSend json w db authorId channelId content
    sent.published = none ∧
      (∀ e', persist w db authorId channelId content = .error e' →
        sent.db = db ∧ sent.node = node) ∧
      (∀ message db', persist w db authorId channelId content = .ok (message, db') →
        db.messages.lookup message.id = none ∧
        sent.db = { db with messages := db.messages.insert message.id message } ∧
        (∀ e', (node.router.getChannelMembers db w.fetch w.instant channelId).1 = .error e' →
          sent.node = node) ∧
        ∀ members,
          (node.router.getChannelMembers db w.fetch w.instant channelId).1 = .ok members →
          sent.node.sessions = node.sessions ∧ sent.node.pipes =
            (node.sessions.sendToUsers node.pipes members (messageEvent message)).2) ∧
      (sent.db.messages = db.messages ∧ sent.node.pipes = node.pipes ↔
        ∃ e', persist w db authorId channelId content = .error e') := by
  intro sent
  rcases handleSend_cases json w node db authorId channelId content with
    ⟨e', hpersist, hsent⟩ | ⟨message, db', hpersist, hdb', hrest⟩
  · have hsent : sent = ⟨.error (.db e'), node, db, none⟩ := hsent
    rw [hpersist, hsent]
    exact ⟨rfl, fun _ _ => ⟨rfl, rfl⟩, nofun, fun _ => ⟨e', rfl⟩, fun _ => ⟨rfl, rfl⟩⟩
  · obtain ⟨-, hnew, hdb⟩ := persist_ok hpersist
    have hdb' : sent.db = db' := hdb'
    have hpublished : sent.published = none := by
      rcases hrest with ⟨e', -, hsent⟩ | ⟨members, -, -, -, hpublished⟩
      · exact congrArg Sent.published hsent
      · exact hpublished e h
    rw [hpersist]
    refine ⟨hpublished, nofun, ?_, ?_, nofun⟩
    · intro message' db'' hstored
      obtain ⟨rfl, rfl⟩ := Prod.mk.inj (Except.ok.inj hstored)
      refine ⟨hnew, hdb'.trans hdb, ?_⟩
      rcases hrest with ⟨e', hlookup, hsent⟩ | ⟨members, hlookup, hsessions, hpipes, -⟩
      · rw [hlookup]
        exact ⟨fun _ _ => congrArg Sent.node hsent, nofun⟩
      · rw [hlookup]
        refine ⟨nofun, ?_⟩
        intro members' hfound
        obtain rfl := Except.ok.inj hfound
        exact ⟨hsessions, hpipes⟩
    · intro hnothing
      rw [hdb'] at hnothing
      exact absurd hnothing.1 (persist_messages_ne hpersist)

/-! ## Redis is down -/

/-- Redis refuses every publication. -/
def redisDown : Answers := { allWell with publish := .error "connection refused" }

theorem redisDown_fails :
    ((twoNodes ⟨100, 1⟩ ⟨200, 2⟩ true).handleSend greetingJson redisDown pair 1 20 "hi").result =
      .error (.redis "connection refused") := by
  have hremote : ([1, 2] : List UserId).filter
      (fun m => !(twoNodes ⟨100, 1⟩ ⟨200, 2⟩ true).sessions.isConnected m) = [2] := by decide
  rw [handleSend_eq greeting [1, 2] rfl rfl rfl, hremote,
    publishRemote_refused (List.cons_ne_nil 2 []) (Serde.single_toString _ _)
      (Serde.single_toString _ _) rfl rfl]

/-- The failed call has published nothing, and stored its row. -/
theorem handle_send_failed_redisDown :
    let sent := (twoNodes ⟨100, 1⟩ ⟨200, 2⟩ true).handleSend greetingJson redisDown pair 1 20 "hi"
    sent.published = none ∧
      sent.db.messages = pair.messages.insert 9 (storedMessage redisDown 1 20 "hi") := by
  have hfailed := handle_send_failed redisDown_fails
  exact ⟨hfailed.1, congrArg Database.messages (hfailed.2.2.1 _ _ rfl).2.1⟩

/-- **A failed call can have had effects**: the row is stored and the sender's own session has
the event, when Redis refuses the publication to the other member. -/
theorem publish_failure_delivers :
    ¬ ∀ (json : Json) (w : Answers) (node : Node) (db : Database) (authorId : UserId)
      (channelId : ChannelId) (content : String) (e : SendError),
      (node.handleSend json w db authorId channelId content).result = .error e →
        (node.handleSend json w db authorId channelId content).db.messages = db.messages ∧
        (∀ sid, (node.handleSend json w db authorId channelId content).node.pipes.queue sid =
          node.pipes.queue sid) ∧
        (node.handleSend json w db authorId channelId content).published = none := by
  intro h
  obtain ⟨-, hqueue, -⟩ := h _ _ _ _ _ _ _ _ redisDown_fails
  have hsent : ((twoNodes ⟨100, 1⟩ ⟨200, 2⟩ true).handleSend greetingJson redisDown pair 1 20
      "hi").node = _ := (handleSend_delivers rfl rfl).2
  have hqueue := hqueue 100
  rw [hsent] at hqueue
  cases hqueue

end RustRelay
