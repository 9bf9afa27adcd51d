import RustRelay.Presence.Cluster
import RustRelay.Presence.Pipeline
import RustRelay.ReadState.Cache
import RustRelay.Router.MemberCache
import RustRelay.Routes.SendMessage

/-!
# Dispatching client messages

`handle_client_message` on the state of a node: which subsystem a message goes to, and in whose
name.

Two facts about one message carry over to runs. For a user who did not send it, nothing that is
theirs changes (`handleClientMessage_frame`). And what a registered session is sent is what the
database alone says (`heardFrom`), with no word of caches, read states or presence:
`handleClientMessage_queue`.
-/

namespace RustRelay

/-! ## The state of a node -/

/-- `AppState`, with the channels of the sessions. -/
structure AppState where
  router : MessageRouter
  /-- The sessions, the tracker and its timers. -/
  presence : Presence
  pipes : Pipes
  readStates : ReadStateCache

/-- The part of it that `handle_send` works on. -/
def AppState.node (app : AppState) : Node := ⟨app.router, app.presence.sessions, app.pipes⟩

/-- What the world answers during a dispatch. -/
structure DispatchAnswers extends Answers where
  /-- `Utc::now()`. -/
  timestamp : Timestamp

/-- The outcome of a dispatch. -/
structure Dispatched where
  app : AppState
  db : Database
  published : Option String

namespace AppState

variable (client : Serde ClientMessage) (json : Json) (w : DispatchAnswers) (app : AppState)
  (db : Database) (userId : UserId)

/-- `StartTyping`: to the other members who are connected here, and nowhere else. -/
def startTyping (channelId : ChannelId) : AppState :=
  match app.router.getChannelMembers db w.fetch w.instant channelId with
  | (.error _, router) => { app with router }
  | (.ok members, router) =>
    let targets := members.filter fun id => id ≠ userId
    { app with
      router
      pipes := (app.presence.sessions.sendToUsers app.pipes targets
        (.typingStart userId channelId w.timestamp)).2 }

/-- `handle_client_message`. Errors are only logged. -/
def handleClientMessage (text : String) : Dispatched :=
  match client.fromStr text with
  | .error _ => ⟨app, db, none⟩
  | .ok (.sendMessage channelId content) =>
    let sent := app.node.handleSend json w.toAnswers db userId channelId content
    ⟨{ app with router := sent.node.router, pipes := sent.node.pipes }, sent.db, sent.published⟩
  | .ok (.ackMessage channelId messageId) =>
    ⟨{ app with readStates := app.readStates.update (userId, channelId, messageId) }, db, none⟩
  | .ok (.updatePresence status) =>
    ⟨{ app with presence :=
        { app.presence with tracker := app.presence.tracker.setStatus userId status } }, db, none⟩
  | .ok (.heartbeat seq) =>
    ⟨{ app with pipes :=
        (app.presence.sessions.sendToUser app.pipes userId (.heartbeatAck seq)).2 }, db, none⟩
  | .ok (.startTyping channelId) => ⟨app.startTyping w db userId channelId, db, none⟩

end AppState

/-! ## What is whose -/

/-- The messages of the user are those they were. -/
def SameMessages (v : UserId) (db db' : Database) : Prop :=
  ∀ id message, message.authorId = v →
    (db'.messages.lookup id = some message ↔ db.messages.lookup id = some message)

theorem SameMessages.refl (v : UserId) (db : Database) : SameMessages v db db :=
  fun _ _ _ => Iff.rfl

theorem SameMessages.trans {v : UserId} {db db' db'' : Database} (h : SameMessages v db db')
    (h' : SameMessages v db' db'') : SameMessages v db db'' :=
  fun id message hauthor => (h' id message hauthor).trans (h id message hauthor)

theorem SameMessages.insert {v : UserId} {db : Database} {message : Message}
    (hnew : db.messages.lookup message.id = none) (hauthor : message.authorId ≠ v) :
    SameMessages v db { db with messages := db.messages.insert message.id message } := by
  intro id m hm
  by_cases hid : id = message.id
  · subst hid
    rw [AList.lookup_insert, hnew]
    constructor
    · intro heq
      exact absurd (Option.some.inj heq ▸ hm) hauthor
    · nofun
  · rw [AList.lookup_insert_ne hid]

/-- What is in the name of a user: messages, read marks, presence. -/
structure SameOf (v : UserId) (app app' : AppState) (db db' : Database) : Prop where
  messages : SameMessages v db db'
  readStates : ∀ channelId, app'.readStates.pending.lookup (v, channelId) =
    app.readStates.pending.lookup (v, channelId)
  presence : Tracker.SameFor v app.presence.tracker app'.presence.tracker

theorem SameOf.refl (v : UserId) (app : AppState) (db : Database) : SameOf v app app db db :=
  ⟨.refl v db, fun _ => rfl, rfl, rfl⟩

theorem SameOf.trans {v : UserId} {app app' app'' : AppState} {db db' db'' : Database}
    (h : SameOf v app app' db db') (h' : SameOf v app' app'' db' db'') :
    SameOf v app app'' db db'' :=
  ⟨h.messages.trans h'.messages, fun c => (h'.readStates c).trans (h.readStates c),
    h'.presence.1.trans h.presence.1, h'.presence.2.trans h.presence.2⟩

section
variable {client : Serde ClientMessage} {json : Json} {w : DispatchAnswers} {app : AppState}
  {db : Database} {userId v : UserId} {text : String}

/-- A `SendMessage` is `Node.handleClientMessage` on the part of the state that it works on. -/
theorem handleClientMessage_send {channelId : ChannelId} {content : String}
    (h : client.fromStr text = .ok (.sendMessage channelId content)) :
    let d := app.handleClientMessage client json w db userId text
    (d.app.node, d.db) =
        app.node.handleClientMessage json w.toAnswers db userId channelId content ∧
      d.app.presence = app.presence ∧ d.app.readStates = app.readStates := by
  intro d
  have hd : d = ⟨{ app with
      router := (app.node.handleSend json w.toAnswers db userId channelId content).node.router
      pipes := (app.node.handleSend json w.toAnswers db userId channelId content).node.pipes },
      (app.node.handleSend json w.toAnswers db userId channelId content).db,
      (app.node.handleSend json w.toAnswers db userId channelId content).published⟩ := by
    simp only [d, AppState.handleClientMessage, h]
  have hsessions : (app.node.handleSend json w.toAnswers db userId channelId
      content).node.sessions = app.presence.sessions := by
    rcases handleSend_cases json w.toAnswers app.node db userId channelId content with
      ⟨e, -, hsent⟩ | ⟨message, db', -, -, ⟨e, -, hsent⟩ | ⟨members, -, hsessions, -⟩⟩
    · rw [hsent]
      rfl
    · rw [hsent]
      rfl
    · exact hsessions
  rw [hd]
  refine ⟨?_, rfl, rfl⟩
  rw [Node.handleClientMessage, AppState.node]
  dsimp only
  rw [← hsessions]

theorem handleSend_messages {w : Answers} {node : Node} {channelId : ChannelId} {content : String}
    (h : userId ≠ v) :
    SameMessages v db (node.handleSend json w db userId channelId content).db := by
  rcases handleSend_cases json w node db userId channelId content with
    ⟨e, -, hsent⟩ | ⟨message, db', hpersist, hdb, -⟩
  · rw [hsent]
    exact .refl v db
  · obtain ⟨rfl, hnew, rfl⟩ := persist_ok hpersist
    rw [hdb]
    exact .insert hnew h

theorem lookup_update_of_ne {c : ReadStateCache} {x : ReadUpdate} {key : UserId × ChannelId}
    (h : key ≠ keyOf x) : (c.update x).pending.lookup key = c.pending.lookup key := by
  rw [ReadStateCache.update, ReadStateCache.countTotal, ReadStateCache.countPending,
    ReadStateCache.updateEntry]
  dsimp only
  split <;> exact AList.lookup_insert_ne h

theorem handleClientMessage_sessions (client : Serde ClientMessage) (json : Json)
    (w : DispatchAnswers) (app : AppState) (db : Database) (userId : UserId) (text : String) :
    (app.handleClientMessage client json w db userId text).app.presence.sessions =
      app.presence.sessions := by
  unfold AppState.handleClientMessage
  split
  · rfl
  · rfl
  · rfl
  · rfl
  · rfl
  · unfold AppState.startTyping
    dsimp only
    split <;> rfl

/-- **A dispatch does nothing in the name of another user**, and nothing to sessions and timers. -/
theorem handleClientMessage_frame (client : Serde ClientMessage) (json : Json)
    (w : DispatchAnswers) (app : AppState) (db : Database) (h : userId ≠ v) (text : String) :
    let d := app.handleClientMessage client json w db userId text
    SameOf v app d.app db d.db ∧ d.app.presence.sessions = app.presence.sessions ∧
      d.app.presence.timers = app.presence.timers := by
  intro d
  cases hmessage : client.fromStr text with
  | error e =>
    simp only [d, AppState.handleClientMessage, hmessage, and_true]
    exact .refl v app db
  | ok message =>
    cases message with
    | sendMessage channelId content =>
      simp only [d, AppState.handleClientMessage, hmessage, and_true]
      exact ⟨handleSend_messages h, fun _ => rfl, rfl, rfl⟩
    | ackMessage channelId messageId =>
      simp only [d, AppState.handleClientMessage, hmessage, and_true]
      refine ⟨.refl v db, fun c => lookup_update_of_ne fun heq => ?_, rfl, rfl⟩
      exact h (Prod.mk.inj heq).1.symm
    | updatePresence status =>
      simp only [d, AppState.handleClientMessage, hmessage, and_true]
      exact ⟨.refl v db, fun _ => rfl, Tracker.sameFor_setStatus (Ne.symm h) status⟩
    | heartbeat seq =>
      simp only [d, AppState.handleClientMessage, hmessage, and_true]
      exact ⟨.refl v db, fun _ => rfl, rfl, rfl⟩
    | startTyping channelId =>
      have htyping : (app.startTyping w db userId channelId).presence = app.presence ∧
          (app.startTyping w db userId channelId).readStates = app.readStates := by
        unfold AppState.startTyping
        split <;> exact ⟨rfl, rfl⟩
      simp only [d, AppState.handleClientMessage, hmessage, htyping.1, and_true]
      refine ⟨.refl v db, fun c => ?_, ?_⟩
      · rw [htyping.2]
      · rw [htyping.1]
        exact ⟨rfl, rfl⟩

end

/-! ## What a session is sent -/

/-- The members of each cached channel are those in the database. -/
def MessageRouter.Sound (router : MessageRouter) (db : Database) : Prop :=
  ∀ channelId entry, router.memberCache.lookup channelId = some entry →
    entry.members = getChannelMemberIds db channelId

/-- What a message of a user makes the sessions of another one, or of the same, hear. -/
def heardFrom (client : Serde ClientMessage) (w : DispatchAnswers) (db : Database)
    (userId : UserId) (text : String) (v : UserId) : List ServerEvent :=
  match client.fromStr text with
  | .ok (.sendMessage channelId content) =>
    match persist w.toAnswers db userId channelId content with
    | .error _ => []
    | .ok (message, _) =>
      if v ∈ getChannelMemberIds db channelId then [messageEvent message] else []
  | .ok (.heartbeat seq) => if v = userId then [.heartbeatAck seq] else []
  | .ok (.startTyping channelId) =>
    if v ≠ userId ∧ v ∈ getChannelMemberIds db channelId then
      [.typingStart userId channelId w.timestamp]
    else []
  | _ => []

section
variable {router router' : MessageRouter} {db db' : Database}

/-- With a sound cache and a database that answers, the members are those in the database. -/
theorem MessageRouter.Sound.getChannelMembers (h : router.Sound db) (instant : ℕ)
    (channelId : ChannelId) :
    ∃ router', router.getChannelMembers db (.ok ()) instant channelId =
      (.ok (getChannelMemberIds db channelId), router') ∧ router'.Sound db := by
  have hfetch : (router.fetchMembers db (.ok ()) instant channelId).2.Sound db := by
    intro c entry hentry
    simp only [MessageRouter.fetchMembers, DashMap.lookup_insert_ite] at hentry
    split_ifs at hentry with hc
    · rw [hc, ← Option.some.inj hentry]
    · exact h c entry hentry
  unfold MessageRouter.getChannelMembers
  cases hlookup : router.memberCache.lookup channelId with
  | none => exact ⟨_, rfl, hfetch⟩
  | some entry =>
    dsimp only
    split_ifs
    · exact ⟨router, by rw [h channelId entry hlookup], h⟩
    · exact ⟨_, rfl, hfetch⟩

theorem MessageRouter.Sound.congr (h : router.Sound db)
    (hdb : getChannelMemberIds db' = getChannelMemberIds db) : router.Sound db' := by
  intro channelId entry hentry
  rw [hdb]
  exact h channelId entry hentry

end

section
variable {client : Serde ClientMessage} {json : Json} {w : DispatchAnswers} {app : AppState}
  {db : Database} {userId v : UserId} {text : String} {x : Session}

/-- A send, as the members of its channel hear it. -/
theorem handleSend_heard {w : Answers} {node : Node} {channelId : ChannelId} {content : String}
    (hfetch : w.fetch = .ok ()) (hsound : node.router.Sound db) (hfiled : node.sessions.Filed)
    (hx : x ∈ node.sessions.vec v) (hopen : node.pipes.closed x.sessionId = false) :
    let sent := node.handleSend json w db userId channelId content
    sent.node.router.Sound sent.db ∧ getChannelMemberIds sent.db = getChannelMemberIds db ∧
      sent.node.pipes.queue x.sessionId = node.pipes.queue x.sessionId ++
        match persist w db userId channelId content with
        | .error _ => []
        | .ok (message, _) =>
          if v ∈ getChannelMemberIds db channelId then [messageEvent message] else [] := by
  intro sent
  cases hpersist : persist w db userId channelId content with
  | error e =>
    have hsent : sent = ⟨.error (.db e), node, db, none⟩ := handleSend_insert_failed hpersist
    rw [hsent, List.append_nil]
    exact ⟨hsound, rfl, rfl⟩
  | ok stored =>
    obtain ⟨message, db'⟩ := stored
    have hmembers := persist_members hpersist
    obtain ⟨router', hlookup, hsound'⟩ := (hsound.congr hmembers).getChannelMembers w.instant
      channelId
    rw [← hfetch] at hlookup
    obtain ⟨hdb, hnode⟩ : sent.db = db' ∧ sent.node = _ := handleSend_delivers hpersist hlookup
    rw [hdb, hnode, hmembers]
    refine ⟨hsound', rfl, ?_⟩
    exact hfiled.sendToUsers_queue hx hopen (getChannelMemberIds_nodup db channelId) _

/-- **What a dispatch adds to the channel of a session** is what the database says. -/
theorem handleClientMessage_queue (client : Serde ClientMessage) (json : Json)
    (w : DispatchAnswers) (hfetch : w.fetch = .ok ()) (hsound : app.router.Sound db)
    (hfiled : app.presence.sessions.Filed) (hx : x ∈ app.presence.sessions.vec v)
    (hopen : app.pipes.closed x.sessionId = false) (userId : UserId) (text : String) :
    let d := app.handleClientMessage client json w db userId text
    d.app.router.Sound d.db ∧ getChannelMemberIds d.db = getChannelMemberIds db ∧
      d.app.pipes.queue x.sessionId = app.pipes.queue x.sessionId ++
        heardFrom client w db userId text v := by
  intro d
  cases hmessage : client.fromStr text with
  | error e =>
    simp only [d, AppState.handleClientMessage, heardFrom, hmessage, List.append_nil]
    exact ⟨hsound, trivial, trivial⟩
  | ok message =>
    cases message with
    | sendMessage channelId content =>
      simp only [d, AppState.handleClientMessage, heardFrom, hmessage]
      exact @handleSend_heard json db userId v x w.toAnswers app.node channelId content hfetch
        hsound hfiled hx hopen
    | ackMessage channelId messageId =>
      simp only [d, AppState.handleClientMessage, heardFrom, hmessage, List.append_nil]
      exact ⟨hsound, trivial, trivial⟩
    | updatePresence status =>
      simp only [d, AppState.handleClientMessage, heardFrom, hmessage, List.append_nil]
      exact ⟨hsound, trivial, trivial⟩
    | heartbeat seq =>
      simp only [d, AppState.handleClientMessage, heardFrom, hmessage]
      refine ⟨hsound, trivial, ?_⟩
      have hone := hfiled.sendToUsers_queue hx hopen (List.nodup_singleton userId)
        (.heartbeatAck seq)
      simpa [SessionStore.sendToUsers] using hone
    | startTyping channelId =>
      obtain ⟨router', hlookup, hsound'⟩ := hsound.getChannelMembers w.instant channelId
      rw [← hfetch] at hlookup
      simp only [d, AppState.handleClientMessage, AppState.startTyping, heardFrom, hmessage,
        hlookup]
      refine ⟨hsound', trivial, ?_⟩
      rw [hfiled.sendToUsers_queue hx hopen ((getChannelMemberIds_nodup db channelId).filter _)]
      simp [and_comm]

end

end RustRelay
