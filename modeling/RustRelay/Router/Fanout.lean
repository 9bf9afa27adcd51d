import RustRelay.Router.RedisBridge

/-!
# The message router

`handle_send` stores a message, looks up the members of its channel, delivers to the members who
are connected to this node and publishes the others for the other nodes.

**Theorem (`reaches_all_iff`).** After a `handle_send` that returned `Ok`, and after every node
has handled what was published, every session of every member has a copy *if and only if* no
member with a session on another node is connected to the sending node (and the bridge is
enabled, if any member has a session elsewhere). The routing choice is made for a user, the
delivery is owed to a session: `second_device_misses` is a user with a device on each node.
-/

namespace RustRelay

/-! ## Members -/

structure CachedMembers where
  members : List UserId
  fetchedAt : ℕ
  deriving DecidableEq, Repr

structure MessageRouter where
  nodeId : String
  redis : RedisBridge
  memberCache : DashMap ChannelId CachedMembers
  cacheTtl : ℕ

/-- What the world answers during one call of `handle_send`. -/
structure Answers where
  /-- `gen_random_uuid()` and `now()` of the database. -/
  messageId : MessageId
  createdAt : Timestamp
  /-- Whether the database takes the insert and answers the query. -/
  insert : Except DbError Unit
  fetch : Except DbError Unit
  /-- `Instant::now()`. -/
  instant : ℕ
  /-- Whether Redis takes the publication. -/
  publish : Except String Unit

namespace MessageRouter

/-- `get_channel_members` past the cache: the query, and the new entry. -/
def fetchMembers (router : MessageRouter) (db : Database) (fetch : Except DbError Unit)
    (instant : ℕ) (channelId : ChannelId) : Except DbError (List UserId) × MessageRouter :=
  match fetch with
  | .error e => (.error e, router)
  | .ok () =>
    let members := getChannelMemberIds db channelId
    (.ok members, { router with
      memberCache := router.memberCache.insert channelId ⟨members, instant⟩ })

/-- `get_channel_members`: from the cache while it is fresh. -/
def getChannelMembers (router : MessageRouter) (db : Database) (fetch : Except DbError Unit)
    (instant : ℕ) (channelId : ChannelId) : Except DbError (List UserId) × MessageRouter :=
  match router.memberCache.lookup channelId with
  | some entry =>
    if instant - entry.fetchedAt < router.cacheTtl then (.ok entry.members, router)
    else router.fetchMembers db fetch instant channelId
  | none => router.fetchMembers db fetch instant channelId

/-- `invalidate_channel_cache`. -/
def invalidateChannelCache (router : MessageRouter) (channelId : ChannelId) : MessageRouter :=
  { router with memberCache := router.memberCache.erase channelId }

end MessageRouter

/-! ## Sending -/

/-- A gateway node, as far as messages are concerned. -/
structure Node where
  router : MessageRouter
  sessions : SessionStore
  pipes : Pipes

/-- The loop of `handle_send`: deliver to who is connected, collect the others. -/
def SessionStore.fanOut (st : SessionStore) (event : ServerEvent) :
    List UserId → Pipes → List UserId × Pipes
  | [], p => ([], p)
  | member :: members, p =>
    if st.isConnected member then st.fanOut event members (st.sendToUser p member event).2
    else
      let (remoteTargets, p) := st.fanOut event members p
      (member :: remoteTargets, p)

/-- The outcome of `handle_send`, and the state it leaves. -/
structure Sent where
  result : Except SendError Unit
  node : Node
  db : Database
  published : Option String

/-- The event that `handle_send` sends for the stored message. -/
def messageEvent (message : Message) : ServerEvent :=
  .messageCreate ⟨message.id, message.channelId, message.authorId, message.content,
    message.createdAt, none⟩

/-- The last block of `handle_send`: publish the targets that are not connected here. -/
def MessageRouter.publishRemote (router : MessageRouter) (json : Json) (w : Answers)
    (event : ServerEvent) (remoteTargets : List UserId) : Except SendError (Option String) :=
  if remoteTargets.isEmpty then .ok none
  else match json.event.toString event with
    | .error e => .error (.json e)
    | .ok text => router.redis.publishEvent json w.publish ⟨router.nodeId, remoteTargets, text⟩

/-- `handle_send`. -/
def Node.handleSend (json : Json) (w : Answers) (node : Node) (db : Database) (authorId : UserId)
    (channelId : ChannelId) (content : String) : Sent :=
  match w.insert.bind fun _ =>
      insertMessage db w.messageId w.createdAt channelId authorId content with
  | .error e => ⟨.error (.db e), node, db, none⟩
  | .ok (message, db) =>
    let event := messageEvent message
    match node.router.getChannelMembers db w.fetch w.instant channelId with
    | (.error e, router) => ⟨.error (.db e), { node with router }, db, none⟩
    | (.ok members, router) =>
      let (remoteTargets, pipes) := node.sessions.fanOut event members node.pipes
      let node := { node with router, pipes }
      match router.publishRemote json w event remoteTargets with
      | .error e => ⟨.error e, node, db, none⟩
      | .ok published => ⟨.ok (), node, db, published⟩

/-! ## What a call does -/

/-- The message that `insert_message` stores. -/
def storedMessage (w : Answers) (authorId : UserId) (channelId : ChannelId) (content : String) :
    Message := ⟨w.messageId, channelId, authorId, content, none, w.createdAt⟩

theorem getChannelMembers_congr {db db' : Database}
    (h : getChannelMemberIds db' = getChannelMemberIds db) (router : MessageRouter) :
    router.getChannelMembers db' = router.getChannelMembers db := by
  funext fetch instant channelId
  simp only [MessageRouter.getChannelMembers, MessageRouter.fetchMembers, h]

/-- **The loop of `handle_send` delivers like `send_to_users`**, and collects who is not
connected. -/
theorem SessionStore.fanOut_eq (st : SessionStore) (event : ServerEvent) (members : List UserId)
    (p : Pipes) :
    st.fanOut event members p =
      (members.filter fun m => !st.isConnected m, (st.sendToUsers p members event).2) := by
  induction members generalizing p with
  | nil => rfl
  | cons m ms ih =>
    cases hm : st.isConnected m with
    | true =>
      rw [fanOut, if_pos hm, ih, List.filter_cons_of_neg (by simp [hm])]
      rfl
    | false =>
      rw [fanOut, if_neg (by simp [hm]), ih, List.filter_cons_of_pos (by simp [hm])]
      simp only [sendToUsers, sendToUser_of_not_connected hm]

theorem fetchMembers_fields (router : MessageRouter) (db : Database)
    (fetch : Except DbError Unit) (instant : ℕ) (channelId : ChannelId) :
    (router.fetchMembers db fetch instant channelId).2.nodeId = router.nodeId ∧
      (router.fetchMembers db fetch instant channelId).2.redis = router.redis := by
  cases fetch <;> exact ⟨rfl, rfl⟩

theorem getChannelMembers_fields (router : MessageRouter) (db : Database)
    (fetch : Except DbError Unit) (instant : ℕ) (channelId : ChannelId) :
    (router.getChannelMembers db fetch instant channelId).2.nodeId = router.nodeId ∧
      (router.getChannelMembers db fetch instant channelId).2.redis = router.redis := by
  have hfetch := fetchMembers_fields router db fetch instant channelId
  unfold MessageRouter.getChannelMembers
  cases router.memberCache.lookup channelId with
  | none => exact hfetch
  | some entry =>
    dsimp only
    split_ifs
    · exact ⟨rfl, rfl⟩
    · exact hfetch

theorem publishRemote_ok {router : MessageRouter} {json : Json} {w : Answers}
    {event : ServerEvent} {remoteTargets : List UserId} {published : Option String}
    (h : router.publishRemote json w event remoteTargets = .ok published) :
    (published = none ∧ (remoteTargets = [] ∨ router.redis.disabled = true)) ∨
      ∃ text raw, json.event.toString event = .ok text ∧
        json.payload.toString ⟨router.nodeId, remoteTargets, text⟩ = .ok raw ∧
        router.redis.disabled = false ∧ published = some raw := by
  unfold MessageRouter.publishRemote at h
  split_ifs at h with hempty
  · exact .inl ⟨(Except.ok.inj h).symm, .inl (List.isEmpty_iff.1 hempty)⟩
  · cases htext : json.event.toString event with
    | error e =>
      rw [htext] at h
      exact absurd h nofun
    | ok text =>
      rw [htext] at h
      dsimp only [RedisBridge.publishEvent] at h
      split_ifs at h with hdisabled
      · exact .inl ⟨(Except.ok.inj h).symm, .inr hdisabled⟩
      · split at h
        · exact absurd h nofun
        · next raw hraw =>
          split at h
          · exact absurd h nofun
          · exact .inr ⟨text, raw, rfl, hraw, by simpa using hdisabled, (Except.ok.inj h).symm⟩

theorem publishRemote_some {router : MessageRouter} {json : Json} {w : Answers}
    {event : ServerEvent} {remoteTargets : List UserId} {text raw : String}
    (hne : remoteTargets ≠ []) (htext : json.event.toString event = .ok text)
    (hraw : json.payload.toString ⟨router.nodeId, remoteTargets, text⟩ = .ok raw)
    (hdisabled : router.redis.disabled = false) (hpublish : w.publish = .ok ()) :
    router.publishRemote json w event remoteTargets = .ok (some raw) := by
  rw [MessageRouter.publishRemote, if_neg (by simpa using hne), htext]
  simp only [RedisBridge.publishEvent, hdisabled, hraw, hpublish, Bool.false_eq_true, if_false]

theorem handleSend_eq {json : Json} {w : Answers} {node : Node} {db db' : Database}
    {authorId : UserId} {channelId : ChannelId} {content : String} (message : Message)
    (members : List UserId) {router : MessageRouter} (hinsert : w.insert = .ok ())
    (hstored : insertMessage db w.messageId w.createdAt channelId authorId content =
      .ok (message, db'))
    (hmembers : node.router.getChannelMembers db' w.fetch w.instant channelId =
      (.ok members, router)) :
    let pipes := (node.sessions.sendToUsers node.pipes members (messageEvent message)).2
    node.handleSend json w db authorId channelId content =
      match router.publishRemote json w (messageEvent message)
          (members.filter fun m => !node.sessions.isConnected m) with
      | .error e => ⟨.error e, ⟨router, node.sessions, pipes⟩, db', none⟩
      | .ok published => ⟨.ok (), ⟨router, node.sessions, pipes⟩, db', published⟩ := by
  have hins : (w.insert.bind fun _ =>
      insertMessage db w.messageId w.createdAt channelId authorId content) =
      .ok (message, db') := by rw [hinsert]; exact hstored
  simp only [Node.handleSend, hins, hmembers, SessionStore.fanOut_eq]

/-- **What a call that returns `Ok` has done**: it delivered to the members, and published those
who are not connected, unless there are none or the bridge is disabled. -/
theorem handleSend_ok {json : Json} {w : Answers} {node : Node} {db : Database}
    {authorId : UserId} {channelId : ChannelId} {content : String} {members : List UserId}
    (hmembers : (node.router.getChannelMembers db w.fetch w.instant channelId).1 = .ok members)
    (hok : (node.handleSend json w db authorId channelId content).result = .ok ()) :
    ∃ router published, router.nodeId = node.router.nodeId ∧
      router.redis = node.router.redis ∧
      router.publishRemote json w (messageEvent (storedMessage w authorId channelId content))
        (members.filter fun m => !node.sessions.isConnected m) = .ok published ∧
      (node.handleSend json w db authorId channelId content).published = published ∧
      (node.handleSend json w db authorId channelId content).node =
        ⟨router, node.sessions, (node.sessions.sendToUsers node.pipes members
          (messageEvent (storedMessage w authorId channelId content))).2⟩ := by
  cases hinsert : w.insert with
  | error e =>
    rw [Node.handleSend, hinsert] at hok
    exact absurd hok nofun
  | ok _ =>
    cases hstored : insertMessage db w.messageId w.createdAt channelId authorId content with
    | error e =>
      simp only [Node.handleSend, hinsert, Except.bind, hstored] at hok
      exact absurd hok nofun
    | ok stored =>
      obtain ⟨message, db'⟩ := stored
      obtain ⟨hmessage, -, hrow⟩ := insertMessage_ok hstored
      obtain rfl : message = storedMessage w authorId channelId content := hmessage
      have hdb : getChannelMemberIds db' = getChannelMemberIds db := by rw [hrow]; rfl
      have hfields := getChannelMembers_fields node.router db w.fetch w.instant channelId
      cases hget : node.router.getChannelMembers db w.fetch w.instant channelId with
      | mk found router =>
        rw [hget] at hmembers hfields
        obtain rfl : found = .ok members := hmembers
        rw [← getChannelMembers_congr hdb] at hget
        rw [handleSend_eq _ members hinsert hstored hget] at hok ⊢
        cases hpublish : router.publishRemote json w
            (messageEvent (storedMessage w authorId channelId content))
            (members.filter fun m => !node.sessions.isConnected m) with
        | error e =>
          rw [hpublish] at hok
          exact absurd hok nofun
        | ok published => exact ⟨router, published, hfields.1, hfields.2, hpublish, rfl, rfl⟩

/-! ## A cluster -/

/-- The node handles what it receives from Redis. -/
def Node.receive (json : Json) (node : Node) (published : Option String) : Node :=
  match published with
  | none => node
  | some raw =>
    { node with pipes := handleCrossNodeEvent json node.sessions node.pipes node.router.nodeId raw }

section
variable {ι : Type} [DecidableEq ι]

/-- The nodes after a call on node `a`, when every node has handled what it published. -/
def clusterAfter (json : Json) (nodes : ι → Node) (a : ι) (sent : Sent) : ι → Node :=
  fun b => (Function.update nodes a sent.node b).receive json sent.published

variable {json : Json} {w : Answers} {nodes : ι → Node} {a b : ι} {db : Database}
  {authorId : UserId} {channelId : ChannelId} {content : String} {members : List UserId}

theorem clusterAfter_self (hjson : json.RoundTrip)
    (hmembers : ((nodes a).router.getChannelMembers db w.fetch w.instant channelId).1 = .ok members)
    (hok : ((nodes a).handleSend json w db authorId channelId content).result = .ok ()) :
    (clusterAfter json nodes a ((nodes a).handleSend json w db authorId channelId content)
        a).pipes =
      ((nodes a).sessions.sendToUsers (nodes a).pipes members
        (messageEvent (storedMessage w authorId channelId content))).2 := by
  obtain ⟨router, published, hid, -, hpublish, hpub, hnode⟩ := handleSend_ok hmembers hok
  rw [clusterAfter, Function.update_self, hpub, hnode]
  rcases publishRemote_ok hpublish with ⟨rfl, -⟩ | ⟨text, raw, htext, hraw, -, rfl⟩
  · rfl
  · simp only [Node.receive, handleCrossNodeEvent, acceptPayload_published hjson htext hraw,
      if_pos]

/-- Another node delivers to the members who are not connected to the sending node, if the bridge
is enabled. -/
theorem clusterAfter_other (hjson : json.RoundTrip)
    (hids : Function.Injective fun b => (nodes b).router.nodeId)
    (hmembers : ((nodes a).router.getChannelMembers db w.fetch w.instant channelId).1 = .ok members)
    (hok : ((nodes a).handleSend json w db authorId channelId content).result = .ok ())
    (hb : b ≠ a) :
    (clusterAfter json nodes a ((nodes a).handleSend json w db authorId channelId content)
        b).pipes =
      ((nodes b).sessions.sendToUsers (nodes b).pipes
        (if (nodes a).router.redis.disabled then []
          else members.filter fun m => !(nodes a).sessions.isConnected m)
        (messageEvent (storedMessage w authorId channelId content))).2 := by
  obtain ⟨router, published, hid, hredis, hpublish, hpub, -⟩ := handleSend_ok hmembers hok
  rw [clusterAfter, Function.update_of_ne hb, hpub]
  rcases publishRemote_ok hpublish with ⟨rfl, hnone⟩ | ⟨text, raw, htext, hraw, hdisabled, rfl⟩
  · rw [hredis] at hnone
    rcases hnone with hnone | hdisabled
    · rw [hnone, ite_self]
      rfl
    · rw [if_pos hdisabled]
      rfl
  · rw [hredis] at hdisabled
    have hne : router.nodeId ≠ (nodes b).router.nodeId := by
      rw [hid]
      exact fun h => hb (hids h).symm
    simp only [Node.receive, handleCrossNodeEvent, acceptPayload_published hjson htext hraw,
      if_neg hne, hdisabled, Bool.false_eq_true, if_false]

/-- **Every session of every member is reached exactly when no member has devices on both
sides.** -/
theorem reaches_all_iff (hjson : json.RoundTrip)
    (hids : Function.Injective fun b => (nodes b).router.nodeId)
    (hdistinct : ∀ b, (nodes b).sessions.Distinct)
    (hmembers : ((nodes a).router.getChannelMembers db w.fetch w.instant channelId).1 = .ok members)
    (hok : ((nodes a).handleSend json w db authorId channelId content).result = .ok ()) :
    (∀ b, ∀ u ∈ members, ∀ x ∈ (nodes b).sessions.vec u,
      (nodes b).pipes.closed x.sessionId = false →
        ((nodes b).pipes.queue x.sessionId).count
            (messageEvent (storedMessage w authorId channelId content)) <
          ((clusterAfter json nodes a ((nodes a).handleSend json w db authorId channelId content)
            b).pipes.queue x.sessionId).count
            (messageEvent (storedMessage w authorId channelId content))) ↔
      ∀ b, b ≠ a → ∀ u ∈ members,
        (∃ x ∈ (nodes b).sessions.vec u, (nodes b).pipes.closed x.sessionId = false) →
          (nodes a).sessions.isConnected u = false ∧ (nodes a).router.redis.disabled = false := by
  have hreached (b : ι) (u : UserId) (x : Session) (hx : x ∈ (nodes b).sessions.vec u)
      (targets : List UserId) (event : ServerEvent) :
      ((nodes b).pipes.queue x.sessionId).count event <
        (((nodes b).sessions.sendToUsers (nodes b).pipes targets event).2.queue
          x.sessionId).count event ↔
      (nodes b).pipes.closed x.sessionId = false ∧ u ∈ targets := by
    rw [SessionStore.sendToUsers_queue, List.count_append, List.count_replicate_self,
      ← (hdistinct b).sum_copies_pos_iff hx]
    omega
  constructor
  · intro hall b hb u hu hsession
    rcases hsession with ⟨x, hx, hopen⟩
    have hcount := hall b u hu x hx hopen
    rw [clusterAfter_other hjson hids hmembers hok hb, hreached b u x hx] at hcount
    obtain ⟨-, htarget⟩ := hcount
    split_ifs at htarget with hdisabled
    · exact absurd htarget List.not_mem_nil
    · exact ⟨by simpa using (List.mem_filter.1 htarget).2, by simpa using hdisabled⟩
  · intro hsides b u hu x hx hopen
    by_cases hb : b = a
    · subst hb
      rw [clusterAfter_self hjson hmembers hok, hreached b u x hx]
      exact ⟨hopen, hu⟩
    · obtain ⟨hconn, hdisabled⟩ := hsides b hb u hu ⟨x, hx, hopen⟩
      rw [clusterAfter_other hjson hids hmembers hok hb, hreached b u x hx, hdisabled]
      exact ⟨hopen, List.mem_filter.2 ⟨hu, by rw [hconn]; rfl⟩⟩

end

/-! ## Two nodes -/

theorem pair_nodup : ([(10, 1), (10, 2)] : List (GuildId × UserId)).Nodup := by decide

/-- Users 1 and 2 are the members of channel 20. -/
def pair : Database where
  users := [1, 2]
  channels := (∅ : DashMap _ _).insert 20 10
  guildMembers := [(10, 1), (10, 2)]
  guildMembers_nodup := pair_nodup
  messages := ∅
  readStates := ∅

/-- The first of two nodes, or the second, with one session each. -/
def twoNodes (first second : Session) (b : Bool) : Node where
  router := ⟨cond b "node-1" "node-2", ⟨cond b "node-1" "node-2", false⟩, ∅, 300⟩
  sessions := SessionStore.new.insert (cond b first second)
  pipes := ⟨fun _ => [], fun _ => false⟩

/-- Nothing fails, and the message gets id 9. -/
def allWell : Answers := ⟨9, 0, .ok (), .ok (), 0, .ok ()⟩

/-- The message that user 1 sends to channel 20. -/
def greeting : Message := storedMessage allWell 1 20 "hi"

def greetingText : String :=
  "\x7b\"t\":\"MESSAGE_CREATE\",\"d\":\x7b\"id\":\"00000000-0000-0000-0000-000000000009\"," ++
  "\"channel_id\":\"00000000-0000-0000-0000-000000000014\"," ++
  "\"author_id\":\"00000000-0000-0000-0000-000000000001\"," ++
  "\"content\":\"hi\",\"timestamp\":\"1970-01-01T00:00:00Z\",\"edited_at\":null\x7d\x7d"

/-- The codecs of the greeting and of the payload that carries it to user 2. -/
def greetingJson : Json where
  event := .single (messageEvent greeting) greetingText
  payload := .single ⟨"node-1", [2], greetingText⟩
    ("\x7b\"source_node\":\"node-1\"," ++
    "\"target_user_ids\":[\"00000000-0000-0000-0000-000000000002\"]," ++
    "\"event\":\"\x7b\\\"t\\\":\\\"MESSAGE_CREATE\\\",\\\"d\\\":\x7b" ++
    "\\\"id\\\":\\\"00000000-0000-0000-0000-000000000009\\\"," ++
    "\\\"channel_id\\\":\\\"00000000-0000-0000-0000-000000000014\\\"," ++
    "\\\"author_id\\\":\\\"00000000-0000-0000-0000-000000000001\\\"," ++
    "\\\"content\\\":\\\"hi\\\",\\\"timestamp\\\":\\\"1970-01-01T00:00:00Z\\\"," ++
    "\\\"edited_at\\\":null\x7d\x7d\"\x7d")

theorem greetingJson_roundTrip : greetingJson.RoundTrip :=
  ⟨Serde.single_roundTrip _ _, Serde.single_roundTrip _ _⟩

theorem twoNodes_ids (first second : Session) :
    Function.Injective fun b => (twoNodes first second b).router.nodeId := by
  intro b c h
  have hne : "node-1" ≠ "node-2" := by decide
  cases b <;> cases c
  · rfl
  · exact absurd h.symm hne
  · exact absurd h hne
  · rfl

/-- The greeting is sent from any node with a session of user 1 and none of user 2. -/
theorem greeting_sent {sessions : SessionStore} {pipes : Pipes} {redis : RedisBridge}
    (h₁ : sessions.isConnected 1 = true) (h₂ : sessions.isConnected 2 = false)
    (hredis : redis.disabled = false) :
    (Node.handleSend greetingJson allWell ⟨⟨"node-1", redis, ∅, 300⟩, sessions, pipes⟩ pair
      1 20 "hi").result = .ok () := by
  have hremote : ([1, 2] : List UserId).filter (fun m => !sessions.isConnected m) = [2] := by
    simp [List.filter, h₁, h₂]
  rw [handleSend_eq greeting [1, 2] rfl rfl rfl, hremote,
    publishRemote_some (List.cons_ne_nil 2 []) (Serde.single_toString _ _)
      (Serde.single_toString _ _) hredis rfl]

/-- User 1 on the first node sends to user 2 on the second. -/
theorem reaches_all_iff_twoNodes :
    let nodes := twoNodes ⟨100, 1⟩ ⟨200, 2⟩
    let sent := (nodes true).handleSend greetingJson allWell pair 1 20 "hi"
    ∀ b, ∀ u ∈ [1, 2], ∀ x ∈ (nodes b).sessions.vec u,
      (nodes b).pipes.closed x.sessionId = false →
        ((nodes b).pipes.queue x.sessionId).count (messageEvent greeting) <
          ((clusterAfter greetingJson nodes true sent b).pipes.queue x.sessionId).count
            (messageEvent greeting) := by
  refine (reaches_all_iff greetingJson_roundTrip (twoNodes_ids _ _)
    (fun b => SessionStore.distinct_single _) rfl ?_).2 fun b hb u hu hopen => ?_
  · exact greeting_sent (by decide) (by decide) rfl
  · obtain rfl : b = false := by simpa using hb
    rcases List.mem_pair.1 hu with rfl | rfl
    · have hnil : (twoNodes ⟨100, 1⟩ ⟨200, 2⟩ false).sessions.vec 1 = [] := by decide
      obtain ⟨x, hx, -⟩ := hopen
      rw [hnil] at hx
      exact absurd hx List.not_mem_nil
    · exact ⟨by decide, rfl⟩

/-- **A second device is missed**: user 1 has a session on each node and sends from the first.
The call returns `Ok`, but the session on the second node never gets the message. -/
theorem second_device_misses :
    let nodes := twoNodes ⟨100, 1⟩ ⟨101, 1⟩
    let sent := (nodes true).handleSend greetingJson allWell pair 1 20 "hi"
    sent.result = .ok () ∧
      ((nodes true).router.getChannelMembers pair allWell.fetch allWell.instant 20).1 = .ok [1, 2] ∧
      ⟨101, 1⟩ ∈ (nodes false).sessions.vec 1 ∧ (nodes false).pipes.closed 101 = false ∧
      (clusterAfter greetingJson nodes true sent false).pipes.queue 101 = [] := by
  have hsent : ((twoNodes ⟨100, 1⟩ ⟨101, 1⟩ true).handleSend greetingJson allWell pair 1 20
      "hi").result = .ok () := greeting_sent (by decide) (by decide) rfl
  have hmembers : ((twoNodes ⟨100, 1⟩ ⟨101, 1⟩ true).router.getChannelMembers pair allWell.fetch
      allWell.instant 20).1 = .ok [1, 2] := rfl
  refine ⟨hsent, hmembers, by decide, rfl, ?_⟩
  rw [clusterAfter_other greetingJson_roundTrip (twoNodes_ids _ _) hmembers hsent (by decide)]
  rfl

end RustRelay
