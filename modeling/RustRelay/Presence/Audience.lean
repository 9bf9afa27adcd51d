import RustRelay.Presence.Broadcast
import RustRelay.Router.Subscriber

/-!
# Who sees a presence change

`flush_batch` looks up who shares a guild with the user of each update, delivers to the sessions
of these users on its own node and publishes the update. A node that receives it delivers it to
everyone connected, whatever their guilds: the client is to filter.

**Theorem (`presence_audience`).** After a flush of any batch, with the database and Redis
succeeding, and after every node has handled what was published, a session on the flushing node has
got exactly the updates of *other* users who share a guild with its user, and a session on another
node has got all of them. So whoever should see an update sees it on every placement, and who else
does is a matter of placement: `placement_matters`.
-/

namespace RustRelay

/-! ## Redis -/

/-- The value of `presence:{user_id}`. -/
structure PresenceKey where
  status : PresenceStatus
  node : String
  updatedAt : Timestamp
  ttlSecs : ℤ
  deriving DecidableEq, Repr

abbrev PresenceKeys := DashMap UserId PresenceKey

namespace RedisBridge

variable (bridge : RedisBridge) (redis : Except String Unit)

/-- `set_presence`, with the answer of Redis. -/
def setPresence (keys : PresenceKeys) (updatedAt : Timestamp) (userId : UserId)
    (status : PresenceStatus) (ttlSecs : ℤ) : PresenceKeys :=
  if bridge.disabled then keys
  else match redis with
    | .error _ => keys
    | .ok () => keys.insert userId ⟨status, bridge.nodeId, updatedAt, ttlSecs⟩

/-- `remove_presence`. -/
def removePresence (keys : PresenceKeys) (userId : UserId) : PresenceKeys :=
  if bridge.disabled then keys
  else match redis with
    | .error _ => keys
    | .ok () => keys.erase userId

/-- `publish_presence`, with the message that is published. -/
def publishPresence (presence : Serde PresencePayload) (userId : UserId)
    (status : PresenceStatus) : Option RedisMessage :=
  if bridge.disabled then none
  else match presence.toString ⟨bridge.nodeId, userId, status⟩, redis with
    | .ok payload, .ok () => some ⟨"rustrelay:presence", some payload⟩
    | _, _ => none

end RedisBridge

/-! ## Flushing -/

/-- A gateway node, as far as presence updates are concerned. -/
structure PresenceHost where
  bridge : RedisBridge
  sessions : SessionStore
  pipes : Pipes

/-- What the world answers while one update is flushed. -/
structure FlushAnswers where
  colocated : Except DbError Unit
  store : Except String Unit
  publish : Except String Unit
  updatedAt : Timestamp

/-- What a flush changes, and what it publishes. -/
structure Flushed where
  pipes : Pipes
  keys : PresenceKeys
  published : List RedisMessage

/-- The event of an update. -/
def PendingUpdate.event (update : PendingUpdate) : ServerEvent :=
  .presenceUpdate update.userId update.status

namespace PresenceHost

section
variable (presence : Serde PresencePayload) (host : PresenceHost) (db : Database)

/-- The body of the loop of `flush_batch`; the results of Redis are ignored. -/
def flushUpdate (f : Flushed) (update : PendingUpdate) (w : FlushAnswers) : Flushed :=
  match w.colocated with
  | .error _ => f
  | .ok () =>
    let targets := getColocatedUserIds db update.userId
    { pipes := (host.sessions.sendToUsers f.pipes targets update.event).2
      keys := if update.status = .offline then
          host.bridge.removePresence w.store f.keys update.userId
        else host.bridge.setPresence w.store f.keys w.updatedAt update.userId update.status 300
      published := f.published ++
        (host.bridge.publishPresence w.publish presence update.userId update.status).toList }

/-- `flush_batch`. -/
def flushBatch (keys : PresenceKeys) (updates : List (PendingUpdate × FlushAnswers)) : Flushed :=
  updates.foldl (fun f p => host.flushUpdate presence db f p.1 p.2) ⟨host.pipes, keys, []⟩

/-- The node handles messages of Redis, one after the other. -/
def handleAll (json : Json) (published : List RedisMessage) (p : Pipes) : Pipes :=
  published.foldl
    (fun p message => handleMessage json presence host.sessions p host.bridge.nodeId message) p

end

end PresenceHost

/-! ## Received events -/

/-- The events that a session got between two states of the channels. -/
def Pipes.Gains (p p' : Pipes) (sid : SessionId) (P : ServerEvent → Prop) : Prop :=
  ∃ new, p'.queue sid = p.queue sid ++ new ∧ ∀ e, e ∈ new ↔ P e

theorem SessionStore.sendToUsers_closed (st : SessionStore) (p : Pipes) (userIds : List UserId)
    (event : ServerEvent) : (st.sendToUsers p userIds event).2.closed = p.closed := by
  induction userIds generalizing p with
  | nil => rfl
  | cons uid uids ih =>
    simp only [SessionStore.sendToUsers]
    rw [ih, sendToUser_closed]

theorem Pipes.Gains.refl (p : Pipes) (sid : SessionId) : p.Gains p sid fun _ => False :=
  ⟨[], (List.append_nil _).symm, fun _ => iff_of_false List.not_mem_nil id⟩

theorem Pipes.Gains.trans {p p' p'' : Pipes} {sid : SessionId} {P Q : ServerEvent → Prop}
    (h : p.Gains p' sid P) (h' : p'.Gains p'' sid Q) : p.Gains p'' sid fun e => P e ∨ Q e := by
  obtain ⟨new, hnew, hP⟩ := h
  obtain ⟨new', hnew', hQ⟩ := h'
  refine ⟨new ++ new', by rw [hnew', hnew, List.append_assoc], ?_⟩
  intro e
  rw [List.mem_append, hP, hQ]

theorem Pipes.Gains.congr {p p' : Pipes} {sid : SessionId} {P Q : ServerEvent → Prop}
    (h : p.Gains p' sid P) (hPQ : ∀ e, P e ↔ Q e) : p.Gains p' sid Q := by
  obtain ⟨new, hnew, hP⟩ := h
  exact ⟨new, hnew, fun e => (hP e).trans (hPQ e)⟩

/-- A session with a receiver gets an event exactly if its user is in the list. -/
theorem SessionStore.Distinct.gains_sendToUsers {st : SessionStore} (hst : st.Distinct)
    {p : Pipes} {v : UserId} {x : Session} (hx : x ∈ st.vec v)
    (hopen : p.closed x.sessionId = false) (userIds : List UserId) (event : ServerEvent) :
    p.Gains (st.sendToUsers p userIds event).2 x.sessionId fun e => e = event ∧ v ∈ userIds := by
  refine ⟨_, SessionStore.sendToUsers_queue st p userIds event x.sessionId, ?_⟩
  intro e
  have hpos := hst.sum_copies_pos_iff (p := p) hx userIds
  rw [List.mem_replicate, ← Nat.pos_iff_ne_zero, hpos, and_iff_right hopen, and_comm]

theorem SessionStore.mem_connectedUserIds {st : SessionStore} {v : UserId} {x : Session}
    (hx : x ∈ st.vec v) : v ∈ st.connectedUserIds := by
  rw [connectedUserIds, DashMap.mem_keys_iff]
  exact ⟨_, lookup_of_mem_vec hx⟩

/-! ## A flush on its own node -/

namespace PresenceHost

variable {presence : Serde PresencePayload} {host : PresenceHost} {db : Database}

/-- What a flush publishes of an update. -/
def publication (presence : Serde PresencePayload) (host : PresenceHost)
    (p : PendingUpdate × FlushAnswers) : List RedisMessage :=
  (host.bridge.publishPresence p.2.publish presence p.1.userId p.1.status).toList

/-- Redis takes the update, and its payload can be written. -/
def Publishes (presence : Serde PresencePayload) (host : PresenceHost)
    (p : PendingUpdate × FlushAnswers) : Prop :=
  p.2.publish = .ok () ∧
    ∃ raw, presence.toString ⟨host.bridge.nodeId, p.1.userId, p.1.status⟩ = .ok raw

/-- The other nodes are told of the update: the members were found, the bridge is there, and Redis
takes the update. -/
def GoesOut (presence : Serde PresencePayload) (host : PresenceHost)
    (p : PendingUpdate × FlushAnswers) : Prop :=
  p.2.colocated = .ok () ∧ host.bridge.disabled = false ∧ Publishes presence host p

theorem publication_eq (henabled : host.bridge.disabled = false)
    {p : PendingUpdate × FlushAnswers} (h : Publishes presence host p) :
    ∃ raw, presence.toString ⟨host.bridge.nodeId, p.1.userId, p.1.status⟩ = .ok raw ∧
      publication presence host p = [⟨"rustrelay:presence", some raw⟩] := by
  obtain ⟨hpublish, raw, hraw⟩ := h
  refine ⟨raw, hraw, ?_⟩
  simp only [publication, RedisBridge.publishPresence, henabled, hraw, hpublish]
  rfl

theorem publication_eq_nil {p : PendingUpdate × FlushAnswers}
    (h : host.bridge.disabled = true ∨ ¬Publishes presence host p) :
    publication presence host p = [] := by
  unfold publication RedisBridge.publishPresence
  by_cases hdisabled : host.bridge.disabled = true
  · rw [if_pos hdisabled]
    rfl
  · rw [if_neg hdisabled]
    split
    · next raw hraw hpublish =>
      exact absurd ⟨hpublish, raw, hraw⟩ (h.resolve_left hdisabled)
    · rfl

/-- An update goes out as one message, or not at all. -/
theorem flushUpdate_published (presence : Serde PresencePayload) (host : PresenceHost)
    (db : Database) (f : Flushed) (p : PendingUpdate × FlushAnswers) :
    (GoesOut presence host p ∧ ∃ raw,
      presence.toString ⟨host.bridge.nodeId, p.1.userId, p.1.status⟩ = .ok raw ∧
      (host.flushUpdate presence db f p.1 p.2).published =
        f.published ++ [⟨"rustrelay:presence", some raw⟩]) ∨
    (¬GoesOut presence host p ∧
      (host.flushUpdate presence db f p.1 p.2).published = f.published) := by
  cases hlookup : p.2.colocated with
  | error e =>
    refine .inr ⟨fun hout => ?_, ?_⟩
    · rw [hout.1] at hlookup
      cases hlookup
    · simp only [flushUpdate, hlookup]
  | ok =>
    have hpublished : (host.flushUpdate presence db f p.1 p.2).published =
        f.published ++ publication presence host p := by
      simp only [flushUpdate, hlookup]
      rfl
    rw [hpublished]
    by_cases hgoes : host.bridge.disabled = false ∧ Publishes presence host p
    · obtain ⟨raw, hraw, hpublication⟩ := publication_eq hgoes.1 hgoes.2
      exact .inl ⟨⟨hlookup, hgoes⟩, raw, hraw, by rw [hpublication]⟩
    · refine .inr ⟨fun hout => hgoes hout.2, ?_⟩
      have hnil : publication presence host p = [] :=
        publication_eq_nil ((not_and_or.1 hgoes).imp_left (Bool.not_eq_false _).mp)
      rw [hnil, List.append_nil]

/-- The sessions of the node get the updates of the users they share a guild with, as far as the
lookups succeed. -/
theorem foldl_gains (hdistinct : host.sessions.Distinct) {v : UserId} {x : Session}
    (hx : x ∈ host.sessions.vec v) (updates : List (PendingUpdate × FlushAnswers)) {f : Flushed}
    (hopen : f.pipes.closed x.sessionId = false) :
    f.pipes.Gains (updates.foldl (fun f p => host.flushUpdate presence db f p.1 p.2) f).pipes
      x.sessionId fun e => ∃ p ∈ updates, p.2.colocated = .ok () ∧ e = p.1.event ∧
        v ∈ getColocatedUserIds db p.1.userId := by
  induction updates generalizing f with
  | nil => exact (Pipes.Gains.refl f.pipes x.sessionId).congr fun e => by simp
  | cons p updates ih =>
    rw [List.foldl_cons]
    cases hlookup : p.2.colocated with
    | error e =>
      have hsame : host.flushUpdate presence db f p.1 p.2 = f := by
        simp only [flushUpdate, hlookup]
      rw [hsame]
      exact (ih hopen).congr fun e' => by simp [hlookup]
    | ok =>
      have hone : f.pipes.Gains (host.flushUpdate presence db f p.1 p.2).pipes x.sessionId
          (fun e => e = p.1.event ∧ v ∈ getColocatedUserIds db p.1.userId) := by
        simp only [flushUpdate, hlookup]
        exact hdistinct.gains_sendToUsers hx hopen _ _
      have hclosed : (host.flushUpdate presence db f p.1 p.2).pipes.closed x.sessionId = false := by
        simp only [flushUpdate, hlookup, SessionStore.sendToUsers_closed]
        exact hopen
      exact (hone.trans (ih hclosed)).congr fun e => by simp [hlookup]

/-! ## A published update on the nodes -/

/-- A node that handles an update of another node sends it to everyone, and ignores its own. -/
theorem handleMessage_published (hround : presence.RoundTrip) (json : Json) {sourceNode : String}
    {u : UserId} {status : PresenceStatus} {raw : String}
    (hraw : presence.toString ⟨sourceNode, u, status⟩ = .ok raw) (sessions : SessionStore)
    (p : Pipes) (myNodeId : String) :
    handleMessage json presence sessions p myNodeId ⟨"rustrelay:presence", some raw⟩ =
      if sourceNode = myNodeId then p
      else (sessions.sendToUsers p sessions.connectedUserIds (.presenceUpdate u status)).2 := by
  have hchannel : ("rustrelay:presence" : String) ≠ "rustrelay:events" := by decide
  simp only [handleMessage, if_neg hchannel, if_pos, handleCrossNodePresence, hround _ _ hraw]

theorem handleAll_self (hround : presence.RoundTrip) (json : Json) (p : Pipes)
    (updates : List (PendingUpdate × FlushAnswers)) {f : Flushed} (hf : f.published = []) :
    host.handleAll presence json
      (updates.foldl (fun f p => host.flushUpdate presence db f p.1 p.2) f).published p = p := by
  induction updates using List.reverseRecOn with
  | nil =>
    rw [List.foldl_nil, hf]
    rfl
  | append_singleton updates upd ih =>
    rw [List.foldl_concat]
    rcases flushUpdate_published presence host db
      (updates.foldl (fun f p => host.flushUpdate presence db f p.1 p.2) f) upd with
      ⟨-, raw, hraw, hpublished⟩ | ⟨-, hpublished⟩
    · rw [hpublished, handleAll, List.foldl_concat, ← handleAll, ih,
        handleMessage_published hround json hraw, if_pos rfl]
    · rw [hpublished, ih]

theorem closed_handleMessage (json : Json) (sessions : SessionStore) (p : Pipes) (myNodeId : String)
    (message : RedisMessage) :
    (handleMessage json presence sessions p myNodeId message).closed = p.closed := by
  unfold handleMessage
  split
  · rfl
  · split_ifs
    · unfold handleCrossNodeEvent
      split
      · rfl
      · exact SessionStore.sendToUsers_closed _ _ _ _
    · unfold handleCrossNodePresence
      split
      · rfl
      · split_ifs
        · rfl
        · exact SessionStore.sendToUsers_closed _ _ _ _
    · rfl

theorem handleAll_closed (json : Json) (published : List RedisMessage) (p : Pipes) :
    (host.handleAll presence json published p).closed = p.closed := by
  induction published generalizing p with
  | nil => rfl
  | cons message published ih =>
    rw [handleAll, List.foldl_cons, ← handleAll, ih, closed_handleMessage]

theorem handleAll_other (hround : presence.RoundTrip) (json : Json) {other : PresenceHost}
    (hne : host.bridge.nodeId ≠ other.bridge.nodeId) (hdistinct : other.sessions.Distinct)
    {v : UserId} {x : Session} (hx : x ∈ other.sessions.vec v) {p : Pipes}
    (hopen : p.closed x.sessionId = false) (updates : List (PendingUpdate × FlushAnswers))
    {f : Flushed} (hf : f.published = []) :
    p.Gains (other.handleAll presence json
        (updates.foldl (fun f p => host.flushUpdate presence db f p.1 p.2) f).published p)
      x.sessionId fun e => ∃ upd ∈ updates, GoesOut presence host upd ∧ e = upd.1.event := by
  induction updates using List.reverseRecOn with
  | nil =>
    rw [List.foldl_nil, hf]
    exact (Pipes.Gains.refl p x.sessionId).congr fun e => by simp
  | append_singleton updates upd ih =>
    rw [List.foldl_concat]
    rcases flushUpdate_published presence host db
      (updates.foldl (fun f p => host.flushUpdate presence db f p.1 p.2) f) upd with
      ⟨hout, raw, hraw, hpublished⟩ | ⟨hout, hpublished⟩
    · rw [hpublished, handleAll, List.foldl_concat, ← handleAll,
        handleMessage_published hround json hraw, if_neg hne]
      have hv : v ∈ other.sessions.connectedUserIds := SessionStore.mem_connectedUserIds hx
      refine (ih.trans (hdistinct.gains_sendToUsers hx
        ((congrFun (handleAll_closed json _ p) _).trans hopen) _ _)).congr fun e => ?_
      simp only [hv, and_true, List.mem_append, List.mem_singleton, or_and_right, exists_or,
        exists_eq_left, hout, true_and]
      rfl
    · rw [hpublished]
      exact ih.congr fun e => by
        simp only [List.mem_append, List.mem_singleton, or_and_right, exists_or, exists_eq_left,
          hout, false_and, or_false]

end PresenceHost

/-! ## All nodes -/

section
variable {ι : Type} [DecidableEq ι]

/-- The channels of node `b` after a flush on node `a`, when it has handled what was published. -/
def afterFlush (presence : Serde PresencePayload) (json : Json) (hosts : ι → PresenceHost) (a : ι)
    (flushed : Flushed) (b : ι) : Pipes :=
  (hosts b).handleAll presence json flushed.published
    (if b = a then flushed.pipes else (hosts b).pipes)

/-- A user with a session on node `b` gets an update of `u` that is flushed on node `a`. -/
def Sees (db : Database) (a b : ι) (v u : UserId) : Prop := b = a → v ≠ u ∧ db.SharesGuild u v

section
variable {presence : Serde PresencePayload} (hround : presence.RoundTrip) (json : Json)
  {hosts : ι → PresenceHost} {a b : ι} (hdistinct : ∀ b, (hosts b).sessions.Distinct) {v : UserId}
  {x : Session}

include hround hdistinct

/-- What a session on the flushing node gets, whatever fails. -/
theorem gains_self (hx : x ∈ (hosts a).sessions.vec v)
    (hopen : (hosts a).pipes.closed x.sessionId = false) (db : Database) (keys : PresenceKeys)
    (updates : List (PendingUpdate × FlushAnswers)) :
    (hosts a).pipes.Gains
      (afterFlush presence json hosts a ((hosts a).flushBatch presence db keys updates) a)
      x.sessionId fun e => ∃ p ∈ updates, p.2.colocated = .ok () ∧ e = p.1.event ∧
        v ∈ getColocatedUserIds db p.1.userId := by
  rw [afterFlush, if_pos rfl, PresenceHost.flushBatch,
    PresenceHost.handleAll_self hround json _ _ rfl]
  exact PresenceHost.foldl_gains (hdistinct a) hx updates hopen

/-- What a session on another node gets, whatever fails. -/
theorem gains_other (hids : Function.Injective fun b => (hosts b).bridge.nodeId) (hb : b ≠ a)
    (hx : x ∈ (hosts b).sessions.vec v) (hopen : (hosts b).pipes.closed x.sessionId = false)
    (db : Database) (keys : PresenceKeys) (updates : List (PendingUpdate × FlushAnswers)) :
    (hosts b).pipes.Gains
      (afterFlush presence json hosts a ((hosts a).flushBatch presence db keys updates) b)
      x.sessionId fun e => ∃ p ∈ updates, PresenceHost.GoesOut presence (hosts a) p ∧
        e = p.1.event := by
  have hne : (hosts a).bridge.nodeId ≠ (hosts b).bridge.nodeId := fun h => hb (hids h).symm
  rw [afterFlush, if_neg hb]
  exact PresenceHost.handleAll_other hround json hne (hdistinct b) hx hopen updates rfl

end

/-- **Who sees a presence change.** On the node that flushes it, exactly the other users who share
a guild with its user; on every other node, everyone connected. -/
theorem presence_audience {presence : Serde PresencePayload} (hround : presence.RoundTrip)
    (json : Json) {hosts : ι → PresenceHost}
    (hids : Function.Injective fun b => (hosts b).bridge.nodeId)
    (hdistinct : ∀ b, (hosts b).sessions.Distinct) {a : ι}
    (henabled : (hosts a).bridge.disabled = false) (db : Database) (keys : PresenceKeys)
    {updates : List (PendingUpdate × FlushAnswers)}
    (hdb : ∀ p ∈ updates, p.2.colocated = .ok ())
    (hredis : ∀ p ∈ updates, PresenceHost.Publishes presence (hosts a) p) {b : ι} {v : UserId}
    {x : Session} (hx : x ∈ (hosts b).sessions.vec v)
    (hopen : (hosts b).pipes.closed x.sessionId = false) :
    (hosts b).pipes.Gains
      (afterFlush presence json hosts a ((hosts a).flushBatch presence db keys updates) b)
      x.sessionId fun e => ∃ p ∈ updates, e = p.1.event ∧ Sees db a b v p.1.userId := by
  by_cases hb : b = a
  · subst hb
    apply (gains_self hround json hdistinct hx hopen db keys updates).congr
    intro e
    refine exists_congr fun p => and_congr_right fun hp => ?_
    simp only [hdb p hp, mem_getColocatedUserIds, Sees, forall_true_left, true_and]
  · apply (gains_other hround json hdistinct hids hb hx hopen db keys updates).congr
    intro e
    refine exists_congr fun p => and_congr_right fun hp => ?_
    have hout : PresenceHost.GoesOut presence (hosts a) p := ⟨hdb p hp, henabled, hredis p hp⟩
    simp only [hout, Sees, hb, false_imp_iff, and_true, true_and]

/-- Users 7 and 8, who are in no guild. -/
def strangers : Database where
  users := [7, 8]
  channels := ∅
  guildMembers := []
  guildMembers_nodup := List.nodup_nil
  messages := ∅
  readStates := ∅

/-- Two nodes with these sessions. -/
def placement (first second : SessionStore) (b : Bool) : PresenceHost :=
  ⟨⟨cond b "node-1" "node-2", false⟩, cond b first second, ⟨fun _ => [], fun _ => false⟩⟩

/-- User 7 is online, and nothing fails. -/
def nowOnline : List (PendingUpdate × FlushAnswers) :=
  [(⟨7, .online⟩, ⟨.ok (), .ok (), .ok (), 0⟩)]

/-- User 8 is connected to the other node. -/
theorem presence_audience_strangers :
    (placement (SessionStore.new.insert ⟨1, 7⟩) (SessionStore.new.insert ⟨2, 8⟩) false).pipes.Gains
      (afterFlush Subscriber.onePresence Subscriber.noJson
        (placement (SessionStore.new.insert ⟨1, 7⟩) (SessionStore.new.insert ⟨2, 8⟩)) true
        ((placement (SessionStore.new.insert ⟨1, 7⟩) (SessionStore.new.insert ⟨2, 8⟩)
          true).flushBatch Subscriber.onePresence strangers ∅ nowOnline) false)
      2 fun e => ∃ p ∈ nowOnline, e = p.1.event ∧ Sees strangers true false 8 p.1.userId := by
  refine presence_audience (x := ⟨2, 8⟩) (Serde.single_roundTrip _ _) _ (fun b c h => ?_)
    (fun b => ?_) rfl _ _ (fun p hp => ?_) (fun p hp => ?_) ?_ rfl
  · have hne : "node-1" ≠ "node-2" := by decide
    cases b <;> cases c
    · rfl
    · exact absurd h.symm hne
    · exact absurd h hne
    · rfl
  · cases b
    · exact SessionStore.distinct_single _
    · exact SessionStore.distinct_single _
  · obtain rfl := List.mem_singleton.1 hp
    rfl
  · obtain rfl := List.mem_singleton.1 hp
    exact ⟨rfl, _, Serde.single_toString _ _⟩
  · exact SessionStore.mem_vec_insert.2 (.inr ⟨rfl, rfl⟩)

/-- What the session of user 8 got, on node `b` of a placement. -/
def gotBy8 (first second : SessionStore) (b : Bool) : List ServerEvent :=
  (afterFlush Subscriber.onePresence Subscriber.noJson (placement first second) true
    ((placement first second true).flushBatch Subscriber.onePresence strangers ∅ nowOnline)
      b).queue 2

/-- **Placement matters**: user 8 shares no guild with user 7, and sees user 7 come online if and
only if it is connected to another node. -/
theorem placement_matters :
    ¬strangers.SharesGuild 7 8 ∧
      gotBy8 (SessionStore.new.insert ⟨1, 7⟩) (SessionStore.new.insert ⟨2, 8⟩) false =
        [.presenceUpdate 7 .online] ∧
      gotBy8 ((SessionStore.new.insert ⟨1, 7⟩).insert ⟨2, 8⟩) .new true = [] := by
  refine ⟨?_, rfl, rfl⟩
  intro hshares
  obtain ⟨g, hg, -⟩ := hshares
  exact absurd hg List.not_mem_nil

end

end RustRelay
