import RustRelay.Presence.Audience
import RustRelay.Presence.Publish

/-!
# A presence change on its way

An update is enqueued after the status was written, waits for the worker, waits in its batch, waits
in the flush, is sent to the sessions of the node and published, waits in the subscribers of the
other nodes and is sent to their sessions. Every node does all of this at any time (`PresenceNet`),
while sessions come and go and the rest of the node sends other events.

What a node does by itself is told in two halves. Before the flush updates of a user are left out
when later ones overtake them, and never the last (`step_ahead`); and a registered session is sent
what the subscriber handles, and nothing else of presences (`step_received`).
-/

namespace RustRelay

open Machine Coalesce

/-! ## The nodes -/

/-- A node, as far as presence updates are concerned. -/
structure PresencePath where
  publishing : Publishing
  /-- What is between `tx` and `rx` of the broadcaster. -/
  queue : List PendingUpdate
  batch : List PendingUpdate
  /-- The `updates` of the `flush_batch` in progress, without those that are done. -/
  flushing : List PendingUpdate
  host : PresenceHost
  /-- What the subscriber has received and not handled. -/
  inbox : List RedisMessage
  /-- The loop of the subscriber has not ended. -/
  listening : Bool

/-- The nodes, and the keys in Redis. -/
structure PresenceNet (ι : Type) where
  nodes : ι → PresencePath
  keys : PresenceKeys

/-- What a task of a node does. -/
inductive NodeAction
  /-- A call of the tracker writes, or enqueues its update. -/
  | track (a : Publishing.Action)
  /-- `rx.recv()` of the worker. -/
  | recv
  /-- `interval.tick()` of the worker. -/
  | tick
  /-- The subscriber handles a message. -/
  | handle
  /-- The subscriber's loop ends. -/
  | stop
  /-- An operation of `SessionStore::insert` or `remove`. -/
  | sessions (c : Call)
  /-- The receiver of a session is dropped. -/
  | hangUp (sessionId : SessionId)
  /-- Any other event is sent. -/
  | send (userIds : List UserId) (event : ServerEvent)

/-- What happens on a node, or the worker of a node handles the next update of its flush. -/
inductive NetAction (ι : Type)
  | node (a : ι) (e : NodeAction)
  | flush (a : ι) (db : Database) (answers : FlushAnswers)

/-- The status that an event tells of a user. -/
def ServerEvent.statusOf (u : UserId) : ServerEvent → Option PresenceStatus
  | .presenceUpdate v status => if v = u then some status else none
  | _ => none

def ServerEvent.isPresenceUpdate : ServerEvent → Bool
  | .presenceUpdate _ _ => true
  | _ => false

/-- What a step of `Publishing` sends into the channel of the broadcaster. -/
def Publishing.enqueues (p : Publishing) : Publishing.Action → List PendingUpdate
  | .call _ => []
  | .publish n => ((p.outgoing.lookup n).map fun q => ⟨q.1, q.2⟩).toList

/-- `Uuid::new_v4` gives a new session id each time. -/
def SessionStore.Admits (st : SessionStore) : Call → Prop
  | .insert x => ∀ xs ∈ DashMap.values st.sessions, ∀ y ∈ xs, y.sessionId ≠ x.sessionId
  | _ => True

instance (st : SessionStore) : (c : Call) → Decidable (st.Admits c)
  | .insert x => inferInstanceAs (Decidable (∀ xs ∈ DashMap.values st.sessions, ∀ y ∈ xs,
      y.sessionId ≠ x.sessionId))
  | .insertCount | .remove _ _ | .removeKey _ _ _ | .removeCount _ _ => .isTrue trivial

namespace PresencePath

/-- A round of `broadcast_worker`. -/
def work (nd : PresencePath) (e : Event PendingUpdate) : PresencePath :=
  let w := BroadcastWorker.step ⟨nd.batch, []⟩ e
  { nd with batch := w.batch, flushing := w.flushed.flatten }

section
variable (json : Json) (presence : Serde PresencePayload)

/-- What a node does by itself. The worker waits while a flush is in progress. -/
def step (nd : PresencePath) : NodeAction → Option PresencePath
  | .track a => (Publishing.step nd.publishing a).map fun publishing =>
    { nd with publishing, queue := nd.queue ++ nd.publishing.enqueues a }
  | .recv => match nd.flushing, nd.queue with
    | [], update :: queue => some { nd.work (.receive update) with queue }
    | _, _ => none
  | .tick => if nd.flushing = [] then some (nd.work .tick) else none
  | .handle => match nd.listening, nd.inbox with
    | true, message :: inbox =>
      let pipes := handleMessage json presence nd.host.sessions nd.host.pipes
        nd.host.bridge.nodeId message
      some { nd with inbox, host := { nd.host with pipes } }
    | _, _ => none
  | .stop => some { nd with inbox := [], listening := false }
  | .sessions c =>
    if nd.host.sessions.Admits c then
      some { nd with host := { nd.host with sessions := (nd.host.sessions.op c).1 } }
    else none
  | .hangUp sid =>
    let closed := Function.update nd.host.pipes.closed sid true
    some { nd with host := { nd.host with pipes := { nd.host.pipes with closed } } }
  | .send userIds event =>
    if event.isPresenceUpdate then none
    else
      let pipes := (nd.host.sessions.sendToUsers nd.host.pipes userIds event).2
      some { nd with host := { nd.host with pipes } }

end

/-- The next update of the flush is done, with these pipes. -/
def advance (nd : PresencePath) (flushing : List PendingUpdate) (pipes : Pipes) : PresencePath :=
  { nd with flushing, host := { nd.host with pipes } }

/-- A message of Redis comes to the subscriber. -/
def deliver (nd : PresencePath) (published : List RedisMessage) : PresencePath :=
  { nd with inbox := if nd.listening then nd.inbox ++ published else nd.inbox }

end PresencePath

namespace PresenceNet

variable {ι : Type} [DecidableEq ι]

/-- The net before anything happens. -/
def init (bridges : ι → RedisBridge) : PresenceNet ι where
  nodes b := ⟨.init, [], [], [], ⟨bridges b, .new, ⟨fun _ => [], fun _ => false⟩⟩, [], true⟩
  keys := ∅

section
variable (json : Json) (presence : Serde PresencePayload)

def step (s : PresenceNet ι) : NetAction ι → Option (PresenceNet ι)
  | .node a e => ((s.nodes a).step json presence e).map fun nd =>
    { s with nodes := Function.update s.nodes a nd }
  | .flush a db answers => match (s.nodes a).flushing with
    | [] => none
    | update :: flushing =>
      let f := (s.nodes a).host.flushUpdate presence db ⟨(s.nodes a).host.pipes, s.keys, []⟩ update
        answers
      let nodes := Function.update s.nodes a ((s.nodes a).advance flushing f.pipes)
      some ⟨fun b => (nodes b).deliver f.published, f.keys⟩

end

end PresenceNet

/-! ## Registered sessions -/

/-- Every session is registered once. -/
structure SessionStore.Filed (st : SessionStore) : Prop where
  distinct : st.Distinct
  nodup : ∀ u, ((st.vec u).map Session.sessionId).Nodup

namespace SessionStore

variable {st : SessionStore} {v : UserId} {x : Session}

theorem filed_new : SessionStore.new.Filed :=
  ⟨⟨fun _ _ hx => absurd hx List.not_mem_nil, fun _ _ _ hx => absurd hx List.not_mem_nil⟩,
    fun _ => List.nodup_nil⟩

theorem Admits.ne (h : st.Admits (.insert x)) {u : UserId} {y : Session} (hy : y ∈ st.vec u) :
    y.sessionId ≠ x.sessionId :=
  h _ (DashMap.mem_values_iff.2 ⟨u, lookup_of_mem_vec hy⟩) y hy

theorem Filed.op (h : st.Filed) {c : Call} (hc : st.Admits c) : (st.op c).1.Filed := by
  by_cases hinsert : ∃ x, c = .insert x
  · obtain ⟨x, rfl⟩ := hinsert
    refine ⟨⟨op_owner h.distinct.owner _, fun u w y hy z hz hid => ?_⟩, fun u => ?_⟩
    · rcases mem_vec_insert.1 hy with hy' | ⟨rfl, -⟩ <;>
        rcases mem_vec_insert.1 hz with hz' | ⟨rfl, -⟩
      · exact h.distinct.ids u w y hy' z hz' hid
      · exact absurd hid (hc.ne hy')
      · exact absurd hid.symm (hc.ne hz')
      · rfl
    · rw [vec_insert]
      split_ifs
      · rw [List.map_append, List.map_singleton]
        refine (h.nodup u).append (List.nodup_singleton _) ?_
        rw [List.disjoint_singleton]
        intro hmem
        obtain ⟨y, hy, hid⟩ := List.mem_map.1 hmem
        exact hc.ne hy hid
      · exact h.nodup u
  · have hold : ∀ y, c ≠ .insert y := fun y hy => hinsert ⟨y, hy⟩
    refine ⟨⟨op_owner h.distinct.owner _, fun u w y hy z hz =>
      h.distinct.ids u w y (mem_vec_op hold hy) z (mem_vec_op hold hz)⟩, fun u => ?_⟩
    cases c with
    | insert y => exact absurd rfl (hold y)
    | remove w sid =>
      rw [vec_remove]
      split_ifs
      · exact (h.nodup u).sublist (List.filter_sublist.map _)
      · exact h.nodup u
    | removeKey w sid removed =>
      rw [vec_removeKey]
      split_ifs
      · exact List.nodup_nil
      · exact h.nodup u
    | insertCount | removeCount => exact h.nodup u

/-- A session with a receiver gets one copy for each time its user is in the list. -/
theorem Filed.sum_copies (h : st.Filed) {p : Pipes} (hx : x ∈ st.vec v)
    (hopen : p.closed x.sessionId = false) (userIds : List UserId) :
    (userIds.map fun u => p.copies (st.vec u) x.sessionId).sum = userIds.count v := by
  induction userIds with
  | nil => rfl
  | cons u userIds ih =>
    have hone : p.copies (st.vec u) x.sessionId = if u = v then 1 else 0 := by
      rw [Pipes.copies, hopen, if_neg Bool.false_ne_true]
      split_ifs with hu
      · subst hu
        exact List.count_eq_one_of_mem (h.nodup u) (List.mem_map_of_mem hx)
      · refine List.count_eq_zero.2 fun hmem => hu ?_
        obtain ⟨y, hy, hid⟩ := List.mem_map.1 hmem
        obtain rfl := h.distinct.ids u v y hy x hx hid
        exact (h.distinct.owner u y hy).symm.trans (h.distinct.owner v y hx)
    rw [List.map_cons, List.sum_cons, ih, hone, List.count_cons, add_comm]
    simp

theorem Filed.sendToUsers_queue (h : st.Filed) {p : Pipes} (hx : x ∈ st.vec v)
    (hopen : p.closed x.sessionId = false) {userIds : List UserId} (huserIds : userIds.Nodup)
    (event : ServerEvent) : (st.sendToUsers p userIds event).2.queue x.sessionId =
      p.queue x.sessionId ++ if v ∈ userIds then [event] else [] := by
  rw [SessionStore.sendToUsers_queue, h.sum_copies hx hopen, huserIds.count]
  split_ifs <;> rfl

end SessionStore

/-! ## One stage -/

/-- The statuses in the updates of a user. -/
def statuses (u : UserId) (updates : List PendingUpdate) : List PresenceStatus :=
  (ofKey PendingUpdate.userId u updates).map PendingUpdate.status

theorem statuses_append (u : UserId) (xs ys : List PendingUpdate) :
    statuses u (xs ++ ys) = statuses u xs ++ statuses u ys := by
  rw [statuses, ofKey, List.filter_append, List.map_append]
  rfl

theorem statuses_cons (u : UserId) (x : PendingUpdate) (xs : List PendingUpdate) :
    statuses u (x :: xs) = if x.userId = u then x.status :: statuses u xs else statuses u xs := by
  simp only [statuses, ofKey, List.filter_cons, decide_eq_true_eq]
  split_ifs <;> rfl

/-- What the message tells a node of a user. -/
def told (presence : Serde PresencePayload) (myNodeId : String) (u : UserId)
    (message : RedisMessage) : Option PresenceStatus :=
  match message.value with
  | none => none
  | some raw => match presence.fromStr raw with
    | .error _ => none
    | .ok payload =>
      if payload.sourceNode = myNodeId then none
      else if payload.userId = u then some payload.status else none

theorem Publishing.step_announced {p p' : Publishing} {a : Publishing.Action}
    (h : Publishing.step p a = some p') (u : UserId) :
    ((p'.tracker.updatesOf u).map Prod.snd).reverse =
      ((p.tracker.updatesOf u).map Prod.snd).reverse ++ statuses u (p.enqueues a) := by
  cases a with
  | call c =>
    have hsent : p'.tracker.broadcasts = p.tracker.broadcasts := by
      cases hwrite : p.tracker.write c with
      | mk o tracker =>
        rw [← p.tracker.broadcasts_write c, hwrite]
        cases o with
        | none =>
          rw [step_call_none hwrite] at h
          rw [← Option.some.inj h]
        | some status =>
          rw [step_call_some hwrite] at h
          rw [← Option.some.inj h]
    rw [Tracker.updatesOf, hsent]
    exact (List.append_nil _).symm
  | publish n =>
    cases hlook : p.outgoing.lookup n with
    | none => simp only [step, hlook, reduceCtorEq] at h
    | some q =>
      rw [step_publish hlook] at h
      obtain rfl := Option.some.inj h
      simp only [enqueues, hlook, Option.map_some, Option.toList_some, statuses_cons,
        Tracker.updatesOf, Tracker.broadcast, List.filter_cons, decide_eq_true_eq]
      split_ifs
      · rw [List.map_cons, List.reverse_cons]
        rfl
      · exact (List.append_nil _).symm

namespace PresencePath

/-- What a node sends into the channel of the broadcaster. -/
def enqueues (nd : PresencePath) : NodeAction → List PendingUpdate
  | .track a => nd.publishing.enqueues a
  | _ => []

/-- What the tracker has enqueued about a user. -/
def announced (nd : PresencePath) (u : UserId) : List PresenceStatus :=
  ((nd.publishing.tracker.updatesOf u).map Prod.snd).reverse

/-- The updates of a user before the flush, the earliest first. -/
def ahead (nd : PresencePath) (u : UserId) : List PresenceStatus :=
  statuses u (nd.flushing ++ nd.batch ++ nd.queue)

/-- What the subscriber is to handle about a user. -/
def heard (presence : Serde PresencePayload) (nd : PresencePath) (u : UserId) :
    List PresenceStatus :=
  nd.inbox.filterMap (told presence nd.host.bridge.nodeId u)

/-- What a session was sent about a user. -/
def received (nd : PresencePath) (sid : SessionId) (u : UserId) : List PresenceStatus :=
  (nd.host.pipes.queue sid).filterMap (ServerEvent.statusOf u)

variable {json : Json} {presence : Serde PresencePayload} {nd nd' : PresencePath} {u v : UserId}
  {x : Session}

/-- A round of the worker leaves out what is overtaken. -/
theorem keepsLast_work (nd : PresencePath) (e : Event PendingUpdate) (u : UserId) :
    KeepsLast (statuses u (nd.batch ++ Coalesce.received [e]))
      (statuses u ((nd.work e).flushing ++ (nd.work e).batch)) := by
  have hstep : KeepsLast (ofKey PendingUpdate.userId u _) (ofKey PendingUpdate.userId u
      (Worker.step PendingUpdate.userId 50 ⟨nd.batch, []⟩ e).output) :=
    keepsLast_step e u
  rw [← BroadcastWorker.step_eq] at hstep
  exact hstep.map PendingUpdate.status

theorem step_cases {e : NodeAction} (h : nd.step json presence e = some nd') :
    (∃ a publishing, e = .track a ∧ Publishing.step nd.publishing a = some publishing ∧
      nd' = { nd with publishing, queue := nd.queue ++ nd.publishing.enqueues a }) ∨
    (∃ event queue, (e = .recv ∨ e = .tick) ∧ nd.flushing = [] ∧
      nd.queue = Coalesce.received [event] ++ queue ∧ nd' = { nd.work event with queue }) ∨
    (∃ message inbox pipes, e = .handle ∧ nd.inbox = message :: inbox ∧
      pipes = handleMessage json presence nd.host.sessions nd.host.pipes nd.host.bridge.nodeId
        message ∧ nd' = { nd with inbox, host := { nd.host with pipes } }) ∨
    (e = .stop ∧ nd' = { nd with inbox := [], listening := false }) ∨
    (∃ c, e = .sessions c ∧ nd.host.sessions.Admits c ∧
      nd' = { nd with host := { nd.host with sessions := (nd.host.sessions.op c).1 } }) ∨
    (∃ sid closed, e = .hangUp sid ∧ closed = Function.update nd.host.pipes.closed sid true ∧
      nd' = { nd with host := { nd.host with pipes := { nd.host.pipes with closed } } }) ∨
    ∃ userIds event pipes, e = .send userIds event ∧ event.isPresenceUpdate = false ∧
      pipes = (nd.host.sessions.sendToUsers nd.host.pipes userIds event).2 ∧
      nd' = { nd with host := { nd.host with pipes } } := by
  cases e with
  | track a =>
    obtain ⟨p, hp, rfl⟩ := Option.map_eq_some_iff.1 h
    exact .inl ⟨a, p, rfl, hp, rfl⟩
  | recv =>
    simp only [step] at h
    split at h
    · next update queue hflushing hqueue =>
      obtain rfl := Option.some.inj h
      exact .inr (.inl ⟨.receive update, queue, .inl rfl, hflushing, hqueue, rfl⟩)
    · cases h
  | tick =>
    simp only [step, Option.ite_none_right_eq_some, Option.some.injEq] at h
    obtain ⟨hflushing, rfl⟩ := h
    exact .inr (.inl ⟨.tick, nd.queue, .inr rfl, hflushing, rfl, rfl⟩)
  | handle =>
    simp only [step] at h
    split at h
    · next message inbox _ hinbox =>
      obtain rfl := Option.some.inj h
      exact .inr (.inr (.inl ⟨message, inbox, _, rfl, hinbox, rfl, rfl⟩))
    · cases h
  | stop =>
    obtain rfl := Option.some.inj h
    exact .inr (.inr (.inr (.inl ⟨rfl, rfl⟩)))
  | sessions c =>
    simp only [step, Option.ite_none_right_eq_some, Option.some.injEq] at h
    obtain ⟨hadmits, rfl⟩ := h
    exact .inr (.inr (.inr (.inr (.inl ⟨c, rfl, hadmits, rfl⟩))))
  | hangUp sid =>
    obtain rfl := Option.some.inj h
    exact .inr (.inr (.inr (.inr (.inr (.inl ⟨sid, _, rfl, rfl, rfl⟩)))))
  | send userIds event =>
    simp only [step, Option.ite_none_left_eq_some, Option.some.injEq, Bool.not_eq_true] at h
    obtain ⟨hevent, rfl⟩ := h
    exact .inr (.inr (.inr (.inr (.inr (.inr ⟨userIds, event, _, rfl, hevent, rfl, rfl⟩)))))

/-- What a node does by itself adds to the updates before the flush what it enqueues, and may leave
out some, but not the last. -/
theorem step_ahead {e : NodeAction} (h : nd.step json presence e = some nd') :
    nd'.announced u = nd.announced u ++ statuses u (nd.enqueues e) ∧
      KeepsLast (nd.ahead u ++ statuses u (nd.enqueues e)) (nd'.ahead u) := by
  have hnone (xs : List PresenceStatus) : xs ++ statuses u [] = xs := List.append_nil xs
  obtain ⟨a, p, rfl, hp, rfl⟩ | ⟨event, queue, he, hflushing, hqueue, rfl⟩ |
    ⟨message, inbox, pipes, rfl, -, -, rfl⟩ | ⟨rfl, rfl⟩ | ⟨c, rfl, -, rfl⟩ |
    ⟨sid, closed, rfl, -, rfl⟩ | ⟨userIds, event, pipes, rfl, -, -, rfl⟩ := step_cases h
  · refine ⟨Publishing.step_announced hp u, ?_⟩
    rw [ahead, ahead, enqueues, ← statuses_append, List.append_assoc _ nd.queue]
    exact KeepsLast.refl _
  · have hnothing : nd.enqueues e = [] := by
      rcases he with rfl | rfl <;> rfl
    have hwork := (nd.keepsLast_work event u).append_right (statuses u queue)
    rw [← statuses_append, ← statuses_append, List.append_assoc nd.batch] at hwork
    rw [hnothing, hnone, hnone, ahead, hflushing, hqueue]
    exact ⟨rfl, hwork⟩
  all_goals exact ⟨(hnone _).symm, (hnone (nd.ahead u)).symm ▸ KeepsLast.refl _⟩

theorem step_outgoing {e : NodeAction} (h : nd.step json presence e = some nd')
    (hcalls : ∀ c, e = .track (.call c) → c.userId ≠ u)
    (hold : ∀ n p, nd.publishing.outgoing.lookup n = some p → p.1 ≠ u) :
    (∀ n p, nd'.publishing.outgoing.lookup n = some p → p.1 ≠ u) ∧
      statuses u (nd.enqueues e) = [] := by
  obtain ⟨a, p, rfl, hp, rfl⟩ | ⟨event, queue, he, hflushing, hqueue, rfl⟩ |
    ⟨message, inbox, pipes, rfl, -, -, rfl⟩ | ⟨rfl, rfl⟩ | ⟨c, rfl, -, rfl⟩ |
    ⟨sid, closed, rfl, -, rfl⟩ | ⟨userIds, event, pipes, rfl, -, -, rfl⟩ := step_cases h
  · cases a with
    | call c =>
      have hc : c.userId ≠ u := hcalls c rfl
      refine ⟨fun n q hq => ?_, rfl⟩
      cases hwrite : nd.publishing.tracker.write c with
      | mk o tracker =>
        cases o with
        | none =>
          rw [Publishing.step_call_none hwrite] at hp
          obtain rfl := Option.some.inj hp
          exact hold n q hq
        | some status =>
          rw [Publishing.step_call_some hwrite] at hp
          obtain rfl := Option.some.inj hp
          simp only [DashMap.lookup_insert_ite] at hq
          split_ifs at hq
          · obtain rfl := Option.some.inj hq
            exact hc
          · exact hold n q hq
    | publish n =>
      cases hlook : nd.publishing.outgoing.lookup n with
      | none => simp only [Publishing.step, hlook, reduceCtorEq] at hp
      | some q =>
        rw [Publishing.step_publish hlook] at hp
        obtain rfl := Option.some.inj hp
        refine ⟨fun m r hr => ?_, ?_⟩
        · simp only [DashMap.lookup_erase_ite] at hr
          split_ifs at hr
          exact hold m r hr
        · simp only [enqueues, Publishing.enqueues, hlook, Option.map_some, Option.toList_some,
            statuses_cons, if_neg (hold n q hlook)]
          rfl
  · have hnothing : nd.enqueues e = [] := by
      rcases he with rfl | rfl <;> rfl
    rw [hnothing]
    exact ⟨hold, rfl⟩
  all_goals exact ⟨hold, rfl⟩

/-- The session is registered, and its receiver is there. -/
structure Registered (nd : PresencePath) (v : UserId) (x : Session) : Prop where
  mem : x ∈ nd.host.sessions.vec v
  opened : nd.host.pipes.closed x.sessionId = false

theorem received_handleMessage (hfiled : nd.host.sessions.Filed) (hx : nd.Registered v x)
    {message : RedisMessage} (hchannel : message.channel = "rustrelay:presence") :
    ((handleMessage json presence nd.host.sessions nd.host.pipes nd.host.bridge.nodeId
        message).queue x.sessionId).filterMap (ServerEvent.statusOf u) =
      nd.received x.sessionId u ++ (told presence nd.host.bridge.nodeId u message).toList := by
  obtain ⟨channel, value⟩ := message
  obtain rfl : channel = "rustrelay:presence" := hchannel
  have hne : ("rustrelay:presence" : String) ≠ "rustrelay:events" := by decide
  have hnone : nd.received x.sessionId u = nd.received x.sessionId u ++ (none : Option _).toList :=
    (List.append_nil _).symm
  cases value with
  | none => exact hnone
  | some raw =>
    simp only [handleMessage, if_neg hne, if_true, handleCrossNodePresence, told]
    cases presence.fromStr raw with
    | error e => exact hnone
    | ok payload =>
      dsimp only
      by_cases hself : payload.sourceNode = nd.host.bridge.nodeId
      · rw [if_pos hself, if_pos hself]
        exact hnone
      · have hnodup : nd.host.sessions.connectedUserIds.Nodup := AList.keys_nodup _
        rw [if_neg hself, if_neg hself, hfiled.sendToUsers_queue hx.mem hx.opened hnodup,
          if_pos (SessionStore.mem_connectedUserIds hx.mem), List.filterMap_append]
        by_cases hu : payload.userId = u <;> simp [ServerEvent.statusOf, hu, received]

/-- The step leaves the session registered, and the subscriber running where the session gets its
updates from there. -/
def Keeps (v : UserId) (x : Session) (remote : Prop) (nd : PresencePath) : NodeAction → Prop
  | .sessions c => x ∈ (nd.host.sessions.op c).1.vec v
  | .hangUp sid => sid ≠ x.sessionId
  | .stop => ¬remote
  | _ => True

instance (nd : PresencePath) (remote : Prop) [Decidable remote] : (e : NodeAction) →
    Decidable (nd.Keeps v x remote e)
  | .sessions c => inferInstanceAs (Decidable (x ∈ (nd.host.sessions.op c).1.vec v))
  | .hangUp sid => inferInstanceAs (Decidable (sid ≠ x.sessionId))
  | .stop => inferInstanceAs (Decidable ¬remote)
  | .track _ | .recv | .tick | .handle | .send _ _ => .isTrue trivial

/-- What a node does by itself sends the session what the subscriber handles, and nothing else. -/
theorem step_received {e : NodeAction} (hfiled : nd.host.sessions.Filed) (hx : nd.Registered v x)
    (hinbox : ∀ m ∈ nd.inbox, m.channel = "rustrelay:presence") {remote : Prop}
    (hremote : ¬remote → nd.heard presence u = []) (hkeeps : nd.Keeps v x remote e)
    (h : nd.step json presence e = some nd') :
    nd'.Registered v x ∧ ∃ got, nd'.received x.sessionId u = nd.received x.sessionId u ++ got ∧
      nd.heard presence u = got ++ nd'.heard presence u := by
  obtain ⟨a, p, rfl, hp, rfl⟩ | ⟨event, queue, he, hflushing, hqueue, rfl⟩ |
    ⟨message, inbox, pipes, rfl, hcons, rfl, rfl⟩ | ⟨rfl, rfl⟩ | ⟨c, rfl, -, rfl⟩ |
    ⟨sid, closed, rfl, rfl, rfl⟩ | ⟨userIds, event, pipes, rfl, hevent, rfl, rfl⟩ := step_cases h
  · exact ⟨⟨hx.mem, hx.opened⟩, [], (List.append_nil _).symm, rfl⟩
  · exact ⟨⟨hx.mem, hx.opened⟩, [], (List.append_nil _).symm, rfl⟩
  · have hchannel := hinbox message (hcons ▸ List.mem_cons_self)
    refine ⟨⟨hx.mem, (congrFun (PresenceHost.closed_handleMessage _ _ _ _ _) _).trans hx.opened⟩, _,
      received_handleMessage hfiled hx hchannel, ?_⟩
    rw [heard, heard, hcons, List.filterMap_cons]
    cases told presence nd.host.bridge.nodeId u message <;> rfl
  · exact ⟨⟨hx.mem, hx.opened⟩, [], (List.append_nil _).symm, hremote hkeeps⟩
  · exact ⟨⟨hkeeps, hx.opened⟩, [], (List.append_nil _).symm, rfl⟩
  · refine ⟨⟨hx.mem, ?_⟩, [], (List.append_nil _).symm, rfl⟩
    exact (Function.update_of_ne (Ne.symm hkeeps) _ _).trans hx.opened
  · refine ⟨⟨hx.mem, ?_⟩, [], ?_, rfl⟩
    · exact (congrFun (SessionStore.sendToUsers_closed _ _ _ _) _).trans hx.opened
    · have hstatus : event.statusOf u = none := by
        cases event <;> first | rfl | cases hevent
      rw [List.append_nil, received, received, SessionStore.sendToUsers_queue,
        List.filterMap_append, List.filterMap_replicate_of_none hstatus, List.append_nil]

theorem step_listening {e : NodeAction} (h : nd.step json presence e = some nd') {remote : Prop}
    (hkeeps : nd.Keeps v x remote e) (hremote : remote) (hlistening : nd.listening = true) :
    nd'.listening = true := by
  obtain ⟨a, p, -, -, rfl⟩ | ⟨event, queue, -, -, -, rfl⟩ | ⟨message, inbox, pipes, -, -, -, rfl⟩ |
    ⟨rfl, rfl⟩ | ⟨c, -, -, rfl⟩ | ⟨sid, closed, -, -, rfl⟩ |
    ⟨userIds, event, pipes, -, -, -, rfl⟩ := step_cases h
  case inr.inr.inr.inl => exact absurd hremote hkeeps
  all_goals exact hlistening

theorem step_frame {e : NodeAction} (h : nd.step json presence e = some nd')
    (hfiled : nd.host.sessions.Filed) :
    nd'.host.bridge = nd.host.bridge ∧ nd'.host.sessions.Filed ∧ nd'.inbox.Sublist nd.inbox := by
  obtain ⟨a, p, -, hp, rfl⟩ | ⟨event, queue, -, hflushing, hqueue, rfl⟩ |
    ⟨message, inbox, pipes, -, hcons, -, rfl⟩ | ⟨-, rfl⟩ | ⟨c, -, hadmits, rfl⟩ |
    ⟨sid, closed, -, -, rfl⟩ | ⟨userIds, event, pipes, -, -, -, rfl⟩ := step_cases h
  · exact ⟨rfl, hfiled, List.Sublist.refl _⟩
  · exact ⟨rfl, hfiled, List.Sublist.refl _⟩
  · exact ⟨rfl, hfiled, hcons ▸ List.sublist_cons_self _ _⟩
  · exact ⟨rfl, hfiled, List.nil_sublist _⟩
  · exact ⟨rfl, hfiled.op hadmits, List.Sublist.refl _⟩
  · exact ⟨rfl, hfiled, List.Sublist.refl _⟩
  · exact ⟨rfl, hfiled, List.Sublist.refl _⟩

end PresencePath

end RustRelay
