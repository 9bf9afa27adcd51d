import RustRelay.Gateway.Registry
import RustRelay.Router.Fanout

/-!
# One message among connects and disconnects

One call of `handle_send` runs on a node while sessions come and go on every node, one atomic
operation at a time, and while the other nodes handle what it publishes at any later time. Redis
hands the payload to each subscriber at most once.

**Theorem (`at_most_once`).** In every reachable state, every session was sent at most one copy of
the message, and only sessions of users in the member list of the call were sent one.

On each node the call works through a list of users without duplicates. `owed` is the list of
those it may still send to, and the invariant says that a session with a copy belongs to a member
who is not owed: a send to a user finds no session with a copy, whatever connected meanwhile.
`exec_fanOut` shows that the steps of the loop, undisturbed, are the loop of `handle_send`.
-/

namespace RustRelay

open Machine

/-! ## The machine -/

/-- A call of `handle_send` on the node `source`. -/
structure SendCall (ι : Type) where
  source : ι
  authorId : UserId
  channelId : ChannelId
  content : String
  answers : Answers

/-- The event of the call. -/
def SendCall.event {ι : Type} (call : SendCall ι) : ServerEvent :=
  messageEvent (storedMessage call.answers call.authorId call.channelId call.content)

/-- Where the call is. -/
inductive SendPc
  /-- `insert_message` is next. -/
  | persist
  /-- `get_channel_members` is next. -/
  | lookup
  /-- The loop: the members that are left, and the remote targets so far. -/
  | loop (members remoteTargets : List UserId)
  /-- `is_connected(&member_id)` was true; `send_to_user` is next. -/
  | push (member : UserId) (members remoteTargets : List UserId)
  /-- The call has returned. -/
  | done
  deriving DecidableEq, Repr

namespace SendPc

/-- The members the call may still send to. -/
def todo : SendPc → List UserId
  | .loop members _ => members
  | .push member members _ => member :: members
  | _ => []

def remoteTargets : SendPc → List UserId
  | .loop _ remoteTargets | .push _ _ remoteTargets => remoteTargets
  | _ => []

end SendPc

structure Delivery (ι : Type) where
  registry : ι → Registry
  pipes : ι → Pipes
  /-- The router of the source node. -/
  router : MessageRouter
  pc : SendPc
  /-- The member list of the call, once it has one. -/
  members : List UserId
  /-- The published payload, where it was not received yet. -/
  inbox : ι → Option String
  /-- What `handle_cross_node_event` has still to send on each node. -/
  handling : ι → List (UserId × ServerEvent)

namespace Delivery

variable {ι : Type} [DecidableEq ι]

def init (router : MessageRouter) : Delivery ι where
  registry _ := .init
  pipes _ := ⟨fun _ => [], fun _ => false⟩
  router := { router with memberCache := ∅ }
  pc := .persist
  members := []
  inbox _ := none
  handling _ := []

inductive Action (ι : Type)
  /-- The call stores its message in the database as it is now. -/
  | persist (db : Database)
  | lookup (db : Database)
  /-- The call takes the next member of its loop. -/
  | check
  | push
  | publish
  /-- The subscriber of a node receives the payload, or never will. -/
  | receive (node : ι)
  | lose (node : ι)
  /-- `handle_cross_node_event` sends to its next target. -/
  | deliver (node : ι)
  /-- A call of `insert` or `remove` on a node. -/
  | registry (node : ι) (a : Registry.Action)
  /-- The writer task of a session ends. -/
  | hangUp (node : ι) (sessionId : SessionId)
  /-- Another call of `get_channel_members` on the source node. -/
  | refresh (db : Database) (fetch : Except DbError Unit) (instant : ℕ) (channelId : ChannelId)
  /-- `invalidate_channel_cache`, or an entry that the cache cleanup drops. -/
  | invalidate (channelId : ChannelId)

/-- `send_to_user` on a node. -/
def sendOn (s : Delivery ι) (b : ι) (userId : UserId) (event : ServerEvent) : ι → Pipes :=
  Function.update s.pipes b ((s.registry b).store.sendToUser (s.pipes b) userId event).2

variable (json : Json) (names : ι → String) (call : SendCall ι)

def step (s : Delivery ι) : Action ι → Option (Delivery ι)
  | .persist db => match s.pc with
    | .persist =>
      match call.answers.insert.bind fun _ => insertMessage db call.answers.messageId
        call.answers.createdAt call.channelId call.authorId call.content with
      | .error _ => some { s with pc := .done }
      | .ok _ => some { s with pc := .lookup }
    | _ => none
  | .lookup db => match s.pc with
    | .lookup =>
      match s.router.getChannelMembers db call.answers.fetch call.answers.instant
        call.channelId with
      | (.error _, router) => some { s with pc := .done, router }
      | (.ok members, router) => some { s with pc := .loop members [], router, members }
    | _ => none
  | .check => match s.pc with
    | .loop (member :: members) remoteTargets =>
      if (s.registry call.source).store.isConnected member then
        some { s with pc := .push member members remoteTargets }
      else some { s with pc := .loop members (remoteTargets ++ [member]) }
    | _ => none
  | .push => match s.pc with
    | .push member members remoteTargets =>
      some { s with
        pipes := s.sendOn call.source member call.event
        pc := .loop members remoteTargets }
    | _ => none
  | .publish => match s.pc with
    | .loop [] remoteTargets =>
      match s.router.publishRemote json call.answers call.event remoteTargets with
      | .error _ | .ok none => some { s with pc := .done }
      | .ok (some raw) => some { s with pc := .done, inbox := fun _ => some raw }
    | _ => none
  | .receive b => (s.inbox b).map fun raw =>
    { s with
      inbox := Function.update s.inbox b none
      handling := Function.update s.handling b <|
        match acceptPayload json (names b) raw with
        | none => []
        | some (targetUserIds, event) => targetUserIds.map fun u => (u, event) }
  | .lose b => some { s with inbox := Function.update s.inbox b none }
  | .deliver b => match s.handling b with
    | [] => none
    | (userId, event) :: rest =>
      some { s with
        pipes := s.sendOn b userId event
        handling := Function.update s.handling b rest }
  | .registry b a => ((s.registry b).step a).map fun r =>
    { s with registry := Function.update s.registry b r }
  | .hangUp b sid => some { s with
      pipes := Function.update s.pipes b
        { s.pipes b with closed := Function.update (s.pipes b).closed sid true } }
  | .refresh db fetch instant channelId =>
    some { s with router := (s.router.getChannelMembers db fetch instant channelId).2 }
  | .invalidate channelId => some { s with router := s.router.invalidateChannelCache channelId }

/-! ## The loop, undisturbed -/

variable {json names call}

/-- **The steps of the loop are the loop of `handle_send`.** -/
theorem exec_fanOut (members remoteTargets : List UserId) (s : Delivery ι)
    (hpc : s.pc = .loop members remoteTargets) :
    ∃ as, exec (step json names call) s as = some { s with
      pipes := Function.update s.pipes call.source
        ((s.registry call.source).store.fanOut call.event members (s.pipes call.source)).2
      pc := .loop [] (remoteTargets ++
        ((s.registry call.source).store.fanOut call.event members (s.pipes call.source)).1) } := by
  induction members generalizing remoteTargets s with
  | nil =>
    refine ⟨[], ?_⟩
    simp [SessionStore.fanOut, Function.update_eq_self, ← hpc]
  | cons member members ih =>
    cases hconn : (s.registry call.source).store.isConnected member with
    | true =>
      have hcheck : step json names call s .check =
          some { s with pc := .push member members remoteTargets } := by
        simp only [step, hpc, hconn, if_true]
      obtain ⟨as, has⟩ := ih remoteTargets { s with
        pipes := s.sendOn call.source member call.event
        pc := .loop members remoteTargets } rfl
      refine ⟨.check :: .push :: as, exec_cons.2 ⟨_, hcheck, exec_cons.2 ⟨_, rfl, ?_⟩⟩⟩
      rw [SessionStore.fanOut, if_pos hconn]
      apply has.trans
      simp [sendOn]
    | false =>
      have hcheck : step json names call s .check =
          some { s with pc := .loop members (remoteTargets ++ [member]) } := by
        simp only [step, hpc, hconn, Bool.false_eq_true, if_false]
      obtain ⟨as, has⟩ := ih (remoteTargets ++ [member]) { s with
        pc := .loop members (remoteTargets ++ [member]) } rfl
      refine ⟨.check :: as, exec_cons.2 ⟨_, hcheck, ?_⟩⟩
      rw [SessionStore.fanOut, if_neg (by rw [hconn]; exact Bool.false_ne_true)]
      apply has.trans
      simp

/-! ## The invariant -/

/-- The users that node `b` may still send to: those left in the loop on the source, and on
another node everyone until the payload was received, and then the targets that are left. -/
def owed (source : ι) (s : Delivery ι) (b : ι) : List UserId :=
  if b = source then s.pc.todo
  else if s.pc = .done ∧ s.inbox b = none then (s.handling b).map Prod.fst
  else s.members

/-- Every session has at most one copy, and a session with a copy is of a member who is not owed. -/
def Once (event : ServerEvent) (members owed : List UserId) (r : Registry) (p : Pipes) : Prop :=
  ∀ sid, (p.queue sid).count event ≤ 1 ∧ (0 < (p.queue sid).count event →
    ∃ x ∈ r.inserted, x.sessionId = sid ∧ x.userId ∈ members ∧ x.userId ∉ owed)

structure Inv (json : Json) (names : ι → String) (call : SendCall ι) (s : Delivery ι) : Prop where
  registry : ∀ b, (s.registry b).Inv
  cache : ∀ c entry, s.router.memberCache.lookup c = some entry → entry.members.Nodup
  nodeId : s.router.nodeId = names call.source
  nodup : s.members.Nodup
  loop : (s.pc.remoteTargets ++ s.pc.todo).Sublist s.members
  unpublished : s.pc ≠ .done → ∀ b, s.inbox b = none ∧ s.handling b = []
  early : s.pc = .persist ∨ s.pc = .lookup → s.members = []
  inbox : ∀ b raw, s.inbox b = some raw → s.handling b = [] ∧
    ∃ targets : List UserId, targets.Sublist s.members ∧
      ∀ myNodeId, acceptPayload json myNodeId raw =
        if names call.source = myNodeId then none else some (targets, call.event)
  handling : ∀ b, ∃ targets : List UserId, targets.Sublist s.members ∧
    s.handling b = targets.map fun u => (u, call.event)
  own : s.handling call.source = []
  once : ∀ b, Once call.event s.members (s.owed call.source b) (s.registry b) (s.pipes b)

section
variable {event : ServerEvent} {members owed owed' : List UserId} {r r' : Registry} {p : Pipes}

theorem Once.mono (h : Once event members owed r p) (howed : ∀ u ∈ owed', u ∈ owed)
    (hins : ∀ x ∈ r.inserted, x ∈ r'.inserted) : Once event members owed' r' p := by
  intro sid
  refine ⟨(h sid).1, ?_⟩
  intro hpos
  obtain ⟨x, hx, hsid, hmem, hnot⟩ := (h sid).2 hpos
  exact ⟨x, hins x hx, hsid, hmem, fun hu => hnot (howed _ hu)⟩

/-- Nothing was sent while nobody is a member, or while every member is owed. -/
theorem Once.of_owed (h : Once event members owed r p) (howed : ∀ u ∈ members, u ∈ owed)
    (members' owed' : List UserId) : Once event members' owed' r p := by
  intro sid
  have hzero : (p.queue sid).count event = 0 := by
    by_contra hne
    obtain ⟨x, -, -, hmem, hnot⟩ := (h sid).2 (Nat.pos_of_ne_zero hne)
    exact hnot (howed _ hmem)
  rw [hzero]
  exact ⟨Nat.zero_le 1, fun hpos => absurd hpos (lt_irrefl 0)⟩

theorem copies_le_one (hr : r.Inv) (u : UserId) (sid : SessionId) :
    p.copies (r.store.vec u) sid ≤ 1 := by
  unfold Pipes.copies
  split_ifs
  · exact Nat.zero_le 1
  · exact List.nodup_iff_count_le_one.1 (hr.ids_nodup u) sid

/-- **A send to an owed member finds no session with a copy.** -/
theorem Once.send (h : Once event members owed r p) (hr : r.Inv) {u : UserId}
    (hmem : u ∈ members) (hu : u ∈ owed) (hnot : u ∉ owed') (howed : ∀ v ∈ owed', v ∈ owed) :
    Once event members owed' r (r.store.sendToUser p u event).2 := by
  intro sid
  rw [SessionStore.sendToUser_queue, List.count_append, List.count_replicate_self]
  by_cases hcopies : 0 < p.copies (r.store.vec u) sid
  · obtain ⟨-, x, hx, hsid⟩ := Pipes.copies_pos_iff.1 hcopies
    have hxu : x.userId = u := hr.owner u x hx
    have hzero : (p.queue sid).count event = 0 := by
      by_contra hne
      obtain ⟨y, hy, hysid, -, hynot⟩ := (h sid).2 (Nat.pos_of_ne_zero hne)
      have hyx : y = x := hr.eq_of_sessionId hy (hr.inserted_of_mem hx) (hysid.trans hsid.symm)
      rw [hyx, hxu] at hynot
      exact hynot hu
    refine ⟨?_, fun _ => ⟨x, hr.inserted_of_mem hx, hsid, ?_, ?_⟩⟩
    · have hone := copies_le_one (p := p) hr u sid
      omega
    · rw [hxu]
      exact hmem
    · rw [hxu]
      exact hnot
  · rw [Nat.eq_zero_of_not_pos hcopies, add_zero]
    exact h.mono howed (fun _ hx => hx) sid

end

/-! ## Members without duplicates -/

theorem getChannelMembers_cases (router : MessageRouter) (db : Database)
    (fetch : Except DbError Unit) (instant : ℕ) (channelId : ChannelId) :
    (∃ entry, router.memberCache.lookup channelId = some entry ∧
      router.getChannelMembers db fetch instant channelId = (.ok entry.members, router)) ∨
    router.getChannelMembers db fetch instant channelId =
      router.fetchMembers db fetch instant channelId := by
  unfold MessageRouter.getChannelMembers
  cases hentry : router.memberCache.lookup channelId with
  | none => exact .inr rfl
  | some entry =>
    dsimp only
    split_ifs
    · exact .inl ⟨entry, rfl, rfl⟩
    · exact .inr rfl

/-- **A member list has no duplicates**, from the cache or from the database. -/
theorem getChannelMembers_nodup {router : MessageRouter}
    (hcache : ∀ c entry, router.memberCache.lookup c = some entry → entry.members.Nodup)
    (db : Database) (fetch : Except DbError Unit) (instant : ℕ) (channelId : ChannelId) :
    (∀ members, (router.getChannelMembers db fetch instant channelId).1 = .ok members →
      members.Nodup) ∧
    ∀ c entry, (router.getChannelMembers db fetch instant channelId).2.memberCache.lookup c =
      some entry → entry.members.Nodup := by
  rcases getChannelMembers_cases router db fetch instant channelId with ⟨entry, hentry, h⟩ | h
  · rw [h]
    refine ⟨?_, hcache⟩
    intro members hmembers
    rw [← Except.ok.inj hmembers]
    exact hcache channelId entry hentry
  · rw [h]
    cases fetch with
    | error e => exact ⟨fun members hmembers => absurd hmembers nofun, hcache⟩
    | ok _ =>
      have hnodup := getChannelMemberIds_nodup db channelId
      refine ⟨?_, ?_⟩
      · intro members hmembers
        rw [← Except.ok.inj hmembers]
        exact hnodup
      · intro c entry hlook
        simp only [MessageRouter.fetchMembers, DashMap.lookup_insert_ite] at hlook
        split_ifs at hlook
        · rw [← Option.some.inj hlook]
          exact hnodup
        · exact hcache c entry hlook

/-! ## What one step keeps -/

section
variable {s s' : Delivery ι}

/-- Before the payload is published, nothing was sent on the other nodes. -/
theorem Inv.handling_eq_nil (h : s.Inv json names call) (hpc : s.pc ≠ .done) (b : ι) :
    s.handling b = [] := (h.unpublished hpc b).2

theorem Inv.setPc (h : s.Inv json names call) {pc : SendPc}
    (hpc : s.pc ≠ .done) (hloop : (pc.remoteTargets ++ pc.todo).Sublist s.members)
    (htodo : ∀ u ∈ pc.todo, u ∈ s.pc.todo) (hearly : pc ≠ .persist)
    (hlookup : pc = .lookup → s.pc = .persist) :
    Inv json names call { s with pc } where
  registry := h.registry
  cache := h.cache
  nodeId := h.nodeId
  nodup := h.nodup
  loop := hloop
  unpublished _ := h.unpublished hpc
  early hpc' := h.early (.inl (hlookup (hpc'.resolve_left hearly)))
  inbox := h.inbox
  handling := h.handling
  own := h.own
  once b := by
    refine (h.once b).mono (fun u hu => ?_) (fun _ hx => hx)
    unfold owed at hu ⊢
    dsimp only at hu
    split_ifs at hu ⊢ with hb hdone hdone' hdone'
    · exact htodo u hu
    · exact absurd hdone.1 hpc
    · exact absurd hdone.1 hpc
    · rw [h.handling_eq_nil hpc b] at hu
      exact absurd hu List.not_mem_nil
    · exact hu

theorem Inv.setRouter (h : s.Inv json names call) {router : MessageRouter}
    (hcache : ∀ c entry, router.memberCache.lookup c = some entry → entry.members.Nodup)
    (hnodeId : router.nodeId = s.router.nodeId) :
    Inv json names call { s with router } :=
  { h with cache := hcache, nodeId := hnodeId.trans h.nodeId }

theorem inv_persist (h : s.Inv json names call) {db : Database}
    (hstep : s.step json names call (.persist db) = some s') :
    s'.Inv json names call := by
  simp only [step] at hstep
  split at hstep
  · next hpc =>
    have hne : s.pc ≠ .done := by rw [hpc]; exact SendPc.noConfusion
    split at hstep
    · obtain rfl := Option.some.inj hstep
      exact h.setPc hne (List.nil_sublist _) nofun nofun nofun
    · obtain rfl := Option.some.inj hstep
      exact h.setPc hne (List.nil_sublist _) nofun nofun fun _ => hpc
  · exact absurd hstep nofun

theorem inv_lookup (h : s.Inv json names call) {db : Database}
    (hstep : s.step json names call (.lookup db) = some s') :
    s'.Inv json names call := by
  simp only [step] at hstep
  split at hstep
  · next hpc =>
    have hmembers : s.members = [] := h.early (.inr hpc)
    have hne : s.pc ≠ .done := by rw [hpc]; exact SendPc.noConfusion
    obtain ⟨hnodup, hcache⟩ := getChannelMembers_nodup h.cache db call.answers.fetch
      call.answers.instant call.channelId
    obtain ⟨hnodeId, -⟩ := getChannelMembers_fields s.router db call.answers.fetch
      call.answers.instant call.channelId
    split at hstep
    · next router hget =>
      obtain rfl := Option.some.inj hstep
      rw [hget] at hcache hnodeId
      have hdone : Inv json names call { s with pc := .done } :=
        h.setPc hne (List.nil_sublist _) nofun nofun nofun
      exact hdone.setRouter hcache hnodeId
    · next members router hget =>
      obtain rfl := Option.some.inj hstep
      rw [hget] at hcache hnodeId hnodup
      exact {
        registry := h.registry
        cache := hcache
        nodeId := hnodeId.trans h.nodeId
        nodup := hnodup members rfl
        loop := List.Sublist.refl _
        unpublished := fun _ => h.unpublished hne
        early := by
          intro h
          rcases h with h | h <;> exact absurd h nofun
        inbox := fun b raw hraw => by
          rw [(h.unpublished hne b).1] at hraw
          exact absurd hraw nofun
        handling := fun b => ⟨[], List.nil_sublist _, h.handling_eq_nil hne b⟩
        own := h.own
        once := fun b => (h.once b).of_owed (by rw [hmembers]; exact nofun) _ _ }
  · exact absurd hstep nofun

theorem inv_check (h : s.Inv json names call)
    (hstep : s.step json names call .check = some s') : s'.Inv json names call := by
  simp only [step] at hstep
  split at hstep
  · next member members remoteTargets hpc =>
    have hne : s.pc ≠ .done := by rw [hpc]; exact SendPc.noConfusion
    have hloop := h.loop
    rw [hpc] at hloop
    split_ifs at hstep
    · obtain rfl := Option.some.inj hstep
      refine h.setPc hne hloop ?_ nofun nofun
      rw [hpc]
      exact fun _ hu => hu
    · obtain rfl := Option.some.inj hstep
      refine h.setPc hne ?_ ?_ nofun nofun
      · simpa [SendPc.remoteTargets, SendPc.todo] using hloop
      · rw [hpc]
        exact fun u hu => List.mem_cons_of_mem member hu
  · exact absurd hstep nofun

theorem inv_push (h : s.Inv json names call)
    (hstep : s.step json names call .push = some s') : s'.Inv json names call := by
  simp only [step] at hstep
  split at hstep
  · next member members remoteTargets hpc =>
    obtain rfl := Option.some.inj hstep
    have hne : s.pc ≠ .done := by rw [hpc]; exact SendPc.noConfusion
    have hloop := h.loop
    rw [hpc] at hloop
    have hnodup := h.nodup.sublist ((List.sublist_append_right _ _).trans hloop)
    have hpc' : Inv json names call { s with pc := .loop members remoteTargets } := by
      refine h.setPc hne (List.Sublist.trans ?_ hloop) ?_ nofun nofun
      · exact (List.Sublist.refl _).append (List.sublist_cons_self member members)
      · rw [hpc]
        exact fun u hu => List.mem_cons_of_mem member hu
    refine { hpc' with once := fun b => ?_ }
    have honce := h.once b
    by_cases hb : b = call.source
    · subst hb
      simp only [owed, if_true, sendOn, Function.update_self] at honce ⊢
      rw [hpc] at honce
      exact honce.send (h.registry _)
        (hloop.subset (List.mem_append_right _ List.mem_cons_self)) List.mem_cons_self
        (List.nodup_cons.1 hnodup).1 fun v hv => List.mem_cons_of_mem member hv
    · have honce' := hpc'.once b
      simp only [owed, if_neg hb, sendOn, Function.update_of_ne hb] at honce' ⊢
      exact honce'
  · exact absurd hstep nofun

theorem inv_publish (hjson : json.RoundTrip) (h : s.Inv json names call)
    (hstep : s.step json names call .publish = some s') : s'.Inv json names call := by
  simp only [step] at hstep
  split at hstep
  · next remoteTargets hpc =>
    have hne : s.pc ≠ .done := by rw [hpc]; exact SendPc.noConfusion
    have hdone : Inv json names call { s with pc := .done } :=
      h.setPc hne (List.nil_sublist _) nofun nofun nofun
    have hloop := h.loop
    rw [hpc] at hloop
    have htargets : remoteTargets.Sublist s.members :=
      (List.sublist_append_left _ _).trans hloop
    split at hstep
    · obtain rfl := Option.some.inj hstep
      exact hdone
    · obtain rfl := Option.some.inj hstep
      exact hdone
    · next raw hpublish =>
      obtain rfl := Option.some.inj hstep
      obtain ⟨hnone, -⟩ | ⟨text, raw', htext, hraw, -, heq⟩ := publishRemote_ok hpublish
      · exact absurd hnone nofun
      · obtain rfl := Option.some.inj heq
        rw [h.nodeId] at hraw
        refine { hdone with
          unpublished := nofun
          inbox := fun b raw' hraw' => ?_
          once := fun b => ?_ }
        · obtain rfl := Option.some.inj hraw'
          exact ⟨h.handling_eq_nil hne b, remoteTargets, htargets,
            acceptPayload_published hjson htext hraw⟩
        · refine (h.once b).mono (fun u hu => ?_) (fun _ hx => hx)
          by_cases hb : b = call.source
          · simp only [owed, if_pos hb] at hu
            exact absurd hu List.not_mem_nil
          · simp only [owed, if_neg hb, hne, false_and, reduceCtorEq, and_false] at hu ⊢
            simpa using hu
  · exact absurd hstep nofun

/-- Only the payload of a finished call is received or handled. -/
theorem Inv.done_of_inbox (h : s.Inv json names call) {b : ι} {raw : String}
    (hraw : s.inbox b = some raw) : s.pc = .done := by
  by_contra hne
  rw [(h.unpublished hne b).1] at hraw
  exact absurd hraw nofun

theorem Inv.done_of_handling (h : s.Inv json names call) {b : ι} (hb : s.handling b ≠ []) :
    s.pc = .done ∧ s.inbox b = none ∧ b ≠ call.source := by
  refine ⟨?_, ?_, ?_⟩
  · by_contra hne
    exact hb (h.unpublished hne b).2
  · by_contra hinbox
    obtain ⟨raw, hraw⟩ := Option.ne_none_iff_exists'.1 hinbox
    exact hb (h.inbox b raw hraw).1
  · rintro rfl
    exact hb h.own

theorem Inv.settle (h : s.Inv json names call) (hdone : s.pc = .done) {b : ι}
    {todo : List UserId} (htodo : todo.Sublist s.members) (hown : b = call.source → todo = [])
    (howed : b ≠ call.source → ∀ u ∈ todo, u ∈ s.owed call.source b) :
    Inv json names call { s with
      inbox := Function.update s.inbox b none
      handling := Function.update s.handling b (todo.map fun u => (u, call.event)) } := by
  refine { h with
    unpublished := fun hne => absurd hdone hne
    inbox := fun b' raw hraw => ?_
    handling := fun b' => ?_
    own := ?_
    once := fun b' => (h.once b').mono (fun u hu => ?_) (fun _ hx => hx) }
  · dsimp only at hraw ⊢
    by_cases hb : b' = b
    · rw [hb, Function.update_self] at hraw
      exact absurd hraw nofun
    · rw [Function.update_of_ne hb] at hraw ⊢
      exact h.inbox b' raw hraw
  · dsimp only
    by_cases hb : b' = b
    · rw [hb, Function.update_self]
      exact ⟨todo, htodo, rfl⟩
    · rw [Function.update_of_ne hb]
      exact h.handling b'
  · dsimp only
    by_cases hb : call.source = b
    · rw [← hb, Function.update_self, hown hb.symm]
      rfl
    · rw [Function.update_of_ne hb]
      exact h.own
  · by_cases hb : b' = b
    · subst hb
      by_cases hsource : b' = call.source
      · simpa only [owed, if_pos hsource] using hu
      · apply howed hsource u
        simpa [owed, hsource, hdone, Function.comp_def] using hu
    · simpa only [owed, Function.update_of_ne hb] using hu

theorem inv_receive (h : s.Inv json names call) {b : ι}
    (hstep : s.step json names call (.receive b) = some s') : s'.Inv json names call := by
  simp only [step, Option.map_eq_some_iff] at hstep
  obtain ⟨raw, hraw, rfl⟩ := hstep
  obtain ⟨-, targets, hsub, haccept⟩ := h.inbox b raw hraw
  have hdone := h.done_of_inbox hraw
  have howed (hb : b ≠ call.source) : s.owed call.source b = s.members := by
    simp [owed, hb, hraw]
  rw [haccept]
  split_ifs with hname
  · exact h.settle hdone (List.nil_sublist _) (fun _ => rfl) fun _ => nofun
  · refine h.settle hdone hsub (fun hb => absurd (congrArg names hb.symm) hname) fun hb u hu => ?_
    rw [howed hb]
    exact hsub.subset hu

theorem inv_lose (h : s.Inv json names call) {b : ι}
    (hstep : s.step json names call (.lose b) = some s') : s'.Inv json names call := by
  obtain rfl := Option.some.inj hstep
  cases hinbox : s.inbox b with
  | none =>
    rw [← hinbox, Function.update_eq_self]
    exact h
  | some raw =>
    have hnil := (h.inbox b raw hinbox).1
    have hsettle := h.settle (h.done_of_inbox hinbox) (List.nil_sublist s.members) (fun _ => rfl)
      (b := b) fun _ => nofun
    rwa [List.map_nil, ← hnil, Function.update_eq_self] at hsettle

theorem inv_deliver (h : s.Inv json names call) {b : ι}
    (hstep : s.step json names call (.deliver b) = some s') : s'.Inv json names call := by
  simp only [step] at hstep
  split at hstep
  · exact absurd hstep nofun
  · next userId event rest hhandling =>
    obtain rfl := Option.some.inj hstep
    have hne : s.handling b ≠ [] := by rw [hhandling]; exact List.cons_ne_nil _ _
    obtain ⟨hdone, hinbox, hb⟩ := h.done_of_handling hne
    obtain ⟨targets, hsub, htargets⟩ := h.handling b
    rw [hhandling] at htargets
    obtain ⟨u, todo, rfl, heq, hrest⟩ := List.map_eq_cons_iff.1 htargets.symm
    obtain ⟨rfl, rfl⟩ := Prod.mk.inj heq
    have howed : s.owed call.source b = u :: todo := by
      simp [owed, hb, hdone, hinbox, hhandling, ← hrest, Function.comp_def]
    have hsettle := h.settle hdone ((List.sublist_cons_self u todo).trans hsub)
      (fun h => absurd h hb) fun _ v hv => by rw [howed]; exact List.mem_cons_of_mem u hv
    rw [← hinbox, Function.update_eq_self, hrest] at hsettle
    refine { hsettle with once := fun b' => ?_ }
    by_cases hb' : b' = b
    · subst hb'
      have howed' : owed call.source { s with
          pipes := s.sendOn b' u call.event
          handling := Function.update s.handling b' rest } b' = todo := by
        simp [owed, hb, hdone, hinbox, ← hrest, Function.comp_def]
      have hnodup := List.nodup_cons.1 (h.nodup.sublist hsub)
      have honce := h.once b'
      rw [howed] at honce
      rw [howed']
      simp only [sendOn, Function.update_self]
      exact honce.send (h.registry b') (hsub.subset List.mem_cons_self) List.mem_cons_self
        hnodup.1 fun v hv => List.mem_cons_of_mem u hv
    · have honce := hsettle.once b'
      simp only [sendOn, Function.update_of_ne hb']
      exact honce

theorem inv_registry (h : s.Inv json names call) {b : ι} {a : Registry.Action}
    (hstep : s.step json names call (.registry b a) = some s') : s'.Inv json names call := by
  simp only [step, Option.map_eq_some_iff] at hstep
  obtain ⟨r, hr, rfl⟩ := hstep
  refine { h with registry := fun b' => ?_, once := fun b' => ?_ }
  · dsimp only
    by_cases hb : b' = b
    · rw [hb, Function.update_self]
      exact Registry.step_inv (h.registry b) hr
    · rw [Function.update_of_ne hb]
      exact h.registry b'
  · refine (h.once b').mono (fun u hu => hu) (fun x hx => ?_)
    dsimp only
    by_cases hb : b' = b
    · subst hb
      rw [Function.update_self]
      exact Registry.step_inserted hr hx
    · rw [Function.update_of_ne hb]
      exact hx

theorem inv_hangUp (h : s.Inv json names call) {b : ι} {sid : SessionId}
    (hstep : s.step json names call (.hangUp b sid) = some s') : s'.Inv json names call := by
  obtain rfl := Option.some.inj hstep
  refine { h with once := fun b' sid' => ?_ }
  have honce := h.once b' sid'
  dsimp only
  by_cases hb : b' = b
  · subst hb
    rw [Function.update_self]
    exact honce
  · rw [Function.update_of_ne hb]
    exact honce

theorem inv_refresh (h : s.Inv json names call) {db : Database} {fetch : Except DbError Unit}
    {instant : ℕ} {channelId : ChannelId}
    (hstep : s.step json names call (.refresh db fetch instant channelId) = some s') :
    s'.Inv json names call := by
  obtain rfl := Option.some.inj hstep
  exact h.setRouter (getChannelMembers_nodup h.cache db fetch instant channelId).2
    (getChannelMembers_fields s.router db fetch instant channelId).1

theorem inv_invalidate (h : s.Inv json names call) {channelId : ChannelId}
    (hstep : s.step json names call (.invalidate channelId) = some s') :
    s'.Inv json names call := by
  obtain rfl := Option.some.inj hstep
  refine h.setRouter (fun c entry hlook => ?_) rfl
  simp only [MessageRouter.invalidateChannelCache, DashMap.lookup_erase_ite] at hlook
  split_ifs at hlook
  exact h.cache c entry hlook

/-- **Every step keeps the invariant.** -/
theorem step_inv (hjson : json.RoundTrip) {a : Action ι} (h : s.Inv json names call)
    (hstep : s.step json names call a = some s') : s'.Inv json names call := by
  cases a with
  | persist db => exact inv_persist h hstep
  | lookup db => exact inv_lookup h hstep
  | check => exact inv_check h hstep
  | push => exact inv_push h hstep
  | publish => exact inv_publish hjson h hstep
  | receive b => exact inv_receive h hstep
  | lose b => exact inv_lose h hstep
  | deliver b => exact inv_deliver h hstep
  | registry b a => exact inv_registry h hstep
  | hangUp b sid => exact inv_hangUp h hstep
  | refresh db fetch instant channelId => exact inv_refresh h hstep
  | invalidate channelId => exact inv_invalidate h hstep

end

/-! ## Runs -/

theorem init_inv {router : MessageRouter} (hrouter : router.nodeId = names call.source) :
    (init router : Delivery ι).Inv json names call where
  registry _ := Registry.inv_init
  cache _ _ hlook := absurd hlook nofun
  nodeId := hrouter
  nodup := List.nodup_nil
  loop := List.Sublist.refl []
  unpublished _ _ := ⟨rfl, rfl⟩
  early _ := rfl
  inbox _ _ hraw := absurd hraw nofun
  handling _ := ⟨[], List.Sublist.refl [], rfl⟩
  own := rfl
  once _ _ := ⟨Nat.zero_le 1, fun hpos => absurd hpos (lt_irrefl 0)⟩

/-- **At most one copy for each session, and members only.** -/
theorem at_most_once {router : MessageRouter} {as : List (Action ι)} {s : Delivery ι}
    (hjson : json.RoundTrip) (hrouter : router.nodeId = names call.source)
    (hrun : exec (step json names call) (init router) as = some s) (b : ι) (sid : SessionId) :
    (((s.pipes b).queue sid).count call.event ≤ 1) ∧
      (0 < ((s.pipes b).queue sid).count call.event →
        ∃ x ∈ (s.registry b).inserted, x.sessionId = sid ∧ x.userId ∈ s.members) := by
  have hinv : s.Inv json names call :=
    exec_invariant (fun _ _ _ h hstep => step_inv hjson h hstep) (init_inv hrouter) hrun
  obtain ⟨hone, hmember⟩ := hinv.once b sid
  refine ⟨hone, ?_⟩
  intro hpos
  obtain ⟨x, hx, hsid, hmem, -⟩ := hmember hpos
  exact ⟨x, hx, hsid, hmem⟩

/-- User 1 sends the greeting from node `true`. -/
def greetingCall : SendCall Bool := ⟨true, 1, 20, "hi", allWell⟩

def nodeNames (b : Bool) : String := cond b "node-1" "node-2"

/-- Users 1 and 2 connect to a node each; the message goes through the loop of the first. -/
def greetingRun : List (Action Bool) :=
  [.registry true (.callInsert 0 ⟨100, 1⟩), .registry true (.op 0),
    .registry false (.callInsert 0 ⟨200, 2⟩), .registry false (.op 0),
    .persist pair, .lookup pair, .check, .push, .check, .publish, .receive false, .deliver false]

def greetingRouter : MessageRouter := ⟨"node-1", ⟨"node-1", false⟩, ∅, 300⟩

theorem at_most_once_greeting :
    ∃ s, exec (step greetingJson nodeNames greetingCall) (init greetingRouter) greetingRun =
        some s ∧
      ∀ b sid, ((s.pipes b).queue sid).count greetingCall.event ≤ 1 ∧
        (0 < ((s.pipes b).queue sid).count greetingCall.event →
          ∃ x ∈ (s.registry b).inserted, x.sessionId = sid ∧ x.userId ∈ s.members) := by
  have hrouter : greetingRouter.nodeId = nodeNames greetingCall.source := rfl
  have hrun : (exec (step greetingJson nodeNames greetingCall) (init greetingRouter)
      greetingRun).isSome := by decide +kernel
  obtain ⟨s, hs⟩ := Option.isSome_iff_exists.1 hrun
  exact ⟨s, hs, at_most_once greetingJson_roundTrip hrouter hs⟩

end Delivery

end RustRelay
