import RustRelay.Presence.Audience

/-!
# Failed lookups

`flush_batch` takes all updates out of the batch and then asks the database, for each of them, who
is to be told. Where a query fails, it logs the error and goes on to the next update: the update
is neither delivered on the node nor published to the others.

**Theorem (`failed_lookup_iff`).** After a flush of any batch, with any pattern of failing lookups
and publications, and when every node has handled what was published, every update has been sent to
the colocated sessions of all nodes or is still in the batch *if and only if* each lookup that
failed was for a user with no colocated session anywhere, and each publication that failed for one
with none on another node. An update that somebody did not get is gone: `lost_update`.
-/

namespace RustRelay

/-- A batch of `broadcast_worker`, which holds one update of a user at a time. -/
structure UpdateBatch where
  updates : List PendingUpdate
  nodup : (updates.map PendingUpdate.userId).Nodup

namespace BroadcastWorker

theorem exists_updateBatch (es : List (Coalesce.Event PendingUpdate)) {b : List PendingUpdate}
    (hb : b ∈ (run es).flushed ∨ b = (run es).batch) :
    ∃ batch : UpdateBatch, batch.updates = b := by
  have hinv : Coalesce.Inv PendingUpdate.userId 50 (Coalesce.Worker.run PendingUpdate.userId 50 es)
    (Coalesce.received es) := Coalesce.run_inv (by decide) es
  rw [← run_eq] at hinv
  rcases hb with hb | rfl
  · exact ⟨⟨b, (hinv.flushed b hb).2⟩, rfl⟩
  · exact ⟨⟨_, hinv.distinct⟩, rfl⟩

end BroadcastWorker

namespace PresenceHost

section
variable (presence : Serde PresencePayload) (host : PresenceHost) (db : Database)

/-- `flush_batch` with the batch that it leaves to the worker: `drain(..)` takes everything, before
the first lookup. -/
def drainBatch (keys : PresenceKeys) (batch : UpdateBatch) (answers : UserId → FlushAnswers) :
    UpdateBatch × Flushed :=
  (⟨[], List.nodup_nil⟩,
    host.flushBatch presence db keys (batch.updates.map fun u => (u, answers u.userId)))

/-- The sessions on the node that are to be told of an update: those of the users who share a guild
with its user, as far as their receivers are there. -/
def Colocated (update : PendingUpdate) (x : Session) : Prop :=
  host.pipes.closed x.sessionId = false ∧
    ∃ v ∈ getColocatedUserIds db update.userId, x ∈ host.sessions.vec v

end

variable {presence : Serde PresencePayload} {host : PresenceHost} {db : Database}

theorem event_injective {a b : PendingUpdate} (h : a.event = b.event) : a = b := by
  obtain ⟨u, status⟩ := a
  obtain ⟨v, status'⟩ := b
  obtain ⟨rfl, rfl⟩ := ServerEvent.presenceUpdate.inj h
  rfl

end PresenceHost

section
variable {ι : Type} [DecidableEq ι]

/-- Every colocated session, on whatever node, got the update. -/
def PendingUpdate.Sent (update : PendingUpdate) (db : Database) (hosts : ι → PresenceHost)
    (after : ι → Pipes) : Prop :=
  ∀ b x, (hosts b).Colocated db update x →
    ∃ new, (after b).queue x.sessionId = (hosts b).pipes.queue x.sessionId ++ new ∧
      update.event ∈ new

/-- The channels of the nodes after a flush of the batch on node `a`. -/
def afterDrain (presence : Serde PresencePayload) (json : Json) (hosts : ι → PresenceHost)
    (db : Database) (keys : PresenceKeys) (a : ι) (batch : UpdateBatch)
    (answers : UserId → FlushAnswers) : ι → Pipes :=
  afterFlush presence json hosts a ((hosts a).drainBatch presence db keys batch answers).2

section
variable {presence : Serde PresencePayload} (hround : presence.RoundTrip) (json : Json)
  {hosts : ι → PresenceHost} (hids : Function.Injective fun b => (hosts b).bridge.nodeId)
  (hdistinct : ∀ b, (hosts b).sessions.Distinct) (db : Database) (keys : PresenceKeys)
  {batch : UpdateBatch} (answers : UserId → FlushAnswers) {update : PendingUpdate}
  (hupdate : update ∈ batch.updates) {a b : ι} {x : Session}

include hround hids hdistinct hupdate

/-- A colocated session gets an update if the lookup succeeds and, from another node, the update
goes out. -/
theorem got_iff (hcolocated : (hosts b).Colocated db update x) :
    (∃ new, (afterDrain presence json hosts db keys a batch answers b).queue x.sessionId =
        (hosts b).pipes.queue x.sessionId ++ new ∧ update.event ∈ new) ↔
      (answers update.userId).colocated = .ok () ∧
        (b ≠ a → PresenceHost.GoesOut presence (hosts a) (update, answers update.userId)) := by
  obtain ⟨hopen, v, hv, hx⟩ := hcolocated
  have hgains {P : ServerEvent → Prop} {p : Pipes}
      (h : (hosts b).pipes.Gains p x.sessionId P) :
      (∃ new, p.queue x.sessionId = (hosts b).pipes.queue x.sessionId ++ new ∧
        update.event ∈ new) ↔ P update.event := by
    obtain ⟨new, hnew, hP⟩ := h
    rw [← hP]
    constructor
    · intro hgot
      obtain ⟨new', hnew', hmem⟩ := hgot
      obtain rfl := List.append_cancel_left (hnew'.symm.trans hnew)
      exact hmem
    · intro hmem
      exact ⟨new, hnew, hmem⟩
  by_cases hb : b = a
  · subst hb
    refine (hgains (gains_self hround json hdistinct hx hopen db keys _)).trans ?_
    constructor
    · intro hgot
      obtain ⟨p, hp, hok, hevent, -⟩ := hgot
      obtain ⟨q, -, rfl⟩ := List.mem_map.1 hp
      obtain rfl := PresenceHost.event_injective hevent
      exact ⟨hok, fun hne => absurd rfl hne⟩
    · intro hsent
      exact ⟨_, List.mem_map_of_mem hupdate, hsent.1, rfl, hv⟩
  · refine (hgains (gains_other hround json hdistinct hids hb hx hopen db keys _)).trans ?_
    constructor
    · intro hgot
      obtain ⟨p, hp, hout, hevent⟩ := hgot
      obtain ⟨q, -, rfl⟩ := List.mem_map.1 hp
      obtain rfl := PresenceHost.event_injective hevent
      exact ⟨hout.1, fun _ => hout⟩
    · intro hsent
      exact ⟨_, List.mem_map_of_mem hupdate, hsent.2 hb, rfl⟩

end

/-- **No update is lost if and only if** every lookup that failed was for a user with no colocated
session on any node, and every update that Redis did not take for one with none on another node. -/
theorem failed_lookup_iff {presence : Serde PresencePayload} (hround : presence.RoundTrip)
    (json : Json) {hosts : ι → PresenceHost}
    (hids : Function.Injective fun b => (hosts b).bridge.nodeId)
    (hdistinct : ∀ b, (hosts b).sessions.Distinct) (db : Database) (keys : PresenceKeys) (a : ι)
    (batch : UpdateBatch) (answers : UserId → FlushAnswers) :
    (∀ update ∈ batch.updates,
      update ∈ ((hosts a).drainBatch presence db keys batch answers).1.updates ∨
        update.Sent db hosts (afterDrain presence json hosts db keys a batch answers)) ↔
    ∀ update ∈ batch.updates,
      ((answers update.userId).colocated = .ok () ∨
        ∀ b x, ¬(hosts b).Colocated db update x) ∧
      ((hosts a).bridge.disabled = false ∧
          PresenceHost.Publishes presence (hosts a) (update, answers update.userId) ∨
        ∀ b x, b ≠ a → ¬(hosts b).Colocated db update x) := by
  refine forall₂_congr fun update hupdate => ?_
  have hgot {b : ι} {x : Session} (hx : (hosts b).Colocated db update x) :=
    got_iff (a := a) hround json hids hdistinct db keys answers hupdate hx
  constructor
  · intro hkept
    have hsent : update.Sent db hosts (afterDrain presence json hosts db keys a batch answers) :=
      hkept.resolve_left List.not_mem_nil
    refine ⟨or_iff_not_imp_right.2 fun hsome => ?_, or_iff_not_imp_right.2 fun hsome => ?_⟩
    · push Not at hsome
      obtain ⟨b, x, hx⟩ := hsome
      exact ((hgot hx).1 (hsent b x hx)).1
    · push Not at hsome
      obtain ⟨b, x, hb, hx⟩ := hsome
      exact (((hgot hx).1 (hsent b x hx)).2 hb).2
  · intro hcondition
    obtain ⟨hlookup, hredis⟩ := hcondition
    refine .inr fun b x hx => (hgot hx).2 ?_
    have hok := hlookup.resolve_right fun hnone => hnone b x hx
    exact ⟨hok, fun hb => ⟨hok, hredis.resolve_right fun hnone => hnone b x hb hx⟩⟩

/-- Users 7 and 8 share a guild, and user 9 is in none. -/
def oneGuild : Database where
  users := [7, 8, 9]
  channels := ∅
  guildMembers := [(10, 7), (10, 8)]
  guildMembers_nodup := by decide
  messages := ∅
  readStates := ∅

/-- User 8 is connected to node `b`, and to no other. -/
def hosts8 (b : Bool) (c : Bool) : PresenceHost :=
  ⟨⟨cond c "node-1" "node-2", false⟩, if c = b then SessionStore.new.insert ⟨2, 8⟩ else .new,
    ⟨fun _ => [], fun _ => false⟩⟩

/-- User 7 is online and user 9 goes offline. -/
def comesAndGoes : UpdateBatch := ⟨[⟨7, .online⟩, ⟨9, .offline⟩], by decide⟩

/-- The lookup fails for one user. -/
def failsFor (failing u : UserId) : FlushAnswers :=
  ⟨if u = failing then .error .unavailable else .ok (), .ok (), .ok (), 0⟩

/-- The channels after node `true` has flushed the batch. -/
def afterComesAndGoes (b : Bool) (failing : UserId) : Bool → Pipes :=
  afterDrain Subscriber.onePresence Subscriber.noJson (hosts8 b) oneGuild ∅ true comesAndGoes
    (failsFor failing)

theorem hosts8_injective (b : Bool) : Function.Injective fun c => (hosts8 b c).bridge.nodeId := by
  have hne : "node-1" ≠ "node-2" := by decide
  intro c c' h
  cases c <;> cases c'
  · rfl
  · exact absurd h.symm hne
  · exact absurd h hne
  · rfl

theorem hosts8_distinct (b c : Bool) : (hosts8 b c).sessions.Distinct := by
  unfold hosts8
  dsimp only
  split_ifs
  · exact SessionStore.distinct_single _
  · exact ⟨fun _ _ hx => absurd hx List.not_mem_nil, fun _ _ _ hx => absurd hx List.not_mem_nil⟩

/-- User 9 has nobody to tell, and user 8, on the other node, hears of user 7. -/
theorem failed_lookup_iff_nobody : (failsFor 9 9).colocated = .error .unavailable ∧
    ∀ update ∈ comesAndGoes.updates,
      update ∈ ((hosts8 false true).drainBatch Subscriber.onePresence oneGuild ∅ comesAndGoes
          (failsFor 9)).1.updates ∨
        update.Sent oneGuild (hosts8 false) (afterDrain Subscriber.onePresence Subscriber.noJson
          (hosts8 false) oneGuild ∅ true comesAndGoes (failsFor 9)) := by
  refine ⟨rfl, (failed_lookup_iff (Serde.single_roundTrip _ _) _ (hosts8_injective false)
    (hosts8_distinct false) oneGuild ∅ true comesAndGoes (failsFor 9)).2 fun update hupdate => ?_⟩
  rcases List.mem_cons.1 hupdate with rfl | hupdate
  · exact ⟨.inl rfl, .inl ⟨rfl, rfl, _, Serde.single_toString _ _⟩⟩
  · obtain rfl := List.mem_singleton.1 hupdate
    have hnone : getColocatedUserIds oneGuild 9 = [] := by decide
    have hnobody (b : Bool) (x : Session) :
        ¬(hosts8 false b).Colocated oneGuild ⟨9, .offline⟩ x := by
      intro hcolocated
      obtain ⟨-, v, hv, -⟩ := hcolocated
      rw [hnone] at hv
      exact absurd hv List.not_mem_nil
    exact ⟨.inr hnobody, .inr fun b x _ => hnobody b x⟩

/-- User 8 does not hear of user 7, wherever it is connected. -/
theorem not_sent_seven (b : Bool) :
    ¬PendingUpdate.Sent ⟨7, .online⟩ oneGuild (hosts8 b) (afterComesAndGoes b 7) := by
  intro hsent
  have hqueue : (afterComesAndGoes b 7 b).queue 2 = [] := by
    cases b <;> decide +kernel
  have hvec : (⟨2, 8⟩ : Session) ∈ (hosts8 b b).sessions.vec 8 := by
    rw [hosts8, if_pos rfl]
    exact SessionStore.mem_vec_insert.2 (.inr ⟨rfl, rfl⟩)
  obtain ⟨new, hnew, hmem⟩ := hsent b ⟨2, 8⟩ ⟨rfl, 8, by decide, hvec⟩
  rw [hqueue] at hnew
  obtain ⟨-, rfl⟩ := List.append_eq_nil_iff.1 hnew.symm
  exact absurd hmem List.not_mem_nil

/-- **The update of user 7 is lost** when its lookup fails: user 8 does not get it, on the node that
flushes or on the other, and it is not in the batch. -/
theorem lost_update :
    (¬∀ update ∈ comesAndGoes.updates,
      update ∈ ((hosts8 true true).drainBatch Subscriber.onePresence oneGuild ∅ comesAndGoes
          (failsFor 7)).1.updates ∨
        update.Sent oneGuild (hosts8 true) (afterComesAndGoes true 7)) ∧
    ¬∀ update ∈ comesAndGoes.updates,
      update ∈ ((hosts8 false true).drainBatch Subscriber.onePresence oneGuild ∅ comesAndGoes
          (failsFor 7)).1.updates ∨
        update.Sent oneGuild (hosts8 false) (afterComesAndGoes false 7) := by
  refine ⟨fun hall => ?_, fun hall => ?_⟩
  · exact not_sent_seven true
      ((hall ⟨7, .online⟩ List.mem_cons_self).resolve_left List.not_mem_nil)
  · exact not_sent_seven false
      ((hall ⟨7, .online⟩ List.mem_cons_self).resolve_left List.not_mem_nil)

end

end RustRelay
