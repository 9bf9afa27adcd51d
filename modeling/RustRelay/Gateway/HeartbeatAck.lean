import RustRelay.Gateway.Stream

/-!
# Heartbeat acknowledgements

The reader loop answers a heartbeat with `send_to_user`, which goes by the user and not by the
connection: the acknowledgement reaches every session that the user has there.

**Theorem (`acks_answer_own`).** The acknowledgements in the channel of a session are a prefix of
the heartbeats that its own client has sent, in order and each at most once, provided that whenever
a call for a heartbeat looked the user up, it found no session with a receiver but that of the
connection. With a phone and a desktop it finds two, and `foreign_ack` is the desktop receiving an
acknowledgement for a heartbeat of the phone.

The heartbeats are added to the machine of the streams (`Heartbeats.step`): the reader loop takes
the next message of its client, calls `send_to_user`, and goes on when that has returned. Nobody
else sends acknowledgements. That none is left out before a later one rests on a session that is
not found, or whose receiver was dropped, never coming back (`Streaming.step_gone`).
-/

namespace RustRelay

open Machine

/-- The `seq` of a `HEARTBEAT_ACK`. -/
def ServerEvent.ackSeq : ServerEvent → Option UInt64
  | .heartbeatAck seq => some seq
  | _ => none

/-- The acknowledgements among events. -/
def acksOf (events : List ServerEvent) : List UInt64 := events.filterMap ServerEvent.ackSeq

theorem acksOf_append (xs ys : List ServerEvent) : acksOf (xs ++ ys) = acksOf xs ++ acksOf ys :=
  List.filterMap_append

theorem acksOf_mono {xs ys : List ServerEvent} (h : xs <+: ys) : acksOf xs <+: acksOf ys := by
  obtain ⟨rest, rfl⟩ := h
  rw [acksOf_append]
  exact List.prefix_append _ _

/-! ## Sessions that do not come back -/

namespace Handler

variable {serde : Serde ServerEvent} {store : SessionStore} {calls : DashMap ℕ Call}
  {queue : List ServerEvent} {c c' : Handler}

theorem step_insert {a : Action} (hstep : c.step serde store calls queue a = some c') {t : ℕ}
    (ht : c.pc = .insert t) : c'.pc = .insert t ∨ calls.lookup t = none := by
  cases a with
  | inserted =>
    simp only [step, ht] at hstep
    split_ifs at hstep with hnone
    exact .inr hnone
  | _ =>
    simp only [step] at hstep
    (repeat' split at hstep) <;> cases hstep <;> simp_all

theorem step_read {a : Action} (hstep : c.step serde store calls queue a = some c')
    (hpc : c.pc = .read) (ha : a ≠ .close) : c'.pc = .read := by
  cases a <;> simp only [step] at hstep <;> (repeat' split at hstep) <;> cases hstep <;> simp_all

theorem step_unspawned {a : Action} (hstep : c.step serde store calls queue a = some c')
    (hearly : c.pc.early = true → c.writer = .unspawned) :
    c'.pc.early = true → c'.writer = .unspawned := by
  cases a <;> simp only [step] at hstep <;> (repeat' split at hstep) <;> cases hstep <;>
    simp_all [HandlerPc.early]

theorem step_ended {a : Action} (hstep : c.step serde store calls queue a = some c')
    (hearly : c.pc.early = true → c.writer = .unspawned) (hended : c.writer = .ended) :
    c'.writer = .ended := by
  cases a <;> simp only [step] at hstep <;> (repeat' split at hstep) <;> cases hstep <;>
    simp_all [HandlerPc.early]

end Handler

namespace Streaming

/-- How the connections, the registry and the receivers hang together. -/
structure Linked (s : Streaming) : Prop where
  registry : s.registry.Inv
  session : ∀ sid c, s.handlers.lookup sid = some c →
    c.session.sessionId = sid ∧ c.session ∈ s.registry.inserted
  /-- A session that is not pushed yet is one whose connection is at its `insert`. -/
  inserting : ∀ sid c t, s.handlers.lookup sid = some c →
    s.registry.calls.lookup t = some (.insert c.session) → c.pc = .insert t
  writer : ∀ sid c, s.handlers.lookup sid = some c → c.pc.early = true → c.writer = .unspawned
  closed : ∀ sid, s.pipes.closed sid = true →
    ∃ c, s.handlers.lookup sid = some c ∧ c.writer = .ended

/-- Nothing is sent to the session any more: its receiver was dropped, or it has left the map. -/
def Gone (s : Streaming) (sid : SessionId) : Prop :=
  s.pipes.closed sid = true ∨
    ∃ c, s.handlers.lookup sid = some c ∧ s.registry.Gone c.session

variable {serde : Serde ServerEvent} {s s' : Streaming} {sid : SessionId}

theorem lookup_setHandler (s : Streaming) (c : Handler) (sid : SessionId) :
    (s.setHandler c).handlers.lookup sid =
      if sid = c.session.sessionId then some c else s.handlers.lookup sid :=
  DashMap.lookup_insert_ite _ _ _ _

theorem closed_setHandler (s : Streaming) (c : Handler) (sid : SessionId) :
    (s.setHandler c).pipes.closed sid =
      if sid = c.session.sessionId then decide (c.writer = .ended) else s.pipes.closed sid := by
  simp only [setHandler, Function.update_apply]

theorem Linked.setRegistry (h : s.Linked) {r : Registry} {a : Registry.Action}
    (hr : s.registry.step a = some r) (ha : ∀ t x, a ≠ .callInsert t x) :
    Linked { s with registry := r } where
  registry := Registry.step_inv h.registry hr
  session sid c hc := ⟨(h.session sid c hc).1, Registry.step_inserted hr (h.session sid c hc).2⟩
  inserting sid c t hc ht := h.inserting sid c t hc (Registry.step_insert hr ha ht)
  writer := h.writer
  closed := h.closed

theorem Linked.setHandler (h : s.Linked) {c c' : Handler} (hc : s.handlers.lookup sid = some c)
    (hsession : c'.session = c.session)
    (hinsert : ∀ t, c.pc = .insert t → c'.pc = .insert t ∨ s.registry.calls.lookup t = none)
    (hwriter : c'.pc.early = true → c'.writer = .unspawned) : (s.setHandler c').Linked := by
  obtain ⟨hid, hins⟩ := h.session sid c hc
  rw [← hsession] at hid hins
  refine ⟨h.registry, ?_, ?_, ?_, ?_⟩
  · intro sid' d hd
    rw [lookup_setHandler] at hd
    split_ifs at hd with heq
    · obtain rfl := Option.some.inj hd
      exact ⟨heq.symm, hins⟩
    · exact h.session sid' d hd
  · intro sid' d t hd ht
    rw [lookup_setHandler] at hd
    split_ifs at hd with heq
    · obtain rfl := Option.some.inj hd
      rw [hsession] at ht
      apply (hinsert t (h.inserting sid c t hc ht)).resolve_right
      intro hnone
      rw [show s.registry.calls.lookup t = _ from ht] at hnone
      cases hnone
    · exact h.inserting sid' d t hd ht
  · intro sid' d hd
    rw [lookup_setHandler] at hd
    split_ifs at hd with heq
    · obtain rfl := Option.some.inj hd
      exact hwriter
    · exact h.writer sid' d hd
  · intro sid' hclosed
    rw [closed_setHandler] at hclosed
    rw [lookup_setHandler]
    split_ifs at hclosed ⊢ with heq
    · exact ⟨c', rfl, of_decide_eq_true hclosed⟩
    · exact h.closed sid' hclosed

theorem Linked.connect (h : s.Linked) {t : ℕ} {x : Session} {r : Registry}
    (hr : s.registry.step (.callInsert t x) = some r) (username : String) :
    Linked (Streaming.setHandler { s with registry := r }
      ⟨x, username, .insert t, .unspawned, 0, []⟩) := by
  have hreg := Registry.step_inv h.registry hr
  simp only [Registry.step, Option.ite_none_right_eq_some, Option.some.injEq] at hr
  obtain ⟨⟨-, hfresh⟩, rfl⟩ := hr
  refine ⟨hreg, ?_, ?_, ?_, ?_⟩
  · intro sid c hc
    rw [lookup_setHandler] at hc
    split_ifs at hc with heq
    · obtain rfl := Option.some.inj hc
      exact ⟨heq.symm, List.mem_cons_self⟩
    · exact ⟨(h.session sid c hc).1, List.mem_cons_of_mem x (h.session sid c hc).2⟩
  · intro sid c t' hc ht'
    rw [lookup_setHandler] at hc
    change (s.registry.calls.insert t (.insert x)).lookup t' = _ at ht'
    rw [DashMap.lookup_insert_ite] at ht'
    split_ifs at hc ht' with heq htt htt
    · obtain rfl := Option.some.inj hc
      rw [htt]
    · obtain rfl := Option.some.inj hc
      exact absurd (List.mem_map_of_mem (h.registry.inserted_of_call ht')) hfresh
    · obtain rfl := Call.insert.inj (Option.some.inj ht')
      exact absurd (List.mem_map_of_mem (h.session sid c hc).2) hfresh
    · exact h.inserting sid c t' hc ht'
  · intro sid c hc
    rw [lookup_setHandler] at hc
    split_ifs at hc
    · obtain rfl := Option.some.inj hc
      exact fun _ => rfl
    · exact h.writer sid c hc
  · intro sid hclosed
    rw [closed_setHandler] at hclosed
    rw [lookup_setHandler]
    split_ifs at hclosed ⊢
    · simp at hclosed
    · exact h.closed sid hclosed

/-- What a call of `send_to_users` does leaves the rest of the server alone. -/
structure Sends (s s' : Streaming) (k : ℕ) (x' : UserSend) : Prop where
  registry : s'.registry = s.registry
  handlers : s'.handlers = s.handlers
  closed : s'.pipes.closed = s.pipes.closed
  sends : s'.sends = s.sends.insert k x'

theorem Linked.sends (h : s.Linked) {k : ℕ} {x' : UserSend} (hsends : s.Sends s' k x') :
    s'.Linked := by
  obtain ⟨hregistry, hhandlers, hclosed, -⟩ := hsends
  refine ⟨?_, ?_, ?_, ?_, ?_⟩
  · rw [hregistry]
    exact h.registry
  · rw [hregistry, hhandlers]
    exact h.session
  · rw [hregistry, hhandlers]
    exact h.inserting
  · rw [hhandlers]
    exact h.writer
  · rw [hclosed, hhandlers]
    exact h.closed

theorem setSend_sends {k : ℕ} {x' : UserSend} (h : s' = s.setSend k x') :
    s.Sends s' k x' ∧ s'.pipes.queue = s.pipes.queue := by
  subst h
  exact ⟨⟨rfl, rfl, rfl, rfl⟩, rfl⟩

/-- A send leaves the receivers alone, and fills the channel if its receiver is there. -/
theorem push_sends {k : ℕ} (hstep : s.step serde (.push k) = some s') :
    ∃ x u z zs ok, s.sends.lookup k = some x ∧ x.guard = some (u, z :: zs) ∧
      s.Sends s' k { x with
        guard := some (u, zs), reached := x.reached ++ [(z.sessionId, ok)] } ∧
      if s.pipes.closed z.sessionId = true then s'.pipes.queue = s.pipes.queue
      else s'.pipes.queue = Function.update s.pipes.queue z.sessionId
        (s.pipes.queue z.sessionId ++ [x.event]) := by
  obtain ⟨x, u, z, zs, hx, hguard, rfl⟩ := step_push hstep
  refine ⟨x, u, z, zs, (s.pipes.send z.sessionId x.event).1, hx, hguard, ⟨rfl, rfl, ?_, rfl⟩, ?_⟩
  · unfold Pipes.send
    split_ifs <;> rfl
  · unfold Pipes.send
    split_ifs <;> rfl

/-- The action is an operation of a call of `send_to_users`. -/
def Action.sending : Action → Bool
  | .call _ _ _ | .get _ | .push _ | .release _ => true
  | .connect _ _ _ | .handler _ _ | .cleanup _ _ | .reap _ _ _ | .op _ => false

theorem step_sending {a : Action} (ha : a.sending = true) (hstep : s.step serde a = some s') :
    ∃ k x', s.Sends s' k x' := by
  cases a with
  | call k userIds event =>
    exact ⟨k, _, (setSend_sends (step_call hstep).2).1⟩
  | get k =>
    obtain ⟨x, u, todo, -, -, -, hs⟩ := step_get hstep
    exact ⟨k, _, (setSend_sends hs).1⟩
  | push k =>
    obtain ⟨x, u, z, zs, ok, -, -, hsends, -⟩ := push_sends hstep
    exact ⟨k, _, hsends⟩
  | release k =>
    obtain ⟨x, u, -, -, hs⟩ := step_release hstep
    exact ⟨k, _, (setSend_sends hs).1⟩
  | _ => cases ha

theorem step_cases {a : Action} (hstep : s.step serde a = some s') :
    (∃ t x username r, s.registry.step (.callInsert t x) = some r ∧
      s' = Streaming.setHandler { s with registry := r }
        ⟨x, username, .insert t, .unspawned, 0, []⟩) ∨
    (∃ sid b c c', a = .handler sid b ∧ s.handlers.lookup sid = some c ∧
      c.step serde s.registry.store s.registry.calls (s.pipes.queue sid) b = some c' ∧
      s' = s.setHandler c') ∨
    (∃ t sid c r b, s.handlers.lookup sid = some c ∧ c.pc = .cleanup ∧
      s.registry.step b = some r ∧ (∀ t x, b ≠ .callInsert t x) ∧
      s' = Streaming.setHandler { s with registry := r } { c with pc := .remove t }) ∨
    (∃ r b, s.registry.step b = some r ∧ (∀ t x, b ≠ .callInsert t x) ∧
      s' = { s with registry := r }) ∨
    (a.sending = true ∧ ∃ k x', s.Sends s' k x') := by
  cases a with
  | connect t x username =>
    simp only [step, Option.map_eq_some_iff] at hstep
    obtain ⟨r, hr, rfl⟩ := hstep
    exact .inl ⟨t, x, username, r, hr, rfl⟩
  | handler sid b =>
    simp only [step, Option.bind_eq_some_iff, Option.map_eq_some_iff] at hstep
    obtain ⟨c, hc, c', hc', rfl⟩ := hstep
    exact .inr (.inl ⟨sid, b, c, c', rfl, hc, hc', rfl⟩)
  | cleanup t sid =>
    simp only [step] at hstep
    split at hstep
    · next c hc =>
      split_ifs at hstep with hpc
      rw [Option.map_eq_some_iff] at hstep
      obtain ⟨r, hr, rfl⟩ := hstep
      exact .inr (.inr (.inl ⟨t, sid, c, r, _, hc, hpc, hr, by simp, rfl⟩))
    · cases hstep
  | reap t u sid =>
    simp only [step, Option.map_eq_some_iff] at hstep
    obtain ⟨r, hr, rfl⟩ := hstep
    exact .inr (.inr (.inr (.inl ⟨r, _, hr, by simp, rfl⟩)))
  | op t =>
    simp only [step] at hstep
    split_ifs at hstep
    rw [Option.map_eq_some_iff] at hstep
    obtain ⟨r, hr, rfl⟩ := hstep
    exact .inr (.inr (.inr (.inl ⟨r, _, hr, by simp, rfl⟩)))
  | call | get | push | release =>
    exact .inr (.inr (.inr (.inr ⟨rfl, step_sending rfl hstep⟩)))

theorem step_background {a : Action} (ha : a.sending = false) (hstep : s.step serde a = some s') :
    s'.sends = s.sends ∧ s'.pipes.queue = s.pipes.queue := by
  obtain ⟨t, x, username, r, -, rfl⟩ | ⟨sid, b, c, c', rfl, -, -, rfl⟩ |
    ⟨t, sid, c, r, b, -, -, -, -, rfl⟩ | ⟨r, b, -, -, rfl⟩ | ⟨hsending, -⟩ := step_cases hstep
  · exact ⟨rfl, rfl⟩
  · exact ⟨rfl, rfl⟩
  · exact ⟨rfl, rfl⟩
  · exact ⟨rfl, rfl⟩
  · rw [ha] at hsending
    cases hsending

theorem step_registry {a : Action} (hstep : s.step serde a = some s') :
    s'.registry = s.registry ∨ ∃ b, s.registry.step b = some s'.registry := by
  obtain ⟨t, x, username, r, hr, rfl⟩ | ⟨sid, b, c, c', rfl, -, -, rfl⟩ |
    ⟨t, sid, c, r, b, -, -, hr, -, rfl⟩ | ⟨r, b, hr, -, rfl⟩ |
    ⟨-, k, x', hregistry, -⟩ := step_cases hstep
  · exact .inr ⟨_, hr⟩
  · exact .inl rfl
  · exact .inr ⟨b, hr⟩
  · exact .inr ⟨b, hr⟩
  · exact .inl hregistry

/-- What a step does to the connection of a session: nothing, a step of its own, or `cleanup`. -/
theorem step_handler (h : s.Linked) {a : Action} (hstep : s.step serde a = some s') {c : Handler}
    (hc : s.handlers.lookup sid = some c) :
    ∃ c', s'.handlers.lookup sid = some c' ∧ c'.session = c.session ∧
      (c.writer = .ended → c'.writer = .ended) ∧
      (c.pc = .read → a ≠ .handler sid .close → c'.pc = .read) ∧
      (s'.pipes.closed sid = s.pipes.closed sid ∨
        s'.pipes.closed sid = decide (c'.writer = .ended)) := by
  obtain ⟨t, x, username, r, hr, rfl⟩ | ⟨sid', b, d, d', rfl, hd, hd', rfl⟩ |
    ⟨t, sid', d, r, b, hd, hcleanup, -, -, rfl⟩ | ⟨r, b, -, -, rfl⟩ |
    ⟨-, k, x', -, hhandlers, hclosed, -⟩ := step_cases hstep
  · simp only [Registry.step, Option.ite_none_right_eq_some, Option.some.injEq] at hr
    obtain ⟨⟨-, hfresh⟩, rfl⟩ := hr
    have hne : sid ≠ x.sessionId := by
      rintro rfl
      obtain ⟨hid, hins⟩ := h.session x.sessionId c hc
      exact hfresh (hid ▸ List.mem_map_of_mem hins)
    rw [lookup_setHandler, closed_setHandler, if_neg hne, if_neg hne]
    exact ⟨c, hc, rfl, id, fun hpc _ => hpc, .inl rfl⟩
  · have hsession := Handler.step_session hd'
    have hid : d'.session.sessionId = sid' := by rw [hsession, (h.session sid' d hd).1]
    rw [lookup_setHandler, closed_setHandler, hid]
    by_cases heq : sid = sid'
    · subst heq
      obtain rfl := Option.some.inj (hc.symm.trans hd)
      rw [if_pos rfl, if_pos rfl]
      refine ⟨d', rfl, hsession, Handler.step_ended hd' (h.writer sid c hc), ?_, .inr rfl⟩
      intro hpc ha
      exact Handler.step_read hd' hpc fun heq => ha (congrArg (Action.handler sid) heq)
    · rw [if_neg heq, if_neg heq]
      exact ⟨c, hc, rfl, id, fun hpc _ => hpc, .inl rfl⟩
  · obtain ⟨hid, -⟩ := h.session sid' d hd
    simp only [lookup_setHandler, closed_setHandler, hid]
    by_cases heq : sid = sid'
    · subst heq
      obtain rfl := Option.some.inj (hc.symm.trans hd)
      rw [if_pos rfl, if_pos rfl]
      refine ⟨_, rfl, rfl, id, ?_, .inr rfl⟩
      intro hpc
      rw [hpc] at hcleanup
      cases hcleanup
    · rw [if_neg heq, if_neg heq]
      exact ⟨c, hc, rfl, id, fun hpc _ => hpc, .inl rfl⟩
  · exact ⟨c, hc, rfl, id, fun hpc _ => hpc, .inl rfl⟩
  · rw [hhandlers, hclosed]
    exact ⟨c, hc, rfl, id, fun hpc _ => hpc, .inl rfl⟩

theorem step_closed (h : s.Linked) {a : Action} (hstep : s.step serde a = some s')
    (hclosed : s.pipes.closed sid = true) : s'.pipes.closed sid = true := by
  obtain ⟨c, hc, hended⟩ := h.closed sid hclosed
  obtain ⟨c', -, -, hended', -, hclosed'⟩ := step_handler h hstep hc
  rcases hclosed' with hsame | hsame
  · rw [hsame, hclosed]
  · rw [hsame, decide_eq_true_eq]
    exact hended' hended

/-- **A session that is gone stays gone.** -/
theorem step_gone (h : s.Linked) {a : Action} (hstep : s.step serde a = some s')
    (hgone : s.Gone sid) : s'.Gone sid := by
  rcases hgone with hclosed | ⟨c, hc, hgone⟩
  · exact .inl (step_closed h hstep hclosed)
  · obtain ⟨c', hc', hsession, -⟩ := step_handler h hstep hc
    refine .inr ⟨c', hc', ?_⟩
    rw [hsession]
    rcases step_registry hstep with hsame | ⟨b, hb⟩
    · rwa [hsame]
    · exact Registry.step_gone hb hgone

theorem step_linked (h : s.Linked) {a : Action} (hstep : s.step serde a = some s') :
    s'.Linked := by
  obtain ⟨t, x, username, r, hr, rfl⟩ | ⟨sid, b, c, c', -, hc, hc', rfl⟩ |
    ⟨t, sid, c, r, b, hc, hpc, hr, hb, rfl⟩ | ⟨r, b, hr, hb, rfl⟩ | ⟨-, k, x', hsends⟩ :=
    step_cases hstep
  · exact h.connect hr username
  · exact h.setHandler hc (Handler.step_session hc') (fun t => Handler.step_insert hc')
      (Handler.step_unspawned hc' (h.writer sid c hc))
  · refine (h.setRegistry hr hb).setHandler (c := c) hc rfl ?_ nofun
    intro t' ht'
    rw [hpc] at ht'
    cases ht'
  · exact h.setRegistry hr hb
  · exact h.sends hsends

end Streaming

/-! ## The machine -/

instance (x : UserSend) : Decidable x.Returned := inferInstanceAs (Decidable (_ ∧ _))

/-- The streams, and the heartbeats of the clients. -/
structure Heartbeats where
  server : Streaming
  /-- The `seq` values that a client has sent on its connection. -/
  sent : SessionId → List UInt64
  /-- How many of them the reader loop has taken. -/
  taken : SessionId → ℕ
  /-- The call of `send_to_user` for the last one taken. -/
  answers : DashMap SessionId ℕ

namespace Heartbeats

def init : Heartbeats := ⟨.init, fun _ => [], fun _ => 0, ∅⟩

inductive Action
  /-- A step of the streams. -/
  | server (a : Streaming.Action)
  /-- The client sends a heartbeat. -/
  | beat (sessionId : SessionId) (seq : UInt64)
  /-- The reader loop takes the next heartbeat, and calls `send_to_user` as call `k`. -/
  | answer (k : ℕ) (sessionId : SessionId)
  deriving DecidableEq, Repr

/-- The reader loop is not in `handle_client_message` with a heartbeat. -/
def Idle (s : Heartbeats) (sid : SessionId) : Prop :=
  ∀ k ∈ s.answers.lookup sid, ∀ x ∈ s.server.sends.lookup k, x.Returned

instance (s : Heartbeats) (sid : SessionId) : Decidable (s.Idle sid) :=
  inferInstanceAs
    (Decidable (∀ k ∈ s.answers.lookup sid, ∀ x ∈ s.server.sends.lookup k, x.Returned))

/-- No other task sends an acknowledgement, and a reader loop does not end before its call has
returned. -/
def Allows (s : Heartbeats) : Streaming.Action → Bool
  | .call _ _ event => event.ackSeq.isNone
  | .handler sid .close => decide (s.Idle sid)
  | _ => true

def step (serde : Serde ServerEvent) (s : Heartbeats) : Action → Option Heartbeats
  | .server a =>
    if s.Allows a then (s.server.step serde a).map fun server => { s with server } else none
  | .beat sid seq => some { s with sent := Function.update s.sent sid (s.sent sid ++ [seq]) }
  | .answer k sid => match s.server.handlers.lookup sid, (s.sent sid)[s.taken sid]? with
    | some c, some seq =>
      if c.pc = .read ∧ s.Idle sid then
        (s.server.step serde (.call k [c.session.userId] (.heartbeatAck seq))).map fun server =>
          { s with
            server
            taken := Function.update s.taken sid (s.taken sid + 1)
            answers := s.answers.insert sid k }
      else none
    | _, _ => none

/-- The call for a heartbeat looks the user up and finds no session but the one that sent it, and
ones whose receivers were dropped. -/
def FindsOwn (s : Heartbeats) : Action → Prop
  | .server (.get k) => ∀ sid ∈ s.answers.keys, s.answers.lookup sid = some k →
    ∀ c ∈ s.server.handlers.lookup sid, ∀ z ∈ s.server.registry.store.vec c.session.userId,
      z.sessionId = sid ∨ s.server.pipes.closed z.sessionId = true
  | _ => True

instance (s : Heartbeats) : (a : Action) → Decidable (s.FindsOwn a)
  | .server (.get k) => inferInstanceAs (Decidable (∀ sid ∈ s.answers.keys,
      s.answers.lookup sid = some k → ∀ c ∈ s.server.handlers.lookup sid,
        ∀ z ∈ s.server.registry.store.vec c.session.userId,
          z.sessionId = sid ∨ s.server.pipes.closed z.sessionId = true))
  | .server (.connect _ _ _) | .server (.handler _ _) | .server (.cleanup _ _)
  | .server (.reap _ _ _) | .server (.op _) | .server (.call _ _ _) | .server (.push _)
  | .server (.release _) | .beat _ _ | .answer _ _ => .isTrue trivial

/-! ## The invariant -/

/-- The channel has the acknowledgements of the first `n` heartbeats, or of fewer, and `p` holds. -/
def Acked (s : Heartbeats) (sid : SessionId) (n : ℕ) (p : Prop) : Prop :=
  acksOf (s.server.pipes.queue sid) = (s.sent sid).take n ∨
    (acksOf (s.server.pipes.queue sid) <+: (s.sent sid).take n ∧ p)

/-- Where the call for heartbeat `n` of a session is. -/
inductive Phase (s : Heartbeats) (sid : SessionId) (n : ℕ) (x : UserSend) : Prop
  /-- The user is not looked up. -/
  | asked (c : Handler) (hc : s.server.handlers.lookup sid = some c) (hpc : c.pc = .read)
      (htodo : x.todo = [c.session.userId]) (hguard : x.guard = none)
      (hacked : s.Acked sid n (s.server.Gone sid))
  /-- The session was found, and is to be sent to. -/
  | found (htodo : x.todo = []) (hown : sid ∈ x.left.map Session.sessionId)
      (hnodup : (x.left.map Session.sessionId).Nodup)
      (hothers : ∀ z ∈ x.left, z.sessionId = sid ∨ s.server.pipes.closed z.sessionId = true)
      (hacked : s.Acked sid n (s.server.pipes.closed sid = true))
  /-- The session was sent to, or is gone. -/
  | done (htodo : x.todo = [])
      (hothers : ∀ z ∈ x.left, z.sessionId ≠ sid ∧ s.server.pipes.closed z.sessionId = true)
      (hacked : s.Acked sid (n + 1) (s.server.Gone sid))

structure Inv (s : Heartbeats) : Prop where
  linked : s.server.Linked
  /-- No heartbeat was taken, and none acknowledged. -/
  silent : ∀ sid, s.answers.lookup sid = none →
    s.taken sid = 0 ∧ acksOf (s.server.pipes.queue sid) = []
  answer : ∀ sid k, s.answers.lookup sid = some k → ∃ x n seq,
    s.server.sends.lookup k = some x ∧ x.event = .heartbeatAck seq ∧
      (s.sent sid)[n]? = some seq ∧ s.taken sid = n + 1 ∧ s.Phase sid n x
  inj : ∀ sid sid' k, s.answers.lookup sid = some k → s.answers.lookup sid' = some k → sid = sid'
  /-- Every call that sends an acknowledgement has returned, or is the last of its session. -/
  acks : ∀ k x, s.server.sends.lookup k = some x → x.event.ackSeq ≠ none →
    x.Returned ∨ ∃ sid, s.answers.lookup sid = some k

variable {serde : Serde ServerEvent} {s s' : Heartbeats} {sid : SessionId} {n : ℕ}

theorem Acked.mono {p p' : Prop} (h : s.Acked sid n p) (hn : n ≤ (s.sent sid).length)
    (hacks : acksOf (s'.server.pipes.queue sid) = acksOf (s.server.pipes.queue sid))
    (hsent : s.sent sid <+: s'.sent sid) (hp : p → p') : s'.Acked sid n p' := by
  obtain ⟨rest, hrest⟩ := hsent
  have htake : (s'.sent sid).take n = (s.sent sid).take n := by
    rw [← hrest, List.take_append_of_le_length hn]
  rw [Acked, hacks, htake]
  exact h.imp_right (And.imp_right hp)

theorem Acked.succ {p p' : Prop} (h : s.Acked sid n p) (hp : p') : s.Acked sid (n + 1) p' := by
  have hle : acksOf (s.server.pipes.queue sid) <+: (s.sent sid).take n :=
    h.elim (fun heq => heq ▸ List.prefix_rfl) And.left
  exact .inr ⟨hle.trans (List.take_prefix_take_left (Nat.le_succ n)), hp⟩

theorem Acked.acks_sent {p : Prop} (h : s.Acked sid n p) :
    acksOf (s.server.pipes.queue sid) <+: s.sent sid := by
  have htake := List.take_prefix n (s.sent sid)
  rcases h with heq | ⟨hle, -⟩
  · rwa [heq]
  · exact hle.trans htake

/-- A step that is not about the session: it may be gone after it. -/
structure Frame (s s' : Heartbeats) (sid : SessionId) : Prop where
  acks : acksOf (s'.server.pipes.queue sid) = acksOf (s.server.pipes.queue sid)
  sent : s.sent sid <+: s'.sent sid
  gone : s.server.Gone sid → s'.server.Gone sid
  closed : ∀ sid, s.server.pipes.closed sid = true → s'.server.pipes.closed sid = true
  handler : ∀ c, ¬s.Idle sid → s.server.handlers.lookup sid = some c → c.pc = .read →
    ∃ c', s'.server.handlers.lookup sid = some c' ∧ c'.session = c.session ∧ c'.pc = .read

theorem Phase.mono {x : UserSend} (h : s.Phase sid n x) (hframe : s.Frame s' sid)
    (hn : n < (s.sent sid).length) (hidle : s.Idle sid → x.Returned) : s'.Phase sid n x := by
  cases h with
  | asked c hc hpc htodo hguard hacked =>
    have hbusy : ¬s.Idle sid := by
      intro h
      rw [(hidle h).1] at htodo
      cases htodo
    obtain ⟨c', hc', hsession, hpc'⟩ := hframe.handler c hbusy hc hpc
    exact .asked c' hc' hpc' (hsession ▸ htodo) hguard
      (hacked.mono hn.le hframe.acks hframe.sent hframe.gone)
  | found htodo hown hnodup hothers hacked =>
    exact .found htodo hown hnodup (fun z hz => (hothers z hz).imp_right (hframe.closed _))
      (hacked.mono hn.le hframe.acks hframe.sent (hframe.closed sid))
  | done htodo hothers hacked =>
    exact .done htodo (fun z hz => (hothers z hz).imp_right (hframe.closed _))
      (hacked.mono hn hframe.acks hframe.sent hframe.gone)

theorem Phase.of_todo {x : UserSend} (h : s.Phase sid n x) {u : UserId} {us : List UserId}
    (htodo : x.todo = u :: us) : ∃ c, s.server.handlers.lookup sid = some c ∧ c.pc = .read ∧
      u = c.session.userId ∧ us = [] ∧ s.Acked sid n (s.server.Gone sid) := by
  cases h with
  | asked c hc hpc htodo' hguard hacked =>
    obtain ⟨rfl, rfl⟩ := List.cons.inj (htodo.symm.trans htodo')
    exact ⟨c, hc, hpc, rfl, rfl, hacked⟩
  | found htodo' =>
    rw [htodo] at htodo'
    cases htodo'
  | done htodo' =>
    rw [htodo] at htodo'
    cases htodo'

theorem Phase.of_push {x : UserSend} (h : s.Phase sid n x) {u : UserId} {z : Session}
    {zs : List Session} (hguard : x.guard = some (u, z :: zs)) : x.todo = [] ∧
      ((z.sessionId = sid ∧ s.Acked sid n (s.server.pipes.closed sid = true) ∧
        ∀ y ∈ zs, y.sessionId ≠ sid ∧ s.server.pipes.closed y.sessionId = true) ∨
      (z.sessionId ≠ sid ∧ s.server.pipes.closed z.sessionId = true ∧
        ∀ x' : UserSend, x'.todo = [] → x'.left = zs → s.Phase sid n x')) := by
  have hleft : x.left = z :: zs := by simp [UserSend.left, hguard]
  cases h with
  | asked c hc hpc htodo hguard' =>
    rw [hguard] at hguard'
    cases hguard'
  | found htodo hown hnodup hothers hacked =>
    rw [hleft] at hown hnodup hothers
    rw [List.map_cons, List.nodup_cons] at hnodup
    obtain ⟨hfirst, hrest⟩ := List.forall_mem_cons.1 hothers
    refine ⟨htodo, ?_⟩
    by_cases hz : z.sessionId = sid
    · refine .inl ⟨hz, hacked, fun y hy => ?_⟩
      have hne : y.sessionId ≠ sid := fun heq =>
        hnodup.1 ((hz.trans heq.symm) ▸ List.mem_map_of_mem hy)
      exact ⟨hne, (hrest y hy).resolve_left hne⟩
    · refine .inr ⟨hz, hfirst.resolve_left hz, fun x' htodo' hzs => ?_⟩
      have hown' : sid ∈ zs.map Session.sessionId :=
        (List.mem_cons.1 hown).resolve_left fun heq => hz heq.symm
      exact .found htodo' (hzs ▸ hown') (hzs ▸ hnodup.2) (hzs ▸ hrest) hacked
  | done htodo hothers hacked =>
    rw [hleft] at hothers
    obtain ⟨⟨hz, hclosed⟩, hrest⟩ := List.forall_mem_cons.1 hothers
    exact ⟨htodo, .inr ⟨hz, hclosed, fun x' htodo' hzs => .done htodo' (hzs ▸ hrest) hacked⟩⟩

theorem Phase.of_nothing {x : UserSend} (h : s.Phase sid n x)
    (hnothing : x.Returned ∨ ∃ u, x.guard = some (u, [])) :
    x.todo = [] ∧ s.Acked sid (n + 1) (s.server.Gone sid) := by
  have hleft : x.left = [] := by
    rcases hnothing with hret | ⟨u, hguard⟩
    · simp [UserSend.left, hret.2]
    · simp [UserSend.left, hguard]
  cases h with
  | asked c hc hpc htodo hguard =>
    rcases hnothing with hret | ⟨u, hguard'⟩
    · rw [hret.1] at htodo
      cases htodo
    · rw [hguard] at hguard'
      cases hguard'
  | found htodo hown =>
    rw [hleft] at hown
    exact absurd hown List.not_mem_nil
  | done htodo hothers hacked => exact ⟨htodo, hacked⟩

/-- What the channel of a session has is what its client has asked for. -/
theorem Inv.acks_sent (h : s.Inv) (sid : SessionId) :
    acksOf (s.server.pipes.queue sid) <+: s.sent sid := by
  cases hlook : s.answers.lookup sid with
  | none =>
    rw [(h.silent sid hlook).2]
    exact List.nil_prefix
  | some k =>
    obtain ⟨x, n, seq, -, -, -, -, hphase⟩ := h.answer sid k hlook
    cases hphase with
    | asked c hc hpc htodo hguard hacked => exact hacked.acks_sent
    | found htodo hown hnodup hothers hacked => exact hacked.acks_sent
    | done htodo hothers hacked => exact hacked.acks_sent

theorem idle_iff {k : ℕ} {x : UserSend} (hk : s.answers.lookup sid = some k)
    (hx : s.server.sends.lookup k = some x) : s.Idle sid ↔ x.Returned := by
  constructor
  · exact fun h => h k hk x hx
  · intro hret j hj y hy
    obtain rfl := Option.some.inj (hk.symm.trans hj)
    obtain rfl := Option.some.inj (hx.symm.trans hy)
    exact hret

/-! ## One step -/

theorem inv_beat (h : s.Inv) (sid : SessionId) (seq : UInt64) :
    Inv { s with sent := Function.update s.sent sid (s.sent sid ++ [seq]) } := by
  have hsent (sid' : SessionId) :
      s.sent sid' <+: Function.update s.sent sid (s.sent sid ++ [seq]) sid' := by
    by_cases heq : sid' = sid
    · rw [heq, Function.update_self]
      exact List.prefix_append _ _
    · simp [heq]
  refine ⟨h.linked, h.silent, ?_, h.inj, h.acks⟩
  intro sid' k hk
  obtain ⟨x, n, seq', hx, hevent, hn, htaken, hphase⟩ := h.answer sid' k hk
  obtain ⟨hlt, -⟩ := List.getElem?_eq_some_iff.1 hn
  refine ⟨x, n, seq', hx, hevent, ?_, htaken, ?_⟩
  · exact List.getElem?_eq_some_iff.2 ⟨hlt.trans_le (hsent sid').length_le, by
      rw [← (hsent sid').getElem hlt]
      exact (List.getElem?_eq_some_iff.1 hn).2⟩
  · exact hphase.mono ⟨rfl, hsent sid', id, fun _ => id, fun c _ hc hpc => ⟨c, hc, rfl, hpc⟩⟩ hlt
      (idle_iff hk hx).1

theorem Inv.quiet (h : s.Inv) {server : Streaming} (hlinked : server.Linked)
    (hframe : ∀ sid, s.Frame { s with server } sid)
    (hsends : ∀ k x, x.event.ackSeq ≠ none →
      (server.sends.lookup k = some x ↔ s.server.sends.lookup k = some x)) :
    Inv { s with server } := by
  refine ⟨hlinked, ?_, ?_, h.inj, ?_⟩
  · intro sid hnone
    rw [(hframe sid).acks]
    exact h.silent sid hnone
  · intro sid k hk
    obtain ⟨x, n, seq, hx, hevent, hn, htaken, hphase⟩ := h.answer sid k hk
    obtain ⟨hlt, -⟩ := List.getElem?_eq_some_iff.1 hn
    have hack : x.event.ackSeq ≠ none := by simp [hevent, ServerEvent.ackSeq]
    exact ⟨x, n, seq, (hsends k x hack).2 hx, hevent, hn, htaken,
      hphase.mono (hframe sid) hlt (idle_iff (s := s) hk hx).1⟩
  · intro k x hx hack
    exact h.acks k x ((hsends k x hack).1 hx) hack

theorem frame_of_sends {server : Streaming} {k : ℕ} {x' : UserSend}
    (hsends : s.server.Sends server k x')
    (hacks : acksOf (server.pipes.queue sid) = acksOf (s.server.pipes.queue sid)) :
    s.Frame { s with server } sid := by
  refine ⟨hacks, List.prefix_rfl, ?_, ?_, ?_⟩
  · rw [Streaming.Gone, Streaming.Gone, hsends.registry, hsends.handlers, hsends.closed]
    exact id
  · rw [hsends.closed]
    exact fun _ => id
  · rw [hsends.handlers]
    exact fun c _ hc hpc => ⟨c, hc, rfl, hpc⟩

theorem Inv.other (h : s.Inv) {server : Streaming} {k : ℕ} {x' : UserSend}
    (hsends : s.server.Sends server k x') (hack : x'.event.ackSeq = none)
    (hold : ∀ x, s.server.sends.lookup k = some x → x.event.ackSeq = none)
    (hacks : ∀ sid, acksOf (server.pipes.queue sid) = acksOf (s.server.pipes.queue sid)) :
    Inv { s with server } := by
  refine h.quiet (h.linked.sends hsends) (fun sid => frame_of_sends hsends (hacks sid)) ?_
  intro j y hy
  rw [hsends.sends, DashMap.lookup_insert_ite]
  split_ifs with hjk
  · subst hjk
    constructor
    · intro heq
      exact absurd (Option.some.inj heq ▸ hack) hy
    · intro hlook
      exact absurd (hold y hlook) hy
  · exact Iff.rfl

theorem Inv.advance (h : s.Inv) {server : Streaming} {k : ℕ} {x x' : UserSend}
    (hk : s.answers.lookup sid = some k) (hx : s.server.sends.lookup k = some x)
    (hsends : s.server.Sends server k x') (hevent : x'.event = x.event)
    (hacks : ∀ sid', sid' ≠ sid →
      acksOf (server.pipes.queue sid') = acksOf (s.server.pipes.queue sid'))
    (hphase : ∀ n seq, x.event = .heartbeatAck seq → (s.sent sid)[n]? = some seq →
      s.Phase sid n x → Phase { s with server } sid n x') : Inv { s with server } := by
  have hlook (j : ℕ) :
      server.sends.lookup j = if j = k then some x' else s.server.sends.lookup j := by
    rw [hsends.sends, DashMap.lookup_insert_ite]
  refine ⟨h.linked.sends hsends, ?_, ?_, h.inj, ?_⟩
  · intro sid' hnone
    have hne : sid' ≠ sid := by
      rintro rfl
      rw [show s.answers.lookup sid' = none from hnone] at hk
      cases hk
    rw [hacks sid' hne]
    exact h.silent sid' hnone
  · intro sid' j hj
    obtain ⟨y, n, seq, hy, hack, hn, htaken, hold⟩ := h.answer sid' j hj
    obtain ⟨hlt, -⟩ := List.getElem?_eq_some_iff.1 hn
    by_cases hjk : j = k
    · subst hjk
      obtain rfl := h.inj sid' sid j hj hk
      obtain rfl := Option.some.inj (hx.symm.trans hy)
      refine ⟨x', n, seq, ?_, hevent.trans hack, hn, htaken, hphase n seq hack hn hold⟩
      rw [hlook, if_pos rfl]
    · have hne : sid' ≠ sid := by
        rintro rfl
        exact hjk (Option.some.inj (hj.symm.trans hk))
      refine ⟨y, n, seq, ?_, hack, hn, htaken, hold.mono (frame_of_sends hsends (hacks sid' hne))
        hlt (idle_iff (s := s) hj hy).1⟩
      rw [hlook, if_neg hjk, hy]
  · intro j y hy hack
    rw [hlook] at hy
    split_ifs at hy with hjk
    · exact .inr ⟨sid, hjk ▸ hk⟩
    · exact h.acks j y hy hack

/-- A call goes on: it sends something else, or it is the call for the last heartbeat of a
session. -/
theorem Inv.sends (h : s.Inv) {server : Streaming} {k : ℕ} {x x' : UserSend}
    (hx : s.server.sends.lookup k = some x) (hbusy : ¬x.Returned)
    (hsends : s.server.Sends server k x') (hevent : x'.event = x.event)
    (hother : x.event.ackSeq = none →
      ∀ sid, acksOf (server.pipes.queue sid) = acksOf (s.server.pipes.queue sid))
    (hacks : ∀ sid n seq, s.answers.lookup sid = some k → x.event = .heartbeatAck seq →
      (s.sent sid)[n]? = some seq → s.Phase sid n x →
      (∀ sid', sid' ≠ sid →
        acksOf (server.pipes.queue sid') = acksOf (s.server.pipes.queue sid')) ∧
      Phase { s with server } sid n x') : Inv { s with server } := by
  by_cases hack : x.event.ackSeq = none
  · refine h.other hsends (hevent ▸ hack) ?_ (hother hack)
    intro y hy
    rwa [← Option.some.inj (hx.symm.trans hy)]
  · obtain ⟨sid, hk⟩ := (h.acks k x hx hack).resolve_left hbusy
    obtain ⟨y, n, seq, hy, hevent', hn, -, hphase⟩ := h.answer sid k hk
    obtain rfl := Option.some.inj (hx.symm.trans hy)
    exact h.advance hk hx hsends hevent (hacks sid n seq hk hevent' hn hphase).1
      fun n seq hevent' hn hphase => (hacks sid n seq hk hevent' hn hphase).2

theorem gone_of_not_mem (h : s.Inv) {c : Handler} (hc : s.server.handlers.lookup sid = some c)
    (hpc : c.pc = .read) (hvec : c.session ∉ s.server.registry.store.vec c.session.userId) :
    s.server.Gone sid := by
  refine .inr ⟨c, hc, (h.linked.session sid c hc).2, hvec, ?_⟩
  intro t ht
  have hinsert := h.linked.inserting sid c t hc ht
  rw [hpc] at hinsert
  cases hinsert

theorem closed_of_gone {c : Handler} (hc : s.server.handlers.lookup sid = some c)
    (hvec : c.session ∈ s.server.registry.store.vec c.session.userId)
    (hgone : s.server.Gone sid) : s.server.pipes.closed sid = true := by
  rcases hgone with hclosed | ⟨d, hd, -, hvec', -⟩
  · exact hclosed
  · obtain rfl := Option.some.inj (hc.symm.trans hd)
    exact absurd hvec hvec'

theorem inv_get (h : s.Inv) {k : ℕ} {server : Streaming} (hown : s.FindsOwn (.server (.get k)))
    (hstep : s.server.step serde (.get k) = some server) : Inv { s with server } := by
  obtain ⟨x, u, todo, hx, hguard, htodo, hserver⟩ := Streaming.step_get hstep
  obtain ⟨hsends, hqueue⟩ := Streaming.setSend_sends hserver
  have hbusy : ¬x.Returned := by
    intro hret
    rw [hret.1] at htodo
    cases htodo
  refine h.sends hx hbusy hsends rfl (fun _ sid => by rw [hqueue]) ?_
  intro sid n seq hk hevent hn hphase
  refine ⟨fun sid' _ => by rw [hqueue], ?_⟩
  have hframe : s.Frame { s with server } sid := frame_of_sends hsends (by rw [hqueue])
  obtain ⟨hlt, -⟩ := List.getElem?_eq_some_iff.1 hn
  obtain ⟨c, hc, hpc, rfl, rfl, hacked⟩ := hphase.of_todo htodo
  have hown := hown sid (DashMap.mem_keys_iff.2 ⟨k, hk⟩) hk c hc
  have hleft : ((s.server.registry.store.sessions.lookup c.session.userId).map
      fun sessions => (c.session.userId, sessions)).elim [] Prod.snd =
      s.server.registry.store.vec c.session.userId := by
    rw [SessionStore.vec]
    cases s.server.registry.store.sessions.lookup c.session.userId <;> rfl
  obtain ⟨hid, hins⟩ := h.linked.session sid c hc
  by_cases hvec : c.session ∈ s.server.registry.store.vec c.session.userId
  · refine .found rfl ?_ ?_ ?_ (hacked.mono hlt.le hframe.acks hframe.sent fun hgone =>
      hframe.closed sid (closed_of_gone (s := s) hc hvec hgone))
    · rw [UserSend.left, hleft, ← hid]
      exact List.mem_map_of_mem hvec
    · rw [UserSend.left, hleft]
      exact h.linked.registry.ids_nodup c.session.userId
    · rw [UserSend.left, hleft]
      exact fun z hz => (hown z hz).imp_right (hframe.closed _)
  · -- The session has left the map.
    have hgone := gone_of_not_mem h hc hpc hvec
    refine .done rfl ?_ ((hacked.succ hgone).mono hlt hframe.acks hframe.sent hframe.gone)
    rw [UserSend.left, hleft]
    intro z hz
    have hne : z.sessionId ≠ sid := by
      intro heq
      rw [h.linked.registry.eq_of_sessionId (h.linked.registry.inserted_of_mem hz) hins
        (heq.trans hid.symm)] at hz
      exact hvec hz
    exact ⟨hne, hframe.closed _ ((hown z hz).resolve_left hne)⟩

theorem inv_push (h : s.Inv) {k : ℕ} {server : Streaming}
    (hstep : s.server.step serde (.push k) = some server) : Inv { s with server } := by
  obtain ⟨x, u, z, zs, ok, hx, hguard, hsends, hqueue⟩ := Streaming.push_sends hstep
  have hbusy : ¬x.Returned := by
    intro hret
    rw [hret.2] at hguard
    cases hguard
  have hother (sid : SessionId) (hne : sid ≠ z.sessionId) :
      server.pipes.queue sid = s.server.pipes.queue sid := by
    split_ifs at hqueue
    · rw [hqueue]
    · rw [hqueue, Function.update_of_ne hne]
  refine h.sends hx hbusy hsends rfl ?_ ?_
  · intro hack sid
    by_cases hsid : sid = z.sessionId
    · subst hsid
      split_ifs at hqueue
      · rw [hqueue]
      · rw [hqueue, Function.update_self, acksOf_append]
        simp [acksOf, hack]
    · rw [hother sid hsid]
  · intro sid n seq hk hevent hn hphase
    obtain ⟨hlt, -⟩ := List.getElem?_eq_some_iff.1 hn
    obtain ⟨htodo, ⟨rfl, hacked, hrest⟩ | ⟨hne, hclosed, hnext⟩⟩ := hphase.of_push hguard
    · refine ⟨fun sid' hne => by rw [hother sid' hne], .done htodo ?_ ?_⟩
      · rw [hsends.closed]
        exact hrest
      split_ifs at hqueue with hclosed
      · -- Nobody receives it.
        have hframe : s.Frame { s with server } z.sessionId :=
          frame_of_sends hsends (by rw [hqueue])
        have hgone : s.server.Gone z.sessionId := .inl hclosed
        exact (hacked.succ hgone).mono hlt hframe.acks hframe.sent hframe.gone
      · have hold : acksOf (s.server.pipes.queue z.sessionId) = (s.sent z.sessionId).take n :=
          hacked.resolve_right fun h => hclosed h.2
        refine .inl ?_
        change acksOf (server.pipes.queue z.sessionId) = (s.sent z.sessionId).take (n + 1)
        rw [hqueue, Function.update_self, acksOf_append, hold, List.take_add_one, hn, hevent]
        rfl
    · rw [if_pos hclosed] at hqueue
      have hframe : s.Frame { s with server } sid := frame_of_sends hsends (by rw [hqueue])
      have hnext := hnext { x with
        guard := some (u, zs), reached := x.reached ++ [(z.sessionId, ok)] } htodo rfl
      refine ⟨fun sid' _ => by rw [hqueue], hnext.mono hframe hlt ?_⟩
      exact fun hidle => absurd ((idle_iff hk hx).1 hidle) hbusy

theorem inv_release (h : s.Inv) {k : ℕ} {server : Streaming}
    (hstep : s.server.step serde (.release k) = some server) : Inv { s with server } := by
  obtain ⟨x, u, hx, hguard, hserver⟩ := Streaming.step_release hstep
  obtain ⟨hsends, hqueue⟩ := Streaming.setSend_sends hserver
  have hbusy : ¬x.Returned := by
    intro hret
    rw [hret.2] at hguard
    cases hguard
  refine h.sends hx hbusy hsends rfl (fun _ sid => by rw [hqueue]) ?_
  intro sid n seq _ hevent hn hphase
  have hframe : s.Frame { s with server } sid := frame_of_sends hsends (by rw [hqueue])
  obtain ⟨hlt, -⟩ := List.getElem?_eq_some_iff.1 hn
  obtain ⟨htodo, hacked⟩ := hphase.of_nothing (.inr ⟨u, hguard⟩)
  exact ⟨fun sid' _ => by rw [hqueue],
    .done htodo (fun _ hz => absurd hz List.not_mem_nil)
      (hacked.mono hlt hframe.acks hframe.sent hframe.gone)⟩

theorem inv_call (h : s.Inv) {k : ℕ} {userIds : List UserId} {event : ServerEvent}
    {server : Streaming} (hack : event.ackSeq = none)
    (hstep : s.server.step serde (.call k userIds event) = some server) :
    Inv { s with server } := by
  obtain ⟨hnone, hserver⟩ := Streaming.step_call hstep
  obtain ⟨hsends, hqueue⟩ := Streaming.setSend_sends hserver
  refine h.other hsends hack ?_ fun sid => by rw [hqueue]
  intro x hx
  rw [show s.server.sends.lookup k = none from hnone] at hx
  cases hx

theorem inv_background (h : s.Inv) {a : Streaming.Action} {server : Streaming}
    (ha : a.sending = false) (hallows : s.Allows a = true)
    (hstep : s.server.step serde a = some server) : Inv { s with server } := by
  obtain ⟨hsends, hqueue⟩ := Streaming.step_background ha hstep
  refine h.quiet (Streaming.step_linked h.linked hstep) ?_ fun k x _ => by rw [hsends]
  intro sid
  refine ⟨by rw [hqueue], List.prefix_rfl, Streaming.step_gone h.linked hstep,
    fun _ => Streaming.step_closed h.linked hstep, ?_⟩
  intro c hbusy hc hpc
  obtain ⟨c', hc', hsession, -, hread, -⟩ := Streaming.step_handler h.linked hstep hc
  refine ⟨c', hc', hsession, hread hpc ?_⟩
  rintro rfl
  exact hbusy (of_decide_eq_true hallows)

/-- Between two messages, all heartbeats taken are acknowledged, or the session is gone. -/
theorem Inv.acked_of_idle (h : s.Inv) (hidle : s.Idle sid) :
    s.Acked sid (s.taken sid) (s.server.Gone sid) := by
  cases hk : s.answers.lookup sid with
  | none =>
    obtain ⟨htaken, hacks⟩ := h.silent sid hk
    exact .inl (by rw [hacks, htaken, List.take_zero])
  | some k =>
    obtain ⟨x, n, seq, hx, -, -, htaken, hphase⟩ := h.answer sid k hk
    rw [htaken]
    exact (hphase.of_nothing (.inl (hidle k hk x hx))).2

/-- The call for the last heartbeat has returned, and the next one is called. -/
theorem inv_answer (h : s.Inv) {k : ℕ} {c : Handler} {seq : UInt64} {server : Streaming}
    (hc : s.server.handlers.lookup sid = some c) (hpc : c.pc = .read)
    (hseq : (s.sent sid)[s.taken sid]? = some seq) (hidle : s.Idle sid)
    (hstep : s.server.step serde (.call k [c.session.userId] (.heartbeatAck seq)) = some server) :
    Inv { s with
      server
      taken := Function.update s.taken sid (s.taken sid + 1)
      answers := s.answers.insert sid k } := by
  obtain ⟨hnone, hserver⟩ := Streaming.step_call hstep
  obtain ⟨hsends, hqueue⟩ := Streaming.setSend_sends hserver
  have hfresh (sid' : SessionId) : s.answers.lookup sid' ≠ some k := by
    intro hk
    obtain ⟨x, n, seq', hx, -⟩ := h.answer sid' k hk
    rw [show s.server.sends.lookup k = none from hnone] at hx
    cases hx
  have hacked := h.acked_of_idle hidle
  have hlook (j : ℕ) : server.sends.lookup j =
      if j = k then some ⟨.heartbeatAck seq, [c.session.userId], [c.session.userId], none, [], []⟩
      else s.server.sends.lookup j := by
    rw [hsends.sends, DashMap.lookup_insert_ite]
  refine ⟨h.linked.sends hsends, ?_, ?_, ?_, ?_⟩
  · intro sid' hnone'
    rw [DashMap.lookup_insert_ite] at hnone'
    split_ifs at hnone' with heq
    dsimp only
    rw [Function.update_of_ne heq, hqueue]
    exact h.silent sid' hnone'
  · intro sid' j hj
    rw [DashMap.lookup_insert_ite] at hj
    split_ifs at hj with heq
    · subst heq
      obtain rfl := Option.some.inj hj
      refine ⟨_, s.taken sid', seq, (hlook k).trans (if_pos rfl), rfl, hseq,
        Function.update_self .., .asked c ?_ hpc rfl rfl ?_⟩
      · rw [show server.handlers = _ from hsends.handlers, hc]
      · have hframe : s.Frame { s with server } sid' := frame_of_sends hsends (by rw [hqueue])
        exact hacked.mono (List.getElem?_eq_some_iff.1 hseq).1.le hframe.acks hframe.sent
          hframe.gone
    · obtain ⟨x, n, seq', hx, hevent, hn, htaken, hphase⟩ := h.answer sid' j hj
      have hjk : j ≠ k := fun h => hfresh sid' (h ▸ hj)
      have hframe : s.Frame { s with server } sid' := frame_of_sends hsends (by rw [hqueue])
      refine ⟨x, n, seq', ?_, hevent, hn, (Function.update_of_ne heq ..).trans htaken,
        hphase.mono ⟨hframe.acks, hframe.sent, hframe.gone, hframe.closed, hframe.handler⟩
          (List.getElem?_eq_some_iff.1 hn).1 (idle_iff (s := s) hj hx).1⟩
      rw [hlook, if_neg hjk, hx]
  · intro sid' sid'' j hj hj'
    rw [DashMap.lookup_insert_ite] at hj hj'
    split_ifs at hj hj' with heq heq' heq'
    · rw [heq, heq']
    · exact absurd (hj'.trans hj.symm) (hfresh sid'')
    · exact absurd (hj.trans hj'.symm) (hfresh sid')
    · exact h.inj sid' sid'' j hj hj'
  · intro j x hx hack
    rw [hlook] at hx
    split_ifs at hx with hjk
    · exact .inr ⟨sid, by rw [hjk, DashMap.lookup_insert_ite, if_pos rfl]⟩
    · rcases h.acks j x hx hack with hret | ⟨sid', hj⟩
      · exact .inl hret
      · by_cases heq : sid' = sid
        · subst heq
          exact .inl (hidle j hj x hx)
        · exact .inr ⟨sid', by rw [DashMap.lookup_insert_ite, if_neg heq, hj]⟩

theorem step_cases {a : Action} (hstep : s.step serde a = some s') :
    (∃ b server, a = .server b ∧ s.Allows b = true ∧ s.server.step serde b = some server ∧
      s' = { s with server }) ∨
    (∃ sid seq, s' = { s with sent := Function.update s.sent sid (s.sent sid ++ [seq]) }) ∨
    (∃ k sid c seq server, s.server.handlers.lookup sid = some c ∧ c.pc = .read ∧
      (s.sent sid)[s.taken sid]? = some seq ∧ s.Idle sid ∧
      s.server.step serde (.call k [c.session.userId] (.heartbeatAck seq)) = some server ∧
      s' = { s with
        server
        taken := Function.update s.taken sid (s.taken sid + 1)
        answers := s.answers.insert sid k }) := by
  cases a with
  | server b =>
    simp only [step] at hstep
    split_ifs at hstep with hallows
    obtain ⟨server, hserver, rfl⟩ := Option.map_eq_some_iff.1 hstep
    exact .inl ⟨b, server, rfl, hallows, hserver, rfl⟩
  | beat sid seq => exact .inr (.inl ⟨sid, seq, (Option.some.inj hstep).symm⟩)
  | answer k sid =>
    simp only [step] at hstep
    split at hstep
    · next c seq hc hseq =>
      split_ifs at hstep with hready
      obtain ⟨server, hserver, rfl⟩ := Option.map_eq_some_iff.1 hstep
      exact .inr (.inr ⟨k, sid, c, seq, server, hc, hready.1, hseq, hready.2, hserver, rfl⟩)
    · cases hstep

/-- **Every step that finds nobody else keeps the invariant.** -/
theorem step_inv {a : Action} (h : s.Inv) (hown : s.FindsOwn a)
    (hstep : s.step serde a = some s') : s'.Inv := by
  obtain ⟨b, server, rfl, hallows, hserver, rfl⟩ | ⟨sid, seq, rfl⟩ |
    ⟨k, sid, c, seq, server, hc, hpc, hseq, hidle, hserver, rfl⟩ := step_cases hstep
  · cases b with
    | call k userIds event =>
      exact inv_call h (Option.isNone_iff_eq_none.1 hallows) hserver
    | get k => exact inv_get h hown hserver
    | push k => exact inv_push h hserver
    | release k => exact inv_release h hserver
    | connect | handler | cleanup | reap | op => exact inv_background h rfl hallows hserver
  · exact inv_beat h sid seq
  · exact inv_answer h hc hpc hseq hidle hserver

theorem init_inv : init.Inv where
  linked := {
    registry := Registry.inv_init
    session := fun _ _ hc => absurd hc nofun
    inserting := fun _ _ _ hc => absurd hc nofun
    writer := fun _ _ hc => absurd hc nofun
    closed := fun _ hclosed => absurd hclosed nofun }
  silent _ _ := ⟨rfl, rfl⟩
  answer _ _ hk := absurd hk nofun
  inj _ _ _ hk := absurd hk nofun
  acks _ _ hx := absurd hx nofun

/-! ## Runs -/

theorem step_streams {text : ServerEvent → String} (hser : ∀ e, serde.toString e = .ok (text e))
    {a : Action} (h : s.server.Inv text) (hstep : s.step serde a = some s') :
    s'.server.Inv text := by
  obtain ⟨b, server, rfl, -, hserver, rfl⟩ | ⟨sid, seq, rfl⟩ |
    ⟨k, sid, c, seq, server, -, -, -, -, hserver, rfl⟩ := step_cases hstep
  · exact Streaming.step_inv hser h hserver
  · exact h
  · exact Streaming.step_inv hser h hserver

/-- **A client gets the acknowledgements of its own heartbeats**, in its channel and on its
socket, if the calls for heartbeats find no other session. -/
theorem acks_answer_own {text : ServerEvent → String}
    (hser : ∀ e, serde.toString e = .ok (text e)) {as : List Action}
    (hown : Along (step serde) FindsOwn init as) (hrun : exec (step serde) init as = some s) :
    (∀ sid, acksOf (s.server.pipes.queue sid) <+: s.sent sid) ∧
      ∀ sid c, s.server.handlers.lookup sid = some c → c.written = [] ∨ ∃ w events,
        acksOf events <+: s.sent sid ∧ c.written =
          text (buildReadyPayload w c.session.userId c.username sid) :: events.map text := by
  have hinv : s.Inv :=
    exec_invariant_along (fun _ _ _ h hok hs => step_inv h hok hs) init_inv hown hrun
  have hstreams : s.server.Inv text := exec_invariant (I := fun s => s.server.Inv text)
    (fun _ _ _ h hs => step_streams hser h hs) Streaming.init_inv hrun
  refine ⟨hinv.acks_sent, ?_⟩
  intro sid c hc
  obtain ⟨rfl, hwritten⟩ := hstreams.handlers sid c hc
  apply hwritten.frames.imp_right
  intro hwrote
  obtain ⟨n, w, hw⟩ := hwrote
  exact ⟨w, _, (acksOf_mono (List.take_prefix n _)).trans (hinv.acks_sent _), hw⟩

/-- A client connects, as call `t`. -/
def opens (t : ℕ) (session : Session) : List Action :=
  let sid := session.sessionId
  [.server (.connect t session "ann"), .server (.op t), .server (.op t),
    .server (.handler sid .inserted), .server (.handler sid .presence),
    .server (.handler sid (.ready ⟨.ok [], .ok [], 30000⟩ .ok))]

/-- One client sends a heartbeat, and reads the answer. -/
def oneDevice : List Action :=
  opens 0 ⟨1, 7⟩ ++ [.beat 1 1, .answer 0 1, .server (.get 0), .server (.push 0),
    .server (.release 0), .server (.handler 1 .recv), .server (.handler 1 (.send .ok))]

theorem acks_answer_own_oneDevice :
    ∃ s, exec (step Streaming.ackSerde) init oneDevice = some s ∧
      acksOf (s.server.pipes.queue 1) = [1] ∧ acksOf (s.server.pipes.queue 1) <+: s.sent 1 := by
  have hrun : (exec (step Streaming.ackSerde) init oneDevice).map
      (fun s => acksOf (s.server.pipes.queue 1)) = some [1] := by
    decide +kernel
  obtain ⟨s, hs, hacks⟩ := Option.map_eq_some_iff.1 hrun
  have hown : Along (step Streaming.ackSerde) FindsOwn init oneDevice := by decide +kernel
  exact ⟨s, hs, hacks, (acks_answer_own (fun _ => rfl) hown hs).1 1⟩

/-- The frames of two sessions of one user. -/
def deviceText : ServerEvent → String
  | .ready sid _ _ _ _ => "\x7b\"t\":\"READY\",\"d\":\x7b" ++
    "\"session_id\":\"00000000-0000-0000-0000-00000000000" ++ (if sid = 1 then "1" else "2") ++
    "\"," ++
    "\"user\":\x7b\"id\":\"00000000-0000-0000-0000-000000000007\",\"username\":\"ann\"\x7d," ++
    "\"guilds\":[],\"read_states\":[],\"heartbeat_interval_ms\":30000\x7d\x7d"
  | e => Streaming.ackText e

def deviceSerde : Serde ServerEvent where
  toString e := .ok (deviceText e)
  fromStr := Streaming.ackSerde.fromStr

/-- The user's phone, session 1, sends a heartbeat, and the desktop, session 2, reads on. -/
def twoDevices : List Action :=
  opens 0 ⟨1, 7⟩ ++ opens 1 ⟨2, 7⟩ ++ [.beat 1 1, .answer 0 1, .server (.get 0),
    .server (.push 0), .server (.push 0), .server (.release 0), .server (.handler 2 .recv),
    .server (.handler 2 (.send .ok))]

/-- **The desktop, which has sent no heartbeat, is told that its heartbeat was received.** -/
theorem foreign_ack : ∃ s, exec (step deviceSerde) init twoDevices = some s ∧
    (s.server.handlers.lookup 2).map Handler.written =
      some [deviceText (.ready 2 ⟨7, "ann"⟩ [] [] 30000), deviceText (.heartbeatAck 1)] ∧
    acksOf (s.server.pipes.queue 2) = [1] ∧ s.sent 2 = [] ∧
    ¬acksOf (s.server.pipes.queue 2) <+: s.sent 2 := by
  have hrun : (exec (step deviceSerde) init twoDevices).map (fun s =>
      ((s.server.handlers.lookup 2).map Handler.written, acksOf (s.server.pipes.queue 2),
        s.sent 2)) =
      some (some [deviceText (.ready 2 ⟨7, "ann"⟩ [] [] 30000), deviceText (.heartbeatAck 1)],
        [1], []) := by
    decide +kernel
  obtain ⟨s, hs, heq⟩ := Option.map_eq_some_iff.1 hrun
  obtain ⟨hwritten, hacks⟩ := Prod.mk.inj heq
  obtain ⟨hacks, hsent⟩ := Prod.mk.inj hacks
  refine ⟨s, hs, hwritten, hacks, hsent, ?_⟩
  rw [hacks, hsent]
  decide

end Heartbeats

end RustRelay
