import RustRelay.Presence.Pipeline

/-!
# What the observers of a presence are told

**Theorem (`presence_moves`).** Let the calls about a user be on one node, and take a session that
stays registered on any node, and that the flushes of the user's updates can reach. Of the updates
on the way to it and those enqueued since, it has received some, in order; these and those that are
still on the way end with the last one.

**Theorem (`presence_converges`).** If moreover no update was enqueued late, then once no update of
the user is outstanding, what the session received last about the user is the user's status, unless
there was nothing to tell.

All stages are parts of one `Line`: a step moves the line (`step_moves`), and moves compose.
-/

namespace RustRelay

open Machine Coalesce

/-! ## The flush of one update -/

section
variable {presence : Serde PresencePayload} {host : PresenceHost} {db : Database}
  {update : PendingUpdate} {w : FlushAnswers} {u v : UserId} {x : Session} {keys : PresenceKeys}

theorem flushUpdate_pipes (presence : Serde PresencePayload) (db : Database) (keys : PresenceKeys)
    (update : PendingUpdate) (w : FlushAnswers) :
    (host.flushUpdate presence db ⟨host.pipes, keys, []⟩ update w).pipes =
      if w.colocated = .ok () then (host.sessions.sendToUsers host.pipes
        (getColocatedUserIds db update.userId) update.event).2
      else host.pipes := by
  unfold PresenceHost.flushUpdate
  cases w.colocated with
  | error e => rfl
  | ok => rfl

theorem flushUpdate_published (presence : Serde PresencePayload) (db : Database)
    (keys : PresenceKeys) (update : PendingUpdate) (w : FlushAnswers) :
    (host.flushUpdate presence db ⟨host.pipes, keys, []⟩ update w).published =
      if w.colocated = .ok () then PresenceHost.publication presence host (update, w) else [] := by
  unfold PresenceHost.flushUpdate
  cases w.colocated with
  | error e => rfl
  | ok => rfl

theorem told_published (hround : presence.RoundTrip) {message : RedisMessage}
    (hmem : message ∈ (host.flushUpdate presence db ⟨host.pipes, keys, []⟩ update w).published)
    (myNodeId : String) (u : UserId) :
    message.channel = "rustrelay:presence" ∧ told presence myNodeId u message =
      if host.bridge.nodeId = myNodeId then none
      else if update.userId = u then some update.status else none := by
  rw [flushUpdate_published] at hmem
  split_ifs at hmem
  · simp only [PresenceHost.publication, RedisBridge.publishPresence] at hmem
    split_ifs at hmem
    · exact absurd hmem List.not_mem_nil
    · split at hmem
      · next raw _ hraw _ =>
        obtain rfl := List.mem_singleton.1 hmem
        refine ⟨rfl, ?_⟩
        simp only [told, hround _ _ hraw]
      · exact absurd hmem List.not_mem_nil
  · exact absurd hmem List.not_mem_nil

theorem received_flushUpdate (hfiled : host.sessions.Filed) (hx : x ∈ host.sessions.vec v)
    (hopen : host.pipes.closed x.sessionId = false) :
    ((host.flushUpdate presence db ⟨host.pipes, keys, []⟩ update w).pipes.queue
        x.sessionId).filterMap (ServerEvent.statusOf u) =
      (host.pipes.queue x.sessionId).filterMap (ServerEvent.statusOf u) ++
        if w.colocated = .ok () ∧ update.userId = u ∧ v ∈ getColocatedUserIds db update.userId then
          [update.status] else [] := by
  have hnodup : (getColocatedUserIds db update.userId).Nodup := List.nodup_dedup _
  rw [flushUpdate_pipes]
  generalize getColocatedUserIds db update.userId = targets at hnodup ⊢
  by_cases hok : w.colocated = .ok ()
  · rw [if_pos hok, hfiled.sendToUsers_queue hx hopen hnodup, List.filterMap_append]
    by_cases hv : v ∈ targets <;> by_cases hu : update.userId = u <;>
      simp [hok, hv, hu, PendingUpdate.event, ServerEvent.statusOf]
  · simp [hok]

theorem heard_flush (hround : presence.RoundTrip) {nd nd' : PresencePath} {f : Flushed}
    (hf : f = host.flushUpdate presence db ⟨host.pipes, keys, []⟩ update w)
    (hbridge : nd'.host.bridge = nd.host.bridge)
    (hinbox : nd'.inbox = if nd.listening then nd.inbox ++ f.published else nd.inbox)
    (hquiet : update.userId ≠ u ∨ host.bridge.nodeId = nd.host.bridge.nodeId) :
    nd'.heard presence u = nd.heard presence u := by
  have hnil : f.published.filterMap (told presence nd.host.bridge.nodeId u) = [] := by
    rw [List.filterMap_eq_nil_iff]
    intro m hm
    rw [(told_published hround (hf ▸ hm) _ u).2]
    rcases hquiet with hne | hown
    · rw [if_neg hne, ite_self]
    · exact if_pos hown
  rw [PresencePath.heard, PresencePath.heard, hbridge, hinbox]
  split_ifs
  · rw [List.filterMap_append, hnil, List.append_nil]
  · rfl

theorem heard_flush_other (hround : presence.RoundTrip) {nd nd' : PresencePath} {f : Flushed}
    (hf : f = host.flushUpdate presence db ⟨host.pipes, keys, []⟩ update w)
    (hbridge : nd'.host.bridge = nd.host.bridge)
    (hinbox : nd'.inbox = if nd.listening then nd.inbox ++ f.published else nd.inbox)
    (hlistening : nd.listening = true) (hne : host.bridge.nodeId ≠ nd.host.bridge.nodeId)
    (hu : update.userId = u) (hok : w.colocated = .ok ()) (henabled : host.bridge.disabled = false)
    (hpublishes : PresenceHost.Publishes presence host (update, w)) :
    nd'.heard presence u = nd.heard presence u ++ [update.status] := by
  obtain ⟨raw, hraw, hpublication⟩ := PresenceHost.publication_eq henabled hpublishes
  have htold : told presence nd.host.bridge.nodeId u ⟨"rustrelay:presence", some raw⟩ =
      some update.status := by
    simp only [told, hround _ _ hraw]
    rw [if_neg hne, if_pos hu]
  rw [PresencePath.heard, PresencePath.heard, hbridge, hinbox, if_pos hlistening, hf,
    flushUpdate_published, if_pos hok, hpublication, List.filterMap_append,
    List.filterMap_cons_some htold, List.filterMap_nil]

theorem closed_flushUpdate : (host.flushUpdate presence db ⟨host.pipes, keys, []⟩ update
    w).pipes.closed = host.pipes.closed := by
  rw [flushUpdate_pipes]
  split_ifs
  · exact SessionStore.sendToUsers_closed _ _ _ _
  · rfl

end

/-! ## The invariant -/

namespace PresenceNet

variable {ι : Type} [DecidableEq ι]

structure Inv (bridges : ι → RedisBridge) (s : PresenceNet ι) : Prop where
  bridge : ∀ b, (s.nodes b).host.bridge = bridges b
  filed : ∀ b, (s.nodes b).host.sessions.Filed
  inbox : ∀ b, ∀ m ∈ (s.nodes b).inbox, m.channel = "rustrelay:presence"

/-- Whatever is on the way about the user comes from node `a`. -/
structure Home (presence : Serde PresencePayload) (u : UserId) (a : ι) (s : PresenceNet ι) :
    Prop where
  outgoing : ∀ c, c ≠ a → ∀ n p, (s.nodes c).publishing.outgoing.lookup n = some p → p.1 ≠ u
  ahead : ∀ c, c ≠ a → (s.nodes c).ahead u = []
  heard : (s.nodes a).heard presence u = []

/-- The calls about the user are on node `a`. -/
def CallsAt (u : UserId) (a : ι) : NetAction ι → Prop
  | .node c (.track (.call call)) => call.userId = u → c = a
  | _ => True

/-- The step leaves the session registered on node `b`, and if it flushes an update of the user, the
lookup finds the user of the session, or Redis takes the message. -/
def Reaches (presence : Serde PresencePayload) (u : UserId) (b : ι) (v : UserId) (x : Session)
    (remote : Prop) (s : PresenceNet ι) : NetAction ι → Prop
  | .node c e => c = b → (s.nodes b).Keeps v x remote e
  | .flush c db w => ∀ update ∈ (s.nodes c).flushing.head?, update.userId = u →
      w.colocated = .ok () ∧ (c = b → v ∈ getColocatedUserIds db u) ∧
        (c ≠ b → (s.nodes c).host.bridge.disabled = false ∧
          PresenceHost.Publishes presence (s.nodes c).host (update, w))

instance (presence : Serde PresencePayload) (host : PresenceHost)
    (p : PendingUpdate × FlushAnswers) : Decidable (PresenceHost.Publishes presence host p) :=
  match h : presence.toString ⟨host.bridge.nodeId, p.1.userId, p.1.status⟩ with
  | .error _ => .isFalse fun hp => by
    obtain ⟨-, raw, hraw⟩ := hp
    cases h.symm.trans hraw
  | .ok raw => decidable_of_iff (p.2.publish = .ok ()) ⟨fun hp => ⟨hp, raw, h⟩, And.left⟩

instance (u : UserId) (a : ι) : (e : NetAction ι) → Decidable (CallsAt u a e)
  | .node c (.track (.call call)) => inferInstanceAs (Decidable (call.userId = u → c = a))
  | .node _ (.track (.publish _)) | .node _ .recv | .node _ .tick | .node _ .handle
  | .node _ .stop | .node _ (.sessions _) | .node _ (.hangUp _) | .node _ (.send _ _)
  | .flush _ _ _ => .isTrue trivial

instance (presence : Serde PresencePayload) (u : UserId) (b : ι) (v : UserId) (x : Session)
    (remote : Prop) [Decidable remote] (s : PresenceNet ι) :
    (e : NetAction ι) → Decidable (Reaches presence u b v x remote s e)
  | .node c e => inferInstanceAs (Decidable (c = b → (s.nodes b).Keeps v x remote e))
  | .flush c db w => inferInstanceAs (Decidable (∀ update ∈ (s.nodes c).flushing.head?,
      update.userId = u → w.colocated = .ok () ∧ (c = b → v ∈ getColocatedUserIds db u) ∧
        (c ≠ b → (s.nodes c).host.bridge.disabled = false ∧
          PresenceHost.Publishes presence (s.nodes c).host (update, w))))

/-- What comes from node `a` about the user to a session on node `b`. -/
def line (presence : Serde PresencePayload) (u : UserId) (a b : ι) (sid : SessionId)
    (s : PresenceNet ι) : Line PresenceStatus where
  sent := (s.nodes a).announced u
  way := (s.nodes b).heard presence u ++ (s.nodes a).ahead u
  got := (s.nodes b).received sid u

variable {json : Json} {presence : Serde PresencePayload} {bridges : ι → RedisBridge}
  {s t : PresenceNet ι} {a b c : ι} {u v : UserId} {x : Session}

/-- What a step does: a node on its own, or the worker of a node with the next update. -/
theorem step_cases {e : NetAction ι} (h : s.step json presence e = some t) :
    (∃ c e' nd, e = .node c e' ∧ (s.nodes c).step json presence e' = some nd ∧
      t = { s with nodes := Function.update s.nodes c nd }) ∨
    ∃ c db w update flushing f, e = .flush c db w ∧ (s.nodes c).flushing = update :: flushing ∧
      f = (s.nodes c).host.flushUpdate presence db ⟨(s.nodes c).host.pipes, s.keys, []⟩ update w ∧
      t.nodes = fun b => (Function.update s.nodes c ((s.nodes c).advance flushing f.pipes)
        b).deliver f.published := by
  cases e with
  | node c e' =>
    obtain ⟨nd, hnd, rfl⟩ := Option.map_eq_some_iff.1 h
    exact .inl ⟨c, e', nd, rfl, hnd, rfl⟩
  | flush c db w =>
    simp only [step] at h
    split at h
    · cases h
    · next update flushing hflushing =>
      obtain rfl := Option.some.inj h
      exact .inr ⟨c, db, w, update, flushing, _, rfl, hflushing, rfl, rfl⟩

theorem flush_node {update : PendingUpdate} {flushing : List PendingUpdate} {f : Flushed}
    (hflushing : (s.nodes c).flushing = update :: flushing)
    (hnodes : t.nodes = fun b =>
      (Function.update s.nodes c ((s.nodes c).advance flushing f.pipes) b).deliver f.published)
    (u : UserId) (b : ι) : (t.nodes b).publishing = (s.nodes b).publishing ∧
    (t.nodes b).listening = (s.nodes b).listening ∧
    (t.nodes b).host = (if b = c then { (s.nodes b).host with pipes := f.pipes }
      else (s.nodes b).host) ∧
    (t.nodes b).inbox = (if (s.nodes b).listening then (s.nodes b).inbox ++ f.published
      else (s.nodes b).inbox) ∧
    (s.nodes b).ahead u = (if b = c ∧ update.userId = u then [update.status] else []) ++
      (t.nodes b).ahead u := by
  rw [hnodes]
  by_cases hb : b = c
  · subst hb
    simp only [Function.update_self, if_true, true_and]
    refine ⟨rfl, rfl, rfl, rfl, ?_⟩
    rw [PresencePath.ahead, hflushing, List.cons_append, List.cons_append, statuses_cons]
    split_ifs <;> rfl
  · simp only [Function.update_of_ne hb, hb, false_and, if_false, List.nil_append]
    exact ⟨rfl, rfl, rfl, rfl, rfl⟩

theorem step_inv (hround : presence.RoundTrip) {e : NetAction ι} (h : s.Inv bridges)
    (hstep : s.step json presence e = some t) : t.Inv bridges := by
  obtain ⟨c, e', nd, rfl, hnd, rfl⟩ | ⟨c, db, w, update, flushing, f, rfl, hflushing, hf, hnodes⟩ :=
    step_cases hstep
  · obtain ⟨hbridge, hfiled, hinbox⟩ := PresencePath.step_frame hnd (h.filed c)
    refine ⟨fun b => ?_, fun b => ?_, fun b => ?_⟩ <;> dsimp only <;> by_cases hb : b = c
    · rw [hb, Function.update_self, hbridge, h.bridge]
    · rw [Function.update_of_ne hb, h.bridge]
    · rw [hb, Function.update_self]
      exact hfiled
    · rw [Function.update_of_ne hb]
      exact h.filed b
    · rw [hb, Function.update_self]
      exact fun m hm => h.inbox c m (hinbox.subset hm)
    · rw [Function.update_of_ne hb]
      exact h.inbox b
  · refine ⟨fun b => ?_, fun b => ?_, fun b m hm => ?_⟩ <;>
      obtain ⟨-, -, hhost, hinbox, -⟩ := flush_node hflushing hnodes 0 b
    · rw [hhost, ← h.bridge b]
      split_ifs <;> rfl
    · have hsessions : (t.nodes b).host.sessions = (s.nodes b).host.sessions := by
        rw [hhost]
        split_ifs <;> rfl
      rw [hsessions]
      exact h.filed b
    · rw [hinbox] at hm
      split_ifs at hm
      · rcases List.mem_append.1 hm with hm | hm
        · exact h.inbox b m hm
        · exact (told_published hround (hf ▸ hm) "" 0).1
      · exact h.inbox b m hm

/-- A step keeps everything about the user on the way from node `a`. -/
theorem step_home (hround : presence.RoundTrip) (hinv : s.Inv bridges) {e : NetAction ι}
    (h : s.Home presence u a) (hcalls : CallsAt u a e) (hstep : s.step json presence e = some t) :
    t.Home presence u a := by
  obtain ⟨c, e', nd, rfl, hnd, rfl⟩ | ⟨c, db, w, update, flushing, f, rfl, hflushing, hf, hnodes⟩ :=
    step_cases hstep
  · have hout (hc : c ≠ a) := PresencePath.step_outgoing (u := u) hnd
      (fun call heq hu => hc (by rw [heq] at hcalls; exact hcalls hu)) (h.outgoing c hc)
    refine ⟨fun b hb => ?_, fun b hb => ?_, ?_⟩ <;> dsimp only
    · by_cases hbc : b = c
      · subst hbc
        rw [Function.update_self]
        exact (hout hb).1
      · rw [Function.update_of_ne hbc]
        exact h.outgoing b hb
    · by_cases hbc : b = c
      · subst hbc
        obtain ⟨-, hkeeps⟩ := PresencePath.step_ahead (u := u) hnd
        rw [h.ahead b hb, (hout hb).2] at hkeeps
        rw [Function.update_self]
        exact List.sublist_nil.1 hkeeps.sublist
      · rw [Function.update_of_ne hbc]
        exact h.ahead b hb
    · by_cases hac : a = c
      · subst hac
        obtain ⟨hbridge, -, hinbox⟩ := PresencePath.step_frame hnd (hinv.filed a)
        have hsub := hinbox.filterMap (told presence nd.host.bridge.nodeId u)
        rw [Function.update_self]
        refine List.sublist_nil.1 (hsub.trans ?_)
        rw [hbridge, ← h.heard]
        exact List.Sublist.refl _
      · rw [Function.update_of_ne hac]
        exact h.heard
  · have hnode (b : ι) := flush_node hflushing hnodes u b
    refine ⟨fun b hb => ?_, fun b hb => ?_, ?_⟩
    · rw [(hnode b).1]
      exact h.outgoing b hb
    · have hahead := (hnode b).2.2.2.2
      rw [h.ahead b hb] at hahead
      exact (List.append_eq_nil_iff.1 hahead.symm).2
    · obtain ⟨-, -, hhost, hinbox, -⟩ := hnode a
      have hbridge : (t.nodes a).host.bridge = (s.nodes a).host.bridge := by
        rw [hhost]
        split_ifs <;> rfl
      rw [heard_flush hround hf hbridge hinbox, h.heard]
      -- An update of the user is flushed on node `a` only.
      by_cases hu : update.userId = u
      · by_cases hc : c = a
        · rw [hc]
          exact .inr rfl
        · have hahead := (hnode c).2.2.2.2
          rw [h.ahead c hc, if_pos ⟨rfl, hu⟩] at hahead
          cases hahead
      · exact .inl hu

/-! ## The line -/

/-- The supply moves, and what comes out was not handled yet. -/
theorem moves_of_parts {announced announced' ahead ahead' heard heard' received received' sent :
    List PresenceStatus} (hsent : announced' = announced ++ sent)
    (hahead : KeepsLast (ahead ++ sent) ahead') (got : List PresenceStatus)
    (hgot : received' = received ++ got) (hheard : heard = got ++ heard') :
    Line.Moves ⟨announced, heard ++ ahead, received⟩ ⟨announced', heard' ++ ahead', received'⟩ := by
  refine ⟨sent, got, hsent, hgot, ?_⟩
  dsimp only
  rw [hheard, List.append_assoc, List.append_assoc]
  exact (hahead.append_left heard').append_left got

/-- The session is registered, and the subscriber runs if it gets its updates from there. -/
structure Linked (b : ι) (v : UserId) (x : Session) (remote : Prop) (s : PresenceNet ι) : Prop where
  registered : (s.nodes b).Registered v x
  listening : remote → (s.nodes b).listening = true

theorem node_moves (hinv : s.Inv bridges) (hhome : s.Home presence u a)
    (hlinked : s.Linked b v x (b ≠ a)) {e : NodeAction} {nd : PresencePath}
    (hreach : c = b → (s.nodes b).Keeps v x (b ≠ a) e)
    (hnd : (s.nodes c).step json presence e = some nd) :
    (line presence u a b x.sessionId s).Moves
      (line presence u a b x.sessionId { s with nodes := Function.update s.nodes c nd }) ∧
    Linked b v x (b ≠ a) { s with nodes := Function.update s.nodes c nd } := by
  have hsupply : ∃ sent, (Function.update s.nodes c nd a).announced u =
        (s.nodes a).announced u ++ sent ∧
      KeepsLast ((s.nodes a).ahead u ++ sent) ((Function.update s.nodes c nd a).ahead u) := by
    by_cases hac : a = c
    · subst hac
      rw [Function.update_self]
      exact ⟨_, PresencePath.step_ahead hnd⟩
    · rw [Function.update_of_ne hac]
      exact ⟨[], (List.append_nil _).symm, (List.append_nil _).symm ▸ KeepsLast.refl _⟩
  obtain ⟨sent, hsent, hahead⟩ := hsupply
  by_cases hbc : b = c
  · subst hbc
    have hremote : ¬b ≠ a → (s.nodes b).heard presence u = [] := fun hba => by
      rw [not_not.1 hba]
      exact hhome.heard
    obtain ⟨hregistered, got, hgot, hheard⟩ := PresencePath.step_received (u := u) (hinv.filed b)
      hlinked.registered (hinv.inbox b) hremote (hreach rfl) hnd
    refine ⟨moves_of_parts hsent hahead got ?_ ?_, ⟨?_, ?_⟩⟩ <;> dsimp only <;>
      rw [Function.update_self]
    · exact hgot
    · exact hheard
    · exact hregistered
    · exact fun hba => PresencePath.step_listening hnd (hreach rfl) hba (hlinked.listening hba)
  · refine ⟨moves_of_parts hsent hahead [] ?_ ?_, ⟨?_, ?_⟩⟩ <;> dsimp only <;>
      rw [Function.update_of_ne hbc]
    · exact (List.append_nil _).symm
    · rfl
    · exact hlinked.registered
    · exact hlinked.listening

theorem flush_moves (hround : presence.RoundTrip)
    (hids : Function.Injective fun b => (bridges b).nodeId)
    (hinv : s.Inv bridges) (hhome : s.Home presence u a) (hlinked : s.Linked b v x (b ≠ a))
    {db : Database} {w : FlushAnswers} {update : PendingUpdate} {flushing : List PendingUpdate}
    {f : Flushed} (hreach : s.Reaches presence u b v x (b ≠ a) (.flush c db w))
    (hflushing : (s.nodes c).flushing = update :: flushing)
    (hf : f = (s.nodes c).host.flushUpdate presence db ⟨(s.nodes c).host.pipes, s.keys, []⟩ update
      w)
    (hnodes : t.nodes = fun b =>
      (Function.update s.nodes c ((s.nodes c).advance flushing f.pipes) b).deliver f.published) :
    (line presence u a b x.sessionId s).Moves (line presence u a b x.sessionId t) ∧
    t.Linked b v x (b ≠ a) := by
  obtain ⟨-, hlistening, hhost, hinbox, -⟩ := flush_node hflushing hnodes u b
  obtain ⟨hpublishing, -, -, -, hahead⟩ := flush_node hflushing hnodes u a
  have hannounced : (t.nodes a).announced u = (s.nodes a).announced u ++ [] := by
    rw [PresencePath.announced, hpublishing]
    exact (List.append_nil _).symm
  have hbridge : (t.nodes b).host.bridge = (s.nodes b).host.bridge := by
    rw [hhost]
    split_ifs <;> rfl
  have hreceived : (t.nodes b).received x.sessionId u = (s.nodes b).received x.sessionId u ++
      if b = c ∧ w.colocated = .ok () ∧ update.userId = u ∧
        v ∈ getColocatedUserIds db update.userId then [update.status] else [] := by
    rw [PresencePath.received, hhost]
    by_cases hbc : b = c
    · subst hbc
      simp only [if_true, true_and, hf]
      exact received_flushUpdate (hinv.filed b) hlinked.registered.mem hlinked.registered.opened
    · simp only [hbc, false_and, if_false, List.append_nil]
      rfl
  refine ⟨?_, ⟨⟨?_, ?_⟩, fun hba => hlistening.trans (hlinked.listening hba)⟩⟩
  · by_cases hu : update.userId = u
    · -- The update comes from node `a`, and goes to the session or to the subscriber.
      have hca : c = a := by
        by_contra hca
        have hnone := (flush_node hflushing hnodes u c).2.2.2.2
        rw [hhome.ahead c hca, if_pos ⟨rfl, hu⟩] at hnone
        cases hnone
      subst hca
      obtain ⟨hok, hlocal, hremote⟩ := hreach update (hflushing ▸ rfl) hu
      rw [if_pos ⟨rfl, hu⟩] at hahead
      by_cases hbc : b = c
      · subst hbc
        have hheard := heard_flush (u := u) hround hf hbridge hinbox (.inr rfl)
        rw [if_pos ⟨rfl, hok, hu, hu ▸ hlocal rfl⟩] at hreceived
        refine ⟨[], [update.status], hannounced, hreceived, ?_⟩
        simp only [line, hheard, hhome.heard, hahead, List.nil_append, List.append_nil]
        exact KeepsLast.refl _
      · have hheard : (t.nodes b).heard presence u =
            (s.nodes b).heard presence u ++ [update.status] := by
          obtain ⟨henabled, hpublishes⟩ := hremote (Ne.symm hbc)
          refine heard_flush_other hround hf hbridge hinbox (hlinked.listening hbc) ?_ hu hok
            henabled hpublishes
          rw [hinv.bridge, hinv.bridge]
          exact fun heq => hbc (hids heq).symm
        rw [if_neg fun h => hbc h.1] at hreceived
        refine ⟨[], [], hannounced, hreceived, ?_⟩
        simp only [line, hheard, hahead, List.nil_append, List.append_nil, List.append_assoc]
        exact KeepsLast.refl _
    · have hheard := heard_flush (u := u) hround hf hbridge hinbox (.inl hu)
      rw [if_neg fun h => hu h.2] at hahead
      rw [if_neg fun h => hu h.2.2.1] at hreceived
      refine moves_of_parts hannounced ?_ [] hreceived hheard.symm
      rw [List.append_nil, hahead]
      exact KeepsLast.refl _
  · rw [hhost]
    split_ifs
    · exact hlinked.registered.mem
    · exact hlinked.registered.mem
  · rw [hhost]
    by_cases hbc : b = c
    · subst hbc
      rw [if_pos rfl, hf]
      exact (congrFun closed_flushUpdate _).trans hlinked.registered.opened
    · rw [if_neg hbc]
      exact hlinked.registered.opened

/-- **A step moves the line.** -/
theorem step_moves (hround : presence.RoundTrip)
    (hids : Function.Injective fun b => (bridges b).nodeId) (hinv : s.Inv bridges)
    (hhome : s.Home presence u a) (hlinked : s.Linked b v x (b ≠ a)) {e : NetAction ι}
    (hreach : s.Reaches presence u b v x (b ≠ a) e) (hstep : s.step json presence e = some t) :
    (line presence u a b x.sessionId s).Moves (line presence u a b x.sessionId t) ∧
      t.Linked b v x (b ≠ a) := by
  obtain ⟨c, e', nd, rfl, hnd, rfl⟩ | ⟨c, db, w, update, flushing, f, rfl, hflushing, hf, hnodes⟩ :=
    step_cases hstep
  · exact node_moves hinv hhome hlinked hreach hnd
  · exact flush_moves hround hids hinv hhome hlinked hreach hflushing hf hnodes

/-! ## Runs -/

omit [DecidableEq ι] in
theorem init_inv (bridges : ι → RedisBridge) : (init bridges).Inv bridges :=
  ⟨fun _ => rfl, fun _ => SessionStore.filed_new, fun _ _ hm => absurd hm List.not_mem_nil⟩

omit [DecidableEq ι] in
theorem init_home (presence : Serde PresencePayload) (bridges : ι → RedisBridge) (u : UserId)
    (a : ι) : (init bridges).Home presence u a := by
  refine ⟨fun c _ n p hp => ?_, fun _ _ => rfl, rfl⟩
  have hnone : (∅ : DashMap ℕ (UserId × PresenceStatus)).lookup n = none := rfl
  cases hnone.symm.trans hp

theorem run_home (hround : presence.RoundTrip) {es : List (NetAction ι)} (hinv : s.Inv bridges)
    (hhome : s.Home presence u a)
    (hcalls : Along (step json presence) (fun _ e => CallsAt u a e) s es)
    (hrun : exec (step json presence) s es = some t) : t.Inv bridges ∧ t.Home presence u a :=
  exec_invariant_along (I := fun s => s.Inv bridges ∧ s.Home presence u a)
    (fun _ _ _ h hcalls hstep => ⟨step_inv hround h.1 hstep, step_home hround h.1 h.2 hcalls hstep⟩)
    ⟨hinv, hhome⟩ hcalls hrun

theorem run_moves (hround : presence.RoundTrip)
    (hids : Function.Injective fun b => (bridges b).nodeId) {es : List (NetAction ι)}
    (hinv : s.Inv bridges) (hhome : s.Home presence u a) (hlinked : s.Linked b v x (b ≠ a))
    (hcalls : Along (step json presence) (fun _ e => CallsAt u a e) s es)
    (hreach : Along (step json presence) (Reaches presence u b v x (b ≠ a)) s es)
    (hrun : exec (step json presence) s es = some t) :
    (line presence u a b x.sessionId s).Moves (line presence u a b x.sessionId t) := by
  have hall : (t.Inv bridges ∧ t.Home presence u a ∧ t.Linked b v x (b ≠ a)) ∧
      (line presence u a b x.sessionId s).Moves (line presence u a b x.sessionId t) :=
    exec_invariant_along
      (I := fun r => (r.Inv bridges ∧ r.Home presence u a ∧ r.Linked b v x (b ≠ a)) ∧
        (line presence u a b x.sessionId s).Moves (line presence u a b x.sessionId r))
      (fun r e r' h hok hstep => by
        obtain ⟨⟨hinv, hhome, hlinked⟩, hmoves⟩ := h
        obtain ⟨hmoves', hlinked'⟩ := step_moves hround hids hinv hhome hlinked hok.2 hstep
        exact ⟨⟨step_inv hround hinv hstep, step_home hround hinv hhome hok.1 hstep, hlinked'⟩,
          hmoves.trans hmoves'⟩)
      ⟨⟨hinv, hhome, hlinked⟩, Line.Moves.refl _⟩ (hcalls.and hreach) hrun
  exact hall.2

/-- **From the tracker to a session.** -/
theorem presence_moves (hround : presence.RoundTrip)
    (hids : Function.Injective fun b => (bridges b).nodeId) (u : UserId) (a b : ι) (v : UserId)
    (x : Session) (pre post : List (NetAction ι)) (s t : PresenceNet ι)
    (hpre : exec (step json presence) (init bridges) pre = some s)
    (hpost : exec (step json presence) s post = some t)
    (hcalls : Along (step json presence) (fun _ e => CallsAt u a e) (init bridges) (pre ++ post))
    (hlinked : s.Linked b v x (b ≠ a))
    (hreach : Along (step json presence) (Reaches presence u b v x (b ≠ a)) s post) :
    (line presence u a b x.sessionId s).Moves (line presence u a b x.sessionId t) := by
  obtain ⟨hcalls₁, hcalls₂⟩ := (along_append hpre).1 hcalls
  obtain ⟨hinv, hhome⟩ := run_home hround (init_inv bridges) (init_home presence bridges u a)
    hcalls₁ hpre
  exact run_moves hround hids hinv hhome hlinked hcalls₂ hreach hpost

/-- Two nodes. -/
def twoBridges (b : Bool) : RedisBridge := ⟨cond b "node-1" "node-2", false⟩

/-- User 8 connects to the second node. -/
def connects : List (NetAction Bool) := [.node false (.sessions (.insert ⟨2, 8⟩))]

/-- User 7 comes online on the first node and is idle at once. The worker drops the first update,
and the second one goes to the second node. -/
def comesIdle : List (NetAction Bool) :=
  [.node true (.track (.call (.sessionOpen 7))), .node true (.track (.publish 0)),
    .node true .recv, .node true (.track (.call (.setStatus 7 .idle))),
    .node true (.track (.publish 1)), .node true .recv, .node true .tick,
    .flush true strangers ⟨.ok (), .ok (), .ok (), 0⟩, .node false .handle]

/-- The codec of the one payload. -/
def idlePresence : Serde PresencePayload := .single ⟨"node-1", 7, .idle⟩ "idle"

theorem twoBridges_injective : Function.Injective fun b => (twoBridges b).nodeId := by
  have hne : "node-1" ≠ "node-2" := by decide
  intro b c h
  cases b <;> cases c
  · rfl
  · exact absurd h.symm hne
  · exact absurd h hne
  · rfl

theorem presence_moves_comesIdle :
    ∃ s t, exec (step Subscriber.noJson idlePresence) (init twoBridges) connects = some s ∧
      exec (step Subscriber.noJson idlePresence) s comesIdle = some t ∧
      (line idlePresence 7 true false 2 s).Moves (line idlePresence 7 true false 2 t) :=
  ⟨_, _, rfl, rfl, presence_moves (Serde.single_roundTrip _ _) twoBridges_injective 7 true false 8
    ⟨2, 8⟩ connects comesIdle _ _ rfl rfl (by decide) ⟨⟨by decide, rfl⟩, fun _ => rfl⟩ (by decide)⟩

/-! ## The last update -/

/-- No update is enqueued late on node `a`. -/
def OnTime (a : ι) (s : PresenceNet ι) : NetAction ι → Prop
  | .node c (.track p) => c = a → ¬(s.nodes a).publishing.Late p
  | _ => True

instance (a : ι) (s : PresenceNet ι) : (e : NetAction ι) → Decidable (OnTime a s e)
  | .node c (.track p) => inferInstanceAs (Decidable (c = a → ¬(s.nodes a).publishing.Late p))
  | .node _ .recv | .node _ .tick | .node _ .handle | .node _ .stop | .node _ (.sessions _)
  | .node _ (.hangUp _) | .node _ (.send _ _) | .flush _ _ _ => .isTrue trivial

/-- What the step flushes of the user on node `a`. -/
def flushes (u : UserId) (a : ι) (s : PresenceNet ι) : NetAction ι → List PresenceStatus
  | .flush c _ _ => if a = c then statuses u (s.nodes c).flushing.head?.toList else []
  | .node _ _ => []

/-- A step adds to what was flushed what it flushes, and leaves out no last update. -/
theorem step_supply {e : NetAction ι} {done : List PresenceStatus}
    (h : KeepsLast ((s.nodes a).announced u) (done ++ (s.nodes a).ahead u))
    (hstep : s.step json presence e = some t) :
    KeepsLast ((t.nodes a).announced u) (done ++ s.flushes u a e ++ (t.nodes a).ahead u) := by
  obtain ⟨c, e', nd, rfl, hnd, rfl⟩ | ⟨c, db, w, update, flushing, f, rfl, hflushing, hf, hnodes⟩ :=
    step_cases hstep
  · rw [flushes, List.append_nil]
    dsimp only
    by_cases hac : a = c
    · subst hac
      obtain ⟨hsent, hahead⟩ := PresencePath.step_ahead (u := u) hnd
      rw [Function.update_self, hsent]
      refine (h.append_right _).trans ?_
      rw [List.append_assoc]
      exact hahead.append_left done
    · rw [Function.update_of_ne hac]
      exact h
  · obtain ⟨hpublishing, -, -, -, hahead⟩ := flush_node hflushing hnodes u a
    have hflushes : s.flushes u a (.flush c db w) =
        if a = c ∧ update.userId = u then [update.status] else [] := by
      rw [flushes, hflushing, List.head?_cons, Option.toList_some, statuses_cons, ite_and]
      rfl
    rw [PresencePath.announced, hpublishing, hflushes, List.append_assoc, ← hahead]
    exact h

/-- What is before the flush ends with what was announced last. -/
def Supplied (u : UserId) (a : ι) (s : PresenceNet ι) : Prop :=
  ∃ done, KeepsLast ((s.nodes a).announced u) (done ++ (s.nodes a).ahead u)

theorem step_supplied {e : NetAction ι} (h : s.Supplied u a)
    (hstep : s.step json presence e = some t) : t.Supplied u a :=
  h.elim fun _ hdone => ⟨_, step_supply hdone hstep⟩

theorem step_publishing {e : NetAction ι} (h : (s.nodes a).publishing.Inv) (hok : OnTime a s e)
    (hstep : s.step json presence e = some t) : (t.nodes a).publishing.Inv := by
  obtain ⟨c, e', nd, rfl, hnd, rfl⟩ | ⟨c, db, w, update, flushing, f, rfl, hflushing, hf, hnodes⟩ :=
    step_cases hstep
  · dsimp only
    by_cases hac : a = c
    · subst hac
      rw [Function.update_self]
      obtain ⟨p, publishing, rfl, hp, rfl⟩ | ⟨event, queue, -, -, -, rfl⟩ |
        ⟨message, inbox, pipes, -, -, -, rfl⟩ | ⟨-, rfl⟩ | ⟨c, -, -, rfl⟩ |
        ⟨sid, closed, -, -, rfl⟩ | ⟨userIds, event, pipes, -, -, -, rfl⟩ :=
        PresencePath.step_cases hnd
      · exact Publishing.step_inv h (hok rfl) hp
      all_goals exact h
    · rw [Function.update_of_ne hac]
      exact h
  · rw [(flush_node hflushing hnodes 0 a).1]
    exact h

theorem lastEnqueued_eq (nd : PresencePath) (u : UserId) :
    nd.publishing.tracker.lastEnqueued u = (nd.announced u).getLast?.getD .offline := by
  rw [Tracker.lastEnqueued, PresencePath.announced, List.getLast?_reverse, Tracker.updatesOf,
    List.head?_map, List.head?_filter]

theorem getStatus_eq {nd : PresencePath} (h : nd.publishing.Inv)
    (hrest : ∀ n p, nd.publishing.outgoing.lookup n = some p → p.1 ≠ u) :
    nd.publishing.tracker.getStatus u = (nd.announced u).getLast?.getD .offline := by
  rcases h.follows u with ⟨m, -, hout⟩ | ⟨heq, -⟩
  · exact absurd rfl (hrest m _ hout)
  · rw [← heq, lastEnqueued_eq]

theorem getLast?_announced {nd : PresencePath} (h : nd.publishing.Inv)
    (hrest : ∀ n p, nd.publishing.outgoing.lookup n = some p → p.1 ≠ u)
    (hne : nd.announced u ≠ []) :
    (nd.announced u).getLast? = some (nd.publishing.tracker.getStatus u) := by
  rw [getStatus_eq h hrest, List.getLast?_eq_getLast_of_ne_nil hne]
  rfl

/-- **The observers converge.** -/
theorem presence_converges (hround : presence.RoundTrip)
    (hids : Function.Injective fun b => (bridges b).nodeId) (u : UserId) (a b : ι) (v : UserId)
    (x : Session) (pre post : List (NetAction ι)) (s t : PresenceNet ι)
    (hpre : exec (step json presence) (init bridges) pre = some s)
    (hpost : exec (step json presence) s post = some t)
    (hcalls : Along (step json presence) (fun _ e => CallsAt u a e) (init bridges) (pre ++ post))
    (honTime : Along (step json presence) (OnTime a) (init bridges) (pre ++ post))
    (hlinked : s.Linked b v x (b ≠ a))
    (hreach : Along (step json presence) (Reaches presence u b v x (b ≠ a)) s post)
    (hrest : ∀ n p, (t.nodes a).publishing.outgoing.lookup n = some p → p.1 ≠ u)
    (hahead : (t.nodes a).ahead u = []) (hheard : (t.nodes b).heard presence u = [])
    (hnew : (s.nodes a).ahead u ≠ [] ∨ (t.nodes a).announced u ≠ (s.nodes a).announced u) :
    ∃ got, (t.nodes b).received x.sessionId u = (s.nodes b).received x.sessionId u ++ got ∧
      got.getLast? = some ((t.nodes a).publishing.tracker.getStatus u) := by
  obtain ⟨hcalls₁, hcalls₂⟩ := (along_append hpre).1 hcalls
  obtain ⟨hinv, hhome⟩ := run_home hround (init_inv bridges) (init_home presence bridges u a)
    hcalls₁ hpre
  have hsupplied : s.Supplied u a := exec_invariant (fun _ _ _ => step_supplied)
    (⟨[], KeepsLast.refl []⟩ : (init bridges).Supplied u a) hpre
  have hpublishing : (t.nodes a).publishing.Inv :=
    exec_invariant_along (I := fun s : PresenceNet ι => (s.nodes a).publishing.Inv)
      (fun _ _ _ => step_publishing) Publishing.init_inv honTime (exec_append.2 ⟨s, hpre, hpost⟩)
  obtain ⟨sent, got, hsent, hgot, hkeeps⟩ :=
    run_moves hround hids hinv hhome hlinked hcalls₂ hreach hpost
  refine ⟨got, hgot, ?_⟩
  simp only [line] at hsent hkeeps
  have hlast := hkeeps.last
  rw [hheard, hahead, List.append_nil, List.append_nil] at hlast
  rw [hlast]
  by_cases hnil : sent = []
  · -- Nothing was enqueued, so the last announced update is the last one before the flush.
    rw [hnil, List.append_nil] at hsent ⊢
    obtain hbefore := hnew.resolve_right (not_not.2 hsent)
    obtain ⟨done, hdone⟩ := hsupplied
    have hlast' := hdone.last
    rw [List.getLast?_append_of_ne_nil _ hbefore] at hlast'
    rw [List.getLast?_append_of_ne_nil _ hbefore, hlast', ← hsent]
    refine getLast?_announced hpublishing hrest fun hempty => ?_
    rw [← hsent, hempty] at hdone
    exact hbefore (List.append_eq_nil_iff.1 (List.sublist_nil.1 hdone.sublist)).2
  · rw [List.getLast?_append_of_ne_nil _ hnil, ← List.getLast?_append_of_ne_nil _ hnil, ← hsent]
    refine getLast?_announced hpublishing hrest fun hempty => ?_
    rw [hsent] at hempty
    exact hnil (List.append_eq_nil_iff.1 hempty).2

/-- The second node tells user 8 that user 7 is idle. -/
theorem presence_converges_comesIdle :
    ∃ s t, exec (step Subscriber.noJson idlePresence) (init twoBridges) connects = some s ∧
      exec (step Subscriber.noJson idlePresence) s comesIdle = some t ∧
      ∃ got, (t.nodes false).received 2 7 = (s.nodes false).received 2 7 ++ got ∧
        got.getLast? = some ((t.nodes true).publishing.tracker.getStatus 7) :=
  ⟨_, _, rfl, rfl, @presence_converges Bool _ Subscriber.noJson idlePresence twoBridges
    (Serde.single_roundTrip _ _) twoBridges_injective 7 true false 8 ⟨2, 8⟩ connects comesIdle _ _
    rfl rfl (by decide) (by decide) ⟨⟨by decide, rfl⟩, fun _ => rfl⟩ (by decide)
    (fun _ p hp => nomatch show none = some p from hp) rfl rfl (.inr (by decide))⟩

end PresenceNet

end RustRelay
