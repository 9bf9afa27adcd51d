import RustRelay.Core.Expiring
import RustRelay.Presence.Convergence

/-!
# Presence keys

A flush sets `presence:{user_id}` in Redis for 300 s, or deletes it if the user is offline.
Nothing renews the key of a user whose status stays.

**Theorem (`presence_fresh`).** Whatever fails, a key that is read was set less than 300 s ago by
the node it names, and was the last thing done to the key; its status is one the tracker of that
node has broadcast.

**Theorem (`presence_kept`).** Let the calls about a user be on one node, no update be enqueued late
and the flushes of the user's updates succeed. Once no update of the user is outstanding, every node
reads the status of the user for 300 s after the last flush, and nothing from then on.
-/

namespace RustRelay

open Machine Coalesce Expiring

open PresenceNet (idlePresence twoBridges comesIdle)

/-! ## The store -/

/-- The keys in Redis; times are in milliseconds. -/
abbrev PresenceStore := Expiring UserId PresenceKey ℕ

/-- `get_presence`. -/
def RedisBridge.getPresence (bridge : RedisBridge) (redis : Except String Unit)
    (store : PresenceStore) (now : ℕ) (userId : UserId) : Except String (Option PresenceKey) :=
  if bridge.disabled then .ok none
  else match redis with
    | .error e => .error e
    | .ok () => .ok (store.get now userId)

/-- The command that Redis executes during the flush of an update. -/
def PresenceHost.command (host : PresenceHost) (update : PendingUpdate) (w : FlushAnswers) :
    Option (Command UserId PresenceKey ℕ) :=
  match host.bridge.disabled, w.colocated, w.store with
  | false, .ok (), .ok () => some <|
    if update.status = .offline then .del update.userId
    else .set update.userId ⟨update.status, host.bridge.nodeId, w.updatedAt, 300⟩ (300 * 1000)
  | _, _, _ => none

/-- The nodes, and Redis with its clock. -/
structure KeyNet (ι : Type) where
  net : PresenceNet ι
  redis : PresenceStore
  now : ℕ

/-- A step of the nodes, or time passes. -/
inductive KeyAction (ι : Type)
  | net (e : NetAction ι)
  | wait (ms : ℕ)

/-- The command of a step. -/
def PresenceNet.command {ι : Type} (s : PresenceNet ι) :
    NetAction ι → Option (Command UserId PresenceKey ℕ)
  | .flush c _ w => (s.nodes c).flushing.head?.bind fun update => (s.nodes c).host.command update w
  | .node _ _ => none

namespace KeyNet

variable {ι : Type} [DecidableEq ι]

def init (bridges : ι → RedisBridge) : KeyNet ι := ⟨.init bridges, .empty, 0⟩

def step (json : Json) (presence : Serde PresencePayload) (s : KeyNet ι) :
    KeyAction ι → Option (KeyNet ι)
  | .net e => (s.net.step json presence e).map fun net =>
    { s with net, redis := s.redis.executeOption s.now (s.net.command e) }
  | .wait ms => some { s with now := s.now + ms }

/-- A condition on the steps of the nodes. -/
def OnNet (P : PresenceNet ι → NetAction ι → Prop) (s : KeyNet ι) : KeyAction ι → Prop
  | .net e => P s.net e
  | .wait _ => True

instance (P : PresenceNet ι → NetAction ι → Prop) [∀ s e, Decidable (P s e)] (s : KeyNet ι) :
    (e : KeyAction ι) → Decidable (OnNet P s e)
  | .net e => inferInstanceAs (Decidable (P s.net e))
  | .wait _ => .isTrue trivial

/-- The step does nothing to the key of the user. -/
def Spares (u : UserId) (s : PresenceNet ι) (e : NetAction ι) : Prop :=
  ∀ c ∈ s.command e, c.key ≠ u

variable {json : Json} {presence : Serde PresencePayload} {bridges : ι → RedisBridge}
  {s t : KeyNet ι} {a c : ι} {u : UserId} {es : List (KeyAction ι)} {w : FlushAnswers}
  {update : PendingUpdate}

theorem step_cases {e : KeyAction ι} (h : s.step json presence e = some t) :
    (∃ e' net, e = .net e' ∧ s.net.step json presence e' = some net ∧
      t = { s with net, redis := s.redis.executeOption s.now (s.net.command e') }) ∨
    ∃ ms, e = .wait ms ∧ t = { s with now := s.now + ms } := by
  cases e with
  | net e' =>
    obtain ⟨net, hnet, rfl⟩ := Option.map_eq_some_iff.1 h
    exact .inl ⟨e', net, rfl, hnet, rfl⟩
  | wait ms => exact .inr ⟨ms, rfl, (Option.some.inj h).symm⟩

/-! ## One command -/

theorem key_of_command {host : PresenceHost} {d : Command UserId PresenceKey ℕ}
    (h : host.command update w = some d) : d.key = update.userId := by
  unfold PresenceHost.command at h
  split at h
  · obtain rfl := Option.some.inj h
    split_ifs <;> rfl
  · cases h

theorem entry_of_command {host : PresenceHost} {d : Command UserId PresenceKey ℕ} (now : ℕ)
    (h : host.command update w = some d) : d.entry now = if update.status = .offline then none
      else some (⟨update.status, host.bridge.nodeId, w.updatedAt, 300⟩, now + 300 * 1000) := by
  unfold PresenceHost.command at h
  split at h
  · obtain rfl := Option.some.inj h
    split_ifs <;> rfl
  · cases h

/-- The keys of a flush are those of its command, without their times. -/
theorem flushUpdate_keys (host : PresenceHost) (db : Database) (keys : PresenceKeys) (u : UserId) :
    (host.flushUpdate presence db ⟨host.pipes, keys, []⟩ update w).keys.lookup u =
      (host.command update w).elim (keys.lookup u) fun d =>
        if u = d.key then (d.entry 0).map Prod.fst else keys.lookup u := by
  unfold PresenceHost.flushUpdate PresenceHost.command RedisBridge.setPresence
    RedisBridge.removePresence
  rcases w.colocated with e | ⟨⟩ <;> rcases w.store with e | ⟨⟩ <;>
    cases host.bridge.disabled <;> by_cases hoffline : update.status = .offline <;>
    simp [hoffline, Command.key, Command.entry, DashMap.lookup_insert_ite,
      DashMap.lookup_erase_ite]

omit [DecidableEq ι] in
theorem head_ahead {nd : PresencePath} (hhead : update ∈ nd.flushing.head?)
    (hu : update.userId = u) : update.status ∈ nd.ahead u := by
  obtain ⟨flushing, hflushing⟩ := List.head?_eq_some_iff.1 hhead
  rw [PresencePath.ahead, hflushing, List.cons_append, List.cons_append, statuses_cons, if_pos hu]
  exact List.mem_cons_self

omit [DecidableEq ι] in
theorem command_cases {s : PresenceNet ι} {e : NetAction ι} {d : Command UserId PresenceKey ℕ}
    (h : s.command e = some d) : ∃ c db w update, e = .flush c db w ∧
      update ∈ (s.nodes c).flushing.head? ∧ (s.nodes c).host.command update w = some d := by
  cases e with
  | node c e' => cases h
  | flush c db w =>
    obtain ⟨update, hhead, hd⟩ := Option.bind_eq_some_iff.1 h
    exact ⟨c, db, w, update, rfl, hhead, hd⟩

theorem net_keys {s t : PresenceNet ι} {e : NetAction ι} (h : s.step json presence e = some t)
    (u : UserId) : t.keys.lookup u = (s.command e).elim (s.keys.lookup u) fun d =>
      if u = d.key then (d.entry 0).map Prod.fst else s.keys.lookup u := by
  cases e with
  | node c e' =>
    obtain ⟨nd, -, rfl⟩ := Option.map_eq_some_iff.1 h
    rfl
  | flush c db w =>
    simp only [PresenceNet.step] at h
    split at h
    · cases h
    · next update flushing hflushing =>
      obtain rfl := Option.some.inj h
      simp only [PresenceNet.command, hflushing, List.head?_cons, Option.bind_some]
      exact flushUpdate_keys _ db s.keys u

/-! ## The last command -/

/-- In the state `s` the flush of this update did the last thing to the key of the user. -/
def LastCommand (json : Json) (presence : Serde PresencePayload) (bridges : ι → RedisBridge)
    (u : UserId) (es : List (KeyAction ι)) (s : KeyNet ι) (c : ι) (w : FlushAnswers)
    (update : PendingUpdate) : Prop :=
  ∃ pre db post s', es = pre ++ .net (.flush c db w) :: post ∧
    exec (step json presence) (init bridges) pre = some s ∧
    s.step json presence (.net (.flush c db w)) = some s' ∧
    update ∈ (s.net.nodes c).flushing.head? ∧ update.userId = u ∧
    ((s.net.nodes c).host.command update w).isSome ∧
    Along (step json presence) (OnNet (Spares u)) s' post

theorem LastCommand.snoc {e : KeyAction ι} {t' : KeyNet ι}
    (h : LastCommand json presence bridges u es s c w update)
    (ht : exec (step json presence) (init bridges) es = some t)
    (hstep : t.step json presence e = some t') (hspares : OnNet (Spares u) t e) :
    LastCommand json presence bridges u (es ++ [e]) s c w update := by
  obtain ⟨pre, db, post, s', rfl, hs, hs', hhead, hu, hd, hall⟩ := h
  refine ⟨pre, db, post ++ [e], s', by simp, hs, hs', hhead, hu, hd, ?_⟩
  have hpost : exec (step json presence) s' post = some t := by
    obtain ⟨r, hr, hrest⟩ := exec_append.1 ht
    obtain rfl := Option.some.inj (hs.symm.trans hr)
    obtain ⟨r', hr', hpost⟩ := exec_cons.1 hrest
    obtain rfl := Option.some.inj (hs'.symm.trans hr')
    exact hpost
  exact (along_append hpost).2 ⟨hall, (along_cons hstep).2 ⟨hspares, trivial⟩⟩

/-- A key that is there is what the last command set. -/
theorem last_command (u : UserId) (es : List (KeyAction ι)) (t : KeyNet ι)
    (hrun : exec (step json presence) (init bridges) es = some t) (key : PresenceKey)
    (deadline : ℕ) (hkey : t.redis.entries u = some (key, deadline)) :
    ∃ s c w update, LastCommand json presence bridges u es s c w update ∧
      update.status ≠ .offline ∧ deadline = s.now + 300 * 1000 ∧
      key = ⟨update.status, (s.net.nodes c).host.bridge.nodeId, w.updatedAt, 300⟩ := by
  refine exec_history (J := fun es t => ∀ key deadline,
    t.redis.entries u = some (key, deadline) → ∃ s c w update,
      LastCommand json presence bridges u es s c w update ∧ update.status ≠ .offline ∧
      deadline = s.now + 300 * 1000 ∧
      key = ⟨update.status, (s.net.nodes c).host.bridge.nodeId, w.updatedAt, 300⟩)
    (fun key deadline h => nomatch show none = some (key, deadline) from h) ?_ (along_true _ es)
    hrun key deadline hkey
  intro es r e t h hr _ hstep key deadline hkey
  obtain ⟨e', net, rfl, hnet, rfl⟩ | ⟨ms, rfl, rfl⟩ := step_cases hstep
  · by_cases hspares : Spares u r.net e'
    · rw [entries_executeOption_of_ne hspares] at hkey
      obtain ⟨s, c, w, update, hlast, hrest⟩ := h key deadline hkey
      exact ⟨s, c, w, update, hlast.snoc hr hstep hspares, hrest⟩
    · simp only [Spares, not_forall, not_not] at hspares
      obtain ⟨d, hd, rfl⟩ := hspares
      obtain ⟨c, db, w, update, rfl, hhead, hcommand⟩ := command_cases hd
      rw [Option.mem_def.1 hd, executeOption, Option.elim_some, entries_execute, if_pos rfl,
        entry_of_command _ hcommand] at hkey
      split_ifs at hkey with hoffline
      obtain ⟨rfl, rfl⟩ := Prod.mk.inj (Option.some.inj hkey)
      exact ⟨r, c, w, update, ⟨es, db, [], _, rfl, hr, hstep, hhead,
        (key_of_command hcommand).symm, Option.isSome_of_mem hcommand, trivial⟩, hoffline, rfl, rfl⟩
  · obtain ⟨s, c, w, update, hlast, hrest⟩ := h key deadline hkey
    exact ⟨s, c, w, update, hlast.snoc hr hstep trivial, hrest⟩

/-! ## What is read is fresh -/

theorem run_keys (hrun : exec (step json presence) (init bridges) es = some t) (u : UserId) :
    (t.redis.entries u).map Prod.fst = t.net.keys.lookup u := by
  refine exec_invariant (I := fun s : KeyNet ι =>
    (s.redis.entries u).map Prod.fst = s.net.keys.lookup u) ?_ rfl hrun
  intro s e t h hstep
  obtain ⟨e', net, rfl, hnet, rfl⟩ | ⟨ms, rfl, rfl⟩ := step_cases hstep
  · dsimp only
    rw [net_keys hnet]
    cases hd : s.net.command e' with
    | none => exact h
    | some d =>
      rw [executeOption, Option.elim_some, Option.elim_some, entries_execute]
      split_ifs
      · cases d <;> rfl
      · exact h
  · exact h

theorem run_bridge (hrun : exec (step json presence) (init bridges) es = some t) (b : ι) :
    (t.net.nodes b).host.bridge = bridges b := by
  refine exec_invariant (I := fun s : KeyNet ι => (s.net.nodes b).host.bridge = bridges b) ?_ rfl
    hrun
  intro s e t h hstep
  obtain ⟨e', net, rfl, hnet, rfl⟩ | ⟨ms, rfl, rfl⟩ := step_cases hstep
  · obtain ⟨c, e', nd, rfl, hnd, rfl⟩ |
      ⟨c, db, w, update, flushing, f, rfl, hflushing, hf, hnodes⟩ := PresenceNet.step_cases hnet
    · dsimp only
      by_cases hb : b = c
      · subst hb
        rw [Function.update_self, ← h]
        obtain ⟨a, p, -, hp, rfl⟩ | ⟨event, queue, -, -, -, rfl⟩ |
          ⟨message, inbox, pipes, -, -, -, rfl⟩ | ⟨-, rfl⟩ | ⟨c, -, -, rfl⟩ |
          ⟨sid, closed, -, -, rfl⟩ | ⟨userIds, event, pipes, -, -, -, rfl⟩ :=
          PresencePath.step_cases hnd
        all_goals rfl
      · rw [Function.update_of_ne hb]
        exact h
    · obtain ⟨-, -, hhost, -, -⟩ := PresenceNet.flush_node hflushing hnodes 0 b
      rw [hhost, ← h]
      split_ifs <;> rfl
  · exact h

theorem run_supplied (hrun : exec (step json presence) (init bridges) es = some t) (u : UserId)
    (c : ι) : t.net.Supplied u c := by
  have hinit : (init bridges).net.Supplied u c := ⟨[], KeepsLast.refl []⟩
  refine exec_invariant (I := fun s : KeyNet ι => s.net.Supplied u c) ?_ hinit hrun
  intro s e t h hstep
  obtain ⟨e', net, rfl, hnet, rfl⟩ | ⟨ms, rfl, rfl⟩ := step_cases hstep
  · exact PresenceNet.step_supplied h hnet
  · exact h

/-- **What is read is fresh.** -/
theorem presence_fresh (u : UserId) (es : List (KeyAction ι)) (t : KeyNet ι)
    (hrun : exec (step json presence) (init bridges) es = some t) (b : ι)
    (redis : Except String Unit) (key : PresenceKey)
    (hget : (bridges b).getPresence redis t.redis t.now u = .ok (some key)) :
    t.net.keys.lookup u = some key ∧
    ∃ s c w update, LastCommand json presence bridges u es s c w update ∧
      key = ⟨update.status, (bridges c).nodeId, w.updatedAt, 300⟩ ∧ update.status ≠ .offline ∧
      update.status ∈ (s.net.nodes c).announced u ∧ t.now < s.now + 300 * 1000 := by
  have hstore : t.redis.get t.now u = some key := by
    unfold RedisBridge.getPresence at hget
    split_ifs at hget
    · cases hget
    · cases redis with
      | error e => cases hget
      | ok => exact Except.ok.inj hget
  obtain ⟨deadline, hentry, hnow⟩ := get_eq_some.1 hstore
  refine ⟨by rw [← run_keys hrun, hentry]; rfl, ?_⟩
  obtain ⟨s, c, w, update, hlast, hoffline, rfl, rfl⟩ :=
    last_command u es t hrun key deadline hentry
  have hprefix := hlast
  obtain ⟨pre, db, post, s', -, hs, -, hhead, hu, -, -⟩ := hprefix
  obtain ⟨done, hdone⟩ := run_supplied hs u c
  have hannounced := hdone.sublist.subset (List.mem_append_right done (head_ahead hhead hu))
  exact ⟨s, c, w, update, hlast, by rw [run_bridge hs], hoffline, hannounced, hnow⟩

/-- User 7 becomes idle, and then time passes. -/
def idleFor (ms : ℕ) : List (KeyAction Bool) :=
  comesIdle.map .net ++ [.wait ms]

def idleKey : PresenceKey := ⟨.idle, "node-1", 0, 300⟩

/-- The second node reads the key for 300 s. -/
theorem presence_fresh_idle :
    ∃ t, exec (step Subscriber.noJson idlePresence) (init twoBridges)
        (idleFor 299999) = some t ∧ t.net.keys.lookup 7 = some idleKey ∧
      ∃ s c w update, LastCommand Subscriber.noJson idlePresence twoBridges 7
          (idleFor 299999) s c w update ∧
        idleKey = ⟨update.status, (twoBridges c).nodeId, w.updatedAt, 300⟩ ∧
        update.status ≠ .offline ∧ update.status ∈ (s.net.nodes c).announced 7 ∧
        t.now < s.now + 300 * 1000 :=
  ⟨_, rfl, presence_fresh 7 (idleFor 299999) _ rfl false (.ok ()) idleKey
    (congrArg Except.ok (get_eq_some.2
      ⟨0 + 300 * 1000, rfl, (by omega : 0 + 299999 < 0 + 300 * 1000)⟩))⟩

/-! ## What is kept -/

/-- If the step flushes an update of the user, the lookup and the command of Redis succeed. -/
def Stored (u : UserId) (s : PresenceNet ι) : NetAction ι → Prop
  | .flush c _ w => ∀ update ∈ (s.nodes c).flushing.head?, update.userId = u →
      (s.nodes c).host.bridge.disabled = false ∧ w.colocated = .ok () ∧ w.store = .ok ()
  | .node _ _ => True

instance (u : UserId) (s : PresenceNet ι) : (e : NetAction ι) → Decidable (Stored u s e)
  | .flush c _ w => inferInstanceAs (Decidable (∀ update ∈ (s.nodes c).flushing.head?,
      update.userId = u →
        (s.nodes c).host.bridge.disabled = false ∧ w.colocated = .ok () ∧ w.store = .ok ()))
  | .node _ _ => .isTrue trivial

/-- What was flushed and what is before the flush end with what was announced last, and the store
has what was flushed last. -/
structure Kept (bridges : ι → RedisBridge) (presence : Serde PresencePayload) (u : UserId) (a : ι)
    (s : KeyNet ι) : Prop where
  inv : s.net.Inv bridges
  home : s.net.Home presence u a
  publishing : (s.net.nodes a).publishing.Inv
  stored : ∃ done, KeepsLast ((s.net.nodes a).announced u) (done ++ (s.net.nodes a).ahead u) ∧
    (s.redis.entries u).map (fun entry => entry.1.status) = done.getLast?.filter (· ≠ .offline)

/-- The calls are on node `a`, and in time, and the flushes of the user are executed. -/
def Settles (u : UserId) (a : ι) (s : PresenceNet ι) (e : NetAction ι) : Prop :=
  PresenceNet.CallsAt u a e ∧ PresenceNet.OnTime a s e ∧ Stored u s e

instance (u : UserId) (a : ι) (s : PresenceNet ι) (e : NetAction ι) :
    Decidable (Settles u a s e) :=
  inferInstanceAs (Decidable (_ ∧ _ ∧ _))

theorem node_of_head {s : PresenceNet ι} (h : s.Home presence u a)
    (hhead : update ∈ (s.nodes c).flushing.head?) (hu : update.userId = u) : c = a := by
  by_contra hc
  have hmem := head_ahead hhead hu
  rw [h.ahead c hc] at hmem
  exact absurd hmem List.not_mem_nil

theorem filter_eq (status : Option PresenceStatus) : status.filter (· ≠ .offline) =
    if status.getD .offline = .offline then none else some (status.getD .offline) := by
  cases status with
  | none => rfl
  | some status => by_cases h : status = .offline <;> simp [Option.filter_some, h]

omit [DecidableEq ι] in
theorem flush_stored {s : KeyNet ι} {db : Database} (hu : update.userId = u)
    (hhead : update ∈ (s.net.nodes c).flushing.head?) (hstored : Stored u s.net (.flush c db w)) :
    ((s.redis.executeOption s.now (s.net.command (.flush c db w))).entries u).map
      (fun entry => entry.1.status) = (some update.status).filter (· ≠ .offline) := by
  obtain ⟨henabled, hcolocated, hstore⟩ := hstored update hhead hu
  obtain ⟨d, hcommand⟩ : ∃ d, (s.net.nodes c).host.command update w = some d := by
    rw [PresenceHost.command, henabled, hcolocated, hstore]
    exact ⟨_, rfl⟩
  have hentry := entry_of_command s.now hcommand
  have hnet : s.net.command (.flush c db w) = some d := by
    rw [PresenceNet.command, Option.mem_def.1 hhead, Option.bind_some, hcommand]
  rw [hnet, executeOption, Option.elim_some, entries_execute,
    if_pos (hu.symm.trans (key_of_command hcommand).symm), hentry, filter_eq, Option.getD_some]
  split_ifs <;> rfl

theorem step_stored {s : KeyNet ι} {e : NetAction ι} {done : List PresenceStatus}
    (hhome : s.net.Home presence u a) (hstored : Stored u s.net e)
    (h : (s.redis.entries u).map (fun entry => entry.1.status) =
      done.getLast?.filter (· ≠ .offline)) :
    ((s.redis.executeOption s.now (s.net.command e)).entries u).map
        (fun entry => entry.1.status) =
      (done ++ s.net.flushes u a e).getLast?.filter (· ≠ .offline) := by
  cases e with
  | node c e' =>
    rw [PresenceNet.flushes, List.append_nil]
    exact h
  | flush c db w =>
    by_cases hflush : ∃ update ∈ (s.net.nodes c).flushing.head?, update.userId = u
    · obtain ⟨update, hhead, hu⟩ := hflush
      obtain rfl := node_of_head hhome hhead hu
      have hflushes : s.net.flushes u c (.flush c db w) = [update.status] := by
        rw [PresenceNet.flushes, if_pos rfl, Option.mem_def.1 hhead, Option.toList_some,
          statuses_cons, if_pos hu]
        rfl
      rw [hflushes, List.getLast?_concat]
      exact flush_stored hu hhead hstored
    · have hne (update : PendingUpdate) (hhead : update ∈ (s.net.nodes c).flushing.head?) :
          update.userId ≠ u := fun hu => hflush ⟨update, hhead, hu⟩
      have hflushes : s.net.flushes u a (.flush c db w) = [] := by
        rw [PresenceNet.flushes]
        cases hhead : (s.net.nodes c).flushing.head? with
        | none => exact ite_self _
        | some update =>
          rw [Option.toList_some, statuses_cons, if_neg (hne update hhead)]
          exact ite_self _
      rw [hflushes, List.append_nil, entries_executeOption_of_ne]
      · exact h
      · intro d hd
        obtain ⟨c', db', w', update, heq, hhead, hcommand⟩ := command_cases hd
        cases heq
        rw [key_of_command hcommand]
        exact hne update hhead

theorem step_kept (hround : presence.RoundTrip) {e : KeyAction ι}
    (h : s.Kept bridges presence u a) (hok : OnNet (Settles u a) s e)
    (hstep : s.step json presence e = some t) : t.Kept bridges presence u a := by
  obtain ⟨e', net, rfl, hnet, rfl⟩ | ⟨ms, rfl, rfl⟩ := step_cases hstep
  · obtain ⟨hcalls, honTime, hstored⟩ := hok
    refine ⟨PresenceNet.step_inv hround h.inv hnet,
      PresenceNet.step_home hround h.inv h.home hcalls hnet,
      PresenceNet.step_publishing h.publishing honTime hnet, ?_⟩
    obtain ⟨done, hdone, hentry⟩ := h.stored
    exact ⟨_, PresenceNet.step_supply hdone hnet, step_stored h.home hstored hentry⟩
  · exact ⟨h.inv, h.home, h.publishing, h.stored⟩

/-- **The key of a user** whose status has reached Redis. -/
theorem presence_kept (hround : presence.RoundTrip) (u : UserId) (a : ι) (es : List (KeyAction ι))
    (t : KeyNet ι) (hrun : exec (step json presence) (init bridges) es = some t)
    (hok : Along (step json presence) (OnNet (Settles u a)) (init bridges) es)
    (hrest : ∀ n p, (t.net.nodes a).publishing.outgoing.lookup n = some p → p.1 ≠ u)
    (hahead : (t.net.nodes a).ahead u = []) :
    ((t.net.nodes a).publishing.tracker.getStatus u = .offline →
      ∀ b, (bridges b).getPresence (.ok ()) t.redis t.now u = .ok none) ∧
    ((t.net.nodes a).publishing.tracker.getStatus u ≠ .offline →
      ∃ s w update, LastCommand json presence bridges u es s a w update ∧
        update.status = (t.net.nodes a).publishing.tracker.getStatus u ∧
        ∀ b, (bridges b).disabled = false →
          (bridges b).getPresence (.ok ()) t.redis t.now u = .ok (if t.now < s.now + 300 * 1000 then
            some ⟨update.status, (bridges a).nodeId, w.updatedAt, 300⟩ else none)) := by
  have hinit : (init bridges).Kept bridges presence u a :=
    ⟨PresenceNet.init_inv bridges, PresenceNet.init_home presence bridges u a, Publishing.init_inv,
      [], KeepsLast.refl [], rfl⟩
  have hkept : t.Kept bridges presence u a :=
    exec_invariant_along (fun _ _ _ h hok => step_kept hround h hok) hinit hok hrun
  obtain ⟨done, hdone, hentry⟩ := hkept.stored
  rw [hahead, List.append_nil] at hdone
  rw [hdone.last, filter_eq, ← PresenceNet.getStatus_eq hkept.publishing hrest] at hentry
  constructor
  · intro hoffline b
    rw [if_pos hoffline] at hentry
    have hget : t.redis.get t.now u = none := by
      rw [Expiring.get, Option.map_eq_none_iff.1 hentry, Option.bind_none]
    rw [RedisBridge.getPresence, hget]
    split_ifs <;> rfl
  · intro honline
    rw [if_neg honline] at hentry
    obtain ⟨⟨key, deadline⟩, hkey, hstatus⟩ := Option.map_eq_some_iff.1 hentry
    obtain ⟨s, c, w, update, hcommand, -, rfl, rfl⟩ := last_command u es t hrun key deadline hkey
    have hprefix := hcommand
    obtain ⟨pre, db, post, s', rfl, hs, -, hhead, hu, -, -⟩ := hprefix
    have hkept' : s.Kept bridges presence u a :=
      exec_invariant_along (fun _ _ _ h hok => step_kept hround h hok) hinit
        ((along_append hs).1 hok).1 hs
    obtain rfl := node_of_head hkept'.home hhead hu
    refine ⟨s, w, update, hcommand, hstatus, fun b henabled => ?_⟩
    rw [RedisBridge.getPresence, if_neg (by simp [henabled]), Expiring.get, hkey, Option.bind_some,
      run_bridge hs]

/-- User 7 is idle for longer than the key lives. -/
theorem presence_kept_idle :
    ∃ t, exec (step Subscriber.noJson idlePresence) (init twoBridges)
        (idleFor 300000) = some t ∧
      ∃ s w update, LastCommand Subscriber.noJson idlePresence twoBridges 7
          (idleFor 300000) s true w update ∧
        update.status = (t.net.nodes true).publishing.tracker.getStatus 7 ∧
        ∀ b, (twoBridges b).disabled = false →
          (twoBridges b).getPresence (.ok ()) t.redis t.now 7 =
            .ok (if t.now < s.now + 300 * 1000 then
              some ⟨update.status, "node-1", w.updatedAt, 300⟩ else none) :=
  ⟨_, rfl, (@presence_kept Bool _ Subscriber.noJson idlePresence twoBridges
    (Serde.single_roundTrip _ _) 7 true (idleFor 300000) _ rfl (by decide)
    (fun _ p hp => nomatch show none = some p from hp) rfl).2 (by decide)⟩

end KeyNet

end RustRelay
