import RustRelay.Gateway.Stream
import RustRelay.ReadState.Shutdown

/-!
# Read states in READY

`build_ready_payload` asks the table for the user's read states. An acknowledgement reaches the
table with the next flush that succeeds; until then it is in the write buffer, which nothing but
`drain` reads.

**Theorem (`ready_read_states`).** With no flush in progress, READY shows exactly the stored rows;
the larger of the stored and the buffered id is the maximum of the first row and all
acknowledgements; so READY shows that maximum exactly in the channels for which nothing larger is
buffered.

The server here is the write buffer in front of the tables of the source (`Stored`): the database
answers by running the statement. Its steps are steps of `Buffered` (`step_server`), so what that
machine holds is held here.
-/

namespace RustRelay

open MaxMerge Machine Sql

/-! ## What the table says -/

theorem mem_getUserReadStates {db : Database} {u : UserId} {c : ChannelId} {m : MessageId} :
    ⟨c, m⟩ ∈ getUserReadStates db u ↔ db.lastRead (u, c) = m := by
  have hrow : db.lastRead (u, c) = m ↔
      ∃ row, db.readStates.lookup (u, c) = some row ∧ row.lastReadMessageId = m := by
    rw [Database.lastRead]
    cases db.readStates.lookup (u, c) with
    | none => simp
    | some row => simp
  rw [hrow, getUserReadStates, List.mem_map]
  constructor
  · intro hentry
    obtain ⟨⟨⟨u', c'⟩, row⟩, he, heq⟩ := hentry
    obtain ⟨hmem, hu⟩ := List.mem_filter.1 he
    obtain rfl : u' = u := by simpa using hu
    obtain ⟨rfl, rfl⟩ := ReadState.mk.inj heq
    exact ⟨row, (List.mem_dlookup_iff db.readStates.nodupKeys).2 hmem, rfl⟩
  · intro hlook
    obtain ⟨row, hlook, rfl⟩ := hlook
    refine ⟨⟨(u, c), row⟩, List.mem_filter.2 ⟨List.of_mem_dlookup hlook, ?_⟩, rfl⟩
    exact decide_eq_true rfl

/-- The key of the table is the pair, so a user has one row for a channel. -/
theorem getUserReadStates_nodup (db : Database) (u : UserId) :
    ((getUserReadStates db u).map ReadState.channelId).Nodup := by
  have hkeys : ((db.readStates.entries.filter fun e => e.1.1 = u).map Sigma.fst).Nodup :=
    List.NodupKeys.sublist List.filter_sublist db.readStates.nodupKeys
  have huser : ∀ k ∈ (db.readStates.entries.filter fun e => e.1.1 = u).map Sigma.fst, k.1 = u := by
    intro k hk
    obtain ⟨e, he, rfl⟩ := List.mem_map.1 hk
    simpa using (List.mem_filter.1 he).2
  have hchannels := hkeys.map_on fun k hk k' hk' (hsame : k.2 = k'.2) =>
    Prod.ext ((huser k hk).trans (huser k' hk').symm) hsame
  rw [getUserReadStates, List.map_map]
  rw [List.map_map] at hchannels
  exact hchannels

/-- What a client reads in an event: the largest id it has for a channel. -/
def ServerEvent.readMarker : ServerEvent → ChannelId → WithBot MessageId
  | .ready _ _ _ readStates _, c =>
    maxAt (readStates.map fun r => (r.channelId, r.lastReadMessageId)) c
  | _, _ => ⊥

theorem readMarker_ready {db : Database} {u : UserId} {w : ReadyAnswers}
    (hw : w.readStates = .ok (getUserReadStates db u)) (username : String) (sid : SessionId)
    (c : ChannelId) :
    (buildReadyPayload w u username sid).readMarker c = db.lastRead (u, c) := by
  show maxAt ((w.readStates.toOption.getD []).map fun r => (r.channelId, r.lastReadMessageId)) c = _
  rw [hw]
  apply le_antisymm
  · rw [maxAt_le_iff]
    intro m hm
    obtain ⟨⟨c', m'⟩, hr, heq⟩ := List.mem_map.1 hm
    obtain ⟨rfl, rfl⟩ := Prod.mk.inj heq
    exact (mem_getUserReadStates.1 hr).ge
  · cases hrow : db.lastRead (u, c) with
    | bot => exact bot_le
    | coe m =>
      exact maxAt_le_iff.1 le_rfl m (List.mem_map.2 ⟨⟨c, m⟩, mem_getUserReadStates.2 hrow, rfl⟩)

/-! ## The bulk statement, when it succeeds -/

/-- **The statement max-merges what it takes.** -/
theorem lastRead_upsert {db db' : Database} {now : Timestamp} {updates : List ReadUpdate}
    (h : upsertReadStatesBatch db now updates = .ok db') (key : UserId × ChannelId) :
    db'.lastRead key = db.lastRead key ⊔ ackMax updates key := by
  cases updates with
  | nil =>
    obtain rfl := Except.ok.inj h
    exact (sup_bot_eq _).symm
  | cons x rest =>
    cases rest with
    | cons y rest =>
      obtain ⟨e, he⟩ := upsert_error db now (show 1 < (x :: y :: rest).length by simp)
      rw [he] at h
      cases h
    | nil =>
      obtain ⟨u, c, m⟩ := x
      rw [upsertReadStatesBatch_singleton] at h
      cases hexec : (readStateUpsert db now).execute db.readStates
          [(some u, some c, some m, some now)] with
      | error e =>
        rw [hexec] at h
        cases h
      | ok table =>
        rw [hexec] at h
        obtain rfl := Except.ok.inj h
        obtain ⟨hval, hframe⟩ := (readStateUpsert db now).execute_lookup
          (show [(some u, some c, some m, some now)].map (readStateUpsert db now).constrain =
            [((u, c), (⟨m, now⟩ : ReadStateRow))].map .ok from rfl) (List.nodup_singleton _) hexec
        rw [ackMax_singleton]
        split_ifs with hkey
        · obtain rfl : (u, c) = key := hkey
          rw [Database.lastRead, hval _ _ List.mem_cons_self]
          exact outcome_lastRead db now _ _
        · rw [sup_bot_eq, Database.lastRead, hframe key (by simpa [keyOf] using Ne.symm hkey)]
          rfl

/-! ## The buffer in front of the tables -/

/-- A server and its database. What `server.table` says is what the rows say. -/
structure Stored where
  server : Buffered
  db : Database

namespace Stored

/-- An empty buffer. -/
def init (db : Database) : Stored := ⟨.init db.lastRead, db⟩

inductive Action
  /-- A client, or the flusher away from the database. -/
  | server (a : Buffered.Action)
  /-- The statement runs for the next chunk. -/
  | statement (connection : Except DbError Unit) (now : Timestamp)

def step (batchThreshold : ℕ) (s : Stored) : Action → Option Stored
  | .server (.answer _) => none
  | .server a => (s.server.step batchThreshold a).map fun server => { s with server := server }
  | .statement connection now => match s.server.flusher with
    | .flushing (chunk :: _) => match upsertOver connection now s.db chunk with
      | .ok db => (s.server.step batchThreshold (.answer true)).map fun server => ⟨server, db⟩
      | .error _ => (s.server.step batchThreshold (.answer false)).map fun server =>
        { s with server := server }
    | _ => none

/-- The acknowledgements among the actions of a run. -/
def acks (as : List Action) : List ReadUpdate :=
  Buffered.acks (as.filterMap fun a => match a with
    | .server a => some a
    | .statement _ _ => none)

theorem table_step {batchThreshold : ℕ} {s t : Buffered} {a : Buffered.Action}
    (h : s.step batchThreshold a = some t) (ha : ∀ ok, a ≠ .answer ok) : t.table = s.table := by
  cases a with
  | answer ok => exact absurd rfl (ha ok)
  | advance => exact (Buffered.held_advance h (0, 0)).2
  | update x =>
    obtain rfl := Option.some.inj h
    rfl
  | countPending | countTotal | tick | iterate | collected keys =>
    exact (Buffered.step_quiet h rfl).table

/-- **The steps are steps of the buffer**, the statement standing for the answer it gives; and
the table of the buffer stays what the rows say. -/
theorem step_server {batchThreshold : ℕ} {s t : Stored} {a : Action}
    (h : step batchThreshold s a = some t) (htable : s.server.table = s.db.lastRead) :
    ∃ b, s.server.step batchThreshold b = some t.server ∧ Buffered.acks [b] = acks [a] ∧
      t.server.table = t.db.lastRead := by
  cases a with
  | server b =>
    have hanswer : ∀ ok, b ≠ .answer ok := by
      rintro ok rfl
      cases h
    have hstep : (s.server.step batchThreshold b).map
        (fun server => ({ s with server := server } : Stored)) = some t := by
      rw [← h]
      cases b with
      | answer ok => exact absurd rfl (hanswer ok)
      | _ => rfl
    obtain ⟨server, hserver, rfl⟩ := Option.map_eq_some_iff.1 hstep
    exact ⟨b, hserver, rfl, (table_step hserver hanswer).trans htable⟩
  | statement connection now =>
    obtain ⟨⟨cache, table, flusher, p, q⟩, db⟩ := s
    obtain rfl : table = db.lastRead := htable
    cases flusher with
    | flushing chunks =>
      cases chunks with
      | nil => cases h
      | cons chunk chunks =>
        simp only [step] at h
        cases hresult : upsertOver connection now db chunk with
        | error e =>
          rw [hresult] at h
          obtain rfl := Option.some.inj h
          exact ⟨.answer false, rfl, rfl, rfl⟩
        | ok db' =>
          rw [hresult] at h
          obtain rfl := Option.some.inj h
          refine ⟨.answer true, rfl, rfl, ?_⟩
          funext key
          cases connection with
          | error e => cases hresult
          | ok _ => exact (lastRead_upsert hresult key).symm
    | _ => cases h

theorem acks_cons (a : Action) (as : List Action) : acks (a :: as) = acks [a] ++ acks as := by
  cases a with
  | server b => exact Buffered.acks_cons b _
  | statement connection now => rfl

/-- **Whole runs**: the rows are the table, and what is held for a key is what was held at the
start and what was acknowledged on the way. -/
theorem held_exec {batchThreshold : ℕ} {s t : Stored} {as : List Action}
    (h : exec (step batchThreshold) s as = some t) (htable : s.server.table = s.db.lastRead) :
    t.server.table = t.db.lastRead ∧
      ∀ key, t.server.held key = s.server.held key ⊔ ackMax (acks as) key := by
  induction as generalizing s with
  | nil =>
    obtain rfl : s = t := by simpa using h
    exact ⟨htable, fun key => (sup_bot_eq _).symm⟩
  | cons a as ih =>
    obtain ⟨r, hr, ht⟩ := exec_cons.1 h
    obtain ⟨b, hb, hacks, htable'⟩ := step_server hr htable
    obtain ⟨hrows, hheld⟩ := ih ht htable'
    refine ⟨hrows, ?_⟩
    intro key
    rw [hheld, (Buffered.held_step hb key).1, hacks, acks_cons a as, ackMax_append, sup_assoc]

/-- **READY shows the rows, and misses what is buffered.** At any point of a run with no flush in
progress. -/
theorem ready_read_states (batchThreshold : ℕ) (db : Database) (as : List Action) (s : Stored)
    (hs : exec (step batchThreshold) (init db) as = some s) (hidle : s.server.flusher = .idle)
    (u : UserId) (w : ReadyAnswers) (hw : w.readStates = .ok (getUserReadStates s.db u))
    (username : String) (sid : SessionId) :
    let ready := buildReadyPayload w u username sid
    ((getUserReadStates s.db u).map ReadState.channelId).Nodup ∧
      (∀ c, ready.readMarker c = s.db.lastRead (u, c)) ∧
      (∀ c, s.db.lastRead (u, c) ⊔ rowAt s.server.cache.pending (u, c) =
        db.lastRead (u, c) ⊔ ackMax (acks as) (u, c)) ∧
      ∀ c, ready.readMarker c = db.lastRead (u, c) ⊔ ackMax (acks as) (u, c) ↔
        rowAt s.server.cache.pending (u, c) ≤ s.db.lastRead (u, c) := by
  obtain ⟨htable, hheld⟩ := held_exec hs rfl
  have hmax (c : ChannelId) : s.db.lastRead (u, c) ⊔ rowAt s.server.cache.pending (u, c) =
      db.lastRead (u, c) ⊔ ackMax (acks as) (u, c) := by
    have hkey := hheld (u, c)
    rw [Buffered.held, hidle, htable, init, Buffered.held_init] at hkey
    rw [← hkey]
    exact (sup_bot_eq _).symm
  refine ⟨getUserReadStates_nodup s.db u, readMarker_ready hw username sid, hmax, ?_⟩
  intro c
  rw [readMarker_ready hw, ← hmax c, eq_comm, sup_eq_left]

/-- Message 7 is acknowledged and flushed. -/
def flushedRun : List Action :=
  [.server (.update (1, 20, 7)), .server .countPending, .server .countTotal, .server .tick,
    .server .iterate, .server (.collected [(1, 20)]), .server .advance, .server .advance,
    .statement (.ok ()) 0, .server .advance]

/-- User 1 reconnects after the flush. -/
theorem ready_read_states_flushed :
    ∃ s, exec (step 1000) (init twoUsers) flushedRun = some s ∧
      (∀ c, (buildReadyPayload ⟨.ok [], .ok (getUserReadStates s.db 1), 30000⟩ 1 "ann"
        100).readMarker c = s.db.lastRead (1, c)) :=
  ⟨_, rfl, (ready_read_states 1000 twoUsers flushedRun _ rfl rfl 1
    ⟨.ok [], .ok (getUserReadStates _ 1), 30000⟩ rfl "ann" 100).2.1⟩

/-- **READY lags behind the buffer**: the user acknowledges a message and reconnects before the
next flush. -/
theorem ready_misses_buffered :
    ¬ ∀ (batchThreshold : ℕ) (db : Database) (as : List Action) (s : Stored),
      exec (step batchThreshold) (init db) as = some s → s.server.flusher = .idle →
      ∀ (u : UserId) (w : ReadyAnswers), w.readStates = .ok (getUserReadStates s.db u) →
      ∀ (username : String) (sid : SessionId) (c : ChannelId),
        (buildReadyPayload w u username sid).readMarker c =
          db.lastRead (u, c) ⊔ ackMax (acks as) (u, c) := by
  intro h
  have hmarker := h 1000 twoUsers [.server (.update (1, 20, 7))] _ rfl rfl 1
    ⟨.ok [], .ok [], 30000⟩ rfl "ann" 100 20
  have hread : twoUsers.lastRead (1, 20) ⊔ ackMax (acks [.server (.update (1, 20, 7))]) (1, 20) =
      ((7 : MessageId) : WithBot MessageId) := rfl
  rw [hread] at hmarker
  cases hmarker

end Stored

end RustRelay
