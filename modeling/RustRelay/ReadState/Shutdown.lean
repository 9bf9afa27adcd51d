import RustRelay.ReadState.Buffer

/-!
# Shutting down

`flush_now` drains the map and writes the batch in one statement. The flusher task keeps running
meanwhile, and nothing orders the two: either may iterate, remove and write between any two
operations of the other. No client writes once `flush_now` has been called, and every statement
succeeds. When the drain of `flush_now` is over the map is empty (`Inv`), because the iteration
misses no entry that was there from the start and none is added.

**Theorem (`flush_now_keeps_buffer_iff`).** Where the statement may fail, and nothing else runs:
an error leaves the map empty, so the entries survive exactly if there is none or the statement
takes them. The flusher puts a failed chunk back; `flush_now` does not.
-/

namespace RustRelay

open MaxMerge Machine

/-- Where `flush_now` stands. -/
inductive FlushNow
  /-- Not called yet. -/
  | serving
  /-- Iterating: `old` are the keys that were there from the start. -/
  | collecting (old : List (UserId × ChannelId))
  /-- The loop of `drain`: keys still to remove, batch so far. -/
  | draining (keys : List (UserId × ChannelId)) (batch : List ReadUpdate)
  /-- The batch is at the database. -/
  | writing (batch : List ReadUpdate)
  /-- It returned. -/
  | returned

/-- The updates that `flush_now` has taken from the map and not yet written. -/
def FlushNow.inFlight : FlushNow → List ReadUpdate
  | .serving | .collecting _ | .returned => []
  | .draining _ batch | .writing batch => batch

/-- The keys that may still be in the map. -/
def FlushNow.Leaves (key : UserId × ChannelId) : FlushNow → Prop
  | .serving => True
  | .collecting old => key ∈ old
  | .draining keys _ => key ∈ keys
  | .writing _ | .returned => False

/-- A failed chunk is being put back. -/
def Flusher.rebuffers : Flusher → Bool
  | .rebuffering _ _ | .countingPending _ _ | .countingTotal _ _ => true
  | .idle | .ticked | .collecting _ | .draining _ _ | .flushing _ => false

section
variable {δ : Type*} (upsert : δ → List ReadUpdate → Except DbError δ)

/-- `flush_now`, without interference, given the order in which the map is iterated. -/
def flushNow (keys : List (UserId × ChannelId)) (s : ReadStateCache × δ) :
    (ReadStateCache × δ) × Except DbError Unit :=
  let (batch, cache) := s.1.drain keys
  if batch.isEmpty then ((cache, s.2), .ok ())
  else match upsert s.2 batch with
    | .ok db => ((cache, db), .ok ())
    | .error e => ((cache, s.2), .error e)

end

structure Shutdown where
  server : Buffered
  flush : FlushNow

namespace Shutdown

/-- A server in front of a table, long before its shutdown. -/
def init (table : UserId × ChannelId → WithBot MessageId) : Shutdown := ⟨.init table, .serving⟩

inductive Action
  /-- A client or the flusher. -/
  | server (a : Buffered.Action)
  /-- The flusher's iteration ends with these keys. -/
  | collected (keys : List (UserId × ChannelId))
  /-- `flush_now` is called and starts iterating over the map. -/
  | call
  /-- Its iteration ends with these keys. -/
  | flushCollected (keys : List (UserId × ChannelId))
  /-- Its next operation. -/
  | flushAdvance

/-- The steps of clients and flusher that can occur: no update after the call, no failing
statement. Of an iteration that `flush_now` may disturb, see `collected`. -/
def Allows (s : Shutdown) : Buffered.Action → Bool
  | .update _ => match s.flush with
    | .serving => true
    | _ => false
  | .answer ok => ok
  | .collected _ => false
  | .countPending | .countTotal | .tick | .iterate | .advance => true

/-- An iteration over the map ends with these keys: each one once, and none is missed that was
there from the start and still is. A key that another task has removed may be among them. -/
def Iterated (s : Shutdown) (old keys : List (UserId × ChannelId)) : Prop :=
  keys.Nodup ∧ ∀ key ∈ old, key ∈ s.server.cache.pending.keys → key ∈ keys

instance (s : Shutdown) (old keys : List (UserId × ChannelId)) : Decidable (s.Iterated old keys) :=
  inferInstanceAs (Decidable (_ ∧ _))

/-- The operation of `flush_now` in a state where nothing is left to choose. -/
def flushAdvance (s : Shutdown) : Option Shutdown :=
  match s.flush with
  | .draining (key :: keys) batch =>
    let (item, cache) := s.server.cache.drainKey key
    some ⟨{ s.server with cache := cache }, .draining keys (batch ++ item)⟩
  | .draining [] batch =>
    some ⟨{ s.server with cache := { s.server.cache with pendingCount := 0 } },
      if batch.isEmpty then .returned else .writing batch⟩
  | .writing batch =>
    some ⟨{ s.server with table := fun key => s.server.table key ⊔ ackMax batch key }, .returned⟩
  | .serving | .collecting _ | .returned => none

def step (batchThreshold : ℕ) (s : Shutdown) : Action → Option Shutdown
  | .server a =>
    if s.Allows a then
      (Buffered.step batchThreshold s.server a).map fun server => { s with server := server }
    else none
  | .collected keys => match s.server.flusher with
    | .collecting old =>
      if s.Iterated old keys then
        some { s with server := { s.server with flusher := .draining keys [] } }
      else none
    | _ => none
  | .call => match s.flush with
    | .serving => some { s with flush := .collecting s.server.cache.pending.keys }
    | _ => none
  | .flushCollected keys => match s.flush with
    | .collecting old => if s.Iterated old keys then some { s with flush := .draining keys [] }
      else none
    | _ => none
  | .flushAdvance => s.flushAdvance

/-- The acknowledgements among the actions of a run; they all come before the call. -/
def acks (as : List Action) : List ReadUpdate :=
  Buffered.acks (as.filterMap fun a => match a with
    | .server b => some b
    | _ => none)

/-! ## An undisturbed call -/

section
variable (batchThreshold : ℕ) {table : UserId × ChannelId → WithBot MessageId}
  {flusher : Flusher} (p q : ℕ)

theorem exec_flushDrainKeys (keys : List (UserId × ChannelId)) (batch : List ReadUpdate)
    (cache : ReadStateCache) :
    exec (step batchThreshold) ⟨⟨cache, table, flusher, p, q⟩, .draining keys batch⟩
        (List.replicate keys.length .flushAdvance) =
      some ⟨⟨(cache.drainKeys keys).2, table, flusher, p, q⟩,
        .draining [] (batch ++ (cache.drainKeys keys).1)⟩ := by
  induction keys generalizing batch cache with
  | nil => simp [ReadStateCache.drainKeys]
  | cons key keys ih =>
    have hone : step batchThreshold
        ⟨⟨cache, table, flusher, p, q⟩, .draining (key :: keys) batch⟩ .flushAdvance =
        some ⟨⟨(cache.drainKey key).2, table, flusher, p, q⟩,
          .draining keys (batch ++ (cache.drainKey key).1)⟩ := rfl
    rw [List.length_cons, List.replicate_succ]
    refine exec_cons.2 ⟨_, hone, (ih _ _).trans ?_⟩
    simp only [ReadStateCache.drainKeys, List.append_assoc]

variable {upsert : (UserId × ChannelId → WithBot MessageId) → List ReadUpdate →
  Except DbError (UserId × ChannelId → WithBot MessageId)}

/-- **The operations of a call in a row are `flushNow`**, over any upsert that accepts and
max-merges. -/
theorem exec_flushNow
    (hmerge : ∀ table batch, upsert table batch = .ok fun key => table key ⊔ ackMax batch key)
    {cache : ReadStateCache} {keys : List (UserId × ChannelId)}
    (hkeys : keys.Perm cache.pending.keys) :
    ∃ n, exec (step batchThreshold) ⟨⟨cache, table, flusher, p, q⟩, .serving⟩
        (.call :: .flushCollected keys :: List.replicate n .flushAdvance) =
      some ⟨⟨(flushNow upsert keys (cache, table)).1.1, (flushNow upsert keys (cache, table)).1.2,
        flusher, p, q⟩, .returned⟩ := by
  have hcollected : step batchThreshold
      ⟨⟨cache, table, flusher, p, q⟩, .collecting cache.pending.keys⟩ (.flushCollected keys) =
      some ⟨⟨cache, table, flusher, p, q⟩, .draining keys []⟩ :=
    if_pos ⟨hkeys.nodup_iff.2 cache.pending.keys_nodup, fun key hkey _ => hkeys.symm.subset hkey⟩
  have hdrain : exec (step batchThreshold) ⟨⟨cache, table, flusher, p, q⟩, .draining keys []⟩
      (List.replicate keys.length .flushAdvance) =
      some ⟨⟨(cache.drainKeys keys).2, table, flusher, p, q⟩,
        .draining [] (cache.drainKeys keys).1⟩ :=
    exec_flushDrainKeys batchThreshold p q keys [] cache
  have hreset : step batchThreshold ⟨⟨(cache.drainKeys keys).2, table, flusher, p, q⟩,
      .draining [] (cache.drainKeys keys).1⟩ .flushAdvance =
      some ⟨⟨(cache.drain keys).2, table, flusher, p, q⟩,
        if (cache.drain keys).1.isEmpty then .returned else .writing (cache.drain keys).1⟩ := rfl
  by_cases hempty : (cache.drain keys).1.isEmpty = true
  · refine ⟨keys.length + 1, exec_cons.2 ⟨_, rfl, exec_cons.2 ⟨_, hcollected, ?_⟩⟩⟩
    rw [List.replicate_add]
    refine exec_append.2 ⟨_, hdrain, exec_cons.2 ⟨_, hreset, ?_⟩⟩
    simp only [flushNow, if_pos hempty]
    rfl
  · refine ⟨keys.length + 2, exec_cons.2 ⟨_, rfl, exec_cons.2 ⟨_, hcollected, ?_⟩⟩⟩
    rw [List.replicate_add]
    refine exec_append.2 ⟨_, hdrain, exec_cons.2 ⟨_, hreset, ?_⟩⟩
    simp only [flushNow, if_neg hempty, hmerge]
    rfl

end

/-! ## One step -/

variable {batchThreshold : ℕ} {s t : Shutdown}

/-- No failed chunk is being put back, and `flush_now` knows every key that is in the map. -/
structure Inv (s : Shutdown) : Prop where
  calm : s.server.flusher.rebuffers = false
  leaves : ∀ key ∈ s.server.cache.pending, s.flush.Leaves key

theorem mem_drainKey {c : ReadStateCache} {k key : UserId × ChannelId} :
    key ∈ (c.drainKey k).2.pending ↔ key ≠ k ∧ key ∈ c.pending := by
  cases hold : c.pending.lookup k with
  | none =>
    have hk : k ∉ c.pending := AList.lookup_eq_none.1 hold
    simp only [ReadStateCache.drainKey, hold]
    refine ⟨fun hkey => ⟨?_, hkey⟩, And.right⟩
    rintro rfl
    exact hk hkey
  | some v =>
    simp only [ReadStateCache.drainKey, hold]
    exact AList.mem_erase

theorem flushAdvance_inv (h : s.flushAdvance = some t) (hs : s.Inv) : t.Inv := by
  obtain ⟨server, flush⟩ := s
  obtain ⟨hcalm, hleaves⟩ := hs
  unfold flushAdvance at h
  cases flush with
  | draining keys batch =>
    cases keys with
    | cons k keys =>
      obtain rfl := Option.some.inj h
      refine ⟨hcalm, ?_⟩
      intro key hkey
      obtain ⟨hne, hmem⟩ := mem_drainKey.1 hkey
      exact (List.mem_cons.1 (hleaves key hmem)).resolve_left hne
    | nil =>
      obtain rfl := Option.some.inj h
      exact ⟨hcalm, fun key hkey => absurd (hleaves key hkey) List.not_mem_nil⟩
  | writing batch =>
    obtain rfl := Option.some.inj h
    exact ⟨hcalm, fun key hkey => (hleaves key hkey).elim⟩
  | serving | collecting | returned => cases h

/-- Without an update and without a failure, the running server adds no key to the map. -/
theorem buffered_step_calm {a : Buffered.Action} {b b' : Buffered}
    (h : Buffered.step batchThreshold b a = some b') (hcalm : b.flusher.rebuffers = false)
    (hok : a ≠ .answer false) :
    b'.flusher.rebuffers = false ∧
      ((∀ x, a ≠ .update x) → ∀ key ∈ b'.cache.pending, key ∈ b.cache.pending) := by
  cases a with
  | update x =>
    obtain rfl := Option.some.inj h
    exact ⟨hcalm, fun hno => absurd rfl (hno x)⟩
  | countPending | countTotal | tick | iterate | collected keys =>
    obtain ⟨hpending, -, -, hflusher⟩ := Buffered.step_quiet h rfl
    refine ⟨?_, fun _ key hkey => hpending ▸ hkey⟩
    rcases hflusher with hsame | hticked | ⟨keys, hcollecting⟩ | ⟨keys, hdraining⟩
    · rw [hsame, hcalm]
    · rw [hticked]
      rfl
    · rw [hcollecting]
      rfl
    · rw [hdraining]
      rfl
  | answer ok =>
    obtain ⟨cache, table, flusher, p, q⟩ := b
    obtain rfl : ok = true := by
      cases ok
      · exact absurd rfl hok
      · rfl
    cases flusher with
    | flushing chunks =>
      cases chunks with
      | nil => simp only [Buffered.step, reduceCtorEq] at h
      | cons chunk chunks =>
        obtain rfl := Option.some.inj h
        exact ⟨rfl, fun _ key hkey => hkey⟩
    | _ => simp only [Buffered.step, reduceCtorEq] at h
  | advance =>
    obtain ⟨cache, table, flusher, p, q⟩ := b
    simp only [Buffered.step, Buffered.advance] at h
    cases flusher with
    | draining keys batch =>
      cases keys with
      | cons k keys =>
        obtain rfl := Option.some.inj h
        exact ⟨rfl, fun _ key hkey => (mem_drainKey.1 hkey).2⟩
      | nil =>
        obtain rfl := Option.some.inj h
        refine ⟨?_, fun _ key hkey => hkey⟩
        cases batch <;> rfl
    | flushing chunks =>
      cases chunks with
      | nil =>
        obtain rfl := Option.some.inj h
        exact ⟨rfl, fun _ key hkey => hkey⟩
      | cons chunk chunks => cases h
    | rebuffering | countingPending | countingTotal => cases hcalm
    | idle | ticked | collecting => cases h

theorem step_inv {a : Action} (hs : s.Inv) (h : step batchThreshold s a = some t) : t.Inv := by
  cases a with
  | server a =>
    simp only [step] at h
    split_ifs at h with hallows
    obtain ⟨server, hserver, rfl⟩ := Option.map_eq_some_iff.1 h
    have hanswer : a ≠ .answer false := by
      intro ha
      rw [ha] at hallows
      cases hallows
    obtain ⟨hcalm, hkeys⟩ := buffered_step_calm hserver hs.calm hanswer
    refine ⟨hcalm, ?_⟩
    intro key hkey
    cases hf : s.flush with
    | serving => trivial
    | _ =>
      -- After the call there is no update, so the entry was there before the step.
      have hmem : key ∈ s.server.cache.pending := by
        refine hkeys (fun x ha => ?_) key hkey
        rw [ha, Allows, hf] at hallows
        cases hallows
      exact hf ▸ hs.leaves key hmem
  | collected keys =>
    simp only [step] at h
    split at h
    · split_ifs at h
      obtain rfl := Option.some.inj h
      exact ⟨rfl, hs.leaves⟩
    · cases h
  | call =>
    cases hf : s.flush <;> simp only [step, hf, reduceCtorEq] at h
    obtain rfl := Option.some.inj h
    exact ⟨hs.calm, fun key hkey => AList.mem_keys.1 hkey⟩
  | flushCollected keys =>
    cases hf : s.flush with
    | collecting old =>
      simp only [step, hf] at h
      split_ifs at h with hiterated
      obtain rfl := Option.some.inj h
      refine ⟨hs.calm, ?_⟩
      intro key hkey
      have hold : key ∈ old := by
        have hleaves := hs.leaves key hkey
        rw [hf] at hleaves
        exact hleaves
      exact hiterated.2 key hold (AList.mem_keys.1 hkey)
    | _ => simp only [step, hf, reduceCtorEq] at h
  | flushAdvance => exact flushAdvance_inv h hs

theorem init_inv (table : UserId × ChannelId → WithBot MessageId) : (init table).Inv :=
  ⟨rfl, fun _ _ => trivial⟩

end Shutdown

/-! ## A flush that fails -/

/-- The entries of the map, as updates in the order in which it is iterated. -/
def ReadStateCache.updatesOf (c : ReadStateCache) (keys : List (UserId × ChannelId)) :
    List ReadUpdate :=
  keys.filterMap fun key => (c.pending.lookup key).map fun m => (key.1, key.2, m)

theorem ReadStateCache.drainKeys_batch {keys : List (UserId × ChannelId)} (hnodup : keys.Nodup)
    (c : ReadStateCache) : (c.drainKeys keys).1 = c.updatesOf keys := by
  induction keys generalizing c with
  | nil => rfl
  | cons k keys ih =>
    obtain ⟨hk, hkeys⟩ := List.nodup_cons.1 hnodup
    -- The removal of `k` is not seen at the other keys.
    have hrest : (c.drainKey k).2.updatesOf keys = c.updatesOf keys := by
      apply List.filterMap_congr
      intro key hkey
      have hone := c.lookup_drainKeys [k] key
      rw [if_neg (by simpa using fun h : key = k => hk (h ▸ hkey))] at hone
      rw [show (c.drainKey k).2.pending.lookup key = c.pending.lookup key from hone]
    show (c.drainKey k).1 ++ ((c.drainKey k).2.drainKeys keys).1 = _
    rw [ih hkeys, hrest, updatesOf, updatesOf, List.filterMap_cons, drainKey]
    cases c.pending.lookup k with
    | none => rfl
    | some m => rfl

section
variable {δ : Type} {upsert : δ → List ReadUpdate → Except DbError δ}

/-- After an error the map holds the same entries as before the call. -/
def KeepsBuffer (upsert : δ → List ReadUpdate → Except DbError δ)
    (keys : List (UserId × ChannelId)) (s : ReadStateCache × δ) : Prop :=
  ∀ e, (flushNow upsert keys s).2 = .error e →
    ∀ key, (flushNow upsert keys s).1.1.pending.lookup key = s.1.pending.lookup key

/-- The map has no entry left, whatever became of the batch. -/
theorem flushNow_pending {keys : List (UserId × ChannelId)} {s : ReadStateCache × δ}
    (hkeys : keys.Perm s.1.pending.keys) (key : UserId × ChannelId) :
    (flushNow upsert keys s).1.1.pending.lookup key = none := by
  have hdrained := ReadStateCache.lookup_drain hkeys key
  unfold flushNow
  dsimp only
  split_ifs
  · exact hdrained
  · cases upsert s.2 (s.1.drain keys).1 with
    | ok db => exact hdrained
    | error e => exact hdrained

theorem ReadStateCache.map_keyOf_updatesOf {c : ReadStateCache} {keys : List (UserId × ChannelId)}
    (hkeys : keys ⊆ c.pending.keys) : (c.updatesOf keys).map keyOf = keys := by
  induction keys with
  | nil => rfl
  | cons k keys ih =>
    obtain ⟨hk, hkeys⟩ := List.cons_subset.1 hkeys
    obtain ⟨m, hm⟩ := DashMap.mem_keys_iff.1 hk
    rw [updatesOf, List.filterMap_cons, hm]
    exact congrArg (k :: ·) (ih hkeys)

theorem ReadStateCache.length_updatesOf {c : ReadStateCache} {keys : List (UserId × ChannelId)}
    (hkeys : keys ⊆ c.pending.keys) : (c.updatesOf keys).length = keys.length := by
  rw [← List.length_map (f := keyOf), map_keyOf_updatesOf hkeys]

theorem flushNow_error_iff {keys : List (UserId × ChannelId)} {s : ReadStateCache × δ}
    (hkeys : keys.Perm s.1.pending.keys) :
    (∃ e, (flushNow upsert keys s).2 = .error e) ↔
      s.1.pending.keys ≠ [] ∧ ∃ e, upsert s.2 (s.1.updatesOf keys) = .error e := by
  have hbatch : (s.1.drain keys).1 = s.1.updatesOf keys :=
    s.1.drainKeys_batch (hkeys.nodup_iff.2 s.1.pending.keys_nodup)
  have hempty : s.1.updatesOf keys = [] ↔ s.1.pending.keys = [] := by
    rw [← List.length_eq_zero_iff, ReadStateCache.length_updatesOf hkeys.subset, hkeys.length_eq,
      List.length_eq_zero_iff]
  unfold flushNow
  simp only [hbatch, List.isEmpty_iff, hempty]
  split_ifs with hnil
  · simp [hnil]
  · cases upsert s.2 (s.1.updatesOf keys) with
    | ok db => simp
    | error e => simp [hnil]

/-- **The buffer survives an error only if there cannot be one**: `drain` has emptied the map
before the statement runs, and nothing puts the batch back. -/
theorem keepsBuffer_iff {keys : List (UserId × ChannelId)} {s : ReadStateCache × δ}
    (hkeys : keys.Perm s.1.pending.keys) :
    KeepsBuffer upsert keys s ↔
      s.1.pending.keys = [] ∨ ∃ db, upsert s.2 (s.1.updatesOf keys) = .ok db := by
  have herror : (∃ e, (flushNow upsert keys s).2 = .error e) ↔ _ := flushNow_error_iff hkeys
  constructor
  · intro hkeeps
    by_contra hfails
    push Not at hfails
    obtain ⟨hne, hfails⟩ := hfails
    obtain ⟨e, he⟩ : ∃ e, (flushNow upsert keys s).2 = .error e := by
      apply herror.2
      refine ⟨hne, ?_⟩
      cases hresult : upsert s.2 (s.1.updatesOf keys) with
      | ok db => exact absurd hresult (hfails db)
      | error e => exact ⟨e, rfl⟩
    obtain ⟨key, hkey⟩ := List.exists_mem_of_ne_nil _ hne
    obtain ⟨m, hm⟩ := DashMap.mem_keys_iff.1 hkey
    have hlost := hkeeps e he key
    rw [flushNow_pending hkeys, hm] at hlost
    cases hlost
  · intro hok e he
    obtain ⟨hne, e', he'⟩ := herror.1 ⟨e, he⟩
    rcases hok with hnil | ⟨db, hok⟩
    · exact absurd hnil hne
    · rw [hok] at he'
      cases he'

end

/-! ### With the statement of the source -/

/-- `upsert_read_states_batch` over a connection that may be down. -/
def upsertOver (connection : Except DbError Unit) (now : Timestamp) (db : Database)
    (updates : List ReadUpdate) : Except DbError Database :=
  connection.bind fun _ => upsertReadStatesBatch db now updates

theorem readStateUpsert_refer_error {db : Database} {key : UserId × ChannelId} (now : Timestamp)
    (h : ¬ db.Refers key) : ∃ e, (readStateUpsert db now).refer key = .error e := by
  by_cases huser : key.1 ∈ db.users
  · by_cases hchannel : db.channels.lookup key.2 = none
    · exact ⟨.foreignKeyViolation "channel_id", by simp [readStateUpsert, huser, hchannel]⟩
    · exact absurd ⟨huser, hchannel⟩ h
  · exact ⟨.foreignKeyViolation "user_id", by simp [readStateUpsert, huser]⟩

/-- A single update is stored if there is a row to update, or the new row refers to existing
ones. -/
theorem upsert_singleton_iff {db : Database} {now : Timestamp} {x : ReadUpdate} :
    (∃ db', upsertReadStatesBatch db now [x] = .ok db') ↔
      db.readStates.lookup (keyOf x) ≠ none ∨ db.Refers (keyOf x) := by
  obtain ⟨u, c, m⟩ := x
  rw [upsertReadStatesBatch_singleton]
  simp only [Sql.Upsert.execute, Sql.Upsert.rows, Sql.Upsert.row,
    show (readStateUpsert db now).constrain (some u, some c, some m, some now) =
      .ok ((u, c), ⟨m, now⟩) from rfl, keyOf]
  cases hrow : db.readStates.lookup (u, c) with
  | some old =>
    simp only [List.not_mem_nil, if_false]
    cases (readStateUpsert db now).update old ⟨m, now⟩ with
    | none => simp [Sql.Upsert.references, Except.map]
    | some new => simp [Sql.Upsert.references, Except.map]
  | none =>
    simp only [Sql.Upsert.references, ne_eq, not_true, false_or]
    constructor
    · intro hok
      by_contra hrefers
      obtain ⟨e, he⟩ := readStateUpsert_refer_error now hrefers
      rw [he] at hok
      obtain ⟨db', hok⟩ := hok
      cases hok
    · intro hrefers
      rw [readStateUpsert_refer hrefers]
      exact ⟨_, rfl⟩

/-- **A failed shutdown flush loses the buffer.** With any bulk statement the entries survive an
error exactly if the map is empty or the statement takes them, so that there is none. With the
statement of the source: if the map is empty, or has a single entry that can be stored. -/
theorem flush_now_keeps_buffer_iff (cache : ReadStateCache) (keys : List (UserId × ChannelId))
    (hkeys : keys.Perm cache.pending.keys) :
    (∀ (δ : Type) (upsert : δ → List ReadUpdate → Except DbError δ) (db : δ),
      KeepsBuffer upsert keys (cache, db) ↔
        cache.pending.keys = [] ∨ ∃ db', upsert db (cache.updatesOf keys) = .ok db') ∧
    ∀ (connection : Except DbError Unit) (now : Timestamp) (db : Database),
      KeepsBuffer (upsertOver connection now) keys (cache, db) ↔
        cache.pending.keys = [] ∨ connection = .ok () ∧ ∃ key, cache.pending.keys = [key] ∧
          (db.readStates.lookup key ≠ none ∨ db.Refers key) := by
  refine ⟨fun δ upsert db => keepsBuffer_iff hkeys, ?_⟩
  intro connection now db
  rw [keepsBuffer_iff hkeys]
  apply or_congr_right'
  intro (hne : cache.pending.keys ≠ [])
  cases connection with
  | error e => simp [upsertOver, Except.bind]
  | ok _ =>
    show (∃ db', upsertReadStatesBatch db now (cache.updatesOf keys) = .ok db') ↔ _
    constructor
    · intro hok
      obtain ⟨db', hok⟩ := hok
      -- From the second update on, `updated_at` is NULL.
      have hlen : ¬ 1 < (cache.updatesOf keys).length := by
        intro hlen
        obtain ⟨e, he⟩ := upsert_error db now hlen
        rw [he] at hok
        cases hok
      rw [ReadStateCache.length_updatesOf hkeys.subset, hkeys.length_eq] at hlen
      have hpos := List.length_pos_iff.2 hne
      obtain ⟨key, hkey⟩ := List.length_eq_one_iff.1 (show cache.pending.keys.length = 1 by omega)
      obtain ⟨m, hm⟩ := DashMap.mem_keys_iff.1 (hkey ▸ List.mem_singleton_self key)
      rw [hkey, List.perm_singleton] at hkeys
      rw [hkeys, ReadStateCache.updatesOf, List.filterMap_cons, hm] at hok
      exact ⟨rfl, key, hkey, upsert_singleton_iff.1 ⟨db', hok⟩⟩
    · intro hone
      obtain ⟨-, key, hkey, hstored⟩ := hone
      obtain ⟨m, hm⟩ := DashMap.mem_keys_iff.1 (hkey ▸ List.mem_singleton_self key)
      rw [hkey, List.perm_singleton] at hkeys
      rw [hkeys, ReadStateCache.updatesOf, List.filterMap_cons, hm]
      exact upsert_singleton_iff.2 hstored

/-- One acknowledgement is pending and its key exists, so nothing is lost. -/
theorem flush_now_keeps_buffer_iff_one :
    let cache := ReadStateCache.new.update (1, 20, 7)
    [((1 : UserId), (20 : ChannelId))].Perm cache.pending.keys ∧
      KeepsBuffer (upsertOver (.ok ()) 0) [(1, 20)] (cache, twoUsers) :=
  ⟨List.Perm.refl _, ((flush_now_keeps_buffer_iff (ReadStateCache.new.update (1, 20, 7)) [(1, 20)]
    (List.Perm.refl _)).2 (.ok ()) 0 twoUsers).2 (.inr ⟨rfl, (1, 20), rfl, .inr (by decide)⟩)⟩

/-- **Two acknowledgements are lost at shutdown**: the statement fails for two tuples, and the map
is empty. -/
theorem flush_now_loses_buffer :
    ¬ ∀ (cache : ReadStateCache) (keys : List (UserId × ChannelId)),
      keys.Perm cache.pending.keys → ∀ (connection : Except DbError Unit) (now : Timestamp)
        (db : Database), KeepsBuffer (upsertOver connection now) keys (cache, db) := by
  intro h
  have hkeys : ([(2, 20), (1, 20)] : List (UserId × ChannelId)).Perm
      ((ReadStateCache.new.update (1, 20, 7)).update (2, 20, 7)).pending.keys := List.Perm.refl _
  have hkept := h _ _ hkeys (.ok ()) 0 twoUsers (.notNullViolation "updated_at") rfl (1, 20)
  rw [flushNow_pending hkeys] at hkept
  cases hkept

end RustRelay
