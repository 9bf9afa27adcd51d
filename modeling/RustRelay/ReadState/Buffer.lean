import RustRelay.Core.Run
import RustRelay.ReadState.Cache

/-!
# The write buffer while the server runs

Any number of `update` calls interleave with the steps of the one flusher task: reading the
counter, collecting keys, removing them one by one, sending chunks, putting failed chunks back.
An acknowledgement sits in the map, in the batch the flusher holds, or in the table, and moves
between the three.

**Theorem (`no_ack_lost`).** At every reachable state and for every key, the largest id over the
three places is the largest over the initial table and all acknowledgements so far, and no step
lowers the table. Hence the table alone holds it whenever the other two are empty.

The table is any `⊥`-or-id table, and the database accepts or rejects each chunk as it likes.
Acceptance max-merges the chunk; rejection changes nothing. The proof is one lemma about one
step (`held_step`): a step moves values between the places, and only an update adds one.

Undisturbed, the steps are the functions of the source: `exec_update`, `exec_flusherTick`.
-/

namespace RustRelay

open MaxMerge Machine

/-- Where the flusher task stands. -/
inductive Flusher
  /-- Waiting for the next tick. -/
  | idle
  /-- `pending_count` was not zero; the map is about to be iterated. -/
  | ticked
  /-- Iterating: `old` are the keys that were there from the start. -/
  | collecting (old : List (UserId × ChannelId))
  /-- The loop of `drain`: keys still to remove, batch so far. -/
  | draining (keys : List (UserId × ChannelId)) (batch : List ReadUpdate)
  /-- The loop over chunks; the first one is next at the database. -/
  | flushing (chunks : List (List ReadUpdate))
  /-- Putting back what is left of a failed chunk. -/
  | rebuffering (chunk : List ReadUpdate) (chunks : List (List ReadUpdate))
  /-- Between the map write and the first counter of an update of that loop. -/
  | countingPending (chunk : List ReadUpdate) (chunks : List (List ReadUpdate))
  /-- Between its first and its second counter. -/
  | countingTotal (chunk : List ReadUpdate) (chunks : List (List ReadUpdate))

/-- The updates that the flusher has taken from the map and not yet settled. -/
def Flusher.inFlight : Flusher → List ReadUpdate
  | .idle | .ticked | .collecting _ => []
  | .draining _ batch => batch
  | .flushing chunks => chunks.flatten
  | .rebuffering chunk chunks | .countingPending chunk chunks | .countingTotal chunk chunks =>
    chunk ++ chunks.flatten

/-- The cache, the table, the flusher, and how many clients are between two operations of
`update`: before the first counter, and before the second. -/
structure Buffered where
  cache : ReadStateCache
  table : UserId × ChannelId → WithBot MessageId
  flusher : Flusher
  beforePending : ℕ
  beforeTotal : ℕ

namespace Buffered

/-- An empty buffer in front of a table. -/
def init (table : UserId × ChannelId → WithBot MessageId) : Buffered :=
  ⟨.new, table, .idle, 0, 0⟩

/-- Who moves next, and how its choice falls. -/
inductive Action
  /-- A client's map write in `update`. -/
  | update (x : ReadUpdate)
  /-- Some client's `pending_count.fetch_add(1)`. -/
  | countPending
  /-- Some client's `total_ops.fetch_add(1)`. -/
  | countTotal
  /-- The flusher's timer fires and it reads `pending_count`. -/
  | tick
  /-- The flusher starts iterating over the map. -/
  | iterate
  /-- The iteration ends with these keys. -/
  | collected (keys : List (UserId × ChannelId))
  /-- The database answers for the chunk it was sent. -/
  | answer (ok : Bool)
  /-- The flusher's next operation where nothing is left to choose. -/
  | advance

/-- The acknowledgements among the actions of a run. -/
def acks (as : List Action) : List ReadUpdate :=
  as.filterMap fun a => match a with
    | .update x => some x
    | _ => none

/-- The flusher's operation in a state where nothing is left to choose. -/
def advance (batchThreshold : ℕ) (s : Buffered) : Option Buffered :=
  match s.flusher with
  | .draining (key :: keys) batch =>
    let (item, cache) := s.cache.drainKey key
    some { s with cache := cache, flusher := .draining keys (batch ++ item) }
  | .draining [] batch =>
    some { s with
      cache := { s.cache with pendingCount := 0 }
      flusher := if batch.isEmpty then .idle
        else .flushing (chunks (chunkSize batchThreshold) batch) }
  | .flushing [] => some { s with flusher := .idle }
  | .rebuffering (x :: chunk) chunks =>
    some { s with cache := s.cache.updateEntry x, flusher := .countingPending chunk chunks }
  | .rebuffering [] chunks => some { s with flusher := .flushing chunks }
  | .countingPending chunk chunks =>
    some { s with cache := s.cache.countPending, flusher := .countingTotal chunk chunks }
  | .countingTotal chunk chunks =>
    some { s with cache := s.cache.countTotal, flusher := .rebuffering chunk chunks }
  | _ => none

/-- One step. -/
def step (batchThreshold : ℕ) (s : Buffered) : Action → Option Buffered
  | .update x =>
    some { s with cache := s.cache.updateEntry x, beforePending := s.beforePending + 1 }
  | .countPending =>
    if s.beforePending = 0 then none
    else some { s with
      cache := s.cache.countPending
      beforePending := s.beforePending - 1
      beforeTotal := s.beforeTotal + 1 }
  | .countTotal =>
    if s.beforeTotal = 0 then none
    else some { s with cache := s.cache.countTotal, beforeTotal := s.beforeTotal - 1 }
  | .tick => match s.flusher with
    | .idle => some (if s.cache.pendingCount = 0 then s else { s with flusher := .ticked })
    | _ => none
  | .iterate => match s.flusher with
    | .ticked => some { s with flusher := .collecting s.cache.pending.keys }
    | _ => none
  | .collected keys => match s.flusher with
    | .collecting old =>
      -- An entry written during the iteration may be missed, an older one may not.
      if keys.Nodup ∧ old ⊆ keys ∧ keys ⊆ s.cache.pending.keys then
        some { s with flusher := .draining keys [] }
      else none
    | _ => none
  | .answer ok => match s.flusher with
    | .flushing (chunk :: chunks) =>
      if ok then
        some { s with
          table := fun key => s.table key ⊔ ackMax chunk key
          flusher := .flushing chunks }
      else some { s with flusher := .rebuffering chunk chunks }
    | _ => none
  | .advance => s.advance batchThreshold

/-! ## Undisturbed runs -/

section
variable (batchThreshold : ℕ) {cache : ReadStateCache}
  {table : UserId × ChannelId → WithBot MessageId} (p q : ℕ)

theorem exec_update (s : Buffered) (x : ReadUpdate) :
    exec (step batchThreshold) s [.update x, .countPending, .countTotal] =
      some { s with cache := s.cache.update x } := by
  simp [exec, step, ReadStateCache.update]

theorem exec_drainKeys (keys : List (UserId × ChannelId)) (batch : List ReadUpdate)
    (cache : ReadStateCache) :
    exec (step batchThreshold) ⟨cache, table, .draining keys batch, p, q⟩
        (List.replicate keys.length .advance) =
      some ⟨(cache.drainKeys keys).2, table, .draining [] (batch ++ (cache.drainKeys keys).1),
        p, q⟩ := by
  induction keys generalizing batch cache with
  | nil => simp [ReadStateCache.drainKeys]
  | cons key keys ih =>
    have hone : step batchThreshold ⟨cache, table, .draining (key :: keys) batch, p, q⟩ .advance =
        some ⟨(cache.drainKey key).2, table, .draining keys (batch ++ (cache.drainKey key).1),
          p, q⟩ := rfl
    rw [List.length_cons, List.replicate_succ]
    refine exec_cons.2 ⟨_, hone, (ih _ _).trans ?_⟩
    simp only [ReadStateCache.drainKeys, List.append_assoc]

theorem exec_rebuffer (chunk : List ReadUpdate) (chunks : List (List ReadUpdate))
    (cache : ReadStateCache) :
    ∃ n, exec (step batchThreshold) ⟨cache, table, .rebuffering chunk chunks, p, q⟩
        (List.replicate n .advance) =
      some ⟨cache.rebuffer chunk, table, .flushing chunks, p, q⟩ := by
  induction chunk generalizing cache with
  | nil => exact ⟨1, rfl⟩
  | cons x chunk ih =>
    obtain ⟨n, hn⟩ := ih (cache.update x)
    exact ⟨n + 3, hn⟩

theorem acks_replicate_advance (n : ℕ) : acks (List.replicate n .advance) = [] := by
  simp [acks]

theorem acks_append (as bs : List Action) : acks (as ++ bs) = acks as ++ acks bs :=
  List.filterMap_append

variable {upsert : (UserId × ChannelId → WithBot MessageId) → List ReadUpdate →
  Except DbError (UserId × ChannelId → WithBot MessageId)}

/-- The answers of the database in a row are the loop over the chunks. -/
theorem exec_flushChunks
    (hmerge : ∀ table chunk table', upsert table chunk = .ok table' →
      table' = fun key => table key ⊔ ackMax chunk key)
    (chunks : List (List ReadUpdate)) (cache : ReadStateCache)
    (table : UserId × ChannelId → WithBot MessageId) :
    ∃ as, acks as = [] ∧ exec (step batchThreshold) ⟨cache, table, .flushing chunks, p, q⟩ as =
      some ⟨(chunks.foldl (flushChunk upsert) (cache, table)).1,
        (chunks.foldl (flushChunk upsert) (cache, table)).2, .idle, p, q⟩ := by
  induction chunks generalizing cache table with
  | nil => exact ⟨[.advance], rfl, rfl⟩
  | cons chunk chunks ih =>
    rw [List.foldl_cons]
    cases hanswer : upsert table chunk with
    | ok table' =>
      obtain ⟨as, hacks, has⟩ := ih cache table'
      have hchunk : flushChunk upsert (cache, table) chunk = (cache, table') := by
        rw [flushChunk, hanswer]
      rw [hchunk]
      refine ⟨.answer true :: as, hacks,
        exec_cons.2 ⟨⟨cache, table', .flushing chunks, p, q⟩, ?_, has⟩⟩
      rw [hmerge table chunk table' hanswer]
      rfl
    | error e =>
      obtain ⟨as, hacks, has⟩ := ih (cache.rebuffer chunk) table
      obtain ⟨n, hn⟩ : ∃ n, exec (step batchThreshold)
          ⟨cache, table, .rebuffering chunk chunks, p, q⟩ (List.replicate n .advance) =
          some ⟨cache.rebuffer chunk, table, .flushing chunks, p, q⟩ :=
        exec_rebuffer batchThreshold p q chunk chunks cache
      have hchunk : flushChunk upsert (cache, table) chunk = (cache.rebuffer chunk, table) := by
        rw [flushChunk, hanswer]
      rw [hchunk]
      refine ⟨.answer false :: (List.replicate n .advance ++ as), ?_,
        exec_cons.2 ⟨_, rfl, exec_append.2 ⟨_, hn, has⟩⟩⟩
      exact (acks_append _ as).trans (by rw [acks_replicate_advance, hacks]; rfl)

/-- **The steps of the flusher in a row are `flusherTick`**, over any upsert that max-merges what
it accepts. -/
theorem exec_flusherTick
    (hmerge : ∀ table chunk table', upsert table chunk = .ok table' →
      table' = fun key => table key ⊔ ackMax chunk key)
    {keys : List (UserId × ChannelId)} (hkeys : keys.Perm cache.pending.keys) :
    ∃ as, acks as = [] ∧ exec (step batchThreshold) ⟨cache, table, .idle, p, q⟩ as =
      some ⟨(flusherTick upsert batchThreshold keys (cache, table)).1,
        (flusherTick upsert batchThreshold keys (cache, table)).2, .idle, p, q⟩ := by
  by_cases hcount : cache.pendingCount = 0
  · refine ⟨[], rfl, ?_⟩
    rw [flusherTick, if_pos hcount]
    rfl
  have htick : step batchThreshold ⟨cache, table, .idle, p, q⟩ .tick =
      some ⟨cache, table, .ticked, p, q⟩ := by
    rw [step]
    exact congrArg some (if_neg hcount)
  have hcollected : step batchThreshold
      ⟨cache, table, .collecting cache.pending.keys, p, q⟩ (.collected keys) =
      some ⟨cache, table, .draining keys [], p, q⟩ :=
    if_pos ⟨hkeys.nodup_iff.2 cache.pending.keys_nodup, hkeys.symm.subset, hkeys.subset⟩
  -- up to the end of the drain
  have hdrain : exec (step batchThreshold) ⟨cache, table, .idle, p, q⟩
      (.tick :: .iterate :: .collected keys :: List.replicate keys.length .advance) =
      some ⟨(cache.drainKeys keys).2, table, .draining [] (cache.drainKeys keys).1, p, q⟩ :=
    exec_cons.2 ⟨_, htick, exec_cons.2 ⟨_, rfl, exec_cons.2 ⟨_, hcollected,
      exec_drainKeys batchThreshold p q keys [] cache⟩⟩⟩
  have hacks : acks (.tick :: .iterate :: .collected keys ::
      List.replicate keys.length .advance) = [] := acks_replicate_advance keys.length
  have hadvance : step batchThreshold
      ⟨(cache.drainKeys keys).2, table, .draining [] (cache.drainKeys keys).1, p, q⟩ .advance =
      some ⟨(cache.drain keys).2, table, if (cache.drain keys).1.isEmpty then .idle
        else .flushing (chunks (chunkSize batchThreshold) (cache.drain keys).1), p, q⟩ := rfl
  by_cases hempty : (cache.drain keys).1.isEmpty = true
  · refine ⟨_ ++ [.advance], ?_, exec_append.2 ⟨_, hdrain, exec_cons.2 ⟨_, hadvance, ?_⟩⟩⟩
    · rw [acks_append, hacks]
      rfl
    · simp only [flusherTick, if_neg hcount, if_pos hempty]
      rfl
  · obtain ⟨as, has, hflush⟩ := exec_flushChunks batchThreshold p q hmerge
      (chunks (chunkSize batchThreshold) (cache.drain keys).1) (cache.drain keys).2 table
    refine ⟨_ ++ .advance :: as, ?_, exec_append.2 ⟨_, hdrain, exec_cons.2 ⟨_, hadvance, ?_⟩⟩⟩
    · rw [acks_append, hacks]
      exact has
    · simp only [flusherTick, if_neg hcount, if_neg hempty]
      exact hflush

end

/-- The largest id for a key over the three places an acknowledgement can sit. -/
def held (s : Buffered) (key : UserId × ChannelId) : WithBot MessageId :=
  s.table key ⊔ rowAt s.cache.pending key ⊔ ackMax s.flusher.inFlight key

/-! ## One step -/

/-- Moving on with the same items in flight changes nothing about what is held. -/
theorem held_setFlusher {s : Buffered} {flusher : Flusher}
    (hflight : flusher.inFlight = s.flusher.inFlight) (key : UserId × ChannelId) :
    { s with flusher := flusher }.held key = s.held key := by
  simp only [held, hflight]

theorem held_advance {batchThreshold : ℕ} {s t : Buffered} (h : s.advance batchThreshold = some t)
    (key : UserId × ChannelId) : t.held key = s.held key ∧ t.table = s.table := by
  obtain ⟨cache, table, flusher, p, q⟩ := s
  unfold advance at h
  cases flusher with
  | draining keys batch =>
    cases keys with
    | cons k keys =>
      obtain rfl := Option.some.inj h
      refine ⟨?_, rfl⟩
      simp only [held, Flusher.inFlight]
      rw [ackMax_append, ← cache.held_drainKey k key]
      ac_rfl
    | nil =>
      obtain rfl := Option.some.inj h
      refine ⟨?_, rfl⟩
      have hflight : Flusher.inFlight (if batch.isEmpty then .idle
          else .flushing (chunks (chunkSize batchThreshold) batch)) = batch := by
        cases batch with
        | nil => rfl
        | cons x xs => exact flatten_chunks (chunkSize_pos batchThreshold) _
      simp only [held]
      rw [hflight]
      rfl
  | flushing chunks =>
    cases chunks with
    | nil => obtain rfl := Option.some.inj h; exact ⟨rfl, rfl⟩
    | cons chunk chunks => cases h
  | rebuffering chunk chunks =>
    cases chunk with
    | nil => obtain rfl := Option.some.inj h; exact ⟨rfl, rfl⟩
    | cons x chunk =>
      obtain rfl := Option.some.inj h
      refine ⟨?_, rfl⟩
      simp only [held, Flusher.inFlight]
      rw [cache.rowAt_updateEntry, List.cons_append, ackMax_cons x (chunk ++ _)]
      ac_rfl
  | countingPending chunk chunks => obtain rfl := Option.some.inj h; exact ⟨rfl, rfl⟩
  | countingTotal chunk chunks => obtain rfl := Option.some.inj h; exact ⟨rfl, rfl⟩
  | idle | ticked | collecting => cases h

/-- An action that neither moves an entry nor writes the table. -/
def Action.quiet : Action → Bool
  | .countPending | .countTotal | .tick | .iterate | .collected _ => true
  | .update _ | .answer _ | .advance => false

/-- What a quiet step leaves alone; the flusher may be on its way to a drain. -/
structure SameEntries (s t : Buffered) : Prop where
  pending : t.cache.pending = s.cache.pending
  table : t.table = s.table
  inFlight : t.flusher.inFlight = s.flusher.inFlight
  flusher : t.flusher = s.flusher ∨ t.flusher = .ticked ∨ (∃ keys, t.flusher = .collecting keys) ∨
    ∃ keys, t.flusher = .draining keys []

theorem step_quiet {batchThreshold : ℕ} {s t : Buffered} {a : Action}
    (h : step batchThreshold s a = some t) (hquiet : a.quiet = true) : SameEntries s t := by
  cases a with
  | countPending | countTotal =>
    simp only [step] at h
    split_ifs at h
    obtain rfl := Option.some.inj h
    exact ⟨rfl, rfl, rfl, .inl rfl⟩
  | tick =>
    cases hf : s.flusher <;> simp only [step, hf, reduceCtorEq] at h
    obtain rfl := Option.some.inj h
    split_ifs
    · exact ⟨rfl, rfl, rfl, .inl rfl⟩
    · exact ⟨rfl, rfl, by rw [hf]; rfl, .inr (.inl rfl)⟩
  | iterate =>
    cases hf : s.flusher <;> simp only [step, hf, reduceCtorEq] at h
    obtain rfl := Option.some.inj h
    exact ⟨rfl, rfl, by rw [hf]; rfl, .inr (.inr (.inl ⟨_, rfl⟩))⟩
  | collected keys =>
    cases hf : s.flusher <;> simp only [step, hf, reduceCtorEq] at h
    split_ifs at h
    obtain rfl := Option.some.inj h
    exact ⟨rfl, rfl, by rw [hf]; rfl, .inr (.inr (.inr ⟨keys, rfl⟩))⟩
  | update | answer | advance => cases hquiet

/-- **One step.** An update adds its id to what is held for its key; every other step only moves
values between the three places. The table never decreases. -/
theorem held_step {batchThreshold : ℕ} {s t : Buffered} {a : Action}
    (h : step batchThreshold s a = some t) (key : UserId × ChannelId) :
    t.held key = s.held key ⊔ ackMax (acks [a]) key ∧ s.table key ≤ t.table key := by
  cases a with
  | update x =>
    obtain rfl := Option.some.inj h
    refine ⟨?_, le_rfl⟩
    show s.table key ⊔ rowAt (s.cache.updateEntry x).pending key ⊔ _ = _ ⊔ ackMax [x] key
    rw [s.cache.rowAt_updateEntry, held]
    ac_rfl
  | countPending | countTotal | tick | iterate | collected keys =>
    have hsame := step_quiet h rfl
    refine ⟨?_, by rw [hsame.table]⟩
    rw [held, hsame.table, hsame.pending, hsame.inFlight]
    exact (sup_bot_eq _).symm
  | answer ok =>
    cases hf : s.flusher with
    | flushing chunks =>
      cases chunks with
      | nil => simp only [step, hf, reduceCtorEq] at h
      | cons chunk chunks =>
        simp only [step, hf] at h
        split_ifs at h
        · obtain rfl := Option.some.inj h
          refine ⟨?_, le_sup_left⟩
          simp only [held, hf, Flusher.inFlight, List.flatten_cons, ackMax_append]
          show _ = _ ⊔ ⊥
          rw [sup_bot_eq]
          ac_rfl
        · obtain rfl := Option.some.inj h
          refine ⟨?_, le_rfl⟩
          rw [held_setFlusher (by rw [hf]; rfl)]
          exact (sup_bot_eq _).symm
    | _ => simp only [step, hf, reduceCtorEq] at h
  | advance =>
    obtain ⟨hheld, htable⟩ := held_advance (show s.advance batchThreshold = some t from h) key
    refine ⟨?_, by rw [htable]⟩
    rw [hheld]
    exact (sup_bot_eq _).symm

/-! ## Whole runs -/

theorem acks_cons (a : Action) (as : List Action) : acks (a :: as) = acks [a] ++ acks as := by
  cases a <;> rfl

theorem held_exec {batchThreshold : ℕ} {s t : Buffered} {as : List Action}
    (h : exec (step batchThreshold) s as = some t) (key : UserId × ChannelId) :
    t.held key = s.held key ⊔ ackMax (acks as) key := by
  induction as generalizing s with
  | nil =>
    obtain rfl : s = t := by simpa using h
    exact (sup_bot_eq _).symm
  | cons a as ih =>
    obtain ⟨r, hr, ht⟩ := exec_cons.1 h
    rw [ih ht, (held_step hr key).1, acks_cons a as, ackMax_append, sup_assoc]

theorem held_init (table : UserId × ChannelId → WithBot MessageId) (key : UserId × ChannelId) :
    (init table).held key = table key := by
  show table key ⊔ rowAt ∅ key ⊔ ⊥ = table key
  rw [rowAt_of_none (AList.lookup_empty key), sup_bot_eq, sup_bot_eq]

/-- **No acknowledgement is lost or lowered by the write buffer.** Take a run `as` to `s`, and
any continuation `bs` of it to `t`. -/
theorem no_ack_lost (batchThreshold : ℕ) (table : UserId × ChannelId → WithBot MessageId)
    (as bs : List Action) (s t : Buffered)
    (hs : exec (step batchThreshold) (init table) as = some s)
    (ht : exec (step batchThreshold) s bs = some t) :
    (∀ key, t.table key ⊔ rowAt t.cache.pending key ⊔ ackMax t.flusher.inFlight key =
      table key ⊔ ackMax (acks (as ++ bs)) key) ∧
    (∀ key, s.table key ≤ t.table key) ∧
    (t.cache.pending = ∅ → t.flusher.inFlight = [] →
      t.table = fun key => table key ⊔ ackMax (acks (as ++ bs)) key) := by
  have hall : ∀ key, t.held key = table key ⊔ ackMax (acks (as ++ bs)) key := fun key => by
    rw [held_exec (exec_append.2 ⟨s, hs, ht⟩) key, held_init]
  refine ⟨hall, fun key => ?_, fun hp hf => funext fun key => ?_⟩
  · exact exec_le (f := fun r : Buffered => r.table key)
      (fun r a q hq => (held_step hq key).2) ht
  · rw [← hall key, held, hp, hf, rowAt_of_none (AList.lookup_empty key)]
    simp

/-- Two devices acknowledge in the wrong order; the flush fails once and then succeeds. -/
def retryRun : List Action :=
  [.update (1, 20, 9), .update (1, 20, 7), .countPending, .countPending, .tick, .iterate,
    .collected [(1, 20)], .advance, .advance, .answer false, .advance, .advance, .advance,
    .advance, .advance, .tick, .iterate, .collected [(1, 20)], .advance, .advance]

theorem no_ack_lost_retry :
    ∃ s t, exec (step 1000) (init fun _ => ⊥) retryRun = some s ∧
      exec (step 1000) s [.answer true, .advance] = some t ∧
      (∀ key, t.table key ⊔ rowAt t.cache.pending key ⊔ ackMax t.flusher.inFlight key =
        (⊥ : WithBot MessageId) ⊔ ackMax (acks (retryRun ++ [.answer true, .advance])) key) ∧
      (∀ key, s.table key ≤ t.table key) ∧
      (t.cache.pending = ∅ → t.flusher.inFlight = [] →
        t.table = fun key => (⊥ : WithBot MessageId) ⊔
          ackMax (acks (retryRun ++ [.answer true, .advance])) key) :=
  ⟨_, _, rfl, rfl, no_ack_lost 1000 (fun _ => ⊥) retryRun [.answer true, .advance] _ _ rfl rfl⟩

end Buffered

end RustRelay
