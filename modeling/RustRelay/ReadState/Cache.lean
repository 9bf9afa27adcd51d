import Mathlib.Algebra.Order.Group.Nat
import RustRelay.ReadState.Upsert

/-!
# The read-state cache

`ReadStateCache` buffers acknowledgements and writes them to the database in bulk. Its map
operations and counter operations are atomic one by one, so `update` and `drain` are given here
both as those single operations and, composed, as the functions of the source.

* `updateEntry`, `countPending`, `countTotal` — the operations of `update`.
* `drainKey`, `drain` — one removal, and all of them for a list of collected keys.
* `flusherTick` — one round of the background flusher, over any bulk upsert.
* `rowAt_updateEntry`, `held_drain` — what they do to the values buffered for a key.
-/

namespace RustRelay

open MaxMerge

/-- The buffer, the number of updates since the last drain and the lifetime total. -/
structure ReadStateCache where
  pending : DashMap (UserId × ChannelId) MessageId
  pendingCount : UInt64
  totalOps : UInt64

/-- An update as a keyed value. -/
def itemOf (x : ReadUpdate) : (UserId × ChannelId) × MessageId := (keyOf x, x.2.2)

/-- The largest id that a list of updates gives to a key. -/
def ackMax (xs : List ReadUpdate) (key : UserId × ChannelId) : WithBot MessageId :=
  maxAt (xs.map itemOf) key

@[simp] theorem ackMax_nil (key : UserId × ChannelId) : ackMax [] key = ⊥ := rfl

theorem ackMax_cons (x : ReadUpdate) (xs : List ReadUpdate) (key : UserId × ChannelId) :
    ackMax (x :: xs) key = ackMax [x] key ⊔ ackMax xs key := by
  rw [ackMax, List.map_cons, maxAt_cons, ackMax, List.map_singleton, maxAt_singleton, ackMax]

theorem ackMax_append (xs ys : List ReadUpdate) (key : UserId × ChannelId) :
    ackMax (xs ++ ys) key = ackMax xs key ⊔ ackMax ys key := by
  rw [ackMax, List.map_append, maxAt_append, ackMax, ackMax]

theorem ackMax_singleton (x : ReadUpdate) (key : UserId × ChannelId) :
    ackMax [x] key = if keyOf x = key then (x.2.2 : WithBot MessageId) else ⊥ :=
  maxAt_singleton (itemOf x) key

theorem ackMax_ne_bot_iff {xs : List ReadUpdate} {key : UserId × ChannelId} :
    ackMax xs key ≠ ⊥ ↔ ∃ x ∈ xs, keyOf x = key := by
  rw [ackMax, Ne, maxAt_eq_bot_iff]
  push Not
  constructor
  · intro hvalue
    rcases hvalue with ⟨v, hv⟩
    obtain ⟨x, hx, heq⟩ := List.mem_map.1 hv
    exact ⟨x, hx, (Prod.mk.inj heq).1⟩
  · intro hitem
    rcases hitem with ⟨x, hx, rfl⟩
    exact ⟨x.2.2, List.mem_map.2 ⟨x, hx, rfl⟩⟩

theorem le_ackMax_iff {xs : List ReadUpdate} {key : UserId × ChannelId} {m : MessageId} :
    ↑m ≤ ackMax xs key ↔ ∃ x ∈ xs, keyOf x = key ∧ m ≤ x.2.2 := by
  rw [ackMax, le_maxAt_iff]
  constructor
  · intro hvalue
    obtain ⟨w, hmem, hle⟩ := hvalue
    obtain ⟨x, hx, hitem⟩ := List.mem_map.1 hmem
    obtain ⟨rfl, rfl⟩ := Prod.mk.inj hitem
    exact ⟨x, hx, rfl, hle⟩
  · intro hitem
    obtain ⟨x, hx, rfl, hle⟩ := hitem
    exact ⟨x.2.2, List.mem_map.2 ⟨x, hx, rfl⟩, hle⟩

namespace ReadStateCache

/-- `ReadStateCache::new`. -/
def new : ReadStateCache := ⟨∅, 0, 0⟩

/-! ## Recording an update -/

/-- `pending.entry(key).and_modify(..).or_insert(message_id)`. -/
def updateEntry (c : ReadStateCache) (x : ReadUpdate) : ReadStateCache :=
  { c with
    pending := match c.pending.lookup (keyOf x) with
      | some existing => c.pending.insert (keyOf x) (if x.2.2 > existing then x.2.2 else existing)
      | none => c.pending.insert (keyOf x) x.2.2 }

/-- `pending_count.fetch_add(1)`. -/
def countPending (c : ReadStateCache) : ReadStateCache :=
  { c with pendingCount := c.pendingCount + 1 }

/-- `total_ops.fetch_add(1)`. -/
def countTotal (c : ReadStateCache) : ReadStateCache := { c with totalOps := c.totalOps + 1 }

/-- `update`, without interference. -/
def update (c : ReadStateCache) (x : ReadUpdate) : ReadStateCache :=
  ((c.updateEntry x).countPending).countTotal

/-- The entry of a key after an update is the larger of the two ids. -/
theorem rowAt_updateEntry (c : ReadStateCache) (x : ReadUpdate) (key : UserId × ChannelId) :
    rowAt (c.updateEntry x).pending key = rowAt c.pending key ⊔ ackMax [x] key := by
  rw [ackMax_singleton]
  cases hold : c.pending.lookup (keyOf x) with
  | none =>
    simp only [updateEntry, hold, rowAt_insert]
    by_cases hk : keyOf x = key
    · subst hk
      rw [if_pos rfl, if_pos rfl, rowAt_of_none hold, bot_sup_eq]
    · rw [if_neg (Ne.symm hk), if_neg hk, sup_bot_eq]
  | some existing =>
    simp only [updateEntry, hold, rowAt_insert]
    by_cases hk : keyOf x = key
    · subst hk
      rw [if_pos rfl, if_pos rfl, rowAt_of_lookup hold, ← WithBot.coe_sup]
      by_cases hlt : x.2.2 > existing
      · rw [if_pos hlt, sup_eq_right.2 hlt.le]
      · rw [if_neg hlt, sup_eq_left.2 (not_lt.1 hlt)]
    · rw [if_neg (Ne.symm hk), if_neg hk, sup_bot_eq]

theorem rowAt_update (c : ReadStateCache) (x : ReadUpdate) (key : UserId × ChannelId) :
    rowAt (c.update x).pending key = rowAt c.pending key ⊔ ackMax [x] key :=
  rowAt_updateEntry c x key

theorem exists_pending_update (c : ReadStateCache) (x : ReadUpdate) :
    ∃ v, (c.update x).pending = c.pending.insert (keyOf x) v := by
  show ∃ v, (c.updateEntry x).pending = _
  unfold updateEntry
  cases c.pending.lookup (keyOf x) with
  | none => exact ⟨x.2.2, rfl⟩
  | some existing => exact ⟨if x.2.2 > existing then x.2.2 else existing, rfl⟩

theorem mem_keys_update {c : ReadStateCache} {x : ReadUpdate} {key : UserId × ChannelId} :
    key ∈ (c.update x).pending.keys ↔ key = keyOf x ∨ key ∈ c.pending.keys := by
  obtain ⟨v, hv⟩ := exists_pending_update c x
  rw [hv]
  exact AList.mem_insert c.pending

theorem length_keys_update (c : ReadStateCache) (x : ReadUpdate) :
    (c.update x).pending.keys.length =
      if keyOf x ∈ c.pending.keys then c.pending.keys.length else c.pending.keys.length + 1 := by
  obtain ⟨v, hv⟩ := exists_pending_update c x
  have hlen := DashMap.length_keys_insert_ite c.pending (keyOf x) v
  rw [hv]
  by_cases hmem : keyOf x ∈ c.pending.keys
  · rwa [if_pos hmem] at hlen ⊢
  · rwa [if_neg hmem] at hlen ⊢

/-- Putting a failed chunk back, item by item. -/
def rebuffer (c : ReadStateCache) (chunk : List ReadUpdate) : ReadStateCache := chunk.foldl update c

theorem rowAt_rebuffer (chunk : List ReadUpdate) (c : ReadStateCache)
    (key : UserId × ChannelId) :
    rowAt (c.rebuffer chunk).pending key = rowAt c.pending key ⊔ ackMax chunk key := by
  induction chunk generalizing c with
  | nil => simp [rebuffer]
  | cons x xs ih =>
    have h : (c.rebuffer (x :: xs)) = (c.update x).rebuffer xs := rfl
    rw [h, ih, rowAt_update, ackMax_cons x xs, sup_assoc]

/-! ## Draining -/

/-- `pending.remove(&key)`, and the item it adds to the batch. -/
def drainKey (c : ReadStateCache) (key : UserId × ChannelId) : List ReadUpdate × ReadStateCache :=
  match c.pending.lookup key with
  | some v => ([(key.1, key.2, v)], { c with pending := c.pending.erase key })
  | none => ([], c)

/-- The removals of `drain` for the keys collected before. -/
def drainKeys (c : ReadStateCache) : List (UserId × ChannelId) → List ReadUpdate × ReadStateCache
  | [] => ([], c)
  | key :: keys =>
    let (item, c) := c.drainKey key
    let (items, c) := c.drainKeys keys
    (item ++ items, c)

/-- `drain`, without interference, given the order in which the map is iterated. -/
def drain (c : ReadStateCache) (keys : List (UserId × ChannelId)) :
    List ReadUpdate × ReadStateCache :=
  let (batch, c) := c.drainKeys keys
  (batch, { c with pendingCount := 0 })

theorem held_drainKey (c : ReadStateCache) (k key : UserId × ChannelId) :
    rowAt (c.drainKey k).2.pending key ⊔ ackMax (c.drainKey k).1 key = rowAt c.pending key := by
  cases hold : c.pending.lookup k with
  | none => simp [drainKey, hold]
  | some v =>
    have hkey : keyOf (k.1, k.2, v) = k := rfl
    simp only [drainKey, hold, rowAt_erase, ackMax_singleton, hkey]
    by_cases hk : key = k
    · subst hk
      rw [if_pos rfl, if_pos rfl, bot_sup_eq, rowAt_of_lookup hold]
    · rw [if_neg hk, if_neg (Ne.symm hk), sup_bot_eq]

theorem keyOf_drainKey (c : ReadStateCache) (key : UserId × ChannelId) :
    ((c.drainKey key).1.map keyOf).Sublist [key] := by
  unfold drainKey
  cases c.pending.lookup key with
  | none => exact List.nil_sublist [key]
  | some v => exact List.Sublist.refl [key]

theorem rowAt_drainKey (c : ReadStateCache) (k key : UserId × ChannelId) :
    rowAt (c.drainKey k).2.pending key = if key = k then ⊥ else rowAt c.pending key := by
  cases hold : c.pending.lookup k with
  | none =>
    simp only [drainKey, hold]
    split_ifs with hk
    · rw [hk, rowAt_of_none hold]
    · rfl
  | some v => simp only [drainKey, hold, rowAt_erase]

theorem ackMax_drainKey (c : ReadStateCache) (k key : UserId × ChannelId) :
    ackMax (c.drainKey k).1 key = if key = k then rowAt c.pending key else ⊥ := by
  rw [← c.held_drainKey k key, rowAt_drainKey]
  split_ifs with hk
  · exact (bot_sup_eq _).symm
  · have hsub := (c.keyOf_drainKey k).subset
    refine not_not.1 fun hne => hk ?_
    exact List.mem_singleton.1 (hsub (List.mem_map.2 (ackMax_ne_bot_iff.1 hne)))

theorem held_drainKeys (keys : List (UserId × ChannelId)) (c : ReadStateCache)
    (key : UserId × ChannelId) :
    rowAt (c.drainKeys keys).2.pending key ⊔ ackMax (c.drainKeys keys).1 key =
      rowAt c.pending key := by
  induction keys generalizing c with
  | nil => simp [drainKeys]
  | cons k keys ih =>
    simp only [drainKeys]
    rw [ackMax_append, ← held_drainKey c k key, ← ih (c.drainKey k).2]
    ac_rfl

/-- Draining loses nothing: what the map held, the map and the batch hold together. -/
theorem held_drain (c : ReadStateCache) (keys : List (UserId × ChannelId))
    (key : UserId × ChannelId) :
    rowAt (c.drain keys).2.pending key ⊔ ackMax (c.drain keys).1 key = rowAt c.pending key :=
  held_drainKeys keys c key

/-- After the removals exactly the keys that were not collected keep their entries. -/
theorem lookup_drainKeys (keys : List (UserId × ChannelId)) (c : ReadStateCache)
    (key : UserId × ChannelId) :
    (c.drainKeys keys).2.pending.lookup key =
      if key ∈ keys then none else c.pending.lookup key := by
  induction keys generalizing c with
  | nil => simp [drainKeys]
  | cons k keys ih =>
    simp only [drainKeys]
    rw [ih]
    have hone : (c.drainKey k).2.pending.lookup key =
        if key = k then none else c.pending.lookup key := by
      cases hold : c.pending.lookup k with
      | none =>
        simp only [drainKey, hold]
        split_ifs with h
        · rw [h, hold]
        · rfl
      | some v => simp only [drainKey, hold, DashMap.lookup_erase_ite]
    rw [hone]
    by_cases hk : key = k <;> by_cases hks : key ∈ keys <;> simp [hk, hks]

theorem lookup_drain {c : ReadStateCache} {keys : List (UserId × ChannelId)}
    (hkeys : keys.Perm c.pending.keys) (key : UserId × ChannelId) :
    (c.drain keys).2.pending.lookup key = none := by
  show (c.drainKeys keys).2.pending.lookup key = none
  rw [c.lookup_drainKeys]
  split_ifs with h
  · rfl
  · rw [AList.lookup_eq_none, AList.mem_keys]
    exact fun hmem => h (hkeys.mem_iff.2 hmem)

theorem keys_drain {c : ReadStateCache} {keys : List (UserId × ChannelId)}
    (hkeys : keys.Perm c.pending.keys) : (c.drain keys).2.pending.keys = [] := by
  apply List.eq_nil_iff_forall_not_mem.2
  intro key hkey
  obtain ⟨v, hv⟩ := DashMap.mem_keys_iff.1 hkey
  rw [lookup_drain hkeys] at hv
  cases hv

end ReadStateCache

/-! ## The flusher -/

/-- `slice::chunks(n)`, with the length of the list as fuel. -/
def chunksFuel {α : Type*} (n : ℕ) : ℕ → List α → List (List α)
  | 0, _ => []
  | _ + 1, [] => []
  | fuel + 1, x :: xs => (x :: xs).take n :: chunksFuel n fuel ((x :: xs).drop n)

/-- `slice::chunks(n)`: consecutive pieces of `n` elements, the last one possibly shorter. -/
def chunks {α : Type*} (n : ℕ) (l : List α) : List (List α) := chunksFuel n l.length l

theorem flatten_chunksFuel {α : Type*} {n : ℕ} (hn : 0 < n) :
    ∀ (fuel : ℕ) (l : List α), l.length ≤ fuel → (chunksFuel n fuel l).flatten = l
  | 0, l, h => by
    have hl : l = [] := List.length_eq_zero_iff.1 (by omega)
    rw [hl]; rfl
  | _ + 1, [], _ => rfl
  | fuel + 1, x :: xs, h => by
    have hdrop : ((x :: xs).drop n).length ≤ fuel := by
      rw [List.length_drop]
      omega
    rw [chunksFuel, List.flatten_cons, flatten_chunksFuel hn fuel _ hdrop, List.take_append_drop]

theorem flatten_chunks {α : Type*} {n : ℕ} (hn : 0 < n) (l : List α) :
    (chunks n l).flatten = l :=
  flatten_chunksFuel hn l.length l le_rfl

theorem chunks_of_length_le {α : Type*} {n : ℕ} {l : List α} (hne : l ≠ []) (h : l.length ≤ n) :
    chunks n l = [l] := by
  cases l with
  | nil => exact absurd rfl hne
  | cons x xs =>
    rw [chunks, List.length_cons, chunksFuel, List.take_of_length_le h, List.drop_of_length_le h]
    cases xs.length <;> rfl

/-- `batch_threshold.max(100)`. -/
def chunkSize (batchThreshold : ℕ) : ℕ := max batchThreshold 100

theorem chunkSize_pos (batchThreshold : ℕ) : 0 < chunkSize batchThreshold :=
  lt_of_lt_of_le (by decide) (le_max_right _ _)

theorem chunks_singleton (batchThreshold : ℕ) (x : ReadUpdate) :
    chunks (chunkSize batchThreshold) [x] = [[x]] :=
  chunks_of_length_le (List.cons_ne_nil x []) (chunkSize_pos batchThreshold)

section
variable {δ : Type*} (upsert : δ → List ReadUpdate → Except DbError δ)

/-- One chunk at the database: written, or put back. -/
def flushChunk (s : ReadStateCache × δ) (chunk : List ReadUpdate) : ReadStateCache × δ :=
  match upsert s.2 chunk with
  | .ok db => (s.1, db)
  | .error _ => (s.1.rebuffer chunk, s.2)

/-- The loop over the chunks of a drained batch. -/
def flushBatch (batchThreshold : ℕ) (s : ReadStateCache × δ) (batch : List ReadUpdate) :
    ReadStateCache × δ :=
  (chunks (chunkSize batchThreshold) batch).foldl (flushChunk upsert) s

/-- One tick of `spawn_flusher`, without interference. -/
def flusherTick (batchThreshold : ℕ) (keys : List (UserId × ChannelId))
    (s : ReadStateCache × δ) : ReadStateCache × δ :=
  if s.1.pendingCount = 0 then s
  else
    let (batch, cache) := s.1.drain keys
    if batch.isEmpty then (cache, s.2)
    else flushBatch upsert batchThreshold (cache, s.2) batch

end

end RustRelay
