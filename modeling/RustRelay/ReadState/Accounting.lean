import Mathlib.Data.List.Flatten
import RustRelay.Core.Run
import RustRelay.ReadState.Shutdown

/-!
# The counters of the read-state cache

"How many updates are sitting in the buffer right now" and "total acks processed since server
start": both counters are kept beside the map. `update` counts up whether it wrote a new key or
merged into an old one, and a failed chunk goes back through `update`, so it is counted again.

**Theorem (`counters_accurate_iff`).** In every state of a run of acknowledgements and flusher
cycles `pending_count` is the number of entries of the map and `total_ops` the number of
acknowledgements, *if and only if* every acknowledgement was for a key that was not buffered, no
chunk was refused by the database, and there were fewer than `2 ^ 64` acknowledgements.

A flusher cycle is described once (`flusherTick_eq_rebuffer`): an empty map, and what the database
refused put back into it.
-/

namespace RustRelay

open Machine

/-! ## The keys of the map -/

namespace ReadStateCache

variable {c : ReadStateCache} {x : ReadUpdate}

theorem toNat_pendingCount_update :
    (c.update x).pendingCount.toNat = (c.pendingCount.toNat + 1) % 2 ^ 64 :=
  UInt64.toNat_add c.pendingCount 1

theorem toNat_totalOps_update : (c.update x).totalOps.toNat = (c.totalOps.toNat + 1) % 2 ^ 64 :=
  UInt64.toNat_add c.totalOps 1

theorem toNat_rebuffer (l : List ReadUpdate) (c : ReadStateCache) :
    (c.rebuffer l).pendingCount.toNat = (c.pendingCount.toNat + l.length) % 2 ^ 64 ∧
    (c.rebuffer l).totalOps.toNat = (c.totalOps.toNat + l.length) % 2 ^ 64 := by
  induction l generalizing c with
  | nil =>
    have hp := c.pendingCount.toNat_lt
    have ht := c.totalOps.toNat_lt
    exact ⟨(Nat.mod_eq_of_lt hp).symm, (Nat.mod_eq_of_lt ht).symm⟩
  | cons x l ih =>
    obtain ⟨hp, ht⟩ := ih (c.update x)
    rw [toNat_pendingCount_update] at hp
    rw [toNat_totalOps_update] at ht
    have hcons : c.rebuffer (x :: l) = (c.update x).rebuffer l := rfl
    rw [hcons, hp, ht, List.length_cons]
    omega

theorem length_keys_rebuffer {l : List ReadUpdate} {c : ReadStateCache}
    (hnodup : (l.map keyOf).Nodup) (hnew : ∀ x ∈ l, keyOf x ∉ c.pending.keys) :
    (c.rebuffer l).pending.keys.length = c.pending.keys.length + l.length := by
  induction l generalizing c with
  | nil => rfl
  | cons x l ih =>
    obtain ⟨hx, hnodup⟩ := List.nodup_cons.1 hnodup
    have hrest : ∀ y ∈ l, keyOf y ∉ (c.update x).pending.keys := by
      intro y hy hmem
      rcases mem_keys_update.1 hmem with heq | hmem
      · exact hx (heq ▸ List.mem_map_of_mem hy)
      · exact hnew y (List.mem_cons_of_mem x hy) hmem
    have hcons : c.rebuffer (x :: l) = (c.update x).rebuffer l := rfl
    rw [hcons, ih hnodup hrest, length_keys_update, if_neg (hnew x List.mem_cons_self),
      List.length_cons]
    omega

theorem totalOps_drainKeys (keys : List (UserId × ChannelId)) (c : ReadStateCache) :
    (c.drainKeys keys).2.totalOps = c.totalOps := by
  induction keys generalizing c with
  | nil => rfl
  | cons k keys ih =>
    have hone : (c.drainKey k).2.totalOps = c.totalOps := by
      unfold drainKey
      cases c.pending.lookup k <;> rfl
    rw [← hone, ← ih (c.drainKey k).2]
    rfl

end ReadStateCache

/-! ## One flusher cycle -/

theorem ne_nil_of_mem_chunksFuel {α : Type*} {n : ℕ} (hn : 0 < n) :
    ∀ (fuel : ℕ) (l : List α), ∀ chunk ∈ chunksFuel n fuel l, chunk ≠ []
  | 0, _, _, h => by simp [chunksFuel] at h
  | _ + 1, [], _, h => by simp [chunksFuel] at h
  | fuel + 1, x :: xs, chunk, h => by
    rcases List.mem_cons.1 h with rfl | h
    · simp [hn.ne']
    · exact ne_nil_of_mem_chunksFuel hn fuel _ chunk h

section
variable {δ : Type} (upsert : δ → List ReadUpdate → Except DbError δ)

/-- The database takes every one of the chunks. -/
def AllWritten : δ → List (List ReadUpdate) → Prop
  | _, [] => True
  | db, chunk :: chunks => match upsert db chunk with
    | .ok db' => AllWritten db' chunks
    | .error _ => False

/-- After the chunks, those that were refused are back in the buffer. -/
theorem foldl_flushChunk_eq_rebuffer (css : List (List ReadUpdate)) (c : ReadStateCache) (db : δ) :
    ∃ refused, refused.Sublist css ∧
      (css.foldl (flushChunk upsert) (c, db)).1 = c.rebuffer refused.flatten ∧
      (refused = [] ↔ AllWritten upsert db css) := by
  induction css generalizing c db with
  | nil => exact ⟨[], List.Sublist.slnil, rfl, iff_of_true rfl trivial⟩
  | cons cs css ih =>
    cases hup : upsert db cs with
    | ok db' =>
      obtain ⟨refused, hsub, hcache, hall⟩ := ih c db'
      refine ⟨refused, hsub.cons cs, ?_, ?_⟩
      · rw [← hcache, List.foldl_cons, flushChunk, hup]
      · rw [hall, AllWritten, hup]
    | error e =>
      obtain ⟨refused, hsub, hcache, -⟩ := ih (c.rebuffer cs) db
      refine ⟨cs :: refused, hsub.cons_cons cs, ?_, ?_⟩
      · rw [List.foldl_cons, flushChunk, hup, hcache, List.flatten_cons]
        exact List.foldl_append.symm
      · rw [AllWritten, hup]
        exact iff_of_false (List.cons_ne_nil cs refused) id

/-- **A flusher cycle** over a counted buffer empties the map and puts back what was refused. -/
theorem flusherTick_eq_rebuffer (batchThreshold : ℕ) {keys : List (UserId × ChannelId)}
    {c : ReadStateCache} (db : δ) (hkeys : keys.Perm c.pending.keys) (hcount : c.pendingCount ≠ 0) :
    ∃ l, l.Sublist (c.updatesOf keys) ∧
      (flusherTick upsert batchThreshold keys (c, db)).1 = (c.drain keys).2.rebuffer l ∧
      (l = [] ↔ AllWritten upsert db (chunks (chunkSize batchThreshold) (c.updatesOf keys))) := by
  have hbatch : (c.drain keys).1 = c.updatesOf keys :=
    c.drainKeys_batch (hkeys.nodup_iff.2 c.pending.keys_nodup)
  have hflat := flatten_chunks (chunkSize_pos batchThreshold) (c.updatesOf keys)
  simp only [flusherTick, if_neg hcount, hbatch]
  split_ifs with hempty
  · rw [List.isEmpty_iff.1 hempty]
    exact ⟨[], List.nil_sublist [], rfl, iff_of_true rfl trivial⟩
  · obtain ⟨refused, hsub, hcache, hall⟩ := foldl_flushChunk_eq_rebuffer upsert
      (chunks (chunkSize batchThreshold) (c.updatesOf keys)) (c.drain keys).2 db
    refine ⟨refused.flatten, hflat ▸ hsub.flatten, hcache, ?_⟩
    rw [← hall, List.flatten_eq_nil_iff]
    constructor
    · intro hnil
      apply List.eq_nil_iff_forall_not_mem.2
      intro chunk hchunk
      exact ne_nil_of_mem_chunksFuel (chunkSize_pos batchThreshold) _ _ chunk
        (hsub.subset hchunk) (hnil chunk hchunk)
    · rintro rfl
      exact List.forall_mem_nil _

end

/-! ## Runs of the server -/

/-- The cache, the database, and how many acknowledgements clients have sent. -/
structure Accounted (δ : Type) where
  cache : ReadStateCache
  db : δ
  acks : ℕ

namespace Accounted

variable {δ : Type}

/-- A client acknowledges a message, or the flusher's timer fires: the map is iterated in the
order `keys`, and in that cycle the database behaves like `upsert`. -/
inductive Op (δ : Type)
  | ack (x : ReadUpdate)
  | tick (keys : List (UserId × ChannelId)) (upsert : δ → List ReadUpdate → Except DbError δ)

/-- Nothing buffered, nothing counted. -/
def init (db : δ) : Accounted δ := ⟨.new, db, 0⟩

/-- One operation, without interference. -/
def step (batchThreshold : ℕ) (s : Accounted δ) : Op δ → Option (Accounted δ)
  | .ack x => some { s with cache := s.cache.update x, acks := s.acks + 1 }
  | .tick keys upsert =>
    if keys.Perm s.cache.pending.keys then
      let (cache, db) := flusherTick upsert batchThreshold keys (s.cache, s.db)
      some { s with cache := cache, db := db }
    else none

/-- The counters mean what they report. -/
def Accurate (s : Accounted δ) : Prop :=
  s.cache.pendingCount.toNat = s.cache.pending.keys.length ∧ s.cache.totalOps.toNat = s.acks

instance (s : Accounted δ) : Decidable s.Accurate := inferInstanceAs (Decidable (_ ∧ _))

/-- The operation counts every update once: an acknowledgement is the only one for its key that
is buffered, a chunk is not put back. -/
def CountsOnce (batchThreshold : ℕ) (s : Accounted δ) : Op δ → Prop
  | .ack x => keyOf x ∉ s.cache.pending.keys ∧ s.acks + 1 < 2 ^ 64
  | .tick keys upsert =>
    AllWritten upsert s.db (chunks (chunkSize batchThreshold) (s.cache.updatesOf keys))

/-- There are at most as many entries as acknowledgements. -/
def Bounded (s : Accounted δ) : Prop := s.cache.pending.keys.length ≤ s.acks

variable {batchThreshold : ℕ} {s t : Accounted δ} {keys : List (UserId × ChannelId)}
  {upsert : δ → List ReadUpdate → Except DbError δ}

/-- What a cycle over a counted buffer leaves, in numbers. -/
theorem tick_spec (hkeys : keys.Perm s.cache.pending.keys) (hcount : s.cache.pendingCount ≠ 0)
    (h : step batchThreshold s (.tick keys upsert) = some t) :
    ∃ n, n ≤ s.cache.pending.keys.length ∧ t.cache.pending.keys.length = n ∧
      t.cache.pendingCount.toNat = n % 2 ^ 64 ∧
      t.cache.totalOps.toNat = (s.cache.totalOps.toNat + n) % 2 ^ 64 ∧ t.acks = s.acks ∧
      (n = 0 ↔ CountsOnce batchThreshold s (.tick keys upsert)) := by
  obtain ⟨l, hsub, hcache, hall⟩ := flusherTick_eq_rebuffer upsert batchThreshold s.db hkeys hcount
  simp only [step, if_pos hkeys, Option.some.injEq] at h
  subst h
  have hdrained := ReadStateCache.keys_drain hkeys
  have hmap := ReadStateCache.map_keyOf_updatesOf hkeys.subset
  have hnodup : (l.map keyOf).Nodup := by
    have hbatch : ((s.cache.updatesOf keys).map keyOf).Nodup := by
      rw [hmap]
      exact hkeys.nodup_iff.2 s.cache.pending.keys_nodup
    exact hbatch.sublist (hsub.map keyOf)
  obtain ⟨hp, ht⟩ := ReadStateCache.toNat_rebuffer l (s.cache.drain keys).2
  have htotal : (s.cache.drain keys).2.totalOps = s.cache.totalOps :=
    ReadStateCache.totalOps_drainKeys keys s.cache
  refine ⟨l.length, ?_, ?_, ?_, ?_, rfl, ?_⟩
  · have hle := hsub.length_le
    rwa [ReadStateCache.length_updatesOf hkeys.subset, hkeys.length_eq] at hle
  · rw [hcache, ReadStateCache.length_keys_rebuffer hnodup (by simp [hdrained]), hdrained]
    exact Nat.zero_add _
  · have hzero : (s.cache.drain keys).2.pendingCount.toNat = 0 := rfl
    rw [hcache, hp, hzero, Nat.zero_add]
  · rw [hcache, ht, htotal]
  · rw [List.length_eq_zero_iff, hall]
    rfl

theorem tick_of_zero (hkeys : keys.Perm s.cache.pending.keys) (hcount : s.cache.pendingCount = 0)
    (h : step batchThreshold s (.tick keys upsert) = some t) : t = s := by
  simp only [step, if_pos hkeys, flusherTick, if_pos hcount, Option.some.injEq] at h
  exact h.symm

theorem perm_of_tick (h : step batchThreshold s (.tick keys upsert) = some t) :
    keys.Perm s.cache.pending.keys := by
  by_contra hkeys
  rw [step, if_neg hkeys] at h
  cases h

theorem step_bounded {op : Op δ} (hs : s.Bounded) (h : step batchThreshold s op = some t) :
    t.Bounded := by
  cases op with
  | ack x =>
    obtain rfl := Option.some.inj h
    show (s.cache.update x).pending.keys.length ≤ s.acks + 1
    rw [ReadStateCache.length_keys_update]
    have hle : s.cache.pending.keys.length ≤ s.acks := hs
    split_ifs <;> omega
  | tick keys upsert =>
    have hkeys := perm_of_tick h
    by_cases hcount : s.cache.pendingCount = 0
    · rwa [tick_of_zero hkeys hcount h]
    · obtain ⟨n, hn, hlen, -, -, hacks, -⟩ := tick_spec hkeys hcount h
      rw [Bounded, hlen, hacks]
      exact hn.trans hs

/-- **One operation** keeps accurate counters accurate exactly if it counts once. -/
theorem step_accurate_iff {op : Op δ} (hs : s.Bounded) (hacc : s.Accurate)
    (h : step batchThreshold s op = some t) : t.Accurate ↔ CountsOnce batchThreshold s op := by
  obtain ⟨hpending, htotal⟩ := hacc
  have hle : s.cache.pending.keys.length ≤ s.acks := hs
  cases op with
  | ack x =>
    obtain rfl := Option.some.inj h
    show (s.cache.update x).pendingCount.toNat = (s.cache.update x).pending.keys.length ∧
      (s.cache.update x).totalOps.toNat = s.acks + 1 ↔ _ ∧ _
    rw [ReadStateCache.length_keys_update, ReadStateCache.toNat_pendingCount_update,
      ReadStateCache.toNat_totalOps_update, hpending, htotal]
    have hlt := s.cache.totalOps.toNat_lt
    split_ifs with hkey
    · simp only [hkey, not_true_eq_false, false_and, iff_false]
      omega
    · simp only [hkey, not_false_eq_true, true_and]
      omega
  | tick keys upsert =>
    have hkeys := perm_of_tick h
    by_cases hcount : s.cache.pendingCount = 0
    · -- The cycle is skipped, and there is nothing to write.
      have hnil : keys = [] := by
        have hlen := hkeys.length_eq
        rw [← hpending, hcount] at hlen
        exact List.length_eq_zero_iff.1 hlen
      rw [tick_of_zero hkeys hcount h, hnil]
      exact iff_of_true ⟨hpending, htotal⟩ trivial
    · obtain ⟨n, hn, hlen, hp, ht, hacks, hwritten⟩ := tick_spec hkeys hcount h
      rw [← hwritten, Accurate, hlen, hp, ht, hacks, htotal]
      have hlt := s.cache.totalOps.toNat_lt
      omega

/-- **The counters are accurate in every state** of exactly the runs that count everything once. -/
theorem counters_accurate_iff (batchThreshold : ℕ) (db : δ) (ops : List (Op δ)) :
    (∀ pre post s, ops = pre ++ post → exec (step batchThreshold) (init db) pre = some s →
      s.Accurate) ↔
    Along (step batchThreshold) (CountsOnce batchThreshold) (init db) ops :=
  always_iff_along (I := Bounded) (fun _ _ _ hs h => step_bounded hs h)
    (fun _ _ _ hs hacc h => step_accurate_iff hs hacc h) (Nat.zero_le 0) ⟨rfl, rfl⟩

/-- One user reads on in one channel. -/
def coalescedRun : List (Op Database) := [.ack (1, 20, 7), .ack (1, 20, 8)]

/-- Two users read in one channel, and the database refuses the chunk. -/
def refusedRun : List (Op Database) :=
  [.ack (1, 20, 7), .ack (2, 20, 7),
    .tick [(1, 20), (2, 20)] fun db => upsertReadStatesBatch db 0]

/-- One entry and a count of two; two acknowledgements and a total of four. -/
theorem counters_drift :
    (∃ s, exec (step 1000) (init twoUsers) coalescedRun = some s ∧ ¬s.Accurate ∧
      s.cache.pendingCount = 2 ∧ s.cache.pending.keys.length = 1) ∧
    ∃ s, exec (step 1000) (init twoUsers) refusedRun = some s ∧ ¬s.Accurate ∧
      s.cache.totalOps = 4 ∧ s.acks = 2 :=
  ⟨⟨_, rfl, by decide +kernel, rfl, rfl⟩, _, rfl, by decide +kernel, rfl, rfl⟩

end Accounted

end RustRelay
