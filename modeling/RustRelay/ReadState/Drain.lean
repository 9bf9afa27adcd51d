import RustRelay.Core.Run
import RustRelay.ReadState.Accounting

/-!
# Concurrent drains

`drain` is called by the flusher and by `flush_now`, and nothing keeps the calls apart. Each one
first collects keys and then removes them one by one, while clients go on updating: a collected
entry may grow, be removed by another call, and be inserted anew.

**Theorem (`drains_partition`).** In every reachable state each batch has distinct keys. A step
that ends the lifetime of an entry adds one item to one batch, its key with the largest id merged
during the lifetime, and a batch changes in no other way.

Of the iteration over the map nothing is assumed but that it yields an entry of the map each time,
and no key twice; a removal is atomic. The distinct keys come from the first (`Drain.keys`), the
maximum from what one step does to an entry that stays (`rowAt_step`), and the rest from the one
step that removes entries (`step_cases`).
-/

namespace RustRelay

open MaxMerge Machine

/-- Where a call of `drain` stands. -/
inductive Drain
  /-- Iterating over the map, with the keys it has yielded. -/
  | collecting (keys : List (UserId × ChannelId))
  /-- The loop over the keys: those still to remove, and the batch so far. -/
  | draining (keys : List (UserId × ChannelId)) (batch : List ReadUpdate)
  /-- Returned with its batch. -/
  | returned (batch : List ReadUpdate)

namespace Drain

/-- What the call has pushed to its batch. -/
def batch : Drain → List ReadUpdate
  | .collecting _ => []
  | .draining _ batch | .returned batch => batch

/-- The keys of the call, still to remove or in the batch. -/
def keys : Drain → List (UserId × ChannelId)
  | .collecting keys => keys
  | .draining keys batch => keys ++ batch.map keyOf
  | .returned batch => batch.map keyOf

theorem nodup_batch {d : Drain} (h : d.keys.Nodup) : (d.batch.map keyOf).Nodup := by
  cases d with
  | collecting keys => exact List.nodup_nil
  | draining keys batch => exact (List.nodup_append.1 h).2.1
  | returned batch => exact h

end Drain

/-- The cache, the calls of `drain` so far, and how many clients are between two operations of
`update`: before the first counter, and before the second. -/
structure Draining where
  cache : ReadStateCache
  drains : DashMap ℕ Drain
  beforePending : ℕ
  beforeTotal : ℕ

namespace Draining

/-- An empty buffer that was never drained. -/
def init : Draining := ⟨.new, ∅, 0, 0⟩

/-- Who moves next, and how its choice falls. -/
inductive Action
  /-- The map write of `update`. -/
  | update (x : ReadUpdate)
  /-- Some client's `pending_count.fetch_add(1)`. -/
  | countPending
  /-- Some client's `total_ops.fetch_add(1)`. -/
  | countTotal
  /-- A call of `drain` begins. -/
  | call (i : ℕ)
  /-- Its iteration over the map yields the entry of `key`. -/
  | iterate (i : ℕ) (key : UserId × ChannelId)
  /-- Its next operation where nothing is left to choose. -/
  | advance (i : ℕ)

/-- The updates among the actions of a run. -/
def acks (as : List Action) : List ReadUpdate :=
  as.filterMap fun a => match a with
    | .update x => some x
    | _ => none

/-- The next operation of a call: it is done iterating, it removes a key, or it stores zero. -/
def advance (s : Draining) (i : ℕ) : Option Draining :=
  match s.drains.lookup i with
  | some (.collecting keys) => some { s with drains := s.drains.insert i (.draining keys []) }
  | some (.draining (key :: keys) batch) =>
    let (item, cache) := s.cache.drainKey key
    some { s with cache := cache, drains := s.drains.insert i (.draining keys (batch ++ item)) }
  | some (.draining [] batch) =>
    some { s with
      cache := { s.cache with pendingCount := 0 }
      drains := s.drains.insert i (.returned batch) }
  | some (.returned _) | none => none

/-- One step. -/
def step (s : Draining) : Action → Option Draining
  | .update x =>
    some { s with cache := s.cache.updateEntry x, beforePending := s.beforePending + 1 }
  | .countPending =>
    if s.beforePending = 0 then none
    else some { s with
      cache := s.cache.countPending
      beforePending := s.beforePending - 1
      beforeTotal := s.beforeTotal + 1 }
  | .countTotal =>
    if s.beforeTotal = 0 then none
    else some { s with cache := s.cache.countTotal, beforeTotal := s.beforeTotal - 1 }
  | .call i => match s.drains.lookup i with
    | none => some { s with drains := s.drains.insert i (.collecting []) }
    | some _ => none
  | .iterate i key => match s.drains.lookup i with
    | some (.collecting keys) =>
      if key ∈ s.cache.pending.keys ∧ key ∉ keys then
        some { s with drains := s.drains.insert i (.collecting (keys ++ [key])) }
      else none
    | _ => none
  | .advance i => s.advance i

/-- The batch of a call, as far as it is filled. -/
def batch (s : Draining) (i : ℕ) : List ReadUpdate :=
  ((s.drains.lookup i).map Drain.batch).getD []

/-! ## Undisturbed calls -/

section
variable (cache : ReadStateCache) (drains : DashMap ℕ Drain) (p q i : ℕ)

theorem exec_iterates {keys done : List (UserId × ChannelId)} (hnodup : (done ++ keys).Nodup)
    (hkeys : keys ⊆ cache.pending.keys) :
    exec step ⟨cache, drains.insert i (.collecting done), p, q⟩ (keys.map (.iterate i)) =
      some ⟨cache, drains.insert i (.collecting (done ++ keys)), p, q⟩ := by
  induction keys generalizing done with
  | nil => rw [List.append_nil]; rfl
  | cons key keys ih =>
    obtain ⟨hkey, hkeys⟩ := List.cons_subset.1 hkeys
    have hnew : key ∉ done := fun hmem =>
      (List.nodup_append.1 hnodup).2.2 key hmem key List.mem_cons_self rfl
    have happend : done ++ key :: keys = done ++ [key] ++ keys := by simp
    rw [happend] at hnodup ⊢
    refine exec_cons.2 ⟨_, ?_, ih hnodup hkeys⟩
    simp only [step, AList.lookup_insert, if_pos (And.intro hkey hnew), AList.insert_insert]

theorem exec_removals (keys : List (UserId × ChannelId)) (batch : List ReadUpdate) :
    exec step ⟨cache, drains.insert i (.draining keys batch), p, q⟩
        (List.replicate keys.length (.advance i)) =
      some ⟨(cache.drainKeys keys).2,
        drains.insert i (.draining [] (batch ++ (cache.drainKeys keys).1)), p, q⟩ := by
  induction keys generalizing cache batch with
  | nil => simp [ReadStateCache.drainKeys]
  | cons key keys ih =>
    have hrest := ih (cache.drainKey key).2 (batch ++ (cache.drainKey key).1)
    rw [List.length_cons, List.replicate_succ]
    refine exec_cons.2 ⟨_, ?_, hrest.trans ?_⟩
    · simp only [step, advance, AList.lookup_insert, AList.insert_insert]
    · simp only [ReadStateCache.drainKeys, List.append_assoc]

theorem exec_drain {s : Draining} (hnew : s.drains.lookup i = none)
    {keys : List (UserId × ChannelId)} (hnodup : keys.Nodup) (hkeys : keys ⊆ s.cache.pending.keys) :
    exec step s (.call i :: (keys.map (.iterate i) ++
        .advance i :: (List.replicate keys.length (.advance i) ++ [.advance i]))) =
      some { s with
        cache := (s.cache.drain keys).2
        drains := s.drains.insert i (.returned (s.cache.drain keys).1) } := by
  obtain ⟨cache, drains, p, q⟩ := s
  refine exec_cons.2 ⟨⟨cache, drains.insert i (.collecting []), p, q⟩, ?_, ?_⟩
  · simp only [step, hnew]
  refine exec_append.2 ⟨_, exec_iterates cache drains p q i hnodup hkeys, ?_⟩
  refine exec_cons.2 ⟨⟨cache, drains.insert i (.draining keys []), p, q⟩, ?_, ?_⟩
  · simp only [step, advance, AList.lookup_insert, AList.insert_insert, List.nil_append]
  refine exec_append.2 ⟨_, exec_removals cache drains p q i keys [], ?_⟩
  refine exec_cons.2 ⟨_, ?_, rfl⟩
  simp only [step, advance, AList.lookup_insert, AList.insert_insert]
  rfl

end

/-! ## One step -/

/-- The step moves the entry of the item from the map to the batch of `i`. -/
def HandsOver (s t : Draining) (i : ℕ) (item : ReadUpdate) : Prop :=
  t.batch i = s.batch i ++ [item] ∧ ∀ j, j ≠ i → t.batch j = s.batch j

variable {s t : Draining} {a : Action} {as : List Action}

theorem batch_of_insert {i : ℕ} {d : Drain} (h : t.drains = s.drains.insert i d) (j : ℕ) :
    t.batch j = if j = i then d.batch else s.batch j := by
  simp only [batch, h, DashMap.lookup_insert_ite]
  split_ifs <;> rfl

theorem batch_of_lookup {i : ℕ} {d : Drain} (h : s.drains.lookup i = some d) :
    s.batch i = d.batch := by
  simp [batch, h]

theorem batch_of_insert_same {i : ℕ} {d : Drain} (h : t.drains = s.drains.insert i d)
    (hsame : s.batch i = d.batch) (j : ℕ) : t.batch j = s.batch j := by
  rw [batch_of_insert h]
  split_ifs with hj
  · rw [hj, hsame]
  · rfl

/-- **What a step can do**: an update, a count, a call that moves on with the batch it has, or a
call that comes to a key. -/
theorem step_ops (h : step s a = some t) :
    (∃ x, a = .update x ∧ t.cache.pending = (s.cache.updateEntry x).pending ∧
      t.drains = s.drains) ∨
    acks [a] = [] ∧
    ((t.cache.pending = s.cache.pending ∧ t.drains = s.drains) ∨
      (∃ i d, t.cache.pending = s.cache.pending ∧ t.drains = s.drains.insert i d ∧
        s.batch i = d.batch ∧ ((∀ d, s.drains.lookup i = some d → d.keys.Nodup) → d.keys.Nodup)) ∨
      ∃ i key keys batch, s.drains.lookup i = some (.draining (key :: keys) batch) ∧
        t.cache.pending = (s.cache.drainKey key).2.pending ∧
        t.drains = s.drains.insert i (.draining keys (batch ++ (s.cache.drainKey key).1))) := by
  cases a with
  | update x =>
    obtain rfl := Option.some.inj h
    exact .inl ⟨x, rfl, rfl, rfl⟩
  | countPending =>
    simp only [step] at h
    split_ifs at h
    obtain rfl := Option.some.inj h
    exact .inr ⟨rfl, .inl ⟨rfl, rfl⟩⟩
  | countTotal =>
    simp only [step] at h
    split_ifs at h
    obtain rfl := Option.some.inj h
    exact .inr ⟨rfl, .inl ⟨rfl, rfl⟩⟩
  | call i =>
    cases hlook : s.drains.lookup i with
    | some d => simp only [step, hlook, reduceCtorEq] at h
    | none =>
      simp only [step, hlook, Option.some.injEq] at h
      subst h
      have hempty : s.batch i = [] := by simp [batch, hlook]
      exact .inr ⟨rfl, .inr (.inl ⟨i, _, rfl, rfl, hempty, fun _ => List.nodup_nil⟩)⟩
  | iterate i key =>
    simp only [step] at h
    split at h
    · next keys hlook =>
      split_ifs at h with hyield
      obtain rfl := Option.some.inj h
      refine .inr ⟨rfl, .inr (.inl ⟨i, _, rfl, rfl, (batch_of_lookup hlook).trans rfl, ?_⟩)⟩
      intro hdistinct
      have hkeys : (key :: keys).Nodup := List.nodup_cons.2 ⟨hyield.2, hdistinct _ hlook⟩
      exact (List.perm_append_singleton key keys).nodup_iff.2 hkeys
    · cases h
  | advance i =>
    simp only [step, advance] at h
    split at h
    · next keys hlook =>
      obtain rfl := Option.some.inj h
      refine .inr ⟨rfl, .inr (.inl ⟨i, _, rfl, rfl, (batch_of_lookup hlook).trans rfl, ?_⟩)⟩
      intro hdistinct
      rw [Drain.keys, List.map_nil, List.append_nil]
      exact hdistinct _ hlook
    · next key keys batch hlook =>
      obtain rfl := Option.some.inj h
      exact .inr ⟨rfl, .inr (.inr ⟨i, key, keys, batch, hlook, rfl, rfl⟩)⟩
    · next batch hlook =>
      obtain rfl := Option.some.inj h
      refine .inr ⟨rfl, .inr (.inl ⟨i, _, rfl, rfl, (batch_of_lookup hlook).trans rfl, ?_⟩)⟩
      intro hdistinct
      have hbatch : (batch.map keyOf).Nodup := hdistinct _ hlook
      exact hbatch
    · cases h
    · cases h

theorem batch_of_drains (h : t.drains = s.drains) (i : ℕ) : t.batch i = s.batch i := by
  rw [batch, batch, h]

theorem step_cases (h : step s a = some t) :
    (∃ x, a = .update x ∧ t.cache.pending = (s.cache.updateEntry x).pending ∧
      ∀ i, t.batch i = s.batch i) ∨
    (acks [a] = [] ∧ ∃ i key v, s.cache.pending.lookup key = some v ∧
      t.cache.pending = s.cache.pending.erase key ∧ s.HandsOver t i (key.1, key.2, v)) ∨
    (acks [a] = [] ∧ t.cache.pending = s.cache.pending ∧ ∀ i, t.batch i = s.batch i) := by
  obtain ⟨x, ha, hpending, hdrains⟩ | ⟨hacks, ⟨hpending, hdrains⟩ |
    ⟨i, d, hpending, hdrains, hbatch, -⟩ | ⟨i, key, keys, batch, hlook, hpending, hdrains⟩⟩ :=
    step_ops h
  · exact .inl ⟨x, ha, hpending, batch_of_drains hdrains⟩
  · exact .inr (.inr ⟨hacks, hpending, batch_of_drains hdrains⟩)
  · exact .inr (.inr ⟨hacks, hpending, batch_of_insert_same hdrains hbatch⟩)
  · cases hold : s.cache.pending.lookup key with
    | none =>
      -- Another call was faster.
      simp only [ReadStateCache.drainKey, hold, List.append_nil] at hpending hdrains
      exact .inr (.inr ⟨hacks, hpending, batch_of_insert_same hdrains
        ((batch_of_lookup hlook).trans rfl)⟩)
    | some v =>
      simp only [ReadStateCache.drainKey, hold] at hpending hdrains
      refine .inr (.inl ⟨hacks, i, key, v, hold, hpending, ?_, ?_⟩)
      · rw [batch_of_insert hdrains, if_pos rfl, batch_of_lookup hlook]
        rfl
      · intro j hj
        rw [batch_of_insert hdrains, if_neg hj]

/-- An entry that stays takes the maximum with what the step merges into it. -/
theorem rowAt_step (h : step s a = some t) {key : UserId × ChannelId}
    (hkey : key ∈ t.cache.pending.keys) :
    rowAt t.cache.pending key = rowAt s.cache.pending key ⊔ ackMax (acks [a]) key := by
  rcases step_cases h with ⟨x, rfl, hpending, -⟩ | ⟨hacks, i, k, v, -, hpending, -⟩ |
    ⟨hacks, hpending, -⟩
  · rw [hpending, ReadStateCache.rowAt_updateEntry]
    rfl
  · rw [hpending] at hkey
    have hne : key ≠ k := (AList.mem_erase.1 hkey).1
    rw [hpending, rowAt_erase, if_neg hne, hacks, ackMax_nil, sup_bot_eq]
  · rw [hpending, hacks, ackMax_nil, sup_bot_eq]

theorem handsOver_of_removed (h : step s a = some t) {key : UserId × ChannelId}
    (hs : key ∈ s.cache.pending.keys) (ht : key ∉ t.cache.pending.keys) :
    ∃ i v, s.cache.pending.lookup key = some v ∧ s.HandsOver t i (key.1, key.2, v) := by
  rcases step_cases h with ⟨x, rfl, hpending, -⟩ | ⟨-, i, k, v, hv, hpending, hover⟩ |
    ⟨-, hpending, -⟩
  · exact absurd (hpending ▸ ReadStateCache.mem_keys_update.2 (.inr hs)) ht
  · have heq : key = k := by
      by_contra hne
      rw [hpending] at ht
      exact ht (AList.mem_erase.2 ⟨hne, hs⟩)
    subst heq
    exact ⟨i, v, hv, hover⟩
  · exact absurd (hpending ▸ hs) ht

/-- A batch changes only by an entry that is removed. -/
theorem removed_of_batch_ne (h : step s a = some t) {i : ℕ} (hne : t.batch i ≠ s.batch i) :
    ∃ key v, s.cache.pending.lookup key = some v ∧ key ∉ t.cache.pending.keys ∧
      s.HandsOver t i (key.1, key.2, v) := by
  rcases step_cases h with ⟨x, rfl, -, hbatch⟩ | ⟨-, j, key, v, hv, hpending, hover⟩ |
    ⟨-, -, hbatch⟩
  · exact absurd (hbatch i) hne
  · obtain rfl : i = j := by
      by_contra hij
      exact hne (hover.2 i hij)
    refine ⟨key, v, hv, ?_, hover⟩
    rw [hpending]
    exact fun hmem => (AList.mem_erase.1 hmem).1 rfl
  · exact absurd (hbatch i) hne

theorem update_of_inserted (h : step s a = some t) {key : UserId × ChannelId}
    (hs : key ∉ s.cache.pending.keys) (ht : key ∈ t.cache.pending.keys) :
    ∃ x, a = .update x ∧ keyOf x = key := by
  rcases step_cases h with ⟨x, rfl, hpending, -⟩ | ⟨-, i, k, v, -, hpending, -⟩ |
    ⟨-, hpending, -⟩
  · rw [hpending] at ht
    rcases ReadStateCache.mem_keys_update.1 ht with heq | hmem
    · exact ⟨x, rfl, heq.symm⟩
    · exact absurd hmem hs
  · rw [hpending] at ht
    exact absurd (AList.mem_erase.1 ht).2 hs
  · exact absurd (hpending ▸ ht) hs

/-! ## Distinct keys -/

/-- Every call has to do with each key once. -/
def Distinct (s : Draining) : Prop := ∀ i d, s.drains.lookup i = some d → d.keys.Nodup

theorem Distinct.of_insert (h : s.Distinct) {i : ℕ} {d : Drain}
    (ht : t.drains = s.drains.insert i d) (hd : d.keys.Nodup) : t.Distinct := by
  intro j d' hj
  rw [ht, DashMap.lookup_insert_ite] at hj
  split_ifs at hj with hij
  · exact Option.some.inj hj ▸ hd
  · exact h j d' hj

theorem step_distinct (hs : s.Distinct) (h : step s a = some t) : t.Distinct := by
  obtain ⟨x, -, -, hdrains⟩ | ⟨-, ⟨-, hdrains⟩ | ⟨i, d, -, hdrains, -, hkeys⟩ |
    ⟨i, key, keys, batch, hlook, -, hdrains⟩⟩ := step_ops h
  · rwa [Distinct, hdrains]
  · rwa [Distinct, hdrains]
  · exact hs.of_insert hdrains (hkeys fun d => hs i d)
  · refine hs.of_insert hdrains ?_
    -- The key leaves the loop, and may enter the batch.
    have hnodup : (key :: (keys ++ batch.map keyOf)).Nodup := hs i _ hlook
    have hmoved : (keys ++ (batch.map keyOf ++ [key])).Nodup := by
      rw [← List.append_assoc]
      exact (List.perm_append_singleton key _).nodup_iff.2 hnodup
    rw [Drain.keys, List.map_append]
    exact hmoved.sublist (((s.cache.keyOf_drainKey key).append_left _).append_left _)

theorem init_distinct : init.Distinct := by
  intro i d hd
  cases hd

/-! ## Lifetimes -/

/-- After `pre`, `x` inserts an entry for its key, which is there in every state of `mid`. -/
def Lifetime (pre : List Action) (x : ReadUpdate) (mid : List Action) : Prop :=
  ∃ r, exec step init pre = some r ∧ keyOf x ∉ r.cache.pending.keys ∧
    ∀ mid₁ mid₂ p, mid = mid₁ ++ mid₂ → exec step r (.update x :: mid₁) = some p →
      keyOf x ∈ p.cache.pending.keys

theorem acks_append (as bs : List Action) : acks (as ++ bs) = acks as ++ acks bs :=
  List.filterMap_append

/-- **The value of an entry** is the largest id merged in its lifetime. -/
theorem Lifetime.rowAt_eq {pre mid : List Action} {x : ReadUpdate} (h : Lifetime pre x mid)
    (hs : exec step init (pre ++ .update x :: mid) = some s) :
    rowAt s.cache.pending (keyOf x) = ackMax (acks (.update x :: mid)) (keyOf x) := by
  obtain ⟨r, hr, hnew, hlives⟩ := h
  obtain ⟨r', hr', hrun⟩ := exec_append.1 hs
  obtain rfl := Option.some.inj (hr.symm.trans hr')
  clear hs
  -- On the last step of the lifetime.
  induction mid using List.reverseRecOn generalizing s with
  | nil =>
    obtain ⟨q, hq, hrun⟩ := exec_cons.1 hrun
    obtain rfl : q = s := by simpa using hrun
    have hnone : r.cache.pending.lookup (keyOf x) = none :=
      AList.lookup_eq_none.2 (mt AList.mem_keys.1 hnew)
    rw [rowAt_step hq (hlives [] [] q rfl (exec_cons.2 ⟨q, hq, rfl⟩)), rowAt_of_none hnone,
      bot_sup_eq]
  | append_singleton mid a ih =>
    obtain ⟨q, hq, hqs⟩ := exec_snoc.1
      (show exec step r ((.update x :: mid) ++ [a]) = some s from hrun)
    have hshort : ∀ mid₁ mid₂ p, mid = mid₁ ++ mid₂ → exec step r (.update x :: mid₁) = some p →
        keyOf x ∈ p.cache.pending.keys := fun mid₁ mid₂ p hsplit hp =>
      hlives mid₁ (mid₂ ++ [a]) p (by rw [hsplit, List.append_assoc]) hp
    have hstays := hlives (mid ++ [a]) [] s (List.append_nil _).symm hrun
    rw [rowAt_step hqs hstays, ih hshort hq, ← ackMax_append, ← acks_append]
    rfl

theorem exists_lifetime (hs : exec step init as = some s) {key : UserId × ChannelId}
    (hkey : key ∈ s.cache.pending.keys) :
    ∃ pre x mid, as = pre ++ .update x :: mid ∧ keyOf x = key ∧ Lifetime pre x mid := by
  induction as using List.reverseRecOn generalizing s with
  | nil =>
    obtain rfl : init = s := by simpa using hs
    exact absurd hkey List.not_mem_nil
  | append_singleton as a ih =>
    obtain ⟨r, hr, hrs⟩ := exec_snoc.1 hs
    by_cases hold : key ∈ r.cache.pending.keys
    · obtain ⟨pre, x, mid, rfl, rfl, q, hq, hnew, hlives⟩ := ih hr hold
      refine ⟨pre, x, mid ++ [a], by simp, rfl, q, hq, hnew, ?_⟩
      intro mid₁ mid₂ p hsplit hp
      rcases List.eq_nil_or_concat mid₂ with rfl | ⟨mid₂, b, rfl⟩
      · -- The last state.
        rw [List.append_nil] at hsplit
        subst hsplit
        obtain ⟨q', hq', hrun⟩ := exec_append.1
          (show exec step init (pre ++ .update x :: (mid ++ [a])) = some s by simpa using hs)
        obtain rfl := Option.some.inj (hq.symm.trans hq')
        obtain rfl := Option.some.inj (hrun.symm.trans hp)
        exact hkey
      · rw [List.concat_eq_append, ← List.append_assoc] at hsplit
        exact hlives mid₁ mid₂ p (List.append_inj' hsplit rfl).1 hp
    · obtain ⟨x, rfl, rfl⟩ := update_of_inserted hrs hold hkey
      refine ⟨as, x, [], rfl, rfl, r, hr, hold, ?_⟩
      intro mid₁ mid₂ p hsplit hp
      obtain ⟨rfl, -⟩ := List.append_eq_nil_iff.1 hsplit.symm
      obtain ⟨q, hq, hp⟩ := exec_cons.1 hp
      obtain rfl : q = p := by simpa using hp
      obtain rfl := Option.some.inj (hrs.symm.trans hq)
      exact hkey

/-- **Drains partition the buffer.** Every batch has distinct keys; a step that ends a lifetime
pushes its key with its maximum to one batch and leaves the others alone; and every change of a
batch is such a step. -/
theorem drains_partition (as : List Action) (s : Draining) (hs : exec step init as = some s) :
    (∀ i, ((s.batch i).map keyOf).Nodup) ∧
    ∀ a t, step s a = some t →
      (∀ pre x mid, as = pre ++ .update x :: mid → Lifetime pre x mid →
        keyOf x ∉ t.cache.pending.keys →
        ∃ i m, ackMax (acks (.update x :: mid)) (keyOf x) = (m : MessageId) ∧
          s.HandsOver t i (x.1, x.2.1, m)) ∧
      ∀ i, t.batch i ≠ s.batch i →
        ∃ pre x mid m, as = pre ++ .update x :: mid ∧ Lifetime pre x mid ∧
          keyOf x ∉ t.cache.pending.keys ∧
          ackMax (acks (.update x :: mid)) (keyOf x) = (m : MessageId) ∧
          s.HandsOver t i (x.1, x.2.1, m) := by
  refine ⟨?_, ?_⟩
  · have hdistinct : s.Distinct :=
      exec_invariant (fun _ _ _ h hstep => step_distinct h hstep) init_distinct hs
    intro i
    cases hlook : s.drains.lookup i with
    | none => simp [batch, hlook]
    | some d =>
      rw [batch_of_lookup hlook]
      exact Drain.nodup_batch (hdistinct i d hlook)
  · intro a t hstep
    constructor
    · intro pre x mid hsplit hlife hgone
      subst hsplit
      have hvalue := hlife.rowAt_eq hs
      obtain ⟨r, hr, hnew, hlives⟩ := hlife
      obtain ⟨r', hr', hmid⟩ := exec_append.1 hs
      obtain rfl := Option.some.inj (hr.symm.trans hr')
      have hkey := hlives mid [] s (List.append_nil mid).symm hmid
      obtain ⟨i, m, hm, hover⟩ := handsOver_of_removed hstep hkey hgone
      exact ⟨i, m, by rw [← hvalue, rowAt_of_lookup hm], hover⟩
    · intro i hne
      obtain ⟨key, m, hm, hgone, hover⟩ := removed_of_batch_ne hstep hne
      obtain ⟨pre, x, mid, hsplit, rfl, hlife⟩ :=
        exists_lifetime hs (DashMap.mem_keys_iff.2 ⟨m, hm⟩)
      refine ⟨pre, x, mid, m, hsplit, hlife, hgone, ?_, hover⟩
      rw [← hlife.rowAt_eq (hsplit ▸ hs), rowAt_of_lookup hm]

/-- Two calls collect the same key. The first removes it after it has grown, and it is inserted
anew before the second comes to it. -/
def overlapRun : List Action :=
  [.update (1, 20, 7), .call 0, .iterate 0 (1, 20), .call 1, .iterate 1 (1, 20), .update (1, 20, 9),
    .advance 0, .advance 0, .update (1, 20, 8), .advance 1]

theorem drains_partition_overlap :
    ∃ s t, exec step init overlapRun = some s ∧ step s (.advance 1) = some t ∧
      ((s.batch 0).map keyOf).Nodup ∧ s.batch 0 = [(1, 20, 9)] ∧ t.batch 1 = [(1, 20, 8)] ∧
      ∃ pre x mid m, overlapRun = pre ++ .update x :: mid ∧ Lifetime pre x mid ∧
        keyOf x ∉ t.cache.pending.keys ∧
        ackMax (acks (.update x :: mid)) (keyOf x) = (m : MessageId) ∧
        s.HandsOver t 1 (x.1, x.2.1, m) :=
  ⟨_, _, rfl, rfl, (drains_partition overlapRun _ rfl).1 0, rfl, rfl,
    ((drains_partition overlapRun _ rfl).2 (.advance 1) _ rfl).2 1 (by decide +kernel)⟩

end Draining

end RustRelay
