import Mathlib.Data.Finset.Card
import RustRelay.Core.Run
import RustRelay.ReadState.Cache

/-!
# Acknowledgements of different users

Channel and message ids of an `AckMessage` are whatever the client sent. The database rejects a
chunk when one of its rows names a user or a channel that does not exist, and a rejected chunk
goes back into the buffer as a whole. So a single invalid acknowledgement holds back every row
that shares its chunk, tick after tick (`invalid_ack_blocks`).

**Theorem (`acks_independent`).** Let all acknowledgements of `v` name existing channels, and
let either all other acknowledgements do so too, or all keys of the run fit one chunk. Then
deleting the acknowledgements of `v` from the run changes no row of any other user.

The two runs are compared step by step (`Agree`). Where they agree they have the same invalid
entries, so a tick settles both buffers (`tick_settles`) or bounces both (`tick_bounces`).
-/

namespace RustRelay

open MaxMerge Machine

namespace Isolation

/-- A client acknowledges a message, or the flusher's timer fires while the map is iterated in
the order `keys`. -/
inductive Op
  | ack (x : ReadUpdate)
  | tick (keys : List (UserId × ChannelId))

/-- The acknowledgements among the operations of a run. -/
def acks (ops : List Op) : List ReadUpdate :=
  ops.filterMap fun op => match op with
    | .ack x => some x
    | .tick _ => none

/-- The read markers, one for each key. -/
abbrev Markers := UserId × ChannelId → WithBot MessageId

/-- What the foreign keys of `read_states` are checked against. -/
structure Known where
  users : UserId → Bool
  channels : ChannelId → Bool

/-- The user and the channel of a key exist. -/
def Known.refers (known : Known) (key : UserId × ChannelId) : Bool :=
  known.users key.1 && known.channels key.2

/-- A database that rejects a statement exactly for a foreign key, and else max-merges it. -/
def upsert (known : Known) (table : Markers) (chunk : List ReadUpdate) : Except DbError Markers :=
  if chunk.all fun x => known.refers (keyOf x) then .ok fun key => table key ⊔ ackMax chunk key
  else .error (.foreignKeyViolation "read_states")

/-- One operation. A tick takes some enumeration of the buffered keys. -/
def step (known : Known) (batchThreshold : ℕ) (s : ReadStateCache × Markers) :
    Op → Option (ReadStateCache × Markers)
  | .ack x => some (s.1.update x, s.2)
  | .tick keys =>
    if keys.Perm s.1.pending.keys then some (flusherTick (upsert known) batchThreshold keys s)
    else none

/-- The second run is the first without the acknowledgements of `v`; the map may be iterated in
other orders. -/
inductive WithoutAcks (v : UserId) : List Op → List Op → Prop
  | nil : WithoutAcks v [] []
  | drop {x as bs} : x.1 = v → WithoutAcks v as bs → WithoutAcks v (.ack x :: as) bs
  | keep {x as bs} : x.1 ≠ v → WithoutAcks v as bs → WithoutAcks v (.ack x :: as) (.ack x :: bs)
  | tick {keys keys' as bs} : WithoutAcks v as bs →
      WithoutAcks v (.tick keys :: as) (.tick keys' :: bs)

/-! ## What a tick does -/

/-- Some buffered key names a user or a channel that does not exist. -/
def HasInvalid (known : Known) (c : ReadStateCache) : Prop :=
  ∃ key, rowAt c.pending key ≠ ⊥ ∧ known.refers key = false

theorem length_drainKeys (keys : List (UserId × ChannelId)) (c : ReadStateCache) :
    (c.drainKeys keys).1.length ≤ keys.length := by
  induction keys generalizing c with
  | nil => simp [ReadStateCache.drainKeys]
  | cons k keys ih =>
    have hone : (c.drainKey k).1.length ≤ 1 := by
      unfold ReadStateCache.drainKey
      cases c.pending.lookup k <;> simp
    simp only [ReadStateCache.drainKeys, List.length_append, List.length_cons]
    have := ih (c.drainKey k).2
    omega

theorem rowAt_drain {c : ReadStateCache} {keys : List (UserId × ChannelId)}
    (hkeys : keys.Perm c.pending.keys) (key : UserId × ChannelId) :
    rowAt (c.drain keys).2.pending key = ⊥ :=
  rowAt_of_none (ReadStateCache.lookup_drain hkeys key)

theorem ackMax_drain {c : ReadStateCache} {keys : List (UserId × ChannelId)}
    (hkeys : keys.Perm c.pending.keys) (key : UserId × ChannelId) :
    ackMax (c.drain keys).1 key = rowAt c.pending key := by
  rw [← c.held_drain keys key, rowAt_drain hkeys, bot_sup_eq]

theorem all_drain_iff {known : Known} {c : ReadStateCache} {keys : List (UserId × ChannelId)}
    (hkeys : keys.Perm c.pending.keys) :
    (∀ x ∈ (c.drain keys).1, known.refers (keyOf x) = true) ↔ ¬ HasInvalid known c := by
  constructor
  · intro hall hinvalid
    rcases hinvalid with ⟨key, hkey, hbad⟩
    rw [← ackMax_drain hkeys] at hkey
    obtain ⟨x, hx, rfl⟩ := ackMax_ne_bot_iff.1 hkey
    rw [hall x hx] at hbad
    cases hbad
  · intro hno x hx
    by_contra hbad
    refine hno ⟨keyOf x, ?_, by simpa using hbad⟩
    rw [← ackMax_drain hkeys]
    exact ackMax_ne_bot_iff.2 ⟨x, hx, rfl⟩

theorem foldl_flushChunk_ok {known : Known} (css : List (List ReadUpdate)) (c : ReadStateCache)
    (table : Markers) (hall : ∀ x ∈ css.flatten, known.refers (keyOf x) = true) :
    css.foldl (flushChunk (upsert known)) (c, table) =
      (c, fun key => table key ⊔ ackMax css.flatten key) := by
  induction css generalizing table with
  | nil => simp
  | cons cs css ih =>
    simp only [List.flatten_cons, List.mem_append] at hall
    have hcs : cs.all (fun x => known.refers (keyOf x)) = true :=
      List.all_eq_true.2 fun x hx => hall x (Or.inl hx)
    have hone : flushChunk (upsert known) (c, table) cs =
        (c, fun key => table key ⊔ ackMax cs key) := by
      simp [flushChunk, upsert, hcs]
    rw [List.foldl_cons, hone, ih _ fun x hx => hall x (Or.inr hx)]
    simp only [List.flatten_cons, ackMax_append, sup_assoc]

/-! ## The counter -/

/-- The counter is at least the number of entries and at most the number of acknowledgements:
it has not wrapped, and it is zero only if the buffer is empty. -/
structure Counted (n : ℕ) (c : ReadStateCache) : Prop where
  entries_le : c.pending.keys.length ≤ c.pendingCount.toNat
  count_le : c.pendingCount.toNat ≤ n

theorem Counted.mono {m n : ℕ} {c : ReadStateCache} (h : Counted m c) (hmn : m ≤ n) :
    Counted n c := ⟨h.entries_le, h.count_le.trans hmn⟩

theorem Counted.update {n : ℕ} {c : ReadStateCache} (h : Counted n c) (hn : n + 1 < 2 ^ 64)
    (x : ReadUpdate) :
    Counted (n + 1) (c.update x) ∧ (c.update x).pendingCount.toNat = c.pendingCount.toNat + 1 := by
  have hcount : (c.pendingCount + 1).toNat = c.pendingCount.toNat + 1 := by
    have := h.count_le
    rw [UInt64.toNat_add]
    exact Nat.mod_eq_of_lt (by simp; omega)
  have hlen : (c.updateEntry x).pending.keys.length ≤ c.pending.keys.length + 1 := by
    have hlen := c.length_keys_update x
    split_ifs at hlen
    · exact hlen.le.trans (Nat.le_succ _)
    · exact hlen.le
  refine ⟨⟨?_, ?_⟩, hcount⟩
  · show (c.updateEntry x).pending.keys.length ≤ (c.pendingCount + 1).toNat
    have := h.entries_le
    omega
  · show (c.pendingCount + 1).toNat ≤ n + 1
    have := h.count_le
    omega

theorem Counted.rebuffer {n : ℕ} {c : ReadStateCache} (chunk : List ReadUpdate)
    (h : Counted n c) (hn : n + chunk.length < 2 ^ 64) :
    Counted (n + chunk.length) (c.rebuffer chunk) := by
  induction chunk generalizing n c with
  | nil => exact h
  | cons x xs ih =>
    rw [List.length_cons] at hn ⊢
    have := ih (h.update (by omega) x).1 (by omega)
    rwa [Nat.add_right_comm, Nat.add_assoc] at this

theorem Counted.eq_empty {n : ℕ} {c : ReadStateCache} (h : Counted n c)
    (h0 : c.pendingCount = 0) (key : UserId × ChannelId) : rowAt c.pending key = ⊥ := by
  have hlen : c.pending.keys.length = 0 := by
    have := h.entries_le
    rw [h0] at this
    simpa using this
  refine rowAt_of_none (AList.lookup_eq_none.2 ?_)
  rw [AList.mem_keys, List.length_eq_zero_iff.1 hlen]
  exact List.not_mem_nil

theorem counted_drain {n : ℕ} {c : ReadStateCache} {keys : List (UserId × ChannelId)}
    (hkeys : keys.Perm c.pending.keys) : Counted n (c.drain keys).2 := by
  refine ⟨?_, Nat.zero_le n⟩
  rw [ReadStateCache.keys_drain hkeys]
  exact Nat.zero_le _

/-! ## One tick -/

section
variable {known : Known} {n : ℕ} {keys : List (UserId × ChannelId)} {c : ReadStateCache}
  (batchThreshold : ℕ) (table : Markers)

/-- Without an invalid entry a tick moves the whole buffer into the table. -/
theorem tick_settles (hc : Counted n c) (hkeys : keys.Perm c.pending.keys)
    (hvalid : ¬ HasInvalid known c) :
    ∃ c', flusherTick (upsert known) batchThreshold keys (c, table) =
        (c', fun key => table key ⊔ rowAt c.pending key) ∧
      (∀ key, rowAt c'.pending key = ⊥) ∧ Counted n c' := by
  by_cases h0 : c.pendingCount = 0
  · refine ⟨c, ?_, hc.eq_empty h0, hc⟩
    simp only [flusherTick, if_pos h0]
    congr 1
    funext key
    rw [hc.eq_empty h0, sup_bot_eq]
  · have hflat := flatten_chunks (chunkSize_pos batchThreshold) (c.drain keys).1
    have hmerge : (fun key => table key ⊔ rowAt c.pending key) =
        fun key => table key ⊔ ackMax (c.drain keys).1 key := by
      funext key
      rw [ackMax_drain hkeys]
    refine ⟨(c.drain keys).2, ?_, rowAt_drain hkeys, counted_drain hkeys⟩
    simp only [flusherTick, if_neg h0, hmerge]
    split_ifs with hempty
    · rw [List.isEmpty_iff.1 hempty]
      simp
    · rw [flushBatch, foldl_flushChunk_ok _ _ _ (by
        rw [hflat]; exact (all_drain_iff hkeys).2 hvalid), hflat]

/-- With an invalid entry and a single chunk, a tick changes neither the table nor the entries. -/
theorem tick_bounces (hc : Counted n c) (hn : n < 2 ^ 64) (hkeys : keys.Perm c.pending.keys)
    (hfit : c.pending.keys.length ≤ chunkSize batchThreshold) (hinvalid : HasInvalid known c) :
    ∃ c', flusherTick (upsert known) batchThreshold keys (c, table) = (c', table) ∧
      (∀ key, rowAt c'.pending key = rowAt c.pending key) ∧ Counted n c' := by
  have h0 : c.pendingCount ≠ 0 := fun h0 => by
    obtain ⟨key, hkey, -⟩ := hinvalid
    exact hkey (hc.eq_empty h0 key)
  have hlen : (c.drain keys).1.length ≤ c.pending.keys.length :=
    (length_drainKeys keys c).trans hkeys.length_eq.le
  have hne : (c.drain keys).1 ≠ [] := fun hnil => by
    obtain ⟨key, hkey, -⟩ := hinvalid
    rw [← ackMax_drain hkeys, hnil] at hkey
    exact hkey rfl
  have hreject : (c.drain keys).1.all (fun x => known.refers (keyOf x)) = false := by
    rw [Bool.eq_false_iff, Ne, List.all_eq_true, all_drain_iff hkeys]
    exact not_not.2 hinvalid
  have hcount : Counted n ((c.drain keys).2.rebuffer (c.drain keys).1) := by
    have hle := hc.entries_le.trans hc.count_le
    apply (Counted.rebuffer (n := 0) _ (counted_drain hkeys) (by omega)).mono
    omega
  refine ⟨(c.drain keys).2.rebuffer (c.drain keys).1, ?_, ?_, hcount⟩
  · simp only [flusherTick, if_neg h0, List.isEmpty_iff, if_neg hne, flushBatch,
      chunks_of_length_le hne (hlen.trans hfit), List.foldl_cons, List.foldl_nil, flushChunk,
      upsert, hreject]
    rfl
  · intro key
    rw [ReadStateCache.rowAt_rebuffer, ReadStateCache.held_drain]

end

/-! ## Two runs side by side -/

/-- The runs agree on everyone but `v`, whose entries are valid in the first and absent from the
second. -/
structure Agree (known : Known) (v : UserId) (s t : ReadStateCache × Markers) : Prop where
  pending : ∀ key, key.1 ≠ v → rowAt s.1.pending key = rowAt t.1.pending key
  table : ∀ key, key.1 ≠ v → s.2 key = t.2 key
  absent : ∀ key, key.1 = v → rowAt t.1.pending key = ⊥
  valid : ∀ key, key.1 = v → rowAt s.1.pending key ≠ ⊥ → known.refers key = true

/-- All entries are valid, or they all fit one chunk. -/
def OneFate (known : Known) (batchThreshold : ℕ) (K : Finset (UserId × ChannelId))
    (c : ReadStateCache) : Prop :=
  (∀ key, rowAt c.pending key ≠ ⊥ → key ∈ K) ∧
    ((∀ key ∈ K, known.refers key = true) ∨ K.card ≤ chunkSize batchThreshold)

theorem Agree.hasInvalid_iff {known : Known} {v : UserId} {s t : ReadStateCache × Markers}
    (h : Agree known v s t) : HasInvalid known s.1 ↔ HasInvalid known t.1 := by
  constructor
  · intro hinvalid
    rcases hinvalid with ⟨key, hkey, hbad⟩
    have hv : key.1 ≠ v := fun hv => by
      rw [h.valid key hv hkey] at hbad
      cases hbad
    exact ⟨key, by rwa [← h.pending key hv], hbad⟩
  · intro hinvalid
    rcases hinvalid with ⟨key, hkey, hbad⟩
    have hv : key.1 ≠ v := fun hv => hkey (h.absent key hv)
    exact ⟨key, by rwa [h.pending key hv], hbad⟩

theorem OneFate.length_le {known : Known} {batchThreshold : ℕ}
    {K : Finset (UserId × ChannelId)} {c : ReadStateCache} (h : OneFate known batchThreshold K c)
    (hinvalid : HasInvalid known c) : c.pending.keys.length ≤ chunkSize batchThreshold := by
  have hcard : K.card ≤ chunkSize batchThreshold := by
    apply h.2.resolve_left
    intro hall
    obtain ⟨key, hkey, hbad⟩ := hinvalid
    rw [hall key (h.1 key hkey)] at hbad
    cases hbad
  refine le_trans ?_ hcard
  rw [← List.toFinset_card_of_nodup c.pending.keys_nodup]
  refine Finset.card_le_card fun key hkey => h.1 key ?_
  obtain ⟨w, hw⟩ := DashMap.mem_keys_iff.1 (List.mem_toFinset.1 hkey)
  rw [rowAt_of_lookup hw]
  exact WithBot.coe_ne_bot

theorem OneFate.update {known : Known} {batchThreshold : ℕ} {K : Finset (UserId × ChannelId)}
    {c : ReadStateCache} (h : OneFate known batchThreshold K c) {x : ReadUpdate}
    (hx : keyOf x ∈ K) : OneFate known batchThreshold K (c.update x) := by
  refine ⟨?_, h.2⟩
  intro key hkey
  rw [c.rowAt_update, ackMax_singleton] at hkey
  by_cases hk : keyOf x = key
  · exact hk ▸ hx
  · rw [if_neg hk, sup_bot_eq] at hkey
    exact h.1 key hkey

theorem Agree.keep {known : Known} {v : UserId} {s t : ReadStateCache × Markers}
    (h : Agree known v s t) {x : ReadUpdate} (hx : x.1 ≠ v) :
    Agree known v (s.1.update x, s.2) (t.1.update x, t.2) := by
  have hother : ∀ key : UserId × ChannelId, key.1 = v → ackMax [x] key = ⊥ := fun key hkey => by
    have hk : keyOf x ≠ key := fun hk => hx ((congrArg Prod.fst hk).trans hkey)
    rw [ackMax_singleton, if_neg hk]
  refine ⟨?_, h.table, ?_, ?_⟩
  · intro key hkey
    rw [ReadStateCache.rowAt_update, ReadStateCache.rowAt_update, h.pending key hkey]
  · intro key hkey
    rw [ReadStateCache.rowAt_update, hother key hkey, h.absent key hkey, sup_bot_eq]
  · intro key hkey hne
    rw [ReadStateCache.rowAt_update, hother key hkey, sup_bot_eq] at hne
    exact h.valid key hkey hne

theorem Agree.drop {known : Known} {v : UserId} {s t : ReadStateCache × Markers}
    (h : Agree known v s t) {x : ReadUpdate} (hx : x.1 = v)
    (hvalid : known.refers (keyOf x) = true) : Agree known v (s.1.update x, s.2) t := by
  refine ⟨?_, h.table, h.absent, ?_⟩
  · intro key hkey
    have hk : keyOf x ≠ key := fun hk => hkey ((congrArg Prod.fst hk).symm.trans hx)
    rw [ReadStateCache.rowAt_update, ackMax_singleton, if_neg hk, sup_bot_eq, h.pending key hkey]
  · intro key hkey hne
    rw [ReadStateCache.rowAt_update, ackMax_singleton] at hne
    by_cases hk : keyOf x = key
    · exact hk ▸ hvalid
    · rw [if_neg hk, sup_bot_eq] at hne
      exact h.valid key hkey hne

/-- **A tick keeps the runs in agreement**: it settles both buffers or bounces both. -/
theorem Agree.tick {known : Known} {v : UserId} {s t : ReadStateCache × Markers}
    {batchThreshold n : ℕ} {K : Finset (UserId × ChannelId)} (h : Agree known v s t)
    (hn : n < 2 ^ 64) (hs : Counted n s.1) (ht : Counted n t.1)
    (hKs : OneFate known batchThreshold K s.1) (hKt : OneFate known batchThreshold K t.1)
    {keys keys' : List (UserId × ChannelId)} (hkeys : keys.Perm s.1.pending.keys)
    (hkeys' : keys'.Perm t.1.pending.keys) :
    ∃ s' t', flusherTick (upsert known) batchThreshold keys s = s' ∧
      flusherTick (upsert known) batchThreshold keys' t = t' ∧ Agree known v s' t' ∧
      Counted n s'.1 ∧ Counted n t'.1 ∧
      OneFate known batchThreshold K s'.1 ∧ OneFate known batchThreshold K t'.1 := by
  obtain ⟨c, table⟩ := s
  obtain ⟨d, rows⟩ := t
  by_cases hinv : HasInvalid known c
  · have hinv' : HasInvalid known d := h.hasInvalid_iff.1 hinv
    obtain ⟨c', hc', hrow, hcount⟩ :=
      tick_bounces batchThreshold table hs hn hkeys (hKs.length_le hinv) hinv
    obtain ⟨d', hd', hrow', hcount'⟩ :=
      tick_bounces batchThreshold rows ht hn hkeys' (hKt.length_le hinv') hinv'
    refine ⟨_, _, hc', hd', ⟨fun key hkey => ?_, h.table, fun key hkey => ?_, fun key hkey => ?_⟩,
      hcount, hcount', ⟨fun key => ?_, hKs.2⟩, ⟨fun key => ?_, hKt.2⟩⟩
    · rw [hrow, hrow']; exact h.pending key hkey
    · rw [hrow']; exact h.absent key hkey
    · rw [hrow]; exact h.valid key hkey
    · rw [hrow]; exact hKs.1 key
    · rw [hrow']; exact hKt.1 key
  · have hinv' : ¬ HasInvalid known d := fun hd => hinv (h.hasInvalid_iff.2 hd)
    obtain ⟨c', hc', hrow, hcount⟩ :=
      tick_settles batchThreshold table hs hkeys hinv
    obtain ⟨d', hd', hrow', hcount'⟩ :=
      tick_settles batchThreshold rows ht hkeys' hinv'
    refine ⟨_, _, hc', hd', ⟨fun key _ => ?_, fun key hkey => ?_, fun key _ => hrow' key,
      fun key _ hne => absurd (hrow key) hne⟩, hcount, hcount',
      ⟨fun key hne => absurd (hrow key) hne, hKs.2⟩, ⟨fun key hne => absurd (hrow' key) hne, hKt.2⟩⟩
    · rw [hrow, hrow']
    · exact congrArg₂ (· ⊔ ·) (h.table key hkey) (h.pending key hkey)

/-! ## Whole runs -/

theorem agree_exec {known : Known} {v : UserId} {batchThreshold : ℕ}
    {K : Finset (UserId × ChannelId)} {as bs : List Op} (hw : WithoutAcks v as bs) :
    ∀ {n : ℕ} {s t s' t' : ReadStateCache × Markers}, Agree known v s t →
      Counted n s.1 → Counted n t.1 →
      OneFate known batchThreshold K s.1 → OneFate known batchThreshold K t.1 →
      (∀ x ∈ acks as, keyOf x ∈ K) →
      (∀ x ∈ acks as, x.1 = v → known.refers (keyOf x) = true) →
      n + (acks as).length < 2 ^ 64 →
      exec (step known batchThreshold) s as = some s' →
      exec (step known batchThreshold) t bs = some t' → Agree known v s' t' := by
  induction hw with
  | nil =>
    intro n s t s' t' h _ _ _ _ _ _ _ hs ht
    obtain rfl : s = s' := by simpa using hs
    obtain rfl : t = t' := by simpa using ht
    exact h
  | @drop x as bs hx _ ih =>
    intro n s t s' t' h hcs hct hKs hKt hK hv hlen hs ht
    obtain ⟨r, hr, hs⟩ := exec_cons.1 hs
    obtain rfl := Option.some.inj hr
    have hacks : acks (.ack x :: as) = x :: acks as := rfl
    rw [hacks, List.length_cons] at hlen
    rw [hacks] at hK hv
    have hxmem : x ∈ x :: acks as := List.mem_cons_self
    exact ih (h.drop hx (hv x hxmem hx)) (hcs.update (by omega) x).1 (hct.mono (by omega))
      (hKs.update (hK x hxmem)) hKt (fun y hy => hK y (List.mem_cons_of_mem _ hy))
      (fun y hy => hv y (List.mem_cons_of_mem _ hy)) (by omega) hs ht
  | @keep x as bs hx _ ih =>
    intro n s t s' t' h hcs hct hKs hKt hK hv hlen hs ht
    obtain ⟨r, hr, hs⟩ := exec_cons.1 hs
    obtain rfl := Option.some.inj hr
    obtain ⟨q, hq, ht⟩ := exec_cons.1 ht
    obtain rfl := Option.some.inj hq
    have hacks : acks (.ack x :: as) = x :: acks as := rfl
    rw [hacks, List.length_cons] at hlen
    rw [hacks] at hK hv
    have hxK : keyOf x ∈ K := hK x List.mem_cons_self
    exact ih (h.keep hx) (hcs.update (by omega) x).1 (hct.update (by omega) x).1
      (hKs.update hxK) (hKt.update hxK) (fun y hy => hK y (List.mem_cons_of_mem _ hy))
      (fun y hy => hv y (List.mem_cons_of_mem _ hy)) (by omega) hs ht
  | @tick keys keys' as bs _ ih =>
    intro n s t s' t' h hcs hct hKs hKt hK hv hlen hs ht
    obtain ⟨r, hr, hs⟩ := exec_cons.1 hs
    obtain ⟨q, hq, ht⟩ := exec_cons.1 ht
    simp only [step] at hr hq
    split_ifs at hr hq with hkeys hkeys'
    obtain rfl := Option.some.inj hr
    obtain rfl := Option.some.inj hq
    obtain ⟨_, _, rfl, rfl, hagree, hcs, hct, hKs, hKt⟩ :=
      h.tick (by omega) hcs hct hKs hKt hkeys hkeys'
    exact ih hagree hcs hct hKs hKt hK hv hlen hs ht

/-- An empty buffer in front of a table. -/
def init (table : Markers) : ReadStateCache × Markers := (.new, table)

/-- **One user's valid acknowledgements do not affect another user's rows.** Either all other
acknowledgements are valid as well, or the distinct keys of the run fit one chunk. -/
theorem acks_independent (known : Known) (batchThreshold : ℕ) (table : Markers) (v : UserId)
    (as bs : List Op) (s t : ReadStateCache × Markers)
    (hvalid : ∀ x ∈ acks as, x.1 = v → known.refers (keyOf x) = true)
    (hfate : (∀ x ∈ acks as, known.refers (keyOf x) = true) ∨
      ((acks as).map keyOf).toFinset.card ≤ chunkSize batchThreshold)
    (hlen : (acks as).length < 2 ^ 64) (hw : WithoutAcks v as bs)
    (hs : exec (step known batchThreshold) (init table) as = some s)
    (ht : exec (step known batchThreshold) (init table) bs = some t) :
    ∀ u channel, u ≠ v → s.2 (u, channel) = t.2 (u, channel) := by
  have hempty : ∀ key, rowAt (init table).1.pending key = ⊥ := fun key =>
    rowAt_of_none (AList.lookup_empty key)
  have hagree : Agree known v (init table) (init table) :=
    ⟨fun _ _ => rfl, fun _ _ => rfl, fun key _ => hempty key,
      fun key _ hne => absurd (hempty key) hne⟩
  have hcount : Counted 0 (init table).1 := ⟨Nat.zero_le _, Nat.zero_le _⟩
  have hone : OneFate known batchThreshold ((acks as).map keyOf).toFinset (init table).1 := by
    refine ⟨fun key hne => absurd (hempty key) hne, hfate.imp_left fun hall key hkey => ?_⟩
    obtain ⟨x, hx, rfl⟩ := List.mem_map.1 (List.mem_toFinset.1 hkey)
    exact hall x hx
  have hmem : ∀ x ∈ acks as, keyOf x ∈ ((acks as).map keyOf).toFinset := fun x hx =>
    List.mem_toFinset.2 (List.mem_map_of_mem hx)
  have := agree_exec hw hagree hcount hcount hone hone hmem hvalid (by omega) hs ht
  exact fun u channel hu => this.table (u, channel) hu

/-- Users `1` and `2` and one channel exist. -/
def oneChannel : Known := ⟨fun u => u == 1 || u == 2, fun c => c == 20⟩

/-- User `2` acknowledges in the same interval as user `1`. -/
theorem acks_independent_two :
    ∃ s t, exec (step oneChannel 1000) (init fun _ => ⊥)
        [.ack (1, 20, 5), .ack (2, 20, 7), .tick [(1, 20), (2, 20)]] = some s ∧
      exec (step oneChannel 1000) (init fun _ => ⊥) [.ack (1, 20, 5), .tick [(1, 20)]] = some t ∧
      ∀ u channel, u ≠ 2 → s.2 (u, channel) = t.2 (u, channel) :=
  ⟨_, _, rfl, rfl, acks_independent oneChannel 1000 (fun _ => ⊥) 2
    [.ack (1, 20, 5), .ack (2, 20, 7), .tick [(1, 20), (2, 20)]]
    [.ack (1, 20, 5), .tick [(1, 20)]] _ _ (by decide) (Or.inl (by decide)) (by decide)
    (.keep (by decide) (.drop rfl (.tick .nil))) rfl rfl⟩

/-- User `2` acknowledges in a channel that does not exist: user `1`'s row is not written. -/
theorem invalid_ack_blocks :
    ¬ ∀ (known : Known) (batchThreshold : ℕ) (table : Markers) (v : UserId) (as bs : List Op)
      (s t : ReadStateCache × Markers), WithoutAcks v as bs →
      exec (step known batchThreshold) (init table) as = some s →
      exec (step known batchThreshold) (init table) bs = some t →
      ∀ u channel, u ≠ v → s.2 (u, channel) = t.2 (u, channel) := by
  intro h
  have heq := h oneChannel 1000 (fun _ => ⊥) 2
    [.ack (1, 20, 5), .ack (2, 99, 7), .tick [(1, 20), (2, 99)]]
    [.ack (1, 20, 5), .tick [(1, 20)]] _ _ (.keep (by decide) (.drop rfl (.tick .nil)))
    rfl rfl 1 20 (by decide)
  exact absurd heq (by decide)

/-! ## More than one chunk -/

theorem WithoutAcks.drop_all {v : UserId} {xs : List ReadUpdate} {as bs : List Op}
    (hxs : ∀ x ∈ xs, x.1 = v) (h : WithoutAcks v as bs) :
    WithoutAcks v (xs.map .ack ++ as) bs := by
  induction xs with
  | nil => exact h
  | cons x xs ih =>
    exact .drop (hxs x List.mem_cons_self) (ih fun y hy => hxs y (List.mem_cons_of_mem _ hy))

/-- Users `1`, `2` and `3` and the channels below 500 exist. -/
def manyChannels : Known := ⟨fun u => u == 1 || u == 2 || u == 3, fun c => c < 500⟩

/-- User `2` acknowledges in 99 channels. -/
def crowd : List ReadUpdate := (List.range 99).map fun c => (2, OfNat.ofNat c, 7)

/-- With the 99, user `1` has a full chunk, and the invalid acknowledgement of user `3` comes in the
next one. -/
def crowded : List Op :=
  .ack (1, 200, 5) :: (crowd.map .ack ++
    [.ack (3, 999, 8), .tick ((1, 200) :: (crowd.map keyOf ++ [(3, 999)]))])

def uncrowded : List Op := [.ack (1, 200, 5), .ack (3, 999, 8), .tick [(1, 200), (3, 999)]]

theorem crowded_row : (exec (step manyChannels 0) (init fun _ => ⊥) crowded).map
    (fun s => s.2 (1, 200)) = some ((5 : MessageId) : WithBot MessageId) := by
  decide +kernel

theorem uncrowded_row : (exec (step manyChannels 0) (init fun _ => ⊥) uncrowded).map
    (fun s => s.2 (1, 200)) = some ⊥ := by
  decide +kernel

/-- **Where an invalid acknowledgement of a third user falls depends on the chunks**, and so on
valid acknowledgements. -/
theorem valid_acks_shield :
    ¬ ∀ (known : Known) (batchThreshold : ℕ) (table : Markers) (v : UserId) (as bs : List Op)
      (s t : ReadStateCache × Markers),
      (∀ x ∈ acks as, x.1 = v → known.refers (keyOf x) = true) → (acks as).length < 2 ^ 64 →
      WithoutAcks v as bs →
      exec (step known batchThreshold) (init table) as = some s →
      exec (step known batchThreshold) (init table) bs = some t →
      ∀ u channel, u ≠ v → s.2 (u, channel) = t.2 (u, channel) := by
  intro h
  obtain ⟨s, hs, hrow⟩ := Option.map_eq_some_iff.1 crowded_row
  obtain ⟨t, ht, hrow'⟩ := Option.map_eq_some_iff.1 uncrowded_row
  have hdrop : WithoutAcks 2 crowded uncrowded :=
    .keep (by decide) (.drop_all (by decide +kernel) (.keep (by decide) (.tick .nil)))
  have heq := h manyChannels 0 (fun _ => ⊥) 2 crowded uncrowded s t (by decide +kernel)
    (by decide +kernel) hdrop hs ht 1 200 (by decide)
  rw [hrow, hrow'] at heq
  cases heq

end Isolation

end RustRelay
