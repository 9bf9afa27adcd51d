import Mathlib.Data.Finset.Max
import RustRelay.Core.Run
import RustRelay.ReadState.Cache

/-!
# The read marker and the age of messages

"Only update if the new message is later than what we have": the cache and the conflict clause
both decide this by comparing ids, and the schema draws ids with `gen_random_uuid()`. One user
acknowledges messages of one channel here, with the flusher ticking in between, against the real
bulk upsert: there is only one key, so its batches have length one and succeed.

**Theorem (`marker_latest_iff`).** After a run that left the buffer empty, the stored marker is
the acknowledged message with the greatest `created_at` if and only if some acknowledged message
is both the greatest by id and the latest. It is so after every run over a set of messages if
and only if later messages of the set have greater ids.
-/

namespace RustRelay

open MaxMerge Machine

namespace Latest

/-- The user acknowledges a message, or the flusher ticks at time `now`. -/
inductive Op
  | ack (m : Message)
  | tick (now : Timestamp) (keys : List (UserId × ChannelId))

/-- The messages acknowledged in a run. -/
def acked (ops : List Op) : List Message :=
  ops.filterMap fun op => match op with
    | .ack m => some m
    | .tick _ _ => none

/-- One operation of user `u`: `handle_client_message` passes the client's ids to `update`. -/
def step (u : UserId) (batchThreshold : ℕ) (s : ReadStateCache × Database) :
    Op → Option (ReadStateCache × Database)
  | .ack m => some (s.1.update (u, m.channelId, m.id), s.2)
  | .tick now keys =>
    if keys.Perm s.1.pending.keys then
      some (flusherTick (fun db => upsertReadStatesBatch db now) batchThreshold keys s)
    else none

/-- The stored marker is an acknowledged message, and none of the others is later. -/
def MarkerIsLatest (db : Database) (key : UserId × ChannelId) (ms : List Message) : Prop :=
  ∃ m ∈ ms, db.lastRead key = (m.id : WithBot MessageId) ∧ ∀ m' ∈ ms, m'.createdAt ≤ m.createdAt

/-- The acknowledgements as updates. -/
def updatesOf (u : UserId) (ms : List Message) : List ReadUpdate :=
  ms.map fun m => (u, m.channelId, m.id)

/-! ## The invariant -/

/-- Only `key` is buffered, it refers to existing rows, and the table and the buffer together
hold the greatest id acknowledged for it. -/
structure Holds (key : UserId × ChannelId) (acks : List ReadUpdate)
    (s : ReadStateCache × Database) : Prop where
  only : ∀ k ∈ s.1.pending.keys, k = key
  refers : s.2.Refers key
  held : s.2.lastRead key ⊔ rowAt s.1.pending key = ackMax acks key

theorem Holds.ack {key : UserId × ChannelId} {acks : List ReadUpdate}
    {s : ReadStateCache × Database} (h : Holds key acks s) {x : ReadUpdate} (hx : keyOf x = key) :
    Holds key (acks ++ [x]) (s.1.update x, s.2) := by
  refine ⟨?_, h.refers, ?_⟩
  · intro k hk
    rcases ReadStateCache.mem_keys_update.1 hk with rfl | hold
    · exact hx
    · exact h.only k hold
  · show s.2.lastRead key ⊔ rowAt (s.1.update x).pending key = _
    rw [s.1.rowAt_update, ackMax_append, ← h.held, sup_assoc]

theorem drain_single {key : UserId × ChannelId} {c : ReadStateCache}
    {keys : List (UserId × ChannelId)} (honly : ∀ k ∈ c.pending.keys, k = key)
    (hkeys : keys.Perm c.pending.keys) :
    (c.drain keys).1 = [] ∧ c.pending.lookup key = none ∨
      ∃ m, (c.drain keys).1 = [(key.1, key.2, m)] ∧ c.pending.lookup key = some m := by
  have hrep : keys = List.replicate keys.length key :=
    List.eq_replicate_iff.2 ⟨rfl, fun k hk => honly k (hkeys.mem_iff.1 hk)⟩
  have hnodup : keys.Nodup := hkeys.nodup_iff.2 c.pending.keys_nodup
  have hlen : keys.length ≤ 1 := by
    rw [hrep] at hnodup
    exact List.nodup_replicate.1 hnodup
  match keys, hlen with
  | [], _ =>
    refine Or.inl ⟨rfl, AList.lookup_eq_none.2 fun hmem => ?_⟩
    exact List.not_mem_nil (hkeys.mem_iff.2 (AList.mem_keys.1 hmem))
  | [k], _ =>
    obtain rfl : k = key := honly k (hkeys.mem_iff.1 List.mem_cons_self)
    obtain ⟨m, hm⟩ := DashMap.mem_keys_iff.1 (hkeys.mem_iff.1 List.mem_cons_self)
    refine Or.inr ⟨m, ?_, hm⟩
    show (c.drainKeys [k]).1 = _
    simp [ReadStateCache.drainKeys, ReadStateCache.drainKey, hm]

theorem Holds.tick {key : UserId × ChannelId} {acks : List ReadUpdate}
    {s : ReadStateCache × Database} (h : Holds key acks s) (now : Timestamp) (batchThreshold : ℕ)
    {keys : List (UserId × ChannelId)} (hkeys : keys.Perm s.1.pending.keys) :
    Holds key acks
      (flusherTick (fun db => upsertReadStatesBatch db now) batchThreshold keys s) := by
  obtain ⟨c, db⟩ := s
  by_cases h0 : c.pendingCount = 0
  · simpa only [flusherTick, if_pos h0] using h
  have hdrained : ∀ k ∈ (c.drain keys).2.pending.keys, k = key := by
    rw [ReadStateCache.keys_drain hkeys]
    exact fun k hk => absurd hk List.not_mem_nil
  have hmove := c.held_drain keys key
  rcases drain_single h.only hkeys with ⟨hbatch, -⟩ | ⟨m, hbatch, -⟩
  · simp only [flusherTick, if_neg h0, hbatch, List.isEmpty_nil, if_true]
    refine ⟨hdrained, h.refers, ?_⟩
    rw [hbatch, ackMax_nil, sup_bot_eq] at hmove
    show db.lastRead key ⊔ rowAt (c.drain keys).2.pending key = _
    rw [hmove, ← h.held]
  · obtain ⟨table, hok, hval, -⟩ := upsert_singleton h.refers now m
    simp only [flusherTick, if_neg h0, hbatch, List.isEmpty_cons, Bool.false_eq_true, if_false,
      flushBatch, chunks_singleton, List.foldl_cons, List.foldl_nil, flushChunk]
    rw [show upsertReadStatesBatch db now [(key.1, key.2, m)] = _ from hok]
    refine ⟨hdrained, h.refers, ?_⟩
    rw [hbatch, ackMax_singleton, show keyOf (key.1, key.2, m) = key from rfl, if_pos rfl] at hmove
    show Database.lastRead _ key ⊔ rowAt (c.drain keys).2.pending key = _
    rw [show Database.lastRead _ key = _ from hval, ← h.held, ← hmove]
    ac_rfl

theorem holds_exec {u : UserId} {channelId : ChannelId} {batchThreshold : ℕ} {ops : List Op} :
    ∀ {acks : List ReadUpdate} {s t : ReadStateCache × Database},
      Holds (u, channelId) acks s → (∀ m ∈ acked ops, m.channelId = channelId) →
      exec (step u batchThreshold) s ops = some t →
      Holds (u, channelId) (acks ++ updatesOf u (acked ops)) t := by
  induction ops with
  | nil =>
    intro acks s t h _ ht
    obtain rfl : s = t := by simpa using ht
    simpa [acked, updatesOf] using h
  | cons op ops ih =>
    intro acks s t h hch ht
    obtain ⟨r, hr, ht⟩ := exec_cons.1 ht
    cases op with
    | ack m =>
      obtain rfl := Option.some.inj hr
      have hacked : acked (.ack m :: ops) = m :: acked ops := rfl
      rw [hacked] at hch ⊢
      have hkey : keyOf (u, m.channelId, m.id) = (u, channelId) := by
        rw [hch m List.mem_cons_self]; rfl
      have := ih (h.ack hkey) (fun m' hm' => hch m' (List.mem_cons_of_mem _ hm')) ht
      simpa [updatesOf] using this
    | tick now keys =>
      simp only [step] at hr
      split_ifs at hr with hkeys
      obtain rfl := Option.some.inj hr
      exact ih (h.tick now batchThreshold hkeys) hch ht

/-! ## The marker -/

/-- The empty buffer in front of a database. -/
def init (db : Database) : ReadStateCache × Database := (.new, db)

theorem holds_init {db : Database} {key : UserId × ChannelId} (hrefers : db.Refers key)
    (hnone : db.readStates.lookup key = none) : Holds key [] (init db) := by
  refine ⟨fun k hk => absurd hk List.not_mem_nil, hrefers, ?_⟩
  show db.lastRead key ⊔ rowAt ∅ key = ⊥
  rw [Database.lastRead, hnone, rowAt_of_none (AList.lookup_empty key)]
  exact sup_bot_eq _

theorem ackMax_updatesOf_le_iff {u : UserId} {channelId : ChannelId} {ms : List Message}
    (hch : ∀ m ∈ ms, m.channelId = channelId) {b : WithBot MessageId} :
    ackMax (updatesOf u ms) (u, channelId) ≤ b ↔ ∀ m ∈ ms, (m.id : WithBot MessageId) ≤ b := by
  rw [ackMax, maxAt_le_iff]
  constructor
  · intro h m hm
    refine h m.id (List.mem_map.2 ⟨(u, m.channelId, m.id), List.mem_map.2 ⟨m, hm, rfl⟩, ?_⟩)
    rw [hch m hm]; rfl
  · intro h v hv
    obtain ⟨x, hx, heq⟩ := List.mem_map.1 hv
    obtain ⟨m, hm, rfl⟩ := List.mem_map.1 hx
    obtain rfl : m.id = v := (Prod.mk.inj heq).2
    exact h m hm

/-- **What is stored.** After a run that left the buffer empty, the marker is a message exactly
if it is the greatest by id. -/
theorem lastRead_eq_iff {db : Database} {u : UserId} {channelId : ChannelId} {batchThreshold : ℕ}
    {ops : List Op} {s : ReadStateCache × Database} (hrefers : db.Refers (u, channelId))
    (hnone : db.readStates.lookup (u, channelId) = none)
    (hch : ∀ m ∈ acked ops, m.channelId = channelId)
    (hs : exec (step u batchThreshold) (init db) ops = some s) (hempty : s.1.pending = ∅)
    {m : Message} (hm : m ∈ acked ops) :
    s.2.lastRead (u, channelId) = (m.id : WithBot MessageId) ↔ ∀ m' ∈ acked ops, m'.id ≤ m.id := by
  have hheld := (holds_exec (holds_init hrefers hnone) hch hs).held
  rw [hempty, rowAt_of_none (AList.lookup_empty _), sup_bot_eq, List.nil_append] at hheld
  rw [hheld]
  have hle : (m.id : WithBot MessageId) ≤ ackMax (updatesOf u (acked ops)) (u, channelId) :=
    (ackMax_updatesOf_le_iff hch).1 le_rfl m hm
  constructor
  · intro heq m' hm'
    exact WithBot.coe_le_coe.1 ((ackMax_updatesOf_le_iff hch).1 heq.le m' hm')
  · intro hmax
    refine le_antisymm ((ackMax_updatesOf_le_iff hch).2 fun m' hm' => ?_) hle
    exact WithBot.coe_le_coe.2 (hmax m' hm')

/-- Some acknowledged message is both the greatest by id and the latest. -/
def GreatestIsLatest (ms : List Message) : Prop :=
  ∃ m ∈ ms, (∀ m' ∈ ms, m'.id ≤ m.id) ∧ ∀ m' ∈ ms, m'.createdAt ≤ m.createdAt

/-- Later messages have greater ids. -/
def OrderedByAge (ms : List Message) : Prop :=
  ∀ m ∈ ms, ∀ m' ∈ ms, m.createdAt < m'.createdAt → m.id < m'.id

theorem OrderedByAge.greatestIsLatest {ms acks : List Message} (h : OrderedByAge ms)
    (hsub : ∀ m ∈ acks, m ∈ ms) (hne : acks ≠ []) : GreatestIsLatest acks := by
  obtain ⟨x, hx⟩ := List.exists_mem_of_ne_nil acks hne
  obtain ⟨m, hm, hmax⟩ :=
    Finset.exists_max_image acks.toFinset Message.id ⟨x, List.mem_toFinset.2 hx⟩
  have hm : m ∈ acks := List.mem_toFinset.1 hm
  have hmax : ∀ m' ∈ acks, m'.id ≤ m.id := fun m' hm' => hmax m' (List.mem_toFinset.2 hm')
  refine ⟨m, hm, hmax, ?_⟩
  intro m' hm'
  by_contra hlt
  exact absurd (h m (hsub m hm) m' (hsub m' hm') (not_le.1 hlt)) (not_lt.2 (hmax m' hm'))

/-- Two acknowledgements and a tick, which empties the buffer. -/
theorem two_acks_flushed {db : Database} {u : UserId} {channelId : ChannelId}
    (hrefers : db.Refers (u, channelId)) (batchThreshold : ℕ) {m m' : Message}
    (hm : m.channelId = channelId) (hm' : m'.channelId = channelId) :
    ∃ s, exec (step u batchThreshold) (init db) [.ack m, .ack m', .tick 0 [(u, channelId)]] =
      some s ∧ s.1.pending = ∅ := by
  obtain ⟨v, hv⟩ : ∃ v, ((init db).1.update (u, m.channelId, m.id)).update
      (u, m'.channelId, m'.id) = ⟨(∅ : DashMap _ _).insert (u, channelId) v, 2, 2⟩ := by
    obtain ⟨id, _, _, _, _, _⟩ := m
    obtain ⟨id', _, _, _, _, _⟩ := m'
    subst hm hm'
    refine ⟨if id' > id then id' else id, ?_⟩
    simp only [ReadStateCache.update, ReadStateCache.updateEntry, ReadStateCache.countPending,
      ReadStateCache.countTotal, init, ReadStateCache.new, keyOf, AList.lookup_empty,
      AList.lookup_insert, AList.insert_insert]
    rfl
  have hlook : ((∅ : DashMap (UserId × ChannelId) MessageId).insert (u, channelId) v).lookup
      (u, channelId) = some v := AList.lookup_insert _
  obtain ⟨table, hok, -, -⟩ := upsert_singleton hrefers 0 v
  refine ⟨(⟨((∅ : DashMap _ _).insert (u, channelId) v).erase (u, channelId), 0, 2⟩,
    { db with readStates := table }), ?_, ?_⟩
  · simp only [exec, step, hv, Option.bind_some]
    rw [if_pos (by simp)]
    simp only [flusherTick, ReadStateCache.drain, ReadStateCache.drainKeys,
      ReadStateCache.drainKey, hlook, init]
    simp [flushBatch, chunks_singleton, flushChunk, hok]
  · exact (DashMap.erase_insert _ _ _).trans (DashMap.erase_of_lookup_none rfl)

/-- **The marker means "latest" exactly where ids happen to follow time**: for one run, and for
all runs over a set of messages. -/
theorem marker_latest_iff (db : Database) (u : UserId) (channelId : ChannelId)
    (batchThreshold : ℕ) (ms : List Message) (hids : (ms.map Message.id).Nodup)
    (hch : ∀ m ∈ ms, m.channelId = channelId) (hrefers : db.Refers (u, channelId))
    (hnone : db.readStates.lookup (u, channelId) = none) :
    (∀ ops s, (∀ m ∈ acked ops, m ∈ ms) → exec (step u batchThreshold) (init db) ops = some s →
      s.1.pending = ∅ →
      (MarkerIsLatest s.2 (u, channelId) (acked ops) ↔ GreatestIsLatest (acked ops))) ∧
    ((∀ ops s, (∀ m ∈ acked ops, m ∈ ms) → acked ops ≠ [] →
      exec (step u batchThreshold) (init db) ops = some s → s.1.pending = ∅ →
      MarkerIsLatest s.2 (u, channelId) (acked ops)) ↔ OrderedByAge ms) := by
  have hone : ∀ ops s, (∀ m ∈ acked ops, m ∈ ms) →
      exec (step u batchThreshold) (init db) ops = some s → s.1.pending = ∅ →
      (MarkerIsLatest s.2 (u, channelId) (acked ops) ↔ GreatestIsLatest (acked ops)) := by
    intro ops s hsub hs hempty
    have hstored : ∀ m ∈ acked ops, s.2.lastRead (u, channelId) = (m.id : WithBot MessageId) ↔
        ∀ m' ∈ acked ops, m'.id ≤ m.id := fun m hm =>
      lastRead_eq_iff hrefers hnone (fun m' hm' => hch m' (hsub m' hm')) hs hempty hm
    constructor
    · intro hmarker
      rcases hmarker with ⟨m, hm, hmark, hlate⟩
      exact ⟨m, hm, (hstored m hm).1 hmark, hlate⟩
    · intro hgreatest
      rcases hgreatest with ⟨m, hm, hmax, hlate⟩
      exact ⟨m, hm, (hstored m hm).2 hmax, hlate⟩
  refine ⟨hone, ?_, ?_⟩
  · intro hall m hm m' hm' hlt
    obtain ⟨s, hs, hempty⟩ := two_acks_flushed hrefers batchThreshold (hch m hm) (hch m' hm')
    have hacked : acked [.ack m, .ack m', .tick 0 [(u, channelId)]] = [m, m'] := rfl
    have hsub : ∀ x ∈ [m, m'], x ∈ ms := by simp [hm, hm']
    have hmark := hall _ s (by rwa [hacked]) (by simp [hacked]) hs hempty
    obtain ⟨g, hg, hmax, hlate⟩ := (hone _ s (by rwa [hacked]) hs hempty).1 hmark
    rw [hacked] at hg hmax hlate
    -- The latest of the two is `m'`, so `m'` is the greatest by id.
    have hgm : g = m' := by
      rcases List.mem_cons.1 hg with rfl | hg
      · exact absurd (hlate m' (by simp)) (not_le.2 hlt)
      · exact List.mem_singleton.1 hg
    have hle : m.id ≤ m'.id := hgm ▸ hmax m (by simp)
    apply lt_of_le_of_ne hle
    intro heq
    rw [List.inj_on_of_nodup_map hids hm hm' heq] at hlt
    exact lt_irrefl _ hlt
  · intro hord ops s hsub hne hs hempty
    exact (hone ops s hsub hs hempty).2 (hord.greatestIsLatest hsub hne)

/-- An older message with a greater random id, and a newer one. -/
def olderMessage : Message := ⟨9, 20, 1, "first", none, 100⟩

def newerMessage : Message := ⟨4, 20, 1, "second", none, 200⟩

theorem marker_latest_iff_two :
    (∀ ops s, (∀ m ∈ acked ops, m ∈ [olderMessage, newerMessage]) →
      exec (step 1 1000) (init twoUsers) ops = some s → s.1.pending = ∅ →
      (MarkerIsLatest s.2 (1, 20) (acked ops) ↔ GreatestIsLatest (acked ops))) ∧
    ((∀ ops s, (∀ m ∈ acked ops, m ∈ [olderMessage, newerMessage]) → acked ops ≠ [] →
      exec (step 1 1000) (init twoUsers) ops = some s → s.1.pending = ∅ →
      MarkerIsLatest s.2 (1, 20) (acked ops)) ↔ OrderedByAge [olderMessage, newerMessage]) :=
  marker_latest_iff twoUsers 1 20 1000 [olderMessage, newerMessage] (by decide) (by decide)
    (by decide) rfl

/-- Acknowledging the newer message after the older one leaves the marker at the older one. -/
theorem newer_ack_not_stored :
    ¬ ∀ (db : Database) (u : UserId) (channelId : ChannelId) (batchThreshold : ℕ)
      (ms : List Message), (ms.map Message.id).Nodup → (∀ m ∈ ms, m.channelId = channelId) →
      db.Refers (u, channelId) → db.readStates.lookup (u, channelId) = none →
      ∀ ops s, (∀ m ∈ acked ops, m ∈ ms) → acked ops ≠ [] →
        exec (step u batchThreshold) (init db) ops = some s → s.1.pending = ∅ →
        MarkerIsLatest s.2 (u, channelId) (acked ops) := by
  intro h
  obtain ⟨m, hm, hmark, hlate⟩ := h twoUsers 1 20 1000 [olderMessage, newerMessage] (by decide)
    (by decide) (by decide) rfl [.ack olderMessage, .ack newerMessage, .tick 300 [(1, 20)]] _
    (by decide) (by decide) rfl rfl
  have hstored : m.id = 9 := (WithBot.coe_inj.1 hmark).symm
  have hnewer := hlate newerMessage (by decide)
  rcases List.mem_cons.1 hm with rfl | hm
  · exact absurd hnewer (by decide)
  · rw [List.mem_singleton.1 hm] at hstored
    exact absurd hstored (by decide)

end Latest

end RustRelay
