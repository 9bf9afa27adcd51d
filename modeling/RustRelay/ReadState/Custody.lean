import RustRelay.ReadState.Shutdown

/-!
# Where an acknowledgement is

An acknowledgement is merged into the map. From there its value goes with the entry, to the batch
of the flusher or to that of `flush_now`, and then to its row. `whereabouts` follows every
acknowledgement of a run; the map, the batch of the flusher, and the rows with the batch of
`flush_now` hold for each key the largest one that is there (`Tracked`).

**Theorem (`flush_now_persists_iff`).** When `flush_now` returns, the rows cover a list of
acknowledgements made before it was called *if and only if* each of them that the flusher has taken
and not yet written is at most the row from before the run, or at most another acknowledgement of
its key which the flusher does not have.
-/

namespace RustRelay

open MaxMerge Machine

namespace Shutdown

/-- Where the value of an acknowledgement is. -/
inductive Place
  | map
  /-- In the batch of the flusher. -/
  | flusher
  /-- In its row, or in the batch of `flush_now`. -/
  | beyond
  deriving DecidableEq, Repr

/-- The operations of `flush_now`. -/
def Action.ofFlushNow : Action → Bool
  | .call | .flushCollected _ | .flushAdvance => true
  | .server _ | .collected _ => false

/-- Where the value of an acknowledgement is after a step to `t`. It leaves the map with the entry
of its key, and the flusher when its chunk is written. -/
def moved (a : Action) (t : Shutdown) (key : UserId × ChannelId) : Place → Place
  | .map =>
    if key ∈ t.server.cache.pending then .map
    else if a.ofFlushNow then .beyond else .flusher
  | .flusher => if ∃ x ∈ t.server.flusher.inFlight, keyOf x = key then .flusher else .beyond
  | .beyond => .beyond

/-- The acknowledgements so far with their places, after a step to `t`. -/
def follow (a : Action) (t : Shutdown) (places : List (ReadUpdate × Place)) :
    List (ReadUpdate × Place) :=
  places.map (fun p => (p.1, moved a t (keyOf p.1) p.2)) ++ (acks [a]).map fun x => (x, .map)

/-- The acknowledgements of a run, with the places where their values are at its end. -/
def whereabouts (batchThreshold : ℕ) (s : Shutdown) (places : List (ReadUpdate × Place)) :
    List Action → List (ReadUpdate × Place)
  | [] => places
  | a :: as => match step batchThreshold s a with
    | none => places
    | some t => whereabouts batchThreshold t (follow a t places) as

/-! ## The largest value in a place -/

/-- The largest id that the acknowledgements in a place give to a key. -/
def largestAt (places : List (ReadUpdate × Place)) (place : Place) (key : UserId × ChannelId) :
    WithBot MessageId :=
  ackMax ((places.filter fun p => p.2 = place).map Prod.fst) key

theorem largestAt_append (places places' : List (ReadUpdate × Place)) (place : Place)
    (key : UserId × ChannelId) : largestAt (places ++ places') place key =
      largestAt places place key ⊔ largestAt places' place key := by
  rw [largestAt, List.filter_append, List.map_append, ackMax_append, largestAt, largestAt]

theorem largestAt_cons (p : ReadUpdate × Place) (places : List (ReadUpdate × Place))
    (place : Place) (key : UserId × ChannelId) : largestAt (p :: places) place key =
      (if keyOf p.1 = key ∧ p.2 = place then (p.1.2.2 : WithBot MessageId) else ⊥) ⊔
        largestAt places place key := by
  rw [← List.singleton_append, largestAt_append]
  congr 1
  by_cases hplace : p.2 = place
  · simp [largestAt, hplace, ackMax_singleton]
  · simp [largestAt, hplace]

theorem le_largestAt_iff {places : List (ReadUpdate × Place)} {place : Place}
    {key : UserId × ChannelId} {m : MessageId} : ↑m ≤ largestAt places place key ↔
      ∃ x, (x, place) ∈ places ∧ keyOf x = key ∧ m ≤ x.2.2 := by
  simp only [largestAt, le_ackMax_iff, List.mem_map, List.mem_filter, decide_eq_true_eq]
  constructor
  · intro hvalue
    obtain ⟨x, ⟨⟨x, _⟩, ⟨hmem, rfl⟩, rfl⟩, hx⟩ := hvalue
    exact ⟨x, hmem, hx⟩
  · intro hvalue
    obtain ⟨x, hmem, hx⟩ := hvalue
    exact ⟨x, ⟨(x, place), ⟨hmem, rfl⟩, rfl⟩, hx⟩

theorem largestAt_map (f : UserId × ChannelId → Place → Place) (places : List (ReadUpdate × Place))
    (place : Place) (key : UserId × ChannelId) :
    largestAt (places.map fun p => (p.1, f (keyOf p.1) p.2)) place key =
      (if f key .map = place then largestAt places .map key else ⊥) ⊔
      (if f key .flusher = place then largestAt places .flusher key else ⊥) ⊔
      (if f key .beyond = place then largestAt places .beyond key else ⊥) := by
  induction places with
  | nil => simp [largestAt]
  | cons p places ih =>
    obtain ⟨x, source⟩ := p
    simp only [List.map_cons, largestAt_cons, ih]
    by_cases hkey : keyOf x = key
    · subst hkey
      cases source with
      | map =>
        by_cases hplace : f (keyOf x) .map = place
        · simp only [hplace, and_self, if_true, reduceCtorEq, and_false, if_false, bot_sup_eq]
          ac_rfl
        · simp [hplace]
      | flusher =>
        by_cases hplace : f (keyOf x) .flusher = place
        · simp only [hplace, and_self, if_true, reduceCtorEq, and_false, if_false, bot_sup_eq]
          ac_rfl
        · simp [hplace]
      | beyond =>
        by_cases hplace : f (keyOf x) .beyond = place
        · simp only [hplace, and_self, if_true, reduceCtorEq, and_false, if_false, bot_sup_eq]
          ac_rfl
        · simp [hplace]
    · simp [hkey]

theorem largestAt_follow (a : Action) (t : Shutdown) (places : List (ReadUpdate × Place))
    (place : Place) (key : UserId × ChannelId) : largestAt (follow a t places) place key =
      (if moved a t key .map = place then largestAt places .map key else ⊥) ⊔
      (if moved a t key .flusher = place then largestAt places .flusher key else ⊥) ⊔
      (if moved a t key .beyond = place then largestAt places .beyond key else ⊥) ⊔
      (if place = .map then ackMax (acks [a]) key else ⊥) := by
  rw [follow, largestAt_append, largestAt_map (moved a t)]
  congr 1
  rw [largestAt, List.filter_map, List.map_map]
  split_ifs with hplace
  · subst hplace
    simp [Function.comp_def]
  · have hne : Place.map ≠ place := Ne.symm hplace
    simp [Function.comp_def, hne]

section
variable (a : Action) (t : Shutdown) (places : List (ReadUpdate × Place))
  (key : UserId × ChannelId)

theorem largestAt_follow_map : largestAt (follow a t places) .map key =
    (if key ∈ t.server.cache.pending then largestAt places .map key else ⊥) ⊔
      ackMax (acks [a]) key := by
  rw [largestAt_follow]
  simp only [moved]
  split_ifs <;> simp_all

theorem largestAt_follow_flusher : largestAt (follow a t places) .flusher key =
    (if key ∈ t.server.cache.pending then ⊥
      else if a.ofFlushNow then ⊥ else largestAt places .map key) ⊔
    if key ∈ t.server.flusher.inFlight.map keyOf then largestAt places .flusher key else ⊥ := by
  rw [largestAt_follow]
  simp only [moved, ← List.mem_map]
  split_ifs <;> simp_all

theorem largestAt_follow_beyond : largestAt (follow a t places) .beyond key =
    (if key ∈ t.server.cache.pending then ⊥
      else if a.ofFlushNow then largestAt places .map key else ⊥) ⊔
    (if key ∈ t.server.flusher.inFlight.map keyOf then ⊥ else largestAt places .flusher key) ⊔
      largestAt places .beyond key := by
  rw [largestAt_follow]
  simp only [moved, ← List.mem_map]
  split_ifs <;> simp_all

end

/-! ## One step -/

/-- For the key, the places hold what the server holds, on top of the row from before the run. -/
structure TrackedAt (table : UserId × ChannelId → WithBot MessageId)
    (places : List (ReadUpdate × Place)) (s : Shutdown) (key : UserId × ChannelId) : Prop where
  map : largestAt places .map key = rowAt s.server.cache.pending key
  flusher : largestAt places .flusher key = ackMax s.server.flusher.inFlight key
  beyond : table key ⊔ largestAt places .beyond key =
    s.server.table key ⊔ ackMax s.flush.inFlight key

section
variable {batchThreshold : ℕ} {table : UserId × ChannelId → WithBot MessageId}
  {places : List (ReadUpdate × Place)} {s t : Shutdown} {a : Action} {key : UserId × ChannelId}

theorem ackMax_eq_bot {xs : List ReadUpdate} (h : key ∉ xs.map keyOf) : ackMax xs key = ⊥ :=
  not_not.1 fun hne => h (List.mem_map.2 (ackMax_ne_bot_iff.1 hne))

/-- A place that holds nothing of the key for the server has no acknowledgement of it. -/
theorem TrackedAt.map_eq_bot (h : TrackedAt table places s key)
    (hkey : key ∉ s.server.cache.pending) : largestAt places .map key = ⊥ := by
  rw [h.map, rowAt_of_none (AList.lookup_eq_none.2 hkey)]

theorem TrackedAt.flusher_eq_bot (h : TrackedAt table places s key)
    (hkey : key ∉ s.server.flusher.inFlight.map keyOf) : largestAt places .flusher key = ⊥ := by
  rw [h.flusher, ackMax_eq_bot hkey]

theorem TrackedAt.still (h : TrackedAt table places s key)
    (hmap : rowAt t.server.cache.pending key =
      rowAt s.server.cache.pending key ⊔ ackMax (acks [a]) key)
    (hflight : ackMax t.server.flusher.inFlight key = ackMax s.server.flusher.inFlight key)
    (hbeyond : t.server.table key ⊔ ackMax t.flush.inFlight key =
      s.server.table key ⊔ ackMax s.flush.inFlight key) :
    TrackedAt table (follow a t places) t key := by
  have hpending (hkey : key ∉ t.server.cache.pending) : largestAt places .map key = ⊥ := by
    rw [rowAt_of_none (AList.lookup_eq_none.2 hkey), ← h.map] at hmap
    exact (sup_eq_bot_iff.1 hmap.symm).1
  have hkeys (hkey : key ∉ t.server.flusher.inFlight.map keyOf) :
      largestAt places .flusher key = ⊥ := by
    rw [h.flusher, ← hflight, ackMax_eq_bot hkey]
  refine ⟨?_, ?_, ?_⟩
  · rw [largestAt_follow_map, hmap, ← h.map]
    split_ifs with hkey
    · rfl
    · rw [hpending hkey]
  · rw [largestAt_follow_flusher, hflight, ← h.flusher]
    split_ifs <;> simp_all
  · rw [largestAt_follow_beyond, hbeyond, ← h.beyond]
    split_ifs <;> simp_all

theorem TrackedAt.flusherTakes (h : TrackedAt table places s key) (ha : a.ofFlushNow = false)
    (hacks : acks [a] = []) (hkey : key ∉ t.server.cache.pending)
    (hfree : key ∉ s.server.flusher.inFlight.map keyOf)
    (hflight : ackMax t.server.flusher.inFlight key = rowAt s.server.cache.pending key)
    (hbeyond : t.server.table key ⊔ ackMax t.flush.inFlight key =
      s.server.table key ⊔ ackMax s.flush.inFlight key) :
    TrackedAt table (follow a t places) t key := by
  have hnone := h.flusher_eq_bot hfree
  refine ⟨?_, ?_, ?_⟩
  · rw [largestAt_follow_map, if_neg hkey, hacks, rowAt_of_none (AList.lookup_eq_none.2 hkey)]
    rfl
  · rw [largestAt_follow_flusher, if_neg hkey, ha, hnone, ite_self, hflight, ← h.map]
    exact sup_bot_eq _
  · rw [largestAt_follow_beyond, if_neg hkey, ha, hnone, ite_self, hbeyond, ← h.beyond]
    simp

theorem TrackedAt.flushNowTakes (h : TrackedAt table places s key) (ha : a.ofFlushNow = true)
    (hacks : acks [a] = []) (hkey : key ∉ t.server.cache.pending)
    (hflusher : t.server.flusher = s.server.flusher)
    (hbeyond : t.server.table key ⊔ ackMax t.flush.inFlight key =
      s.server.table key ⊔ ackMax s.flush.inFlight key ⊔ rowAt s.server.cache.pending key) :
    TrackedAt table (follow a t places) t key := by
  refine ⟨?_, ?_, ?_⟩
  · rw [largestAt_follow_map, if_neg hkey, hacks, rowAt_of_none (AList.lookup_eq_none.2 hkey)]
    rfl
  · rw [largestAt_follow_flusher, if_neg hkey, ha, if_pos rfl, hflusher, ← h.flusher, bot_sup_eq]
    split_ifs with hmem
    · rfl
    · rw [h.flusher_eq_bot hmem]
  · rw [largestAt_follow_beyond, if_neg hkey, ha, if_pos rfl, hflusher, hbeyond, ← h.beyond,
      ← h.map]
    split_ifs with hmem
    · rw [sup_bot_eq, sup_comm (largestAt places .map key), sup_assoc]
    · rw [h.flusher_eq_bot hmem, sup_bot_eq, sup_comm (largestAt places .map key), sup_assoc]

theorem TrackedAt.written (h : TrackedAt table places s key) (hacks : acks [a] = [])
    (hpending : t.server.cache.pending = s.server.cache.pending)
    (hkey : key ∉ t.server.flusher.inFlight.map keyOf)
    (hbeyond : t.server.table key ⊔ ackMax t.flush.inFlight key =
      s.server.table key ⊔ ackMax s.flush.inFlight key ⊔
        ackMax s.server.flusher.inFlight key) :
    TrackedAt table (follow a t places) t key := by
  refine ⟨?_, ?_, ?_⟩
  · rw [largestAt_follow_map, hpending, ← h.map, hacks]
    split_ifs with hmem
    · exact sup_bot_eq _
    · rw [h.map_eq_bot hmem]
      rfl
  · rw [largestAt_follow_flusher, hpending, if_neg hkey, ackMax_eq_bot hkey]
    split_ifs with hmem
    · rfl
    · rfl
    · rw [h.map_eq_bot hmem]
      rfl
  · rw [largestAt_follow_beyond, hpending, if_neg hkey, hbeyond, ← h.beyond, ← h.flusher]
    split_ifs with hmem
    · rw [bot_sup_eq, sup_comm (largestAt places .flusher key), sup_assoc]
    · rw [h.map_eq_bot hmem, bot_sup_eq, sup_comm (largestAt places .flusher key), sup_assoc]
    · rw [bot_sup_eq, sup_comm (largestAt places .flusher key), sup_assoc]

/-! ### Distinct keys -/

/-- The flusher has one update of a key at most, and does not take a key again that it has. -/
def Distinct (s : Shutdown) : Prop :=
  match s.server.flusher with
  | .draining keys batch => (keys ++ batch.map keyOf).Nodup
  | flusher => (flusher.inFlight.map keyOf).Nodup

theorem Distinct.inFlight (h : s.Distinct) : (s.server.flusher.inFlight.map keyOf).Nodup := by
  unfold Distinct at h
  split at h
  · next keys batch hflusher =>
    rw [hflusher]
    exact (List.nodup_append.1 h).2.1
  · exact h

theorem distinct_of_nodup (h : (s.server.flusher.inFlight.map keyOf).Nodup)
    (hdraining : ∀ keys batch, s.server.flusher ≠ .draining keys batch) : s.Distinct := by
  unfold Distinct
  split
  · next keys batch hflusher => exact absurd hflusher (hdraining keys batch)
  · exact h

theorem advance_distinct (hcalm : s.server.flusher.rebuffers = false) (hs : s.Distinct)
    {server : Buffered} (h : s.server.advance batchThreshold = some server) :
    Distinct { s with server } := by
  obtain ⟨⟨cache, table, flusher, p, q⟩, flush⟩ := s
  unfold Buffered.advance at h
  cases flusher with
  | draining keys batch =>
    cases keys with
    | cons k keys =>
      obtain rfl := Option.some.inj h
      have hnodup : (k :: (keys ++ batch.map keyOf)).Nodup := hs
      have hmoved : (keys ++ (batch.map keyOf ++ [k])).Nodup := by
        rw [← List.append_assoc]
        exact (List.perm_append_singleton k _).nodup_iff.2 hnodup
      show (keys ++ (batch ++ (cache.drainKey k).1).map keyOf).Nodup
      rw [List.map_append]
      exact hmoved.sublist (((cache.keyOf_drainKey k).append_left _).append_left _)
    | nil =>
      obtain rfl := Option.some.inj h
      have hbatch : (batch.map keyOf).Nodup := hs
      cases batch with
      | nil => exact distinct_of_nodup List.nodup_nil (by simp)
      | cons x batch =>
        refine distinct_of_nodup ?_ (by simp)
        show ((chunks (chunkSize batchThreshold) (x :: batch)).flatten.map keyOf).Nodup
        rw [flatten_chunks (chunkSize_pos batchThreshold)]
        exact hbatch
  | flushing chunks =>
    cases chunks with
    | nil =>
      obtain rfl := Option.some.inj h
      exact distinct_of_nodup List.nodup_nil (by simp)
    | cons chunk chunks => cases h
  | rebuffering | countingPending | countingTotal => cases hcalm
  | idle | ticked | collecting => cases h

theorem step_distinct (hcalm : s.server.flusher.rebuffers = false) (hs : s.Distinct)
    (h : step batchThreshold s a = some t) : t.Distinct := by
  cases a with
  | server b =>
    simp only [step] at h
    split_ifs at h with hallows
    obtain ⟨server, hserver, rfl⟩ := Option.map_eq_some_iff.1 h
    cases b with
    | update x =>
      obtain rfl := Option.some.inj hserver
      exact hs
    | countPending | countTotal =>
      simp only [Buffered.step] at hserver
      split_ifs at hserver
      obtain rfl := Option.some.inj hserver
      exact hs
    | tick =>
      simp only [Buffered.step] at hserver
      split at hserver
      · obtain rfl := Option.some.inj hserver
        split_ifs
        · exact hs
        · exact distinct_of_nodup List.nodup_nil (by simp)
      · cases hserver
    | iterate =>
      simp only [Buffered.step] at hserver
      split at hserver
      · obtain rfl := Option.some.inj hserver
        exact distinct_of_nodup List.nodup_nil (by simp)
      · cases hserver
    | collected keys => cases hallows
    | answer ok =>
      simp only [Buffered.step] at hserver
      split at hserver
      · next chunk chunks hflusher =>
        have hnodup := hs.inFlight
        rw [hflusher] at hnodup
        split_ifs at hserver
        · obtain rfl := Option.some.inj hserver
          have hsub : (chunks.flatten.map keyOf).Sublist ((chunk :: chunks).flatten.map keyOf) :=
            (List.sublist_append_right chunk chunks.flatten).map keyOf
          exact distinct_of_nodup (hnodup.sublist hsub) (by simp)
        · obtain rfl := Option.some.inj hserver
          exact distinct_of_nodup hnodup (by simp)
      · cases hserver
    | advance => exact advance_distinct hcalm hs hserver
  | collected keys =>
    simp only [step] at h
    split at h
    · split_ifs at h with hiterated
      obtain rfl := Option.some.inj h
      show (keys ++ []).Nodup
      rw [List.append_nil]
      exact hiterated.1
    · cases h
  | call =>
    cases hf : s.flush <;> simp only [step, hf, reduceCtorEq] at h
    obtain rfl := Option.some.inj h
    exact hs
  | flushCollected keys =>
    cases hf : s.flush <;> simp only [step, hf, reduceCtorEq] at h
    split_ifs at h
    obtain rfl := Option.some.inj h
    exact hs
  | flushAdvance =>
    obtain ⟨server, flush⟩ := s
    simp only [step, flushAdvance] at h
    split at h <;> cases h <;> exact hs

/-! ### All steps -/

theorem advance_tracked (hcalm : s.server.flusher.rebuffers = false) (hdistinct : s.Distinct)
    (h : TrackedAt table places s key) {server : Buffered}
    (hstep : s.server.advance batchThreshold = some server) :
    TrackedAt table (follow (.server .advance) { s with server } places) { s with server } key := by
  obtain ⟨⟨cache, rows, flusher, p, q⟩, flush⟩ := s
  unfold Buffered.advance at hstep
  cases flusher with
  | draining keys batch =>
    cases keys with
    | cons k keys =>
      obtain rfl := Option.some.inj hstep
      have hflight : ackMax (batch ++ (cache.drainKey k).1) key =
          ackMax batch key ⊔ if key = k then rowAt cache.pending key else ⊥ := by
        rw [ackMax_append, cache.ackMax_drainKey]
      by_cases hkey : key = k
      · rw [if_pos hkey] at hflight
        have hfree : key ∉ batch.map keyOf := by
          have hnodup : (k :: (keys ++ batch.map keyOf)).Nodup := hdistinct
          rw [hkey]
          exact fun hmem => (List.nodup_cons.1 hnodup).1 (List.mem_append_right _ hmem)
        refine h.flusherTakes rfl rfl (fun hmem => (mem_drainKey.1 hmem).1 hkey) hfree ?_ rfl
        rw [ackMax_eq_bot hfree, bot_sup_eq] at hflight
        exact hflight
      · rw [if_neg hkey, sup_bot_eq] at hflight
        refine h.still ?_ hflight rfl
        show rowAt (cache.drainKey k).2.pending key = _ ⊔ ⊥
        rw [cache.rowAt_drainKey, if_neg hkey, sup_bot_eq]
    | nil =>
      obtain rfl := Option.some.inj hstep
      refine h.still (sup_bot_eq _).symm ?_ rfl
      cases batch with
      | nil => rfl
      | cons x batch =>
        show ackMax (chunks (chunkSize batchThreshold) (x :: batch)).flatten key = _
        rw [flatten_chunks (chunkSize_pos batchThreshold)]
        rfl
  | flushing chunks =>
    cases chunks with
    | nil =>
      obtain rfl := Option.some.inj hstep
      exact h.still (sup_bot_eq _).symm rfl rfl
    | cons chunk chunks => cases hstep
  | rebuffering | countingPending | countingTotal => cases hcalm
  | idle | ticked | collecting => cases hstep

theorem answer_tracked (hdistinct : s.Distinct) (h : TrackedAt table places s key)
    {chunk : List ReadUpdate} {chunks : List (List ReadUpdate)}
    (hflusher : s.server.flusher = .flushing (chunk :: chunks)) {server : Buffered}
    (hserver : server = { s.server with
      table := fun key => s.server.table key ⊔ ackMax chunk key
      flusher := .flushing chunks }) :
    TrackedAt table (follow (.server (.answer true)) { s with server } places) { s with server }
      key := by
  subst hserver
  have hflight : s.server.flusher.inFlight = chunk ++ chunks.flatten := by rw [hflusher]; rfl
  by_cases hkey : key ∈ chunk.map keyOf
  · have hrest : key ∉ chunks.flatten.map keyOf := by
      have hnodup := hdistinct.inFlight
      rw [hflight, List.map_append] at hnodup
      exact fun hmem => List.disjoint_of_nodup_append hnodup hkey hmem
    refine h.written rfl rfl hrest ?_
    rw [hflight, ackMax_append, ackMax_eq_bot hrest, sup_bot_eq]
    exact sup_right_comm _ _ _
  · refine h.still (sup_bot_eq _).symm ?_ ?_
    · rw [hflight, ackMax_append, ackMax_eq_bot hkey, bot_sup_eq]
      rfl
    · show s.server.table key ⊔ ackMax chunk key ⊔ _ = _
      rw [ackMax_eq_bot hkey, sup_bot_eq]

theorem flushAdvance_tracked (h : TrackedAt table places s key)
    (hstep : s.flushAdvance = some t) : TrackedAt table (follow .flushAdvance t places) t key := by
  obtain ⟨⟨cache, rows, flusher, p, q⟩, flush⟩ := s
  unfold flushAdvance at hstep
  cases flush with
  | draining keys batch =>
    cases keys with
    | cons k keys =>
      obtain rfl := Option.some.inj hstep
      have hbatch : ackMax (batch ++ (cache.drainKey k).1) key =
          ackMax batch key ⊔ if key = k then rowAt cache.pending key else ⊥ := by
        rw [ackMax_append, cache.ackMax_drainKey]
      by_cases hkey : key = k
      · rw [if_pos hkey] at hbatch
        refine h.flushNowTakes rfl rfl (fun hmem => (mem_drainKey.1 hmem).1 hkey) rfl ?_
        show rows key ⊔ ackMax (batch ++ (cache.drainKey k).1) key = _
        rw [hbatch, ← sup_assoc]
        rfl
      · rw [if_neg hkey, sup_bot_eq] at hbatch
        refine h.still ?_ rfl ?_
        · show rowAt (cache.drainKey k).2.pending key = _ ⊔ ⊥
          rw [cache.rowAt_drainKey, if_neg hkey, sup_bot_eq]
        · show rows key ⊔ ackMax (batch ++ (cache.drainKey k).1) key = _
          rw [hbatch]
          rfl
    | nil =>
      obtain rfl := Option.some.inj hstep
      refine h.still (sup_bot_eq _).symm rfl ?_
      cases batch <;> rfl
  | writing batch =>
    obtain rfl := Option.some.inj hstep
    refine h.still (sup_bot_eq _).symm rfl ?_
    exact sup_bot_eq _
  | serving | collecting | returned => cases hstep

/-- **One step**: the places follow the values. -/
theorem step_tracked (hcalm : s.server.flusher.rebuffers = false) (hdistinct : s.Distinct)
    (h : TrackedAt table places s key) (hstep : step batchThreshold s a = some t) :
    TrackedAt table (follow a t places) t key := by
  cases a with
  | server b =>
    simp only [step] at hstep
    split_ifs at hstep with hallows
    obtain ⟨server, hserver, rfl⟩ := Option.map_eq_some_iff.1 hstep
    cases b with
    | update x =>
      obtain rfl := Option.some.inj hserver
      exact h.still (s.server.cache.rowAt_updateEntry x key) rfl rfl
    | countPending | countTotal | tick | iterate =>
      have hsame := Buffered.step_quiet hserver rfl
      refine h.still ?_ ?_ ?_
      · rw [hsame.pending]
        exact (sup_bot_eq _).symm
      · rw [hsame.inFlight]
      · rw [hsame.table]
    | collected keys => cases hallows
    | answer ok =>
      obtain rfl : ok = true := hallows
      simp only [Buffered.step] at hserver
      split at hserver
      · next chunk chunks hflusher =>
        exact answer_tracked hdistinct h hflusher (Option.some.inj hserver).symm
      · cases hserver
    | advance => exact advance_tracked hcalm hdistinct h hserver
  | collected keys =>
    simp only [step] at hstep
    split at hstep
    · next old hflusher =>
      split_ifs at hstep
      obtain rfl := Option.some.inj hstep
      refine h.still (sup_bot_eq _).symm ?_ rfl
      rw [hflusher]
      rfl
    · cases hstep
  | call =>
    cases hf : s.flush <;> simp only [step, hf, reduceCtorEq] at hstep
    obtain rfl := Option.some.inj hstep
    refine h.still (sup_bot_eq _).symm rfl ?_
    rw [hf]
    rfl
  | flushCollected keys =>
    cases hf : s.flush <;> simp only [step, hf, reduceCtorEq] at hstep
    split_ifs at hstep
    obtain rfl := Option.some.inj hstep
    refine h.still (sup_bot_eq _).symm rfl ?_
    rw [hf]
    rfl
  | flushAdvance => exact flushAdvance_tracked h hstep

/-! ## Whole runs -/

theorem exec_tracked {as : List Action} (hs : s.Inv) (hdistinct : s.Distinct)
    (h : ∀ key, TrackedAt table places s key) (ht : exec (step batchThreshold) s as = some t) :
    ∀ key, TrackedAt table (whereabouts batchThreshold s places as) t key := by
  induction as generalizing s places with
  | nil =>
    obtain rfl : s = t := by simpa using ht
    exact h
  | cons a as ih =>
    obtain ⟨r, hr, ht⟩ := exec_cons.1 ht
    simp only [whereabouts, hr]
    exact ih (step_inv hs hr) (step_distinct hs.calm hdistinct hr)
      (fun key => step_tracked hs.calm hdistinct (h key) hr) ht

theorem init_tracked (key : UserId × ChannelId) : TrackedAt table [] (init table) key :=
  ⟨(rowAt_of_none (AList.lookup_empty key)).symm, rfl, rfl⟩

theorem acks_cons (a : Action) (as : List Action) : acks (a :: as) = acks [a] ++ acks as := by
  cases a with
  | server b => exact Buffered.acks_cons b _
  | _ => rfl

theorem exists_place {as : List Action} {x : ReadUpdate}
    (ht : exec (step batchThreshold) s as = some t)
    (hx : x ∈ acks as ∨ ∃ place, (x, place) ∈ places) :
    ∃ place, (x, place) ∈ whereabouts batchThreshold s places as := by
  induction as generalizing s places with
  | nil =>
    rcases hx with hx | hx
    · exact absurd hx List.not_mem_nil
    · exact hx
  | cons a as ih =>
    obtain ⟨r, hr, ht⟩ := exec_cons.1 ht
    simp only [whereabouts, hr]
    refine ih ht ?_
    rw [acks_cons, List.mem_append] at hx
    rcases hx with (hx | hx) | ⟨place, hx⟩
    · refine .inr ⟨.map, List.mem_append_right _ ?_⟩
      exact List.mem_map.2 ⟨x, hx, rfl⟩
    · exact .inl hx
    · refine .inr ⟨moved a r (keyOf x) place, List.mem_append_left _ ?_⟩
      exact List.mem_map.2 ⟨(x, place), hx, rfl⟩

end

/-! ## When `flush_now` returns -/

section
variable (batchThreshold : ℕ) (table : UserId × ChannelId → WithBot MessageId) (as : List Action)
  (x : ReadUpdate)

/-- The flusher has taken the acknowledgement from the map, and not yet written it. -/
def HeldByFlusher : Prop := (x, .flusher) ∈ whereabouts batchThreshold (init table) [] as

/-- The row from before the run is as new, or another acknowledgement of the key is, which the
flusher does not have. -/
def Superseded : Prop :=
  ↑x.2.2 ≤ table (keyOf x) ∨ ∃ y place, (y, place) ∈ whereabouts batchThreshold (init table) [] as ∧
    place ≠ .flusher ∧ keyOf y = keyOf x ∧ x.2.2 ≤ y.2.2

end

/-- The last operation of `flush_now` writes the rest of its batch, and finds nothing in the
map. -/
theorem flushAdvance_returned {s t : Shutdown} (h : s.flushAdvance = some t)
    (hreturned : t.flush = .returned) :
    t.server.table = (fun key => s.server.table key ⊔ ackMax s.flush.inFlight key) ∧
      ∀ key, ¬s.flush.Leaves key := by
  obtain ⟨server, flush⟩ := s
  unfold flushAdvance at h
  cases flush with
  | draining keys batch =>
    cases keys with
    | cons k keys =>
      obtain rfl := Option.some.inj h
      cases hreturned
    | nil =>
      obtain rfl := Option.some.inj h
      cases batch with
      | cons x batch => cases hreturned
      | nil => exact ⟨funext fun key => (sup_bot_eq _).symm, fun _ => List.not_mem_nil⟩
  | writing batch =>
    obtain rfl := Option.some.inj h
    exact ⟨rfl, fun _ => id⟩
  | serving | collecting | returned => cases h

/-- **Shutdown persists what the flusher does not hold.** Take a run up to the last operation of
`flush_now`, and any acknowledgements `done` of it; all of them were made before the call. -/
theorem flush_now_persists_iff (batchThreshold : ℕ)
    (table : UserId × ChannelId → WithBot MessageId) (as : List Action) (s t : Shutdown)
    (hs : exec (step batchThreshold) (init table) as = some s)
    (hreturn : step batchThreshold s .flushAdvance = some t) (hreturned : t.flush = .returned)
    (done : List ReadUpdate) (hdone : done ⊆ acks as) :
    (∀ x ∈ done, ↑x.2.2 ≤ t.server.table (keyOf x)) ↔
      ∀ x ∈ done, HeldByFlusher batchThreshold table as x →
        Superseded batchThreshold table as x := by
  have hinv : s.Inv := exec_invariant (fun s a t h hstep => step_inv h hstep) (init_inv table) hs
  have htracked := exec_tracked (init_inv table)
    (distinct_of_nodup List.nodup_nil (by rintro _ _ ⟨⟩)) init_tracked hs
  obtain ⟨htable, hleaves⟩ := flushAdvance_returned hreturn hreturned
  -- The map is empty, so an acknowledgement is with the flusher or beyond.
  have hmap {x : ReadUpdate} :
      (x, Place.map) ∉ whereabouts batchThreshold (init table) [] as := by
    intro hx
    have hle := le_largestAt_iff.2 ⟨x, hx, rfl, le_refl x.2.2⟩
    rw [(htracked _).map_eq_bot fun hmem => hleaves _ (hinv.leaves _ hmem)] at hle
    exact absurd hle (WithBot.not_coe_le_bot _)
  have hrow (x : ReadUpdate) : ↑x.2.2 ≤ t.server.table (keyOf x) ↔
      Superseded batchThreshold table as x := by
    have hafter : t.server.table (keyOf x) =
        s.server.table (keyOf x) ⊔ ackMax s.flush.inFlight (keyOf x) := congrFun htable _
    rw [hafter, ← (htracked (keyOf x)).beyond, le_sup_iff, le_largestAt_iff, Superseded]
    refine or_congr_right ?_
    constructor
    · intro hbeyond
      obtain ⟨y, hy, hle⟩ := hbeyond
      exact ⟨y, .beyond, hy, by simp, hle⟩
    · intro hother
      obtain ⟨y, place, hy, hplace, hle⟩ := hother
      cases place with
      | map => exact absurd hy hmap
      | flusher => exact absurd rfl hplace
      | beyond => exact ⟨y, hy, hle⟩
  refine forall₂_congr fun x hx => ?_
  rw [hrow]
  constructor
  · intro hsuperseded _
    exact hsuperseded
  · intro hheld
    by_cases hflusher : HeldByFlusher batchThreshold table as x
    · exact hheld hflusher
    · obtain ⟨place, hplace⟩ : ∃ place,
          (x, place) ∈ whereabouts batchThreshold (init table) [] as :=
        exists_place hs (.inl (hdone hx))
      refine .inr ⟨x, place, hplace, ?_, rfl, le_rfl⟩
      rintro rfl
      exact hflusher hplace

/-- The flusher waits for its next tick while `flush_now` writes. -/
def quietRun : List Action :=
  [.server (.update (1, 20, 7)), .server .countPending, .server .countTotal, .call,
    .flushCollected [(1, 20)], .flushAdvance, .flushAdvance]

theorem flush_now_persists_iff_quiet :
    ∃ s t, exec (step 1000) (init fun _ => ⊥) quietRun = some s ∧
      step 1000 s .flushAdvance = some t ∧
      ((∀ x ∈ [(1, 20, 7)], ↑x.2.2 ≤ t.server.table (keyOf x)) ↔
        ∀ x ∈ [(1, 20, 7)], HeldByFlusher 1000 (fun _ => ⊥) quietRun x →
          Superseded 1000 (fun _ => ⊥) quietRun x) :=
  ⟨_, _, rfl, rfl, flush_now_persists_iff 1000 (fun _ => ⊥) quietRun _ _ rfl rfl rfl
    [(1, 20, 7)] (List.Subset.refl _)⟩

/-- The flusher has drained the map when `flush_now` is called. -/
def strandedRun : List Action :=
  [.server (.update (1, 20, 7)), .server .countPending, .server .countTotal, .server .tick,
    .server .iterate, .collected [(1, 20)], .server .advance, .server .advance, .call,
    .flushCollected [], .flushAdvance]

/-- `flush_now` finds nothing to write, and returns before the flusher has written. -/
theorem flush_now_strands :
    ∃ s, exec (step 1000) (init fun _ => ⊥) strandedRun = some s ∧ s.flush = .returned ∧
      (1, 20, 7) ∈ acks strandedRun ∧ s.server.table (1, 20) = ⊥ :=
  ⟨_, rfl, rfl, by decide, rfl⟩

end Shutdown

end RustRelay
