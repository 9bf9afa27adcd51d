import RustRelay.ReadState.Buffer

/-!
# The skip test of the flusher

A tick of the flusher does nothing while `pending_count` is zero. The counter is kept apart from
the map: an update counts after it has written, and a drain stores zero whatever the map holds by
then.

**Theorem (`skip_test_sound`).** With no update and no drain in progress, a buffer with entries
has a non-zero counter, provided that no drain stored its zero *blindly*: over a map with entries
of which no update is still to be counted. An update that writes a new key and counts after the
drain has collected its keys leads to one (`blind_reset_skips`), and a blind reset that nothing
follows leaves the buffer to be skipped (`blind_reset_stays`).

The invariant (`Uncounted`) is that entries are counted, or some update is about to count.
-/

namespace RustRelay

open Machine

/-- The drain has removed its keys and stores zero next. -/
def Flusher.resetting : Flusher → Bool
  | .draining [] _ => true
  | _ => false

/-- The error branch has put an item back and counts it next. -/
def Flusher.recounting : Flusher → Bool
  | .countingPending _ _ => true
  | _ => false

namespace Buffered

/-- No update and no drain is in progress. -/
def Settled (s : Buffered) : Prop :=
  s.beforePending = 0 ∧ s.beforeTotal = 0 ∧ match s.flusher with
    | .idle | .ticked | .flushing _ | .rebuffering _ _ => True
    | .collecting _ | .draining _ _ | .countingPending _ _ | .countingTotal _ _ => False

/-- The step stores zero over entries of which no update is still to be counted. -/
def BlindReset (s : Buffered) : Action → Prop
  | .advance => s.flusher.resetting ∧ s.cache.pending.keys ≠ [] ∧ s.beforePending = 0
  | _ => False

/-- The step takes `pending_count` from `2 ^ 64 - 1` to zero. -/
def Wraps (s : Buffered) : Action → Prop
  | .countPending => s.cache.pendingCount + 1 = 0
  | .advance => s.flusher.recounting ∧ s.cache.pendingCount + 1 = 0
  | _ => False

instance (s : Buffered) : (a : Action) → Decidable (s.BlindReset a)
  | .advance => inferInstanceAs (Decidable (_ ∧ _ ∧ _))
  | .update _ | .countPending | .countTotal | .tick | .iterate | .collected _ | .answer _ =>
    .isFalse id

instance (s : Buffered) : (a : Action) → Decidable (s.Wraps a)
  | .countPending => inferInstanceAs (Decidable (_ = _))
  | .advance => inferInstanceAs (Decidable (_ ∧ _))
  | .update _ | .countTotal | .tick | .iterate | .collected _ | .answer _ => .isFalse id

/-- Some update has written the map and not counted yet. -/
def Uncounted (s : Buffered) : Prop :=
  0 < s.beforePending ∨ ∃ chunk chunks, s.flusher = .countingPending chunk chunks

/-- The entries are counted, or some update is about to count. -/
def Counts (s : Buffered) : Prop :=
  s.cache.pending.keys ≠ [] → s.cache.pendingCount ≠ 0 ∨ s.Uncounted

variable {batchThreshold : ℕ} {s t : Buffered}

/-! ## One step -/

theorem drainKey_pending_ne {c : ReadStateCache} {key : UserId × ChannelId}
    (h : (c.drainKey key).2.pending.keys ≠ []) : c.pending.keys ≠ [] := by
  intro hempty
  have hnone : c.pending.lookup key = none := by
    rw [AList.lookup_eq_none, AList.mem_keys, hempty]
    exact List.not_mem_nil
  have hsame : (c.drainKey key).2 = c := by
    unfold ReadStateCache.drainKey
    rw [hnone]
  rw [hsame] at h
  exact h hempty

theorem drainKey_pendingCount (c : ReadStateCache) (key : UserId × ChannelId) :
    (c.drainKey key).2.pendingCount = c.pendingCount := by
  unfold ReadStateCache.drainKey
  cases c.pending.lookup key <;> rfl

theorem Counts.of_le (h : s.Counts)
    (hpending : t.cache.pending.keys ≠ [] → s.cache.pending.keys ≠ [])
    (hcount : t.cache.pendingCount = s.cache.pendingCount)
    (hclients : t.beforePending = s.beforePending)
    (hflusher : ∀ chunk chunks, s.flusher ≠ .countingPending chunk chunks) : t.Counts := by
  intro hne
  rcases h (hpending hne) with hc | hp | ⟨chunk, chunks, hf⟩
  · exact .inl (hcount ▸ hc)
  · exact .inr (.inl (hclients ▸ hp))
  · exact absurd hf (hflusher chunk chunks)

theorem counts_advance (h : s.Counts) (hreset : ¬s.BlindReset .advance) (hwrap : ¬s.Wraps .advance)
    (hstep : s.advance batchThreshold = some t) : t.Counts := by
  obtain ⟨cache, table, flusher, p, q⟩ := s
  unfold advance at hstep
  cases flusher with
  | draining keys batch =>
    cases keys with
    | cons key keys =>
      obtain rfl := Option.some.inj hstep
      exact h.of_le drainKey_pending_ne (drainKey_pendingCount cache key) rfl nofun
    | nil =>
      -- The reset: it is not blind, so an update is still to be counted.
      obtain rfl := Option.some.inj hstep
      intro hne
      exact .inr (.inl (Nat.pos_of_ne_zero fun hp => hreset ⟨rfl, hne, hp⟩))
  | flushing chunks =>
    cases chunks with
    | nil =>
      obtain rfl := Option.some.inj hstep
      exact h.of_le id rfl rfl nofun
    | cons chunk chunks => cases hstep
  | rebuffering chunk chunks =>
    cases chunk with
    | cons x chunk =>
      obtain rfl := Option.some.inj hstep
      intro _
      exact .inr (.inr ⟨chunk, chunks, rfl⟩)
    | nil =>
      obtain rfl := Option.some.inj hstep
      exact h.of_le id rfl rfl nofun
  | countingPending chunk chunks =>
    obtain rfl := Option.some.inj hstep
    intro _
    exact .inl fun hzero => hwrap ⟨rfl, hzero⟩
  | countingTotal chunk chunks =>
    obtain rfl := Option.some.inj hstep
    exact h.of_le id rfl rfl nofun
  | idle | ticked | collecting => cases hstep

/-- **One step.** Entries stay counted or about to be, unless the step resets blindly or wraps. -/
theorem step_counts {a : Action} (h : s.Counts) (hok : ¬s.BlindReset a ∧ ¬s.Wraps a)
    (hstep : step batchThreshold s a = some t) : t.Counts := by
  obtain ⟨hreset, hwrap⟩ := hok
  cases a with
  | update x =>
    obtain rfl := Option.some.inj hstep
    intro _
    exact .inr (.inl (Nat.succ_pos s.beforePending))
  | countPending =>
    simp only [step] at hstep
    split_ifs at hstep
    obtain rfl := Option.some.inj hstep
    intro _
    exact .inl hwrap
  | countTotal =>
    simp only [step] at hstep
    split_ifs at hstep
    obtain rfl := Option.some.inj hstep
    exact h
  | tick =>
    cases hf : s.flusher <;> simp only [step, hf, reduceCtorEq] at hstep
    obtain rfl := Option.some.inj hstep
    split_ifs
    · exact h
    · exact h.of_le id rfl rfl (by simp [hf])
  | iterate =>
    cases hf : s.flusher <;> simp only [step, hf, reduceCtorEq] at hstep
    obtain rfl := Option.some.inj hstep
    exact h.of_le id rfl rfl (by simp [hf])
  | collected keys =>
    cases hf : s.flusher <;> simp only [step, hf, reduceCtorEq] at hstep
    split_ifs at hstep
    obtain rfl := Option.some.inj hstep
    exact h.of_le id rfl rfl (by simp [hf])
  | answer ok =>
    cases hf : s.flusher with
    | flushing chunks =>
      cases chunks with
      | nil => simp only [step, hf, reduceCtorEq] at hstep
      | cons chunk chunks =>
        simp only [step, hf] at hstep
        split_ifs at hstep <;> obtain rfl := Option.some.inj hstep
        · exact h.of_le id rfl rfl (by simp [hf])
        · exact h.of_le id rfl rfl (by simp [hf])
    | _ => simp only [step, hf, reduceCtorEq] at hstep
  | advance => exact counts_advance h hreset hwrap hstep

/-! ## Whole runs -/

theorem init_counts (table : UserId × ChannelId → WithBot MessageId) : (init table).Counts :=
  fun h => absurd rfl h

theorem Settled.not_uncounted (h : s.Settled) : ¬s.Uncounted := by
  obtain ⟨hp, _, hf⟩ := h
  intro hun
  rcases hun with hpos | ⟨chunk, chunks, hcounting⟩
  · exact absurd hp hpos.ne'
  · rw [hcounting] at hf
    exact hf

/-- **The skip test is sound** along a run with no blind reset and no wrap: at rest, a buffer with
entries has a non-zero counter, and the next tick of the waiting flusher does not skip it. -/
theorem skip_test_sound (batchThreshold : ℕ) (table : UserId × ChannelId → WithBot MessageId)
    (as : List Action) (s : Buffered)
    (hok : Along (step batchThreshold) (fun s a => ¬s.BlindReset a ∧ ¬s.Wraps a) (init table) as)
    (hs : exec (step batchThreshold) (init table) as = some s) (hsettled : s.Settled)
    (hne : s.cache.pending.keys ≠ []) :
    s.cache.pendingCount ≠ 0 ∧
    (s.flusher = .idle → step batchThreshold s .tick = some { s with flusher := .ticked }) := by
  have hcounts : s.Counts :=
    exec_invariant_along (fun s a t h ok hstep => step_counts h ok hstep) (init_counts table) hok hs
  have hcount : s.cache.pendingCount ≠ 0 :=
    (hcounts hne).resolve_right hsettled.not_uncounted
  refine ⟨hcount, ?_⟩
  intro hidle
  simp only [step, hidle, if_neg hcount]

/-- The new key comes after the collection, and its update counts after the reset. -/
def countedLateRun : List Action :=
  [.update (1, 20, 7), .countPending, .countTotal, .tick, .iterate, .collected [(1, 20)],
    .update (1, 30, 9), .advance, .advance, .countPending, .countTotal, .answer true, .advance]

theorem skip_test_sound_counted_late :
    ∃ s, exec (step 1000) (init fun _ => ⊥) countedLateRun = some s ∧ s.cache.pending.keys ≠ [] ∧
      s.cache.pendingCount ≠ 0 ∧
      (s.flusher = .idle → step 1000 s .tick = some { s with flusher := .ticked }) :=
  ⟨_, rfl, by decide +kernel, skip_test_sound 1000 (fun _ => ⊥) countedLateRun _ (by decide +kernel)
    rfl ⟨rfl, rfl, trivial⟩ (by decide +kernel)⟩

/-- The same, with the new key counted before the reset. -/
def blindResetRun : List Action :=
  [.update (1, 20, 7), .countPending, .countTotal, .tick, .iterate, .collected [(1, 20)],
    .update (1, 30, 9), .countPending, .countTotal, .advance, .advance, .answer true, .advance]

/-- The entry of the new key stays, at rest and with counter zero, and the next tick skips it. -/
theorem blind_reset_skips :
    ∃ s, exec (step 1000) (init fun _ => ⊥) blindResetRun = some s ∧ s.Settled ∧
      s.cache.pending.keys ≠ [] ∧ s.cache.pendingCount = 0 ∧ step 1000 s .tick = some s :=
  ⟨_, rfl, ⟨rfl, rfl, trivial⟩, by decide +kernel, rfl, rfl⟩

theorem exec_countTotals (batchThreshold q : ℕ) (cache : ReadStateCache)
    (table : UserId × ChannelId → WithBot MessageId) (flusher : Flusher) (p : ℕ) :
    ∃ totalOps, exec (step batchThreshold) ⟨cache, table, flusher, p, q⟩
        (List.replicate q .countTotal) =
      some ⟨{ cache with totalOps := totalOps }, table, flusher, p, 0⟩ := by
  induction q generalizing cache with
  | zero => exact ⟨cache.totalOps, rfl⟩
  | succ q ih =>
    obtain ⟨totalOps, h⟩ := ih cache.countTotal
    exact ⟨totalOps, exec_cons.2 ⟨_, rfl, h⟩⟩

/-- A blind reset always leads there: once the clients that have counted are through, the buffer
is at rest, its entries are uncounted, and a tick of the waiting flusher skips them. -/
theorem blind_reset_stays (h : s.BlindReset .advance) :
    ∃ t, exec (step batchThreshold) s (.advance :: List.replicate s.beforeTotal .countTotal) =
        some t ∧ t.Settled ∧ t.cache.pending = s.cache.pending ∧ t.cache.pending.keys ≠ [] ∧
      t.cache.pendingCount = 0 := by
  obtain ⟨cache, table, flusher, p, q⟩ := s
  obtain ⟨hresetting, hne, hp⟩ := h
  obtain rfl : p = 0 := hp
  obtain ⟨batch, rfl⟩ : ∃ batch, flusher = .draining [] batch := by
    unfold Flusher.resetting at hresetting
    split at hresetting
    · next batch hf => exact ⟨batch, hf⟩
    · exact absurd hresetting Bool.false_ne_true
  have hreset : step batchThreshold ⟨cache, table, .draining [] batch, 0, q⟩ .advance =
      some ⟨{ cache with pendingCount := 0 }, table, if batch.isEmpty then .idle
        else .flushing (chunks (chunkSize batchThreshold) batch), 0, q⟩ := rfl
  obtain ⟨totalOps, hcounted⟩ := exec_countTotals batchThreshold q
    { cache with pendingCount := 0 } table (if batch.isEmpty then .idle
      else .flushing (chunks (chunkSize batchThreshold) batch)) 0
  refine ⟨_, exec_cons.2 ⟨_, hreset, hcounted⟩, ⟨rfl, rfl, ?_⟩, rfl, hne, rfl⟩
  by_cases hempty : batch.isEmpty = true
  · simp only [if_pos hempty]
  · simp only [if_neg hempty]

end Buffered

end RustRelay
