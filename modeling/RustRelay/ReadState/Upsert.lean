import RustRelay.Db

/-!
# The bulk upsert of read states

`upsert_read_states_batch` means to max-merge a batch into `read_states`. Its fourth array,
`ARRAY[now()]`, has one element, so `UNNEST` pads it with NULL from the second tuple on, and
`updated_at` is NOT NULL.

**Theorem (`upsert_maxMerges_iff`).** A non-empty batch with distinct keys that refers to
existing users and channels is max-merged if and only if it has exactly one element.

The failing half needs no case analysis of the conflict clause: one unacceptable tuple undoes
the statement (`Upsert.execute_error`). In the other half the statement is clean, and
`Upsert.execute_ok` describes it row by row.
-/

namespace RustRelay

open Sql

/-- The read marker of a user in a channel, `⊥` if there is no row. -/
def Database.lastRead (db : Database) (key : UserId × ChannelId) : WithBot MessageId :=
  (db.readStates.lookup key).elim ⊥ fun row => (row.lastReadMessageId : WithBot MessageId)

/-- The user and the channel of a key exist. -/
def Database.Refers (db : Database) (key : UserId × ChannelId) : Prop :=
  key.1 ∈ db.users ∧ db.channels.lookup key.2 ≠ none

instance (db : Database) (key : UserId × ChannelId) : Decidable (db.Refers key) :=
  inferInstanceAs (Decidable (_ ∧ _))

/-- The key of an update. -/
def keyOf (x : ReadUpdate) : UserId × ChannelId := (x.1, x.2.1)

/-- The batch is max-merged: the statement succeeds, every listed row becomes the larger of its
old value and the new id, no other row and no other table changes, and no NOT NULL column is
left NULL. -/
def MaxMerges (db : Database) (now : Timestamp) (updates : List ReadUpdate) : Prop :=
  ∃ db', upsertReadStatesBatch db now updates = .ok db' ∧
    db' = { db with readStates := db'.readStates } ∧
    (∀ u c m, (u, c, m) ∈ updates → db'.lastRead (u, c) = db.lastRead (u, c) ⊔ (m : MessageId)) ∧
    (∀ key, key ∉ updates.map keyOf → db'.readStates.lookup key = db.readStates.lookup key) ∧
    ∀ key row, db'.readStates.lookup key = some row → NotNull (row.toTuple key)

theorem readStateUpsert_refer {db : Database} {now : Timestamp} {key : UserId × ChannelId}
    (h : db.Refers key) : (readStateUpsert db now).refer key = .ok () := by
  simp [readStateUpsert, h.1, h.2]

/-- `DO UPDATE … WHERE last_read_message_id < EXCLUDED.last_read_message_id` takes the maximum. -/
theorem outcome_lastRead (db : Database) (now : Timestamp) (old : Option ReadStateRow)
    (row : ReadStateRow) :
    (((readStateUpsert db now).outcome old row).lastReadMessageId : WithBot MessageId) =
      (old.elim ⊥ fun r => (r.lastReadMessageId : WithBot MessageId)) ⊔ row.lastReadMessageId := by
  cases old with
  | none => simp [Upsert.outcome]
  | some r =>
    by_cases h : r.lastReadMessageId < row.lastReadMessageId
    · have hle : (r.lastReadMessageId : WithBot MessageId) ≤ row.lastReadMessageId :=
        WithBot.coe_le_coe.2 h.le
      simp [Upsert.outcome, readStateUpsert, h, sup_eq_right.2 hle]
    · have hle : (row.lastReadMessageId : WithBot MessageId) ≤ r.lastReadMessageId :=
        WithBot.coe_le_coe.2 (not_lt.1 h)
      simp [Upsert.outcome, readStateUpsert, h, sup_eq_left.2 hle]

theorem upsertReadStatesBatch_singleton (db : Database) (now : Timestamp) (u : UserId)
    (c : ChannelId) (m : MessageId) :
    upsertReadStatesBatch db now [(u, c, m)] =
      ((readStateUpsert db now).execute db.readStates
        [(some u, some c, some m, some now)]).map fun table => { db with readStates := table } := by
  have hunnest : unnest₄ [u] [c] [m] [now] = [(some u, some c, some m, some now)] := rfl
  simp only [upsertReadStatesBatch, List.isEmpty_cons, Bool.false_eq_true, if_false,
    List.map_cons, List.map_nil, hunnest]
  cases (readStateUpsert db now).execute db.readStates
      [(some u, some c, some m, some now)] with
  | error e => rfl
  | ok table => rfl

theorem upsert_singleton {db : Database} {u : UserId} {c : ChannelId} (href : db.Refers (u, c))
    (now : Timestamp) (m : MessageId) :
    ∃ table, upsertReadStatesBatch db now [(u, c, m)] = .ok { db with readStates := table } ∧
      { db with readStates := table }.lastRead (u, c) = db.lastRead (u, c) ⊔ (m : MessageId) ∧
      ∀ key, key ≠ (u, c) → table.lookup key = db.readStates.lookup key := by
  obtain ⟨table, hexec, hval, hframe⟩ := (readStateUpsert db now).execute_ok
    db.readStates (show (unnest₄ [u] [c] [m] [now]).map (readStateUpsert db now).constrain =
      [((u, c), (⟨m, now⟩ : ReadStateRow))].map .ok from rfl)
    (List.nodup_singleton _) (by simpa using readStateUpsert_refer href)
  refine ⟨table, ?_, ?_, fun key hkey => hframe key (by simpa using hkey)⟩
  · simp [upsertReadStatesBatch, hexec]
  · rw [Database.lastRead, hval (u, c) _ List.mem_cons_self]
    exact outcome_lastRead db now _ _

/-- The second tuple of a longer batch carries a NULL `updated_at`, which undoes the statement. -/
theorem upsert_error (db : Database) (now : Timestamp) {updates : List ReadUpdate}
    (hlen : 1 < updates.length) : ∃ e, upsertReadStatesBatch db now updates = .error e := by
  obtain ⟨⟨u₁, c₁, m₁⟩, ⟨u₂, c₂, m₂⟩, rest, rfl⟩ : ∃ x y rest, updates = x :: y :: rest := by
    match updates, hlen with
    | x :: y :: rest, _ => exact ⟨x, y, rest, rfl⟩
  -- Index 1 is past the end of `ARRAY[now()]`.
  have hget := getElem?_unnest₄ (u₁ :: u₂ :: rest.map fun x => x.1)
    (c₁ :: c₂ :: rest.map fun x => x.2.1) (m₁ :: m₂ :: rest.map fun x => x.2.2) [now] (i := 1)
    (by simp)
  obtain ⟨e, he⟩ := (readStateUpsert db now).execute_error db.readStates
    (List.mem_of_getElem? hget) (e := .notNullViolation "updated_at") rfl
  exact ⟨e, by simp [upsertReadStatesBatch, he]⟩

/-- **The bulk upsert max-merges exactly the batches of one.** -/
theorem upsert_maxMerges_iff (db : Database) (now : Timestamp) (updates : List ReadUpdate)
    (hne : updates ≠ []) (hkeys : (updates.map keyOf).Nodup)
    (hrefs : ∀ x ∈ updates, db.Refers (keyOf x)) :
    MaxMerges db now updates ↔ updates.length = 1 := by
  constructor
  · intro hmerges
    rcases hmerges with ⟨db', hok, -⟩
    by_contra hlen
    have hpos : 0 < updates.length := List.length_pos_iff.2 hne
    obtain ⟨e, he⟩ := upsert_error db now (show 1 < updates.length by omega)
    rw [he] at hok
    cases hok
  · intro hlen
    obtain ⟨⟨u, c, m⟩, rfl⟩ := List.length_eq_one_iff.1 hlen
    obtain ⟨table, hok, hval, hframe⟩ := upsert_singleton (hrefs _ List.mem_cons_self) now m
    refine ⟨_, hok, rfl, ?_, ?_, ?_⟩
    · intro u' c' m' hmem
      obtain ⟨rfl, rfl, rfl⟩ : u' = u ∧ c' = c ∧ m' = m := by simpa using hmem
      exact hval
    · exact fun key hkey => hframe key (by simpa [keyOf] using hkey)
    · exact fun key row _ => constrainReadState_ok_iff.1 ⟨_, constrainReadState_toTuple key row⟩

/-- Two users and two channels of one guild, and nothing read yet. -/
def twoUsers : Database where
  users := [1, 2]
  channels := (∅ : Table ChannelId GuildId).insert 20 10 |>.insert 21 10
  guildMembers := [(10, 1), (10, 2)]
  guildMembers_nodup := by decide
  messages := ∅
  readStates := ∅

theorem upsert_maxMerges_iff_one :
    MaxMerges twoUsers 0 [(1, 20, 7)] ↔ [((1, 20, 7) : ReadUpdate)].length = 1 :=
  upsert_maxMerges_iff twoUsers 0 [(1, 20, 7)] (by decide) (by decide) (by decide)

/-- Two users reading one channel within one flush interval: neither row is stored. -/
theorem upsert_two_not_maxMerges :
    ¬ ∀ (db : Database) (now : Timestamp) (updates : List ReadUpdate), updates ≠ [] →
      (updates.map keyOf).Nodup → (∀ x ∈ updates, db.Refers (keyOf x)) →
      MaxMerges db now updates := by
  intro h
  obtain ⟨db', hok, -⟩ :=
    h twoUsers 0 [(1, 20, 7), (2, 20, 7)] (by decide) (by decide) (by decide)
  have herr : upsertReadStatesBatch twoUsers 0 [(1, 20, 7), (2, 20, 7)] =
      .error (.notNullViolation "updated_at") := rfl
  rw [herr] at hok
  cases hok

end RustRelay
