import Mathlib.Data.List.Dedup
import Mathlib.Data.List.Nodup
import RustRelay.Core.MaxMerge
import RustRelay.Core.Sql
import RustRelay.Models

/-!
# The database

The tables of `migrations/001_initial.sql` and the statements of `db.rs` that the gateway runs
against them. The database picks `gen_random_uuid()` and `now()`; both are arguments here.
-/

namespace RustRelay

open Sql

/-- What a statement can report. -/
inductive DbError
  | notNullViolation (column : String)
  | foreignKeyViolation (column : String)
  | uniqueViolation (column : String)
  | cardinalityViolation
  | unavailable
  deriving DecidableEq, Repr

/-- The non-key columns of `read_states`. -/
structure ReadStateRow where
  lastReadMessageId : MessageId
  updatedAt : Timestamp
  deriving DecidableEq, Repr

/-- The schema, as far as the gateway reads or writes it. -/
structure Database where
  /-- `users`, by primary key. -/
  users : List UserId
  /-- `channels`, with the guild of each. -/
  channels : Table ChannelId GuildId
  /-- `guild_members`; the pair is the primary key. -/
  guildMembers : List (GuildId × UserId)
  guildMembers_nodup : guildMembers.Nodup
  messages : Table MessageId Message
  readStates : Table (UserId × ChannelId) ReadStateRow

/-! ## Messages -/

/-- `insert_message`: `RETURNING *` gives the row with the columns the database chose. -/
def insertMessage (db : Database) (id : MessageId) (now : Timestamp) (channelId : ChannelId)
    (authorId : UserId) (content : String) : Except DbError (Message × Database) :=
  if db.messages.lookup id ≠ none then .error (.uniqueViolation "id")
  else if db.channels.lookup channelId = none then .error (.foreignKeyViolation "channel_id")
  else if authorId ∉ db.users then .error (.foreignKeyViolation "author_id")
  else
    let message : Message := ⟨id, channelId, authorId, content, none, now⟩
    .ok (message, { db with messages := db.messages.insert id message })

/-- An insert that succeeds adds one row, under a new id. -/
theorem insertMessage_ok {db db' : Database} {id : MessageId} {now : Timestamp}
    {channelId : ChannelId} {authorId : UserId} {content : String} {message : Message}
    (h : insertMessage db id now channelId authorId content = .ok (message, db')) :
    message = ⟨id, channelId, authorId, content, none, now⟩ ∧
      db.messages.lookup message.id = none ∧
      db' = { db with messages := db.messages.insert message.id message } := by
  unfold insertMessage at h
  split_ifs at h with hid
  obtain ⟨rfl, rfl⟩ := Prod.mk.inj (Except.ok.inj h)
  exact ⟨rfl, not_not.1 hid, rfl⟩

/-! ## Channel members -/

/-- `get_channel_member_ids`: the members of the channel's guild. -/
def getChannelMemberIds (db : Database) (channelId : ChannelId) : List UserId :=
  match db.channels.lookup channelId with
  | none => []
  | some guildId => (db.guildMembers.filter fun gm => gm.1 = guildId).map Prod.snd

/-- The primary key of `guild_members` makes the member list free of duplicates. -/
theorem getChannelMemberIds_nodup (db : Database) (channelId : ChannelId) :
    (getChannelMemberIds db channelId).Nodup := by
  unfold getChannelMemberIds
  cases db.channels.lookup channelId with
  | none => exact List.nodup_nil
  | some guildId =>
    apply (db.guildMembers_nodup.filter _).map_on
    intro a ha b hb hab
    have hg : ∀ p ∈ db.guildMembers.filter (fun gm => gm.1 = guildId), p.1 = guildId :=
      fun p hp => by simpa using (List.mem_filter.1 hp).2
    exact Prod.ext ((hg a ha).trans (hg b hb).symm) hab

/-- `get_colocated_user_ids`: the other members of the user's guilds, each of them once. -/
def getColocatedUserIds (db : Database) (userId : UserId) : List UserId :=
  ((db.guildMembers.filter fun gm1 => gm1.2 = userId).flatMap fun gm1 =>
    (db.guildMembers.filter fun gm2 => gm1.1 = gm2.1 ∧ gm2.2 ≠ userId).map Prod.snd).dedup

/-- The users share a guild. -/
def Database.SharesGuild (db : Database) (u v : UserId) : Prop :=
  ∃ guildId, (guildId, u) ∈ db.guildMembers ∧ (guildId, v) ∈ db.guildMembers

theorem mem_getColocatedUserIds {db : Database} {u v : UserId} :
    v ∈ getColocatedUserIds db u ↔ v ≠ u ∧ db.SharesGuild u v := by
  simp only [getColocatedUserIds, List.mem_dedup, List.mem_flatMap, List.mem_map, List.mem_filter,
    decide_eq_true_eq]
  constructor
  · intro hrow
    rcases hrow with ⟨⟨g, u'⟩, ⟨hu, rfl⟩, ⟨g', v'⟩, ⟨hv, rfl, hne⟩, rfl⟩
    exact ⟨hne, g, hu, hv⟩
  · intro hboth
    rcases hboth with ⟨hne, g, hu, hv⟩
    exact ⟨(g, u), ⟨hu, rfl⟩, (g, v), ⟨hv, rfl, hne⟩, rfl⟩

/-! ## Read states -/

/-- A tuple of the bulk upsert, any column of which may be NULL. -/
abbrev ReadStateTuple := Option UserId × Option ChannelId × Option MessageId × Option Timestamp

/-- The NOT NULL columns of `read_states`. An explicit NULL does not take the column default. -/
def constrainReadState : ReadStateTuple → Except DbError ((UserId × ChannelId) × ReadStateRow)
  | (none, _, _, _) => .error (.notNullViolation "user_id")
  | (_, none, _, _) => .error (.notNullViolation "channel_id")
  | (_, _, none, _) => .error (.notNullViolation "last_read_message_id")
  | (_, _, _, none) => .error (.notNullViolation "updated_at")
  | (some u, some c, some m, some t) => .ok ((u, c), ⟨m, t⟩)

/-- A stored row as the tuple of its columns. -/
def ReadStateRow.toTuple (key : UserId × ChannelId) (row : ReadStateRow) : ReadStateTuple :=
  (some key.1, some key.2, some row.lastReadMessageId, some row.updatedAt)

/-- No NOT NULL column of the tuple is NULL. -/
def NotNull (t : ReadStateTuple) : Prop :=
  t.1.isSome ∧ t.2.1.isSome ∧ t.2.2.1.isSome ∧ t.2.2.2.isSome

instance (t : ReadStateTuple) : Decidable (NotNull t) := inferInstanceAs (Decidable (_ ∧ _))

theorem constrainReadState_toTuple (key : UserId × ChannelId) (row : ReadStateRow) :
    constrainReadState (row.toTuple key) = .ok (key, row) := rfl

theorem constrainReadState_ok_iff {t : ReadStateTuple} :
    (∃ kr, constrainReadState t = .ok kr) ↔ NotNull t := by
  obtain ⟨_ | u, _ | c, _ | m, _ | ts⟩ := t <;> simp [constrainReadState, NotNull]

/-- The statement of `upsert_read_states_batch` against a given database. -/
def readStateUpsert (db : Database) (now : Timestamp) :
    Upsert ReadStateTuple (UserId × ChannelId) ReadStateRow DbError where
  constrain := constrainReadState
  update old excluded :=
    if old.lastReadMessageId < excluded.lastReadMessageId then
      some ⟨excluded.lastReadMessageId, now⟩
    else none
  refer key :=
    if key.1 ∉ db.users then .error (.foreignKeyViolation "user_id")
    else if db.channels.lookup key.2 = none then .error (.foreignKeyViolation "channel_id")
    else .ok ()
  twice := .cardinalityViolation

/-- One acknowledged message: who, where, up to which message. -/
abbrev ReadUpdate := UserId × ChannelId × MessageId

/-- `upsert_read_states_batch`. The fourth array of the `UNNEST` is `ARRAY[now()]`, whatever the
length of the batch. -/
def upsertReadStatesBatch (db : Database) (now : Timestamp) (updates : List ReadUpdate) :
    Except DbError Database :=
  if updates.isEmpty then .ok db
  else
    let userIds := updates.map fun x => x.1
    let channelIds := updates.map fun x => x.2.1
    let messageIds := updates.map fun x => x.2.2
    match (readStateUpsert db now).execute db.readStates
        (unnest₄ userIds channelIds messageIds [now]) with
    | .error e => .error e
    | .ok table => .ok { db with readStates := table }

/-- `get_user_read_states`, in whatever order the table is scanned. -/
def getUserReadStates (db : Database) (userId : UserId) : List ReadState :=
  (db.readStates.entries.filter fun e => e.1.1 = userId).map fun e =>
    ⟨e.1.2, e.2.lastReadMessageId⟩

end RustRelay
