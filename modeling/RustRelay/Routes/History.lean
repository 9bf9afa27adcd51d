import RustRelay.Core.Pagination
import RustRelay.ReadState.Upsert

/-!
# Message history

`GET /api/channels/:channel_id/messages` lists the newest messages of a channel, or those older
than the message `before`. A client reads the history page by page, from the last message of one
page to the next. The cursor is an id, but the query compares times: `created_at < (SELECT
created_at FROM messages WHERE id = $2)`.

**Theorem (`history_complete_iff`).** The chain of requests ends, and what it returns is newest
first. It returns every message of the channel exactly once if and only if no page ends between
two messages with the same `created_at`; the others of such a group are never listed.

The pages are those of `Pagination.fetch` (`fetchHistory_eq`), where this is proved.
-/

namespace RustRelay

open Pagination

/-! ## One request -/

structure MessageQuery where
  limit : Option ℤ
  before : Option MessageId

/-- What PostgreSQL says to the query: `LIMIT must not be negative`. -/
inductive ListError
  | negativeLimit
  deriving DecidableEq, Repr

/-- The rows of a channel, in whatever order the table is scanned. -/
def Database.channelMessages (db : Database) (channelId : ChannelId) : List Message :=
  (DashMap.values db.messages).filter fun m => m.channelId = channelId

/-- The rows that a request is about. An unknown `before` makes the subquery NULL, and no row is
older than that. -/
def Database.rowsBefore (db : Database) (channelId : ChannelId) :
    Option MessageId → List Message
  | none => db.channelMessages channelId
  | some id => match db.messages.lookup id with
    | none => []
    | some cursor => (db.channelMessages channelId).filter fun m => m.createdAt < cursor.createdAt

/-- The payload of a listed message. -/
def listedPayload (m : Message) : MessagePayload :=
  ⟨m.id, m.channelId, m.authorId, m.content, m.createdAt, m.editedAt⟩

theorem listedPayload_injective : Function.Injective listedPayload := by
  rintro ⟨_, _, _, _, _, _⟩ ⟨_, _, _, _, _, _⟩ h
  cases h
  rfl

/-- `limit.unwrap_or(50).min(100)`. -/
def MessageQuery.rowLimit (query : MessageQuery) : ℤ := min (query.limit.getD 50) 100

/-- `list_messages`, with the order that the database gives this time to rows with equal times. -/
def listMessages (sort : List Message → List Message) (db : Database) (channelId : ChannelId)
    (query : MessageQuery) : Except ListError (List MessagePayload) :=
  if query.rowLimit < 0 then .error .negativeLimit
  else .ok (((sort (db.rowsBefore channelId query.before)).take query.rowLimit.toNat).map
    listedPayload)

/-! ## The chain of requests -/

/-- A client that asks for page after page until one is empty; `none` if the fuel runs out. -/
def fetchHistory (sorts : ℕ → List Message → List Message) (db : Database)
    (channelId : ChannelId) (limit : Option ℤ) :
    ℕ → ℕ → Option MessageId → Option (Except ListError (List MessagePayload))
  | 0, _, _ => none
  | fuel + 1, i, before =>
    match listMessages (sorts i) db channelId ⟨limit, before⟩ with
    | .error e => some (.error e)
    | .ok page => match page.getLast? with
      | none => some (.ok [])
      | some last =>
        (fetchHistory sorts db channelId limit fuel (i + 1) (some last.id)).map fun rest =>
          rest.map (page ++ ·)

/-- The primary key of `messages`. -/
def Database.MessagesById (db : Database) : Prop :=
  ∀ id m, db.messages.lookup id = some m → m.id = id

theorem insertMessage_messagesById {db db' : Database} {id : MessageId} {now : Timestamp}
    {channelId : ChannelId} {authorId : UserId} {content : String} {message : Message}
    (hdb : db.MessagesById)
    (h : insertMessage db id now channelId authorId content = .ok (message, db')) :
    db'.MessagesById := by
  obtain ⟨-, -, rfl⟩ := insertMessage_ok h
  intro id' m hm
  rw [DashMap.lookup_insert_ite] at hm
  split_ifs at hm with hid
  · obtain rfl := Option.some.inj hm
    exact hid.symm
  · exact hdb id' m hm

variable {db : Database} {channelId : ChannelId} {before : Option MessageId} {m : Message}

theorem lookup_of_mem_rowsBefore (hdb : db.MessagesById)
    (hm : m ∈ db.rowsBefore channelId before) : db.messages.lookup m.id = some m := by
  have hchannel : m ∈ db.channelMessages channelId := by
    cases before with
    | none => exact hm
    | some id =>
      rw [Database.rowsBefore] at hm
      cases hcursor : db.messages.lookup id with
      | none =>
        rw [hcursor] at hm
        exact absurd hm List.not_mem_nil
      | some cursor =>
        rw [hcursor] at hm
        exact List.mem_of_mem_filter hm
  obtain ⟨id, hid⟩ := DashMap.mem_values_iff.1 (List.mem_of_mem_filter hchannel)
  rw [hdb id m hid]
  exact hid

/-- The rows before a listed message are the rows of this request that are older. -/
theorem rowsBefore_next (hdb : db.MessagesById) (hm : m ∈ db.rowsBefore channelId before) :
    db.rowsBefore channelId (some m.id) =
      (db.rowsBefore channelId before).filter fun a => a.createdAt < m.createdAt := by
  have hlook := lookup_of_mem_rowsBefore hdb hm
  rw [show db.rowsBefore channelId (some m.id) =
    (db.channelMessages channelId).filter fun a => a.createdAt < m.createdAt by
      rw [Database.rowsBefore, hlook]]
  cases before with
  | none => rfl
  | some id =>
    rw [Database.rowsBefore] at hm ⊢
    cases hcursor : db.messages.lookup id with
    | none =>
      rw [hcursor] at hm
      exact absurd hm List.not_mem_nil
    | some cursor =>
      rw [hcursor] at hm
      have holder : m.createdAt < cursor.createdAt := by simpa using (List.mem_filter.1 hm).2
      dsimp only
      rw [List.filter_filter]
      apply List.filter_congr
      intro a _
      by_cases ha : a.createdAt < m.createdAt
      · simp [ha, ha.trans holder]
      · simp [ha]

/-- **The requests are those of `Pagination.fetch`**, over the rows of the channel. -/
theorem fetchHistory_eq (hdb : db.MessagesById) {sorts : ℕ → List Message → List Message}
    (hsorts : ∀ i, OrdersBy Message.createdAt (sorts i)) {limit : Option ℤ}
    (hlimit : 1 ≤ limit.getD 50) (fuel i : ℕ) (before : Option MessageId) :
    fetchHistory sorts db channelId limit fuel i before =
      (fetch Message.createdAt (min (limit.getD 50) 100).toNat sorts fuel i
        (db.rowsBefore channelId before)).map fun rows => .ok (rows.map listedPayload) := by
  induction fuel generalizing i before with
  | zero => rfl
  | succ fuel ih =>
    have hpage : listMessages (sorts i) db channelId ⟨limit, before⟩ =
        .ok (((sorts i (db.rowsBefore channelId before)).take
          (min (limit.getD 50) 100).toNat).map listedPayload) :=
      if_neg (by simp only [MessageQuery.rowLimit]; omega)
    rw [fetchHistory, hpage, fetch]
    simp only [List.getLast?_map]
    cases hlast : ((sorts i (db.rowsBefore channelId before)).take
        (min (limit.getD 50) 100).toNat).getLast? with
    | none => rfl
    | some last =>
      have hmem : last ∈ db.rowsBefore channelId before :=
        ((hsorts i).perm _).subset (List.mem_of_mem_take (List.mem_of_getLast? hlast))
      have hnext := ih (i + 1) (some last.id)
      rw [rowsBefore_next hdb hmem] at hnext
      simp only [Option.map_some]
      rw [show (listedPayload last).id = last.id from rfl, hnext, Option.map_map, Option.map_map]
      congr 1
      funext rows
      simp [Except.map]

/-- **The history is complete exactly if no page splits a group of equal times**: no multiple of
the page size lies strictly between the number of newer messages and the number of those that are
not older, for any message of the channel. -/
theorem history_complete_iff (db : Database) (hdb : db.MessagesById) (channelId : ChannelId)
    (limit : Option ℤ) (hlimit : 1 ≤ limit.getD 50) (sorts : ℕ → List Message → List Message)
    (hsorts : ∀ i, OrdersBy Message.createdAt (sorts i)) (fuel : ℕ)
    (hfuel : (db.channelMessages channelId).length < fuel) :
    ∃ history, fetchHistory sorts db channelId limit fuel 0 none = some (.ok history) ∧
      history.Pairwise (fun a b => b.timestamp ≤ a.timestamp) ∧
      (history.Perm ((db.channelMessages channelId).map listedPayload) ↔
        NoSplit Message.createdAt (min (limit.getD 50) 100).toNat
          (db.channelMessages channelId)) := by
  obtain ⟨rows, hrows, hnewest, -, hall⟩ := fetch_spec
    (show 0 < (min (limit.getD 50) 100).toNat by omega) hsorts 0 hfuel
  refine ⟨rows.map listedPayload, ?_, ?_, ?_⟩
  · rw [fetchHistory_eq hdb hsorts hlimit, show db.rowsBefore channelId none =
      db.channelMessages channelId from rfl, hrows]
    rfl
  · exact List.pairwise_map.2 hnewest
  · rw [← hall, List.map_perm_map_iff listedPayload_injective]

/-! ## Small pages -/

/-- The database of two users with these messages in channel 20, by id and time. -/
def withMessages (rows : List (MessageId × Timestamp)) : Database :=
  { twoUsers with
    messages := rows.foldr (fun r messages =>
      messages.insert r.1 ⟨r.1, 20, 1, "hi", none, r.2⟩) ∅ }

theorem withMessages_messagesById (rows : List (MessageId × Timestamp)) :
    (withMessages rows).MessagesById := by
  induction rows with
  | nil => exact fun id m hm => by cases hm
  | cons r rows ih =>
    intro id m hm
    rw [show (withMessages (r :: rows)).messages = (withMessages rows).messages.insert r.1
      ⟨r.1, 20, 1, "hi", none, r.2⟩ from rfl, DashMap.lookup_insert_ite] at hm
    split_ifs at hm with hid
    · obtain rfl := Option.some.inj hm
      exact hid.symm
    · exact ih id m hm

/-- Ties stay in the order of the scan. -/
def scanOrder (_ : ℕ) : List Message → List Message :=
  List.insertionSort fun a b => b.createdAt ≤ a.createdAt

/-- Three messages with times of their own, in pages of two. -/
theorem history_complete_iff_distinct :
    ∃ history, fetchHistory scanOrder (withMessages [(9, 0), (10, 1), (11, 2)]) 20 (some 2) 4 0
        none = some (.ok history) ∧
      history.Perm (((withMessages [(9, 0), (10, 1), (11, 2)]).channelMessages 20).map
        listedPayload) := by
  obtain ⟨history, hfetch, -, hall⟩ := history_complete_iff _
    (withMessages_messagesById [(9, 0), (10, 1), (11, 2)]) 20 (some 2) (by decide) scanOrder
    (fun _ => ordersBy_insertionSort _) 4 (by decide)
  exact ⟨history, hfetch, hall.2 (noSplit_of_nodup (by decide) _)⟩

/-- **A page boundary hides a message**: two messages of one time, in pages of one. -/
theorem tie_is_skipped :
    ¬ ∀ (db : Database) (channelId : ChannelId) (limit : Option ℤ)
      (sorts : ℕ → List Message → List Message) (fuel : ℕ), db.MessagesById →
      1 ≤ limit.getD 50 → (∀ i, OrdersBy Message.createdAt (sorts i)) →
      (db.channelMessages channelId).length < fuel →
      ∃ history, fetchHistory sorts db channelId limit fuel 0 none = some (.ok history) ∧
        history.Perm ((db.channelMessages channelId).map listedPayload) := by
  intro h
  obtain ⟨history, hfetch, hperm⟩ := h (withMessages [(9, 0), (10, 0)]) 20 (some 1) scanOrder 3
    (withMessages_messagesById _) (by decide) (fun _ => ordersBy_insertionSort _) (by decide)
  have hone : fetchHistory scanOrder (withMessages [(9, 0), (10, 0)]) 20 (some 1) 3 0 none =
      some (.ok [listedPayload ⟨9, 20, 1, "hi", none, 0⟩]) := rfl
  obtain rfl := Except.ok.inj (Option.some.inj (hone.symm.trans hfetch))
  cases hperm.length_eq

end RustRelay
