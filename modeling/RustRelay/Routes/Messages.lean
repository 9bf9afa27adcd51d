import RustRelay.Db

/-!
# The life of a message

`insert_message`, `update_message` and `delete_message`, in any order and by anyone. The last two
name the user who asks, and match no row of another author. The database may refuse any of them,
say for a content that its encoding has no place for; a refused statement changes nothing.

**Theorem (`message_history`).** After any statements a message is in the table *if and only if* it
was there or was stored by one of them, its author has not deleted it since, and it is what its
author's later updates have made of it, refused statements left aside; channel, author and time of
creation are those it was stored with.
-/

namespace RustRelay

/-! ## Statements -/

section
variable (answer : Except DbError Unit) (db : Database)

/-- `update_message`: the row that it returns, if there is one. -/
def updateMessage (now : Timestamp) (messageId : MessageId) (authorId : UserId)
    (content : String) : Except DbError (Option Message × Database) :=
  answer.map fun _ => match db.messages.lookup messageId with
    | none => (none, db)
    | some row =>
      if row.authorId = authorId then
        let message := { row with content, editedAt := some now }
        (some message, { db with messages := db.messages.insert messageId message })
      else (none, db)

/-- `delete_message`: whether there was a row to delete. -/
def deleteMessage (messageId : MessageId) (authorId : UserId) : Except DbError (Bool × Database) :=
  answer.map fun _ => match db.messages.lookup messageId with
    | none => (false, db)
    | some row =>
      if row.authorId = authorId then (true, { db with messages := db.messages.erase messageId })
      else (false, db)

end

/-- A statement on `messages`, with what the database chooses: its answer, where the tables leave it
one, and the columns that it fills in. -/
inductive MessageStatement
  | insert (answer : Except DbError Unit) (id : MessageId) (now : Timestamp)
      (channelId : ChannelId) (authorId : UserId) (content : String)
  | update (answer : Except DbError Unit) (now : Timestamp) (messageId : MessageId)
      (authorId : UserId) (content : String)
  | delete (answer : Except DbError Unit) (messageId : MessageId) (authorId : UserId)

namespace MessageStatement

/-- A statement that fails changes nothing. -/
def execute (db : Database) : MessageStatement → Database
  | .insert answer id now channelId authorId content =>
    match answer.bind fun _ => insertMessage db id now channelId authorId content with
    | .error _ => db
    | .ok (_, db) => db
  | .update answer now messageId authorId content =>
    match updateMessage answer db now messageId authorId content with
    | .error _ => db
    | .ok (_, db) => db
  | .delete answer messageId authorId =>
    match deleteMessage answer db messageId authorId with
    | .error _ => db
    | .ok (_, db) => db

def executeAll (db : Database) (statements : List MessageStatement) : Database :=
  statements.foldl execute db

/-! ## What they do to one message -/

/-- The message is stored by this statement. -/
def Stores (db : Database) (id : MessageId) (message : Message) : MessageStatement → Prop
  | .insert answer id' now channelId authorId content =>
    id' = id ∧ ∃ db', (answer.bind fun _ => insertMessage db id' now channelId authorId content) =
      .ok (message, db')
  | _ => False

/-- The statement is an update by the author, and executed. -/
def Edits (id : MessageId) (authorId : UserId) (statement : MessageStatement) : Prop :=
  ∃ now content, statement = .update (.ok ()) now id authorId content

/-- What a statement makes of the message, if it does not delete it. -/
def edit (id : MessageId) (message : Message) : MessageStatement → Message
  | .update (.ok ()) now messageId authorId content =>
    if messageId = id ∧ authorId = message.authorId then
      { message with content, editedAt := some now }
    else message
  | _ => message

def editAll (id : MessageId) (message : Message) (statements : List MessageStatement) : Message :=
  statements.foldl (edit id) message

variable {db : Database} {id : MessageId} {m message : Message} {statement : MessageStatement}
  {statements : List MessageStatement}

theorem edit_eq (id : MessageId) (message : Message) (statement : MessageStatement) :
    ∃ content editedAt, edit id message statement = { message with content, editedAt } := by
  unfold edit
  split
  · next now messageId authorId content =>
    split_ifs
    · exact ⟨content, some now, rfl⟩
    · exact ⟨message.content, message.editedAt, rfl⟩
  · exact ⟨message.content, message.editedAt, rfl⟩

theorem edit_of_not_edits (h : ¬ Edits id message.authorId statement) :
    edit id message statement = message := by
  unfold edit
  split
  · next now messageId authorId content =>
    refine if_neg ?_
    rintro ⟨rfl, rfl⟩
    exact h ⟨now, content, rfl⟩
  · rfl

theorem editAll_of_not_edits (h : ∀ st ∈ statements, ¬ Edits id message.authorId st) :
    editAll id message statements = message := by
  induction statements with
  | nil => rfl
  | cons st statements ih =>
    obtain ⟨hst, hrest⟩ := List.forall_mem_cons.1 h
    rw [editAll, List.foldl_cons, edit_of_not_edits hst]
    exact ih hrest

theorem editAll_eq (id : MessageId) (message : Message)
    (statements : List MessageStatement) :
    ∃ content editedAt, editAll id message statements = { message with content, editedAt } := by
  induction statements generalizing message with
  | nil => exact ⟨message.content, message.editedAt, rfl⟩
  | cons statement statements ih =>
    obtain ⟨content, editedAt, hedit⟩ := edit_eq id message statement
    obtain ⟨content', editedAt', hedits⟩ := ih (edit id message statement)
    refine ⟨content', editedAt', ?_⟩
    rw [editAll, List.foldl_cons]
    exact hedits.trans (by rw [hedit])

theorem editAll_last {now : Timestamp} {content : String} {post : List MessageStatement}
    (h : ∀ st ∈ post, ¬ Edits id message.authorId st) (pre : List MessageStatement) :
    editAll id message (pre ++ .update (.ok ()) now id message.authorId content :: post) =
      { message with content, editedAt := some now } := by
  obtain ⟨c, e, hpre⟩ := editAll_eq id message pre
  rw [editAll, List.foldl_append, List.foldl_cons]
  have hfold : pre.foldl (edit id) message = { message with content := c, editedAt := e } := hpre
  have hlast : edit id { message with content := c, editedAt := e }
      (.update (.ok ()) now id message.authorId content) =
      { message with content, editedAt := some now } := if_pos ⟨rfl, rfl⟩
  rw [hfold, hlast]
  exact editAll_of_not_edits h

theorem lookup_insert {answer : Except DbError Unit} {id' : MessageId} {now : Timestamp}
    {channelId : ChannelId} {authorId : UserId} {content : String} :
    (execute db (.insert answer id' now channelId authorId content)).messages.lookup id = some m ↔
      db.messages.lookup id = some m ∨
        Stores db id m (.insert answer id' now channelId authorId content) := by
  simp only [execute, Stores]
  cases answer with
  | error e => simp [Except.bind]
  | ok _ =>
    simp only [Except.bind]
    cases hinsert : insertMessage db id' now channelId authorId content with
    | error e => simp
    | ok stored =>
      obtain ⟨row, db'⟩ := stored
      obtain ⟨hrow, hnew, rfl⟩ := insertMessage_ok hinsert
      obtain rfl : row.id = id' := by rw [hrow]
      by_cases hid : row.id = id
      · subst hid
        simp [hnew, eq_comm]
      · simp [hid, AList.lookup_insert_ne (Ne.symm hid)]

theorem edit_refused {e : DbError} {now : Timestamp} {messageId : MessageId} {authorId : UserId}
    {content : String} : edit id message (.update (.error e) now messageId authorId content) =
      message := rfl

theorem lookup_update {answer : Except DbError Unit} {now : Timestamp} {messageId : MessageId}
    {authorId : UserId} {content : String} :
    (execute db (.update answer now messageId authorId content)).messages.lookup id = some m ↔
      ∃ message, db.messages.lookup id = some message ∧
        m = edit id message (.update answer now messageId authorId content) := by
  cases answer with
  | error e =>
    simp only [execute, updateMessage, Except.map, edit_refused]
    exact ⟨fun h => ⟨m, h, rfl⟩, fun h => h.elim fun message h => h.2 ▸ h.1⟩
  | ok _ =>
    simp only [execute, updateMessage, Except.map, edit]
    cases hrow : db.messages.lookup messageId with
    | none =>
      have hne (message : Message) (h : db.messages.lookup id = some message) :
          messageId ≠ id := by
        rintro rfl
        rw [hrow] at h
        cases h
      constructor
      · intro h
        exact ⟨m, h, by rw [if_neg fun hboth => hne m h hboth.1]⟩
      · rintro ⟨message, h, rfl⟩
        rw [if_neg fun hboth => hne message h hboth.1]
        exact h
    | some row =>
      by_cases hid : messageId = id
      · subst hid
        by_cases hauthor : row.authorId = authorId
        · simp [hrow, hauthor, eq_comm]
        · simp [hrow, hauthor, Ne.symm hauthor, eq_comm]
      · by_cases hauthor : row.authorId = authorId
        · simp [hid, hauthor, AList.lookup_insert_ne (Ne.symm hid)]
        · simp [hid, hauthor]

theorem lookup_delete {answer : Except DbError Unit} {messageId : MessageId} {authorId : UserId} :
    (execute db (.delete answer messageId authorId)).messages.lookup id = some m ↔
      db.messages.lookup id = some m ∧
        MessageStatement.delete answer messageId authorId ≠ .delete (.ok ()) id m.authorId := by
  cases answer with
  | error e => simp [execute, deleteMessage, Except.map]
  | ok _ =>
    simp only [execute, deleteMessage, Except.map, ne_eq, delete.injEq, true_and, not_and]
    cases hrow : db.messages.lookup messageId with
    | none =>
      constructor
      · intro h
        refine ⟨h, ?_⟩
        rintro rfl
        rw [hrow] at h
        cases h
      · exact And.left
    | some row =>
      by_cases hid : messageId = id
      · subst hid
        by_cases hauthor : row.authorId = authorId
        · simp only [if_pos hauthor, AList.lookup_erase, hrow]
          constructor
          · intro h
            cases h
          · rintro ⟨hm, hne⟩
            rw [← Option.some.inj hm] at hne
            exact absurd hauthor.symm (hne trivial)
        · simp only [if_neg hauthor, hrow, true_imp_iff]
          constructor
          · intro h
            refine ⟨h, ?_⟩
            rw [← Option.some.inj h]
            exact Ne.symm hauthor
          · exact And.left
      · by_cases hauthor : row.authorId = authorId
        · simp [hid, hauthor, AList.lookup_erase_ne (Ne.symm hid)]
        · simp [hid, hauthor]

/-- **One statement.** -/
theorem lookup_execute : (execute db statement).messages.lookup id = some m ↔
    (∃ message, db.messages.lookup id = some message ∧
      statement ≠ .delete (.ok ()) id message.authorId ∧ m = edit id message statement) ∨
    Stores db id m statement := by
  cases statement with
  | insert answer id' now channelId authorId content =>
    rw [lookup_insert]
    simp [edit]
  | update answer now messageId authorId content =>
    rw [lookup_update]
    simp [Stores]
  | delete answer messageId authorId =>
    rw [lookup_delete]
    constructor
    · rintro ⟨h, hne⟩
      exact .inl ⟨m, h, hne, rfl⟩
    · rintro (⟨message, h, hne, rfl⟩ | hstores)
      · exact ⟨h, hne⟩
      · cases hstores

/-! ## The whole history -/

theorem lookup_executeAll (db : Database) (statements : List MessageStatement) (id : MessageId)
    (m : Message) : (executeAll db statements).messages.lookup id = some m ↔
      (∃ message, db.messages.lookup id = some message ∧
        .delete (.ok ()) id message.authorId ∉ statements ∧ m = editAll id message statements) ∨
      ∃ pre statement post message, statements = pre ++ statement :: post ∧
        Stores (executeAll db pre) id message statement ∧
        .delete (.ok ()) id message.authorId ∉ post ∧ m = editAll id message post := by
  induction statements generalizing db with
  | nil =>
    constructor
    · intro h
      exact .inl ⟨m, h, List.not_mem_nil, rfl⟩
    · rintro (⟨message, h, -, rfl⟩ | ⟨pre, statement, post, message, hsplit, -⟩)
      · exact h
      · cases pre <;> cases hsplit
  | cons statement statements ih =>
    have hauthor (message : Message) :
        (edit id message statement).authorId = message.authorId := by
      obtain ⟨content, editedAt, hedit⟩ := edit_eq id message statement
      rw [hedit]
    rw [executeAll, List.foldl_cons]
    refine (ih (execute db statement)).trans ?_
    constructor
    · rintro (⟨message, hlookup, hkept, rfl⟩ | ⟨pre, st, post, message, rfl, hrest⟩)
      · rcases lookup_execute.1 hlookup with ⟨message', h, hne, rfl⟩ | hstores
        · rw [hauthor] at hkept
          refine .inl ⟨message', h, ?_, rfl⟩
          rw [List.mem_cons, not_or]
          exact ⟨Ne.symm hne, hkept⟩
        · exact .inr ⟨[], statement, statements, message, rfl, hstores, hkept, rfl⟩
      · exact .inr ⟨statement :: pre, st, post, message, rfl, hrest⟩
    · rintro (⟨message, h, hkept, rfl⟩ | ⟨pre, st, post, message, hsplit, hstores, hrest⟩)
      · rw [List.mem_cons, not_or] at hkept
        refine .inl ⟨edit id message statement, ?_, ?_, rfl⟩
        · exact lookup_execute.2 (.inl ⟨message, h, Ne.symm hkept.1, rfl⟩)
        · rw [hauthor]
          exact hkept.2
      · cases pre with
        | nil =>
          obtain ⟨rfl, rfl⟩ := List.cons.inj hsplit
          exact .inl ⟨message, lookup_execute.2 (.inr hstores), hrest⟩
        | cons st' pre =>
          obtain ⟨rfl, rfl⟩ := List.cons.inj hsplit
          exact .inr ⟨pre, st, post, message, rfl, hstores, hrest⟩

/-- **The history of a message**: what is in the table, and what updates make of it. -/
theorem message_history (db : Database) (statements : List MessageStatement) (id : MessageId)
    (m : Message) :
    ((executeAll db statements).messages.lookup id = some m ↔
      (∃ message, db.messages.lookup id = some message ∧
        .delete (.ok ()) id message.authorId ∉ statements ∧ m = editAll id message statements) ∨
      ∃ pre statement post message, statements = pre ++ statement :: post ∧
        Stores (executeAll db pre) id message statement ∧
        .delete (.ok ()) id message.authorId ∉ post ∧ m = editAll id message post) ∧
    ((∀ st ∈ statements, ¬ Edits id m.authorId st) → editAll id m statements = m) ∧
    ∀ pre now content post, statements = pre ++ .update (.ok ()) now id m.authorId content :: post →
      (∀ st ∈ post, ¬ Edits id m.authorId st) →
      editAll id m statements = { m with content, editedAt := some now } := by
  refine ⟨lookup_executeAll db statements id m, editAll_of_not_edits, ?_⟩
  rintro pre now content post rfl hpost
  exact editAll_last hpost pre

end MessageStatement

end RustRelay
