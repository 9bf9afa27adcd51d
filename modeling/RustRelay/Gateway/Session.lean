import RustRelay.Core.DashMap
import RustRelay.Models

/-!
# The session store

`SessionStore` is a `DashMap` from users to the `Vec` of their sessions, next to an atomic
counter. `insert` and `remove` take several atomic operations each: they are given as those
operations (`Call`, `SessionStore.op`) and, composed, as the functions of the source, and
`insert_eq_ops` and `remove_eq_ops` say that the two agree.

Each session has its own unbounded channel. `Pipes` holds the queues and says which receivers
have been dropped; `sendToUser_queue` describes what `send_to_user` adds to them.
-/

namespace RustRelay

/-- A registered session. Its sender and its heartbeat cell are found by its id. -/
structure Session where
  sessionId : SessionId
  userId : UserId
  deriving DecidableEq, Repr

structure SessionStore where
  sessions : DashMap UserId (List Session)
  totalConnections : UInt64

namespace SessionStore

/-- `SessionStore::new`. -/
def new : SessionStore := ⟨∅, 0⟩

/-- The `Vec` of a user, empty if there is no key. -/
def vec (st : SessionStore) (userId : UserId) : List Session := (st.sessions.lookup userId).getD []

/-- `insert`, without interference. -/
def insert (st : SessionStore) (session : Session) : SessionStore where
  sessions := st.sessions.insert session.userId (st.vec session.userId ++ [session])
  totalConnections := st.totalConnections + 1

/-- `remove`, without interference. -/
def remove (st : SessionStore) (userId : UserId) (sessionId : SessionId) : Bool × SessionStore :=
  match st.sessions.lookup userId with
  | none => (false, st)
  | some sessions =>
    let kept := sessions.filter fun s => s.sessionId ≠ sessionId
    let removed : Bool := kept.length < sessions.length
    (removed,
      { sessions := if kept.isEmpty then st.sessions.erase userId
          else st.sessions.insert userId kept
        totalConnections := if removed then st.totalConnections - 1 else st.totalConnections })

/-- `is_connected`. -/
def isConnected (st : SessionStore) (userId : UserId) : Bool := !(st.vec userId).isEmpty

/-- `session_count`. -/
def sessionCount (st : SessionStore) (userId : UserId) : ℕ := (st.vec userId).length

/-- `connected_user_ids`: the keys of the map. -/
def connectedUserIds (st : SessionStore) : List UserId := st.sessions.keys

/-- The number of sessions in the map. -/
def size (st : SessionStore) : ℕ := DashMap.sum List.length st.sessions

end SessionStore

/-! ## The operations of `insert` and `remove` -/

/-- A call that is about to take its next atomic operation. -/
inductive Call
  /-- `sessions.entry(uid).or_default().push(session)`. -/
  | insert (session : Session)
  /-- `total_connections.fetch_add(1)`. -/
  | insertCount
  /-- `sessions.get_mut(&user_id)` and the `retain` under its guard. -/
  | remove (userId : UserId) (sessionId : SessionId)
  /-- The guard is released; `sessions.remove(&user_id)` is next. -/
  | removeKey (userId : UserId) (sessionId : SessionId) (removed : Bool)
  /-- `total_connections.fetch_sub(1)`; the call then returns `true`. -/
  | removeCount (userId : UserId) (sessionId : SessionId)
  deriving DecidableEq, Repr

namespace SessionStore

/-- One atomic operation: the store after it, and the operation of the call that comes next. -/
def op (st : SessionStore) : Call → SessionStore × Option Call
  | .insert session =>
    ({ st with sessions :=
        st.sessions.insert session.userId (st.vec session.userId ++ [session]) },
      some .insertCount)
  | .insertCount => ({ st with totalConnections := st.totalConnections + 1 }, none)
  | .remove userId sessionId =>
    match st.sessions.lookup userId with
    | none => (st, none)
    | some sessions =>
      let kept := sessions.filter fun s => s.sessionId ≠ sessionId
      let removed : Bool := kept.length < sessions.length
      ({ st with sessions := st.sessions.insert userId kept },
        if kept.isEmpty then some (.removeKey userId sessionId removed)
        else if removed then some (.removeCount userId sessionId)
        else none)
  | .removeKey userId sessionId removed =>
    ({ st with sessions := st.sessions.erase userId },
      if removed then some (.removeCount userId sessionId) else none)
  | .removeCount _ _ => ({ st with totalConnections := st.totalConnections - 1 }, none)

/-- All operations of a call in a row; no call takes more than three. -/
def ops (st : SessionStore) (c : Call) : ℕ → SessionStore
  | 0 => st
  | n + 1 => match st.op c with
    | (st, none) => st
    | (st, some c) => st.ops c n

theorem insert_eq_ops (st : SessionStore) (session : Session) :
    st.ops (.insert session) 3 = st.insert session := rfl

theorem remove_eq_ops (st : SessionStore) (userId : UserId) (sessionId : SessionId) :
    st.ops (.remove userId sessionId) 3 = (st.remove userId sessionId).2 := by
  cases hvec : st.sessions.lookup userId with
  | none => simp only [ops, op, remove, hvec]
  | some sessions =>
    simp only [ops, op, remove, hvec]
    generalize (sessions.filter fun s => s.sessionId ≠ sessionId) = kept
    generalize decide (kept.length < sessions.length) = removed
    cases kept.isEmpty <;> cases removed <;> simp [DashMap.erase_insert]

/-! ### What the operations do to the `Vec`s -/

theorem vec_of_lookup {st : SessionStore} {u : UserId} {xs : List Session}
    (h : st.sessions.lookup u = some xs) : st.vec u = xs := by
  rw [vec, h, Option.getD_some]

theorem lookup_of_mem_vec {st : SessionStore} {u : UserId} {x : Session} (hx : x ∈ st.vec u) :
    st.sessions.lookup u = some (st.vec u) := by
  cases hlook : st.sessions.lookup u with
  | none =>
    rw [vec, hlook] at hx
    exact absurd hx List.not_mem_nil
  | some xs => rw [vec_of_lookup hlook]

theorem mem_entries_flatMap {st : SessionStore} (P : SessionId → Prop) [DecidablePred P]
    {u : UserId} {sid : SessionId} :
    (u, sid) ∈ (st.sessions.entries.flatMap fun entry =>
      (entry.2.filter fun s => P s.sessionId).map fun s => (entry.1, s.sessionId)) ↔
      ∃ x ∈ st.vec u, x.sessionId = sid ∧ P sid := by
  simp only [List.mem_flatMap, List.mem_map, List.mem_filter, decide_eq_true_eq, Prod.mk.injEq]
  constructor
  · intro hfound
    obtain ⟨⟨u, xs⟩, he, x, ⟨hx, hP⟩, rfl, rfl⟩ := hfound
    have hlook : st.sessions.lookup u = some xs :=
      (List.mem_dlookup_iff st.sessions.nodupKeys).2 he
    exact ⟨x, vec_of_lookup hlook ▸ hx, rfl, hP⟩
  · intro hsession
    obtain ⟨x, hx, rfl, hP⟩ := hsession
    exact ⟨⟨u, st.vec u⟩, List.of_mem_dlookup (lookup_of_mem_vec hx), x, ⟨hx, hP⟩, rfl, rfl⟩

theorem vec_insert (st : SessionStore) (session : Session) (u : UserId) :
    (st.op (.insert session)).1.vec u =
      if u = session.userId then st.vec u ++ [session] else st.vec u := by
  rw [vec, op, DashMap.lookup_insert_ite]
  split_ifs with h
  · rw [h]; rfl
  · rfl

theorem vec_remove (st : SessionStore) (userId : UserId) (sessionId : SessionId) (u : UserId) :
    (st.op (.remove userId sessionId)).1.vec u =
      if u = userId then (st.vec u).filter (fun s => s.sessionId ≠ sessionId) else st.vec u := by
  cases hvec : st.sessions.lookup userId with
  | none =>
    simp only [op, hvec]
    split_ifs with h
    · rw [h, vec, hvec]; rfl
    · rfl
  | some sessions =>
    simp only [vec, op, hvec, DashMap.lookup_insert_ite]
    split_ifs with h
    · rw [h, hvec]; rfl
    · rfl

theorem vec_removeKey (st : SessionStore) (userId : UserId) (sessionId : SessionId) (b : Bool)
    (u : UserId) :
    (st.op (.removeKey userId sessionId b)).1.vec u = if u = userId then [] else st.vec u := by
  rw [vec, op, DashMap.lookup_erase_ite]
  split_ifs <;> rfl

theorem remove_vec (st : SessionStore) (userId : UserId) (sessionId : SessionId) (u : UserId) :
    (st.remove userId sessionId).2.vec u =
      if u = userId then (st.vec u).filter (fun s => s.sessionId ≠ sessionId) else st.vec u := by
  cases hvec : st.sessions.lookup userId with
  | none =>
    simp only [remove, hvec]
    split_ifs with h
    · rw [h, vec, hvec]; rfl
    · rfl
  | some sessions =>
    simp only [remove, hvec, vec]
    split_ifs with hkept hu hu
    · rw [hu, hvec, AList.lookup_erase, Option.getD_some, List.isEmpty_iff.1 hkept]
      rfl
    · rw [AList.lookup_erase_ne hu]
    · rw [hu, hvec, AList.lookup_insert]
      rfl
    · rw [AList.lookup_insert_ne hu]

variable {st : SessionStore} {c : Call}

/-- Sessions leave the `Vec`s, unless one is pushed. -/
theorem mem_vec_op (hc : ∀ x, c ≠ .insert x) {u : UserId} {x : Session}
    (hx : x ∈ (st.op c).1.vec u) : x ∈ st.vec u := by
  cases c with
  | insert y => exact absurd rfl (hc y)
  | remove u' sid =>
    rw [vec_remove] at hx
    split_ifs at hx
    · exact List.mem_of_mem_filter hx
    · exact hx
  | removeKey u' sid removed =>
    rw [vec_removeKey] at hx
    split_ifs at hx
    · exact absurd hx List.not_mem_nil
    · exact hx
  | insertCount | removeCount => exact hx

theorem mem_vec_insert {x y : Session} {u : UserId} :
    x ∈ (st.op (.insert y)).1.vec u ↔ x ∈ st.vec u ∨ (x = y ∧ u = y.userId) := by
  rw [vec_insert]
  split_ifs with hu
  · rw [List.mem_append, List.mem_singleton]
    exact or_congr Iff.rfl (and_iff_left hu).symm
  · exact (or_iff_left fun h => hu h.2).symm

theorem op_owner (howner : ∀ u, ∀ x ∈ st.vec u, x.userId = u) (c : Call) :
    ∀ u, ∀ x ∈ (st.op c).1.vec u, x.userId = u := by
  intro u x hx
  by_cases hc : ∀ y, c ≠ .insert y
  · exact howner u x (mem_vec_op hc hx)
  · push Not at hc
    obtain ⟨y, rfl⟩ := hc
    rcases mem_vec_insert.1 hx with hx | ⟨rfl, hu⟩
    · exact howner u x hx
    · exact hu.symm

theorem op_next_ne_insert {c' : Call} (h : (st.op c).2 = some c') (x : Session) :
    c' ≠ .insert x := by
  rintro rfl
  cases c with
  | insert y => exact absurd h nofun
  | insertCount | removeCount => exact absurd h nofun
  | remove u sid =>
    simp only [op] at h
    split at h
    · exact absurd h nofun
    · dsimp only at h
      split_ifs at h <;> exact absurd h nofun
  | removeKey u sid removed =>
    simp only [op] at h
    split_ifs at h
    exact absurd h nofun

end SessionStore

/-! ## Sending events -/

/-- The channels of the sessions: what was sent into each, and whether its receiver is gone. -/
structure Pipes where
  queue : SessionId → List ServerEvent
  closed : SessionId → Bool

/-- `Session::send`: false, and nothing sent, if the receiver was dropped. -/
def Pipes.send (p : Pipes) (sessionId : SessionId) (event : ServerEvent) : Bool × Pipes :=
  if p.closed sessionId then (false, p)
  else (true, { p with
    queue := Function.update p.queue sessionId (p.queue sessionId ++ [event]) })

/-- The loop of `send_to_user` over a `Vec`, with the number of events sent. -/
def sendAll (event : ServerEvent) : List Session → Pipes → ℕ × Pipes
  | [], p => (0, p)
  | s :: sessions, p =>
    let (ok, p) := p.send s.sessionId event
    let (sent, p) := sendAll event sessions p
    (if ok then sent + 1 else sent, p)

/-- `send_to_user`. -/
def SessionStore.sendToUser (st : SessionStore) (p : Pipes) (userId : UserId)
    (event : ServerEvent) : ℕ × Pipes :=
  match st.sessions.lookup userId with
  | none => (0, p)
  | some sessions => sendAll event sessions p

/-- `send_to_users`. -/
def SessionStore.sendToUsers (st : SessionStore) (p : Pipes) (userIds : List UserId)
    (event : ServerEvent) : ℕ × Pipes :=
  match userIds with
  | [] => (0, p)
  | uid :: uids =>
    let (sent, p) := st.sendToUser p uid event
    let (rest, p) := st.sendToUsers p uids event
    (sent + rest, p)

/-- How many copies of an event a session gets when it is sent to a `Vec`. -/
def Pipes.copies (p : Pipes) (sessions : List Session) (sessionId : SessionId) : ℕ :=
  if p.closed sessionId then 0 else (sessions.map Session.sessionId).count sessionId

theorem sendAll_closed (event : ServerEvent) (sessions : List Session) (p : Pipes) :
    (sendAll event sessions p).2.closed = p.closed := by
  induction sessions generalizing p with
  | nil => rfl
  | cons s sessions ih =>
    simp only [sendAll]
    rw [ih, Pipes.send]
    split_ifs <;> rfl

theorem sendAll_queue (event : ServerEvent) (sessions : List Session) (p : Pipes)
    (sid : SessionId) :
    (sendAll event sessions p).2.queue sid =
      p.queue sid ++ List.replicate (p.copies sessions sid) event := by
  induction sessions generalizing p with
  | nil => simp [sendAll, Pipes.copies]
  | cons s sessions ih =>
    simp only [sendAll]
    rw [ih]
    by_cases hclosed : p.closed s.sessionId = true
    · have hsend : (p.send s.sessionId event).2 = p := by rw [Pipes.send, if_pos hclosed]
      rw [hsend]
      by_cases hs : s.sessionId = sid
      · subst hs
        simp [Pipes.copies, hclosed]
      · simp [Pipes.copies, hs]
    · have hsend : (p.send s.sessionId event).2 = { p with
          queue := Function.update p.queue s.sessionId (p.queue s.sessionId ++ [event]) } := by
        rw [Pipes.send, if_neg hclosed]
      rw [hsend]
      by_cases hs : s.sessionId = sid
      · subst hs
        simp [Pipes.copies, hclosed, List.replicate_succ]
      · simp [Pipes.copies, hs, Function.update_of_ne (Ne.symm hs)]

/-- **`send_to_user` gives every session of the user one copy**, if its receiver is there. -/
theorem SessionStore.sendToUser_queue (st : SessionStore) (p : Pipes) (userId : UserId)
    (event : ServerEvent) (sid : SessionId) :
    (st.sendToUser p userId event).2.queue sid =
      p.queue sid ++ List.replicate (p.copies (st.vec userId) sid) event := by
  unfold SessionStore.sendToUser SessionStore.vec
  cases st.sessions.lookup userId with
  | none => simp [Pipes.copies]
  | some sessions => exact sendAll_queue event sessions p sid

theorem SessionStore.sendToUser_closed (st : SessionStore) (p : Pipes) (userId : UserId)
    (event : ServerEvent) : (st.sendToUser p userId event).2.closed = p.closed := by
  unfold SessionStore.sendToUser
  cases st.sessions.lookup userId with
  | none => rfl
  | some sessions => exact sendAll_closed event sessions p

/-- **`send_to_users` gives a session one copy for each time its user is in the list.** -/
theorem SessionStore.sendToUsers_queue (st : SessionStore) (p : Pipes) (userIds : List UserId)
    (event : ServerEvent) (sid : SessionId) :
    (st.sendToUsers p userIds event).2.queue sid =
      p.queue sid ++
        List.replicate (userIds.map fun u => p.copies (st.vec u) sid).sum event := by
  induction userIds generalizing p with
  | nil => simp [SessionStore.sendToUsers]
  | cons uid uids ih =>
    have hcopies (u : UserId) : (st.sendToUser p uid event).2.copies (st.vec u) sid =
        p.copies (st.vec u) sid := by
      rw [Pipes.copies, sendToUser_closed, Pipes.copies]
    simp only [SessionStore.sendToUsers, List.map_cons, List.sum_cons]
    rw [ih, sendToUser_queue, List.append_assoc, List.replicate_append_replicate]
    simp only [hcopies]

theorem SessionStore.sendToUser_of_not_connected {st : SessionStore} {userId : UserId}
    (h : st.isConnected userId = false) (p : Pipes) (event : ServerEvent) :
    (st.sendToUser p userId event).2 = p := by
  have hnil : st.vec userId = [] := by simpa [SessionStore.isConnected] using h
  unfold SessionStore.sendToUser
  cases hlook : st.sessions.lookup userId with
  | none => rfl
  | some sessions =>
    rw [SessionStore.vec_of_lookup hlook] at hnil
    rw [hnil]
    rfl

/-- Session ids are unique, and every session is filed under its user. -/
structure SessionStore.Distinct (st : SessionStore) : Prop where
  owner : ∀ u, ∀ x ∈ st.vec u, x.userId = u
  ids : ∀ u v, ∀ x ∈ st.vec u, ∀ y ∈ st.vec v, x.sessionId = y.sessionId → x = y

theorem SessionStore.distinct_single (x : Session) : (SessionStore.new.insert x).Distinct := by
  have hvec (u : UserId) (y : Session) (hy : y ∈ (SessionStore.new.insert x).vec u) :
      y = x ∧ u = x.userId := (mem_vec_insert.1 hy).resolve_left List.not_mem_nil
  refine ⟨?_, ?_⟩
  · intro u y hy
    obtain ⟨rfl, rfl⟩ := hvec u y hy
    rfl
  · intro u v y hy z hz _
    rw [(hvec u y hy).1, (hvec v z hz).1]

theorem Pipes.copies_pos_iff {p : Pipes} {sessions : List Session} {sid : SessionId} :
    0 < p.copies sessions sid ↔
      p.closed sid = false ∧ ∃ x ∈ sessions, x.sessionId = sid := by
  unfold Pipes.copies
  cases p.closed sid with
  | true => simp
  | false => simp [List.count_pos_iff]

/-- A session gets a copy exactly when its receiver is there and its user is in the list. -/
theorem SessionStore.Distinct.sum_copies_pos_iff {st : SessionStore} (hst : st.Distinct)
    {p : Pipes} {u : UserId} {x : Session} (hx : x ∈ st.vec u) (userIds : List UserId) :
    0 < (userIds.map fun v => p.copies (st.vec v) x.sessionId).sum ↔
      p.closed x.sessionId = false ∧ u ∈ userIds := by
  rw [Nat.pos_iff_ne_zero, Ne, List.sum_eq_zero_iff]
  push Not
  constructor
  · intro hex
    rcases hex with ⟨n, hn, hne⟩
    obtain ⟨v, hv, rfl⟩ := List.mem_map.1 hn
    obtain ⟨hopen, y, hy, hsid⟩ := Pipes.copies_pos_iff.1 (Nat.pos_of_ne_zero hne)
    obtain rfl := hst.ids u v x hx y hy hsid.symm
    obtain rfl := (hst.owner u x hx).symm.trans (hst.owner v x hy)
    exact ⟨hopen, hv⟩
  · intro hboth
    rcases hboth with ⟨hopen, hu⟩
    have hpos := Pipes.copies_pos_iff.2 ⟨hopen, x, hx, rfl⟩
    exact ⟨_, List.mem_map.2 ⟨u, hu, rfl⟩, Nat.pos_iff_ne_zero.1 hpos⟩

end RustRelay
