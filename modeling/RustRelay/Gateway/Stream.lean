import RustRelay.Gateway.Registry
import RustRelay.Router.RedisBridge

/-!
# What a client receives

`handle_connection` registers a session, sends READY, and hands the receiver of the session's
channel to a writer task, which writes what it receives as text frames. Meanwhile other tasks look
the session up and send to it, the heartbeat monitor may remove it, and when the reader loop ends
the writer is told to abort, whatever it is doing.

**Theorem (`client_stream`).** In every run, what was written to the socket is nothing, or READY and
then a prefix of what was sent into the channel, in that order; and a returned call of
`send_to_user` or `send_to_users` has sent one copy of its event for each time it found the session,
if the receiver was there.

The calls on the store are taken one atomic operation at a time, as in the registry, and a call of
`send_to_users` one session at a time. Under the guard of a user's entry the sends of other tasks go
on; only writes of the entry wait. `exec_sendToUsers` shows that the steps of a call, undisturbed,
are `send_to_users`.
-/

namespace RustRelay

open Machine

/-! ## One connection -/

/-- Where `handle_connection` is, from the registration of the session on. -/
inductive HandlerPc
  /-- `sessions.insert` runs, as a call of the registry. -/
  | insert (t : ℕ)
  /-- `on_session_open` is next. -/
  | presence
  /-- READY is next. -/
  | ready
  /-- The reader loop. -/
  | read
  /-- The loop has ended and the writer was told to abort, or READY has failed. -/
  | cleanup
  /-- `sessions.remove` runs, as a call of the registry. -/
  | remove (t : ℕ)
  /-- `handle_connection` has returned. -/
  | returned
  deriving DecidableEq, Repr

/-- The task that owns the receiver, once it is spawned. -/
inductive Writer
  /-- `handle_connection` still has the receiver. -/
  | unspawned
  /-- `event_rx.recv()`. -/
  | recv
  /-- `ws_sink.send` with this frame. -/
  | send (text : String)
  /-- The receiver was dropped. -/
  | ended
  deriving DecidableEq, Repr

/-- How a send on the socket ends. One that fails may have written its frame. -/
inductive SocketSend
  | ok
  | failed (written : Bool)
  deriving DecidableEq, Repr

/-- The frames that a send has written. -/
def SocketSend.frames (text : String) : SocketSend → List String
  | .ok | .failed true => [text]
  | .failed false => []

structure Handler where
  session : Session
  username : String
  pc : HandlerPc
  writer : Writer
  /-- How many events the writer has received. -/
  taken : ℕ
  /-- The text frames written to the socket. -/
  written : List String
  deriving DecidableEq, Repr

/-- What the queries of `build_ready_payload` answer. -/
structure ReadyAnswers where
  guilds : Except DbError (List GuildInfo)
  readStates : Except DbError (List ReadState)
  heartbeatIntervalMs : UInt64
  deriving DecidableEq, Repr

/-- `build_ready_payload`; a query that fails counts as one that finds nothing. -/
def buildReadyPayload (w : ReadyAnswers) (userId : UserId) (username : String)
    (sessionId : SessionId) : ServerEvent :=
  .ready sessionId ⟨userId, username⟩ (w.guilds.toOption.getD []) (w.readStates.toOption.getD [])
    w.heartbeatIntervalMs

namespace Handler

inductive Action
  /-- `sessions.insert` has returned. -/
  | inserted
  /-- `on_session_open` has returned. -/
  | presence
  /-- READY is built and sent; the writer is spawned if that succeeds. -/
  | ready (w : ReadyAnswers) (outcome : SocketSend)
  /-- The writer receives an event, or learns that there will be none. -/
  | recv
  /-- `ws_sink.send` returns. -/
  | send (outcome : SocketSend)
  /-- The reader loop ends: `sink_handle.abort()`. -/
  | close
  /-- The abort takes effect, and a frame that is being sent may have been written. -/
  | abort (written : Bool)
  /-- `sessions.remove` has returned. -/
  | removed
  deriving DecidableEq, Repr

/-- One step of `handle_connection` or of its writer. -/
def step (serde : Serde ServerEvent) (store : SessionStore) (calls : DashMap ℕ Call)
    (queue : List ServerEvent) (c : Handler) : Action → Option Handler
  | .inserted => match c.pc with
    | .insert t => if calls.lookup t = none then some { c with pc := .presence } else none
    | _ => none
  | .presence => match c.pc with
    | .presence => some { c with pc := .ready }
    | _ => none
  | .ready w outcome => match c.pc with
    | .ready =>
      let ready := buildReadyPayload w c.session.userId c.username c.session.sessionId
      -- `unwrap_or_default`
      let frames := outcome.frames ((serde.toString ready).toOption.getD "")
      match outcome with
      | .ok => some { c with pc := .read, writer := .recv, written := c.written ++ frames }
      | .failed _ => some { c with pc := .cleanup, written := c.written ++ frames }
    | _ => none
  | .recv => match c.writer with
    | .recv => match queue[c.taken]? with
      | some event => match serde.toString event with
        | .ok text => some { c with writer := .send text, taken := c.taken + 1 }
        | .error _ => some { c with taken := c.taken + 1 }
      -- The channel is closed when its one sender is dropped, and that is in the store.
      | none => if c.session ∈ store.vec c.session.userId then none
        else some { c with writer := .ended }
    | _ => none
  | .send outcome => match c.writer with
    | .send text =>
      let frames := outcome.frames text
      match outcome with
      | .ok => some { c with writer := .recv, written := c.written ++ frames }
      | .failed _ => some { c with writer := .ended, written := c.written ++ frames }
    | _ => none
  | .close => match c.pc with
    | .read => some { c with pc := .cleanup }
    | _ => none
  | .abort written => if c.pc = .read then none else match c.writer with
    | .recv => some { c with writer := .ended }
    | .send text =>
      some { c with
        writer := .ended
        written := c.written ++ (SocketSend.failed written).frames text }
    | _ => none
  | .removed => match c.pc with
    | .remove t =>
      if calls.lookup t = none then some { c with
        pc := .returned
        -- A receiver that no writer took over is dropped here.
        writer := if c.writer = .unspawned then .ended else c.writer }
      else none
    | _ => none

end Handler

/-! ## Calls of `send_to_users` -/

/-- A call of `send_to_users`, or of `send_to_user` with one user. -/
structure UserSend where
  event : ServerEvent
  userIds : List UserId
  /-- The users that it has not looked up. -/
  todo : List UserId
  /-- The entry it is under the guard of, with the sessions that it has not reached. -/
  guard : Option (UserId × List Session)
  /-- What it has found for the users it looked up. -/
  found : List (UserId × List Session)
  /-- The sessions that it has reached, and whether `Session::send` returned true. -/
  reached : List (SessionId × Bool)
  deriving DecidableEq, Repr

/-- The call has returned. -/
def UserSend.Returned (x : UserSend) : Prop := x.todo = [] ∧ x.guard = none

/-! ## The machine -/

structure Streaming where
  registry : Registry
  pipes : Pipes
  /-- The connections, by the id of their session. -/
  handlers : DashMap SessionId Handler
  /-- All calls of `send_to_users`, returned ones included. -/
  sends : DashMap ℕ UserSend
  /-- The calls that sent the events of each channel. -/
  senders : SessionId → List ℕ

namespace Streaming

def init : Streaming := ⟨.init, ⟨fun _ => [], fun _ => false⟩, ∅, ∅, fun _ => []⟩

inductive Action
  /-- A client has authenticated: `handle_connection` calls `sessions.insert`, as call `t`. -/
  | connect (t : ℕ) (session : Session) (username : String)
  /-- A connection or its writer takes a step. -/
  | handler (sessionId : SessionId) (a : Handler.Action)
  /-- `cleanup` calls `sessions.remove`, as call `t`. -/
  | cleanup (t : ℕ) (sessionId : SessionId)
  /-- The heartbeat monitor calls `sessions.remove`, as call `t`. -/
  | reap (t : ℕ) (userId : UserId) (sessionId : SessionId)
  /-- The call `t` takes its next atomic operation. -/
  | op (t : ℕ)
  /-- Some task calls `send_to_users`, as call `k`. -/
  | call (k : ℕ) (userIds : List UserId) (event : ServerEvent)
  /-- `self.sessions.get(user_id)` for the next user. -/
  | get (k : ℕ)
  /-- The next session is sent to. -/
  | push (k : ℕ)
  /-- The guard is released. -/
  | release (k : ℕ)
  deriving DecidableEq, Repr

/-- Some `send_to_user` holds the guard of the user's entry. -/
def Guarded (s : Streaming) (userId : UserId) : Prop :=
  ∃ x ∈ DashMap.values s.sends, userId ∈ x.guard.map Prod.fst

instance (s : Streaming) (userId : UserId) : Decidable (s.Guarded userId) :=
  inferInstanceAs (Decidable (∃ _ ∈ _, _))

end Streaming

/-- The user whose entry an operation writes. -/
def Call.writes : Call → Option UserId
  | .insert session => some session.userId
  | .remove userId _ | .removeKey userId _ _ => some userId
  | .insertCount | .removeCount _ _ => none

theorem SessionStore.vec_op_of_not_writes {st : SessionStore} {c : Call} {u : UserId}
    (hu : u ∉ c.writes) : (st.op c).1.vec u = st.vec u := by
  cases c with
  | insert x => rw [vec_insert, if_neg fun h => hu (congrArg some h.symm)]
  | remove u' sid => rw [vec_remove, if_neg fun h => hu (congrArg some h.symm)]
  | removeKey u' sid removed => rw [vec_removeKey, if_neg fun h => hu (congrArg some h.symm)]
  | insertCount | removeCount => rfl

namespace Streaming

/-- The connection, with its receiver in the channels. -/
def setHandler (s : Streaming) (c : Handler) : Streaming :=
  { s with
    handlers := s.handlers.insert c.session.sessionId c
    pipes := { s.pipes with
      closed := Function.update s.pipes.closed c.session.sessionId (c.writer = .ended) } }

/-- The call, with nothing else changed. -/
def setSend (s : Streaming) (k : ℕ) (x : UserSend) : Streaming :=
  { s with sends := s.sends.insert k x }

def step (serde : Serde ServerEvent) (s : Streaming) : Action → Option Streaming
  | .connect t session username => (s.registry.step (.callInsert t session)).map fun registry =>
    { s with registry }.setHandler ⟨session, username, .insert t, .unspawned, 0, []⟩
  | .handler sid a => (s.handlers.lookup sid).bind fun c =>
    (c.step serde s.registry.store s.registry.calls (s.pipes.queue sid) a).map s.setHandler
  | .cleanup t sid => match s.handlers.lookup sid with
    | some c =>
      if c.pc = .cleanup then
        (s.registry.step (.callRemove t c.session.userId sid)).map fun registry =>
          { s with registry }.setHandler { c with pc := .remove t }
      else none
    | none => none
  | .reap t u sid => (s.registry.step (.callRemove t u sid)).map fun registry =>
    { s with registry }
  | .op t =>
    if ∃ u ∈ (s.registry.calls.lookup t).bind Call.writes, s.Guarded u then none
    else (s.registry.step (.op t)).map fun registry => { s with registry }
  | .call k userIds event =>
    if s.sends.lookup k = none then
      some (s.setSend k ⟨event, userIds, userIds, none, [], []⟩)
    else none
  | .get k => match s.sends.lookup k with
    | some x => match x.guard, x.todo with
      | none, u :: todo => some (s.setSend k { x with
          todo
          guard := (s.registry.store.sessions.lookup u).map fun sessions => (u, sessions)
          found := x.found ++ [(u, s.registry.store.vec u)] })
      | _, _ => none
    | none => none
  | .push k => match s.sends.lookup k with
    | some x => match x.guard with
      | some (u, session :: sessions) =>
        let sent := s.pipes.send session.sessionId x.event
        some { s.setSend k { x with
            guard := some (u, sessions)
            reached := x.reached ++ [(session.sessionId, sent.1)] } with
          pipes := sent.2
          senders := if sent.1 then Function.update s.senders session.sessionId
              (s.senders session.sessionId ++ [k])
            else s.senders }
      | _ => none
    | none => none
  | .release k => match s.sends.lookup k with
    | some x => match x.guard with
      | some (_, []) => some (s.setSend k { x with guard := none })
      | _ => none
    | none => none

end Streaming

/-! ## What one connection writes -/

/-- READY is still to be sent. -/
def HandlerPc.early : HandlerPc → Bool
  | .insert _ | .presence | .ready => true
  | _ => false

namespace Handler

/-- READY was written, and then the first `n` events of the channel. -/
def Wrote (text : ServerEvent → String) (queue : List ServerEvent) (c : Handler) (n : ℕ) : Prop :=
  ∃ w, c.written =
    text (buildReadyPayload w c.session.userId c.username c.session.sessionId) ::
      (queue.take n).map text

/-- What was written, by what the writer is about to do. -/
structure Streams (text : ServerEvent → String) (queue : List ServerEvent) (c : Handler) :
    Prop where
  taken : c.taken ≤ queue.length
  early : c.pc.early = true → c.writer = .unspawned ∧ c.written = []
  written : match c.writer with
    | .unspawned => c.taken = 0 ∧ (c.written = [] ∨ c.Wrote text queue 0)
    | .recv => c.Wrote text queue c.taken
    | .send frame => ∃ n event, c.taken = n + 1 ∧ queue[n]? = some event ∧ frame = text event ∧
        c.Wrote text queue n
    | .ended => c.written = [] ∨ ∃ n ≤ queue.length, c.Wrote text queue n

variable {serde : Serde ServerEvent} {text : ServerEvent → String} {store : SessionStore}
  {calls : DashMap ℕ Call} {queue queue' : List ServerEvent} {c c' : Handler} {n : ℕ}

theorem Wrote.mono (h : c.Wrote text queue n) (hn : n ≤ queue.length) (hq : queue <+: queue') :
    c.Wrote text queue' n := by
  obtain ⟨w, hw⟩ := h
  obtain ⟨rest, rfl⟩ := hq
  refine ⟨w, ?_⟩
  rw [hw, List.take_append_of_le_length hn]

theorem Wrote.succ (h : c.Wrote text queue n) {event : ServerEvent} (he : queue[n]? = some event)
    (hc : c'.session = c.session ∧ c'.username = c.username)
    (hw : c'.written = c.written ++ [text event]) : c'.Wrote text queue (n + 1) := by
  obtain ⟨w, hold⟩ := h
  refine ⟨w, ?_⟩
  rw [hw, hold, hc.1, hc.2, List.take_add_one, he, Option.toList_some, List.map_append,
    List.map_singleton, List.cons_append]

theorem Streams.mono (h : c.Streams text queue) (hq : queue <+: queue') :
    c.Streams text queue' := by
  refine ⟨h.taken.trans hq.length_le, h.early, ?_⟩
  have hold := h.written
  cases hwriter : c.writer with
  | unspawned =>
    rw [hwriter] at hold
    exact ⟨hold.1, hold.2.imp_right fun hw => hw.mono (Nat.zero_le _) hq⟩
  | recv =>
    rw [hwriter] at hold
    exact hold.mono h.taken hq
  | send frame =>
    rw [hwriter] at hold
    obtain ⟨n, event, hn, he, hframe, hw⟩ := hold
    obtain ⟨hlt, -⟩ := List.getElem?_eq_some_iff.1 he
    have he' : queue'[n]? = some event := by
      obtain ⟨rest, rfl⟩ := hq
      rw [List.getElem?_append_left hlt, he]
    exact ⟨n, event, hn, he', hframe, hw.mono hlt.le hq⟩
  | ended =>
    rw [hwriter] at hold
    apply hold.imp_right
    intro hw
    obtain ⟨n, hn, hw⟩ := hw
    exact ⟨n, hn.trans hq.length_le, hw.mono hn hq⟩

theorem step_session {a : Action} (hstep : c.step serde store calls queue a = some c') :
    c'.session = c.session := by
  cases a <;> simp only [step] at hstep <;> (repeat' split at hstep) <;> cases hstep <;> rfl

theorem Streams.not_early (h : c.Streams text queue) (hwriter : c.writer ≠ .unspawned) :
    c.pc.early ≠ true :=
  fun hearly => hwriter (h.early hearly).1

/-- READY is the first frame, or its failure leaves nothing or READY alone. -/
theorem Streams.step_ready (hser : ∀ e, serde.toString e = .ok (text e))
    (h : c.Streams text queue) {w : ReadyAnswers} {outcome : SocketSend}
    (hstep : c.step serde store calls queue (.ready w outcome) = some c') :
    c'.Streams text queue := by
  simp only [step, hser] at hstep
  split at hstep
  · next hpc =>
    have hearly : c.pc.early = true := by rw [hpc]; rfl
    obtain ⟨hwriter, hnil⟩ := h.early hearly
    have htaken : c.taken = 0 := by
      have hold := h.written
      rw [hwriter] at hold
      exact hold.1
    cases outcome with
    | ok =>
      obtain rfl := Option.some.inj hstep
      refine ⟨h.taken, nofun, w, ?_⟩
      rw [htaken, hnil]
      rfl
    | failed written =>
      obtain rfl := Option.some.inj hstep
      refine ⟨h.taken, nofun, ?_⟩
      dsimp only
      rw [hwriter, hnil]
      refine ⟨htaken, ?_⟩
      cases written with
      | true => exact .inr ⟨w, rfl⟩
      | false => exact .inl rfl
  · exact absurd hstep nofun

theorem Streams.step_recv (hser : ∀ e, serde.toString e = .ok (text e))
    (h : c.Streams text queue) (hstep : c.step serde store calls queue .recv = some c') :
    c'.Streams text queue := by
  simp only [step, hser] at hstep
  split at hstep
  · next hwriter =>
    have hold := h.written
    rw [hwriter] at hold
    have hearly : c.pc.early ≠ true := h.not_early (by simp [hwriter])
    split at hstep
    · next event he =>
      obtain rfl := Option.some.inj hstep
      obtain ⟨hlt, -⟩ := List.getElem?_eq_some_iff.1 he
      exact ⟨hlt, fun hpc => absurd hpc hearly, c.taken, event, rfl, he, rfl, hold⟩
    · split_ifs at hstep
      obtain rfl := Option.some.inj hstep
      exact ⟨h.taken, fun hpc => absurd hpc hearly, .inr ⟨c.taken, h.taken, hold⟩⟩
  · exact absurd hstep nofun

theorem Streams.sent (h : c.Streams text queue) {frame : String} (hwriter : c.writer = .send frame)
    (outcome : SocketSend) (hsession : c'.session = c.session) (huser : c'.username = c.username)
    (hpc : c'.pc = c.pc) (htaken : c'.taken = c.taken)
    (hwritten : c'.written = c.written ++ outcome.frames frame)
    (hnext : c'.writer = .ended ∨ c'.writer = .recv ∧ outcome = .ok) : c'.Streams text queue := by
  have hold := h.written
  rw [hwriter] at hold
  obtain ⟨n, event, hn, he, rfl, hw⟩ := hold
  have hlt : n + 1 ≤ queue.length := hn ▸ h.taken
  have hsucc (hframe : outcome.frames (text event) = [text event]) :
      c'.Wrote text queue (n + 1) :=
    hw.succ he ⟨hsession, huser⟩ (by rw [hwritten, hframe])
  refine ⟨htaken ▸ h.taken, ?_, ?_⟩
  · intro hearly
    rw [hpc] at hearly
    exact absurd hearly (h.not_early (by simp [hwriter]))
  · rcases hnext with hended | ⟨hrecv, rfl⟩
    · rw [hended]
      match outcome with
      | .ok | .failed true => exact .inr ⟨n + 1, hlt, hsucc rfl⟩
      | .failed false =>
        obtain ⟨w, hold⟩ := hw
        refine .inr ⟨n, Nat.le_of_succ_le hlt, w, ?_⟩
        rw [hwritten, hsession, huser, hold]
        exact List.append_nil _
    · rw [hrecv]
      dsimp only
      rw [htaken, hn]
      exact hsucc rfl

/-- **A step of a connection keeps its stream.** -/
theorem Streams.step (hser : ∀ e, serde.toString e = .ok (text e)) (h : c.Streams text queue)
    {a : Action} (hstep : c.step serde store calls queue a = some c') : c'.Streams text queue := by
  cases a with
  | ready w outcome => exact h.step_ready hser hstep
  | recv => exact h.step_recv hser hstep
  | inserted =>
    simp only [Handler.step] at hstep
    split at hstep
    · next t hpc =>
      split_ifs at hstep
      obtain rfl := Option.some.inj hstep
      exact ⟨h.taken, fun _ => h.early (by rw [hpc]; rfl), h.written⟩
    · exact absurd hstep nofun
  | presence =>
    simp only [Handler.step] at hstep
    split at hstep
    · next hpc =>
      obtain rfl := Option.some.inj hstep
      exact ⟨h.taken, fun _ => h.early (by rw [hpc]; rfl), h.written⟩
    · exact absurd hstep nofun
  | close =>
    simp only [Handler.step] at hstep
    split at hstep
    · obtain rfl := Option.some.inj hstep
      exact ⟨h.taken, nofun, h.written⟩
    · exact absurd hstep nofun
  | send outcome =>
    simp only [Handler.step] at hstep
    split at hstep
    · next frame hwriter =>
      cases outcome with
      | ok =>
        obtain rfl := Option.some.inj hstep
        exact h.sent hwriter .ok rfl rfl rfl rfl rfl (.inr ⟨rfl, rfl⟩)
      | failed written =>
        obtain rfl := Option.some.inj hstep
        exact h.sent hwriter (.failed written) rfl rfl rfl rfl rfl (.inl rfl)
    · exact absurd hstep nofun
  | abort written =>
    simp only [Handler.step] at hstep
    split_ifs at hstep
    split at hstep
    · next hwriter =>
      obtain rfl := Option.some.inj hstep
      have hold := h.written
      rw [hwriter] at hold
      refine ⟨h.taken, ?_, .inr ⟨c.taken, h.taken, hold⟩⟩
      intro hearly
      exact absurd hearly (h.not_early (by simp [hwriter]))
    · next frame hwriter =>
      obtain rfl := Option.some.inj hstep
      exact h.sent hwriter (.failed written) rfl rfl rfl rfl rfl (.inl rfl)
    · exact absurd hstep nofun
  | removed =>
    simp only [Handler.step] at hstep
    split at hstep
    · split_ifs at hstep with _ hwriter
      · obtain rfl := Option.some.inj hstep
        have hold := h.written
        rw [hwriter] at hold
        exact ⟨h.taken, nofun, hold.2.imp_right fun hw => ⟨0, Nat.zero_le _, hw⟩⟩
      · obtain rfl := Option.some.inj hstep
        exact ⟨h.taken, nofun, h.written⟩
    · exact absurd hstep nofun

theorem Streams.frames (h : c.Streams text queue) :
    c.written = [] ∨ ∃ n, c.Wrote text queue n := by
  have hold := h.written
  cases hwriter : c.writer with
  | unspawned =>
    rw [hwriter] at hold
    exact hold.2.imp_right fun hw => ⟨0, hw⟩
  | recv =>
    rw [hwriter] at hold
    exact .inr ⟨c.taken, hold⟩
  | send frame =>
    rw [hwriter] at hold
    obtain ⟨n, event, -, -, -, hw⟩ := hold
    exact .inr ⟨n, hw⟩
  | ended =>
    rw [hwriter] at hold
    exact hold.imp_right fun hw => hw.imp fun n hn => hn.2

end Handler

/-! ## What one call sends -/

namespace UserSend

/-- The sessions that were found and not reached. -/
def left (x : UserSend) : List Session := x.guard.elim [] Prod.snd

/-- Everything that was found has been reached or is under the guard. -/
structure Inv (inserted : List Session) (x : UserSend) : Prop where
  users : x.found.map Prod.fst ++ x.todo = x.userIds
  reached : x.reached.map Prod.fst ++ x.left.map Session.sessionId =
    (x.found.flatMap Prod.snd).map Session.sessionId
  found : ∀ f ∈ x.found, (f.2.map Session.sessionId).Nodup ∧ ∀ z ∈ f.2, z ∈ inserted

variable {x : UserSend} {inserted inserted' : List Session} {z : Session}

theorem Inv.mono (h : x.Inv inserted) (hins : ∀ z ∈ inserted, z ∈ inserted') :
    x.Inv inserted' :=
  ⟨h.users, h.reached, fun f hf => ⟨(h.found f hf).1, fun z hz => hins z ((h.found f hf).2 z hz)⟩⟩

theorem Inv.reach (h : x.Inv inserted) {u : UserId} {zs : List Session}
    (hguard : x.guard = some (u, z :: zs)) (ok : Bool) :
    Inv inserted { x with
      guard := some (u, zs), reached := x.reached ++ [(z.sessionId, ok)] } := by
  refine ⟨h.users, ?_, h.found⟩
  rw [← h.reached, left, left, hguard]
  simp

/-- How often an id was found is how often its session was. -/
theorem Inv.count_found (h : x.Inv inserted)
    (hids : ∀ y ∈ inserted, y.sessionId = z.sessionId → y = z) :
    ((x.found.flatMap Prod.snd).map Session.sessionId).count z.sessionId =
      x.found.countP fun f => z ∈ f.2 := by
  have hfound := h.found
  generalize x.found = found at hfound
  induction found with
  | nil => rfl
  | cons f found ih =>
    obtain ⟨⟨hnodup, hins⟩, hrest⟩ := List.forall_mem_cons.1 hfound
    rw [List.flatMap_cons, List.map_append, List.count_append, ih hrest, List.countP_cons,
      Nat.add_comm]
    congr 1
    by_cases hz : z ∈ f.2
    · rw [if_pos (by simpa using hz)]
      exact List.count_eq_one_of_mem hnodup (List.mem_map_of_mem hz)
    · rw [if_neg (by simpa using hz), List.count_eq_zero]
      intro hmem
      obtain ⟨y, hy, hid⟩ := List.mem_map.1 hmem
      obtain rfl := hids y (hins y hy) hid
      exact hz hy

end UserSend

/-! ## The invariant -/

namespace Streaming

structure Inv (text : ServerEvent → String) (s : Streaming) : Prop where
  registry : s.registry.Inv
  handlers : ∀ sid c, s.handlers.lookup sid = some c →
    c.session.sessionId = sid ∧ c.Streams text (s.pipes.queue sid)
  /-- Nothing is sent to a session before it is inserted. -/
  fresh : ∀ sid, sid ∉ s.registry.inserted.map Session.sessionId → s.pipes.queue sid = []
  queue : ∀ sid, s.pipes.queue sid =
    (s.senders sid).filterMap fun k => (s.sends.lookup k).map UserSend.event
  sends : ∀ k x, s.sends.lookup k = some x → x.Inv s.registry.inserted
  /-- Under a guard, the entry stays as it was found. -/
  guarded : ∀ k x u zs, s.sends.lookup k = some x → x.guard = some (u, zs) →
    zs ⊆ s.registry.store.vec u
  /-- A call has sent to a session as often as `Session::send` has returned true. -/
  copies : ∀ sid k, (s.senders sid).count k =
    (s.sends.lookup k).elim 0 fun x => x.reached.count (sid, true)

variable {serde : Serde ServerEvent} {text : ServerEvent → String} {s s' : Streaming}

theorem Inv.setRegistry (h : s.Inv text) {r : Registry} {a : Registry.Action}
    (hr : s.registry.step a = some r)
    (hvec : ∀ u, s.Guarded u → r.store.vec u = s.registry.store.vec u) :
    Inv text { s with registry := r } where
  registry := Registry.step_inv h.registry hr
  handlers := h.handlers
  fresh sid hsid := h.fresh sid fun hmem => by
    obtain ⟨x, hx, hid⟩ := List.mem_map.1 hmem
    exact hsid (List.mem_map.2 ⟨x, Registry.step_inserted hr hx, hid⟩)
  queue := h.queue
  sends k x hx := (h.sends k x hx).mono fun _ hz => Registry.step_inserted hr hz
  guarded k x u zs hx hguard := by
    have hheld : s.Guarded u := ⟨x, DashMap.mem_values_iff.2 ⟨k, hx⟩, by rw [hguard]; rfl⟩
    rw [hvec u hheld]
    exact h.guarded k x u zs hx hguard
  copies := h.copies

theorem Inv.setHandler (h : s.Inv text) {c : Handler}
    (hc : c.Streams text (s.pipes.queue c.session.sessionId)) : (s.setHandler c).Inv text := by
  refine { h with handlers := fun sid c' hc' => ?_ }
  simp only [Streaming.setHandler, DashMap.lookup_insert_ite] at hc' ⊢
  split_ifs at hc' with hsid
  · obtain rfl := Option.some.inj hc'
    rw [hsid]
    exact ⟨rfl, hc⟩
  · exact h.handlers sid c' hc'

theorem lookup_setSend (s : Streaming) (k : ℕ) (x : UserSend) (j : ℕ) :
    (s.setSend k x).sends.lookup j = if j = k then some x else s.sends.lookup j :=
  DashMap.lookup_insert_ite _ _ _ _

/-- What holds of every call before holds of every call after, if it holds of the changed one. -/
theorem forall_setSend {p : UserSend → Prop} (h : ∀ j y, s.sends.lookup j = some y → p y) {k : ℕ}
    {x : UserSend} (hx : p x) (j : ℕ) (y : UserSend)
    (hy : (s.setSend k x).sends.lookup j = some y) : p y := by
  rw [lookup_setSend] at hy
  split_ifs at hy
  · obtain rfl := Option.some.inj hy
    exact hx
  · exact h j y hy

theorem Inv.setSend (h : s.Inv text) {k : ℕ} {x : UserSend} (hx : x.Inv s.registry.inserted)
    (hguarded : ∀ u zs, x.guard = some (u, zs) → zs ⊆ s.registry.store.vec u)
    (hcopies : ∀ sid, (s.senders sid).count k = x.reached.count (sid, true))
    (hevent : ∀ y, s.sends.lookup k = some y → x.event = y.event) : (s.setSend k x).Inv text := by
  refine { h with
    queue := fun sid => ?_, sends := forall_setSend h.sends hx
    guarded := fun j y u zs hy => forall_setSend (fun i w hw u zs => h.guarded i w u zs hw)
      hguarded j y hy u zs
    copies := fun sid j => ?_ }
  · refine (h.queue sid).trans (List.filterMap_congr fun j hj => ?_)
    rw [lookup_setSend]
    split_ifs with hjk
    · subst hjk
      -- The call is known, as it has sent something.
      cases hold : s.sends.lookup j with
      | none =>
        have hcount := h.copies sid j
        rw [hold, Option.elim_none, List.count_eq_zero] at hcount
        exact absurd hj hcount
      | some y => rw [Option.map_some, Option.map_some, hevent y hold]
    · rfl
  · rw [lookup_setSend]
    split_ifs with hjk
    · rw [hjk]
      exact hcopies sid
    · exact h.copies sid j

theorem step_call {k : ℕ} {userIds : List UserId} {event : ServerEvent}
    (hstep : s.step serde (.call k userIds event) = some s') :
    s.sends.lookup k = none ∧ s' = s.setSend k ⟨event, userIds, userIds, none, [], []⟩ := by
  simp only [step, Option.ite_none_right_eq_some, Option.some.injEq] at hstep
  exact ⟨hstep.1, hstep.2.symm⟩

theorem step_get {k : ℕ} (hstep : s.step serde (.get k) = some s') :
    ∃ x u todo, s.sends.lookup k = some x ∧ x.guard = none ∧ x.todo = u :: todo ∧
      s' = s.setSend k { x with
        todo
        guard := (s.registry.store.sessions.lookup u).map fun sessions => (u, sessions)
        found := x.found ++ [(u, s.registry.store.vec u)] } := by
  simp only [step] at hstep
  split at hstep
  · next x hx =>
    split at hstep
    · next u todo hguard htodo =>
      exact ⟨x, u, todo, hx, hguard, htodo, (Option.some.inj hstep).symm⟩
    · cases hstep
  · cases hstep

theorem step_push {k : ℕ} (hstep : s.step serde (.push k) = some s') :
    ∃ x u z zs, s.sends.lookup k = some x ∧ x.guard = some (u, z :: zs) ∧
      s' = { s.setSend k { x with
          guard := some (u, zs)
          reached := x.reached ++ [(z.sessionId, (s.pipes.send z.sessionId x.event).1)] } with
        pipes := (s.pipes.send z.sessionId x.event).2
        senders := if (s.pipes.send z.sessionId x.event).1 then Function.update s.senders
            z.sessionId (s.senders z.sessionId ++ [k])
          else s.senders } := by
  simp only [step] at hstep
  split at hstep
  · next x hx =>
    split at hstep
    · next u z zs hguard => exact ⟨x, u, z, zs, hx, hguard, (Option.some.inj hstep).symm⟩
    · cases hstep
  · cases hstep

theorem step_release {k : ℕ} (hstep : s.step serde (.release k) = some s') :
    ∃ x u, s.sends.lookup k = some x ∧ x.guard = some (u, []) ∧
      s' = s.setSend k { x with guard := none } := by
  simp only [step] at hstep
  split at hstep
  · next x hx =>
    split at hstep
    · next u hguard => exact ⟨x, u, hx, hguard, (Option.some.inj hstep).symm⟩
    · cases hstep
  · cases hstep

theorem inv_connect (h : s.Inv text) {t : ℕ} {x : Session} {username : String}
    (hstep : s.step serde (.connect t x username) = some s') : s'.Inv text := by
  simp only [step, Option.map_eq_some_iff] at hstep
  obtain ⟨r, hr, rfl⟩ := hstep
  refine (h.setRegistry hr fun u _ => ?_).setHandler ?_
  · rw [Registry.step_store hr fun _ heq => by cases heq]
  · exact ⟨Nat.zero_le _, fun _ => ⟨rfl, rfl⟩, rfl, .inl rfl⟩

theorem inv_handler (hser : ∀ e, serde.toString e = .ok (text e)) (h : s.Inv text)
    {sid : SessionId} {a : Handler.Action} (hstep : s.step serde (.handler sid a) = some s') :
    s'.Inv text := by
  simp only [step, Option.bind_eq_some_iff, Option.map_eq_some_iff] at hstep
  obtain ⟨c, hc, c', hc', rfl⟩ := hstep
  obtain ⟨hid, hstreams⟩ := h.handlers sid c hc
  apply h.setHandler
  rw [Handler.step_session hc', hid]
  exact hstreams.step hser hc'

theorem inv_cleanup (h : s.Inv text) {t : ℕ} {sid : SessionId}
    (hstep : s.step serde (.cleanup t sid) = some s') : s'.Inv text := by
  simp only [step] at hstep
  split at hstep
  · next c hc =>
    split_ifs at hstep
    rw [Option.map_eq_some_iff] at hstep
    obtain ⟨r, hr, rfl⟩ := hstep
    obtain ⟨rfl, hstreams⟩ := h.handlers sid c hc
    refine (h.setRegistry hr fun u _ => ?_).setHandler ⟨hstreams.taken, nofun, hstreams.written⟩
    rw [Registry.step_store hr nofun]
  · exact absurd hstep nofun

theorem inv_op (h : s.Inv text) {t : ℕ} (hstep : s.step serde (.op t) = some s') :
    s'.Inv text := by
  simp only [step] at hstep
  split_ifs at hstep with hfree
  rw [Option.map_eq_some_iff] at hstep
  obtain ⟨r, hr, rfl⟩ := hstep
  apply h.setRegistry hr
  intro u hu
  obtain ⟨c, hc, hstore⟩ := Registry.step_store_op hr
  rw [hstore]
  apply SessionStore.vec_op_of_not_writes
  intro hwrites
  exact hfree ⟨u, by rw [hc]; exact hwrites, hu⟩

theorem inv_call (h : s.Inv text) {k : ℕ} {userIds : List UserId} {event : ServerEvent}
    (hstep : s.step serde (.call k userIds event) = some s') : s'.Inv text := by
  obtain ⟨hnone, rfl⟩ := step_call hstep
  apply h.setSend
  · exact ⟨rfl, rfl, fun _ hf => absurd hf List.not_mem_nil⟩
  · exact fun _ _ hguard => absurd hguard nofun
  · intro sid
    rw [h.copies, hnone]
    rfl
  · intro y hy
    rw [hnone] at hy
    exact absurd hy nofun

theorem Inv.advance (h : s.Inv text) {k : ℕ} {x x' : UserSend} (hx : s.sends.lookup k = some x)
    (hx' : x'.Inv s.registry.inserted)
    (hguarded : ∀ u zs, x'.guard = some (u, zs) → zs ⊆ s.registry.store.vec u)
    (hevent : x'.event = x.event) (hreached : x'.reached = x.reached) :
    (s.setSend k x').Inv text := by
  refine h.setSend hx' hguarded (fun sid => ?_) fun y hy => ?_
  · rw [h.copies, hx, hreached]
    rfl
  · rw [hevent, Option.some.inj (hx.symm.trans hy)]

theorem inv_get (h : s.Inv text) {k : ℕ} (hstep : s.step serde (.get k) = some s') :
    s'.Inv text := by
  obtain ⟨x, u, todo, hx, hguard, htodo, rfl⟩ := step_get hstep
  have hold := h.sends k x hx
  refine h.advance hx ⟨?_, ?_, ?_⟩ ?_ rfl rfl
  · rw [← hold.users, htodo, List.map_append, List.append_assoc]
    rfl
  · have hreached := hold.reached
    rw [UserSend.left, hguard, Option.elim_none, List.map_nil, List.append_nil] at hreached
    dsimp only [UserSend.left]
    rw [hreached, List.flatMap_append, List.map_append, SessionStore.vec]
    cases s.registry.store.sessions.lookup u <;> simp
  · intro f hf
    rcases List.mem_append.1 hf with hf | hf
    · exact hold.found f hf
    · obtain rfl := List.mem_singleton.1 hf
      exact ⟨h.registry.ids_nodup u, fun z hz => h.registry.inserted_of_mem hz⟩
  · intro u' zs hguard'
    obtain ⟨sessions, hlook, heq⟩ := Option.map_eq_some_iff.1 hguard'
    obtain ⟨rfl, rfl⟩ := Prod.mk.inj heq
    rw [SessionStore.vec, hlook]
    exact fun _ hz => hz

theorem inv_release (h : s.Inv text) {k : ℕ} (hstep : s.step serde (.release k) = some s') :
    s'.Inv text := by
  obtain ⟨x, u, hx, hguard, rfl⟩ := step_release hstep
  have hold := h.sends k x hx
  refine h.advance hx ⟨hold.users, ?_, hold.found⟩ (fun _ _ hnone => absurd hnone nofun) rfl rfl
  rw [← hold.reached, UserSend.left, UserSend.left, hguard]
  rfl

theorem Inv.push_closed (h : s.Inv text) {k : ℕ} {x : UserSend} (hx : s.sends.lookup k = some x)
    {u : UserId} {z : Session} {zs : List Session} (hguard : x.guard = some (u, z :: zs)) :
    (s.setSend k { x with
      guard := some (u, zs), reached := x.reached ++ [(z.sessionId, false)] }).Inv text := by
  refine h.setSend ((h.sends k x hx).reach hguard false) (fun u' zs' hguard' => ?_)
    (fun sid => ?_) fun y hy => ?_
  · obtain ⟨rfl, rfl⟩ := Prod.mk.inj (Option.some.inj hguard')
    exact fun _ hz => h.guarded k x u _ hx hguard (List.mem_cons_of_mem z hz)
  · rw [h.copies, hx]
    simp
  · rw [Option.some.inj (hx.symm.trans hy)]

/-- A registered session gets the event of a call that goes on. -/
theorem Inv.enqueue (h : s.Inv text) {k : ℕ} {x x' : UserSend} (hx : s.sends.lookup k = some x)
    (hx' : x'.Inv s.registry.inserted)
    (hguarded : ∀ u zs, x'.guard = some (u, zs) → zs ⊆ s.registry.store.vec u)
    (hevent : x'.event = x.event) {sid : SessionId}
    (hsid : sid ∈ s.registry.inserted.map Session.sessionId)
    (hreached : x'.reached = x.reached ++ [(sid, true)]) :
    Inv text { s.setSend k x' with
      pipes := { s.pipes with
        queue := Function.update s.pipes.queue sid (s.pipes.queue sid ++ [x.event]) }
      senders := Function.update s.senders sid (s.senders sid ++ [k]) } := by
  have hevents : (fun j => ((s.setSend k x').sends.lookup j).map UserSend.event) =
      fun j => (s.sends.lookup j).map UserSend.event := by
    funext j
    rw [lookup_setSend]
    split_ifs with hj
    · rw [hj, hx, Option.map_some, Option.map_some, hevent]
    · rfl
  refine ⟨h.registry, ?_, ?_, ?_, forall_setSend h.sends hx', ?_, ?_⟩
  · intro sid' c hc
    obtain ⟨hid, hstreams⟩ := h.handlers sid' c hc
    refine ⟨hid, hstreams.mono ?_⟩
    dsimp only
    by_cases hz : sid' = sid
    · rw [hz, Function.update_self]
      exact List.prefix_append _ _
    · exact (Function.update_of_ne hz _ s.pipes.queue).symm ▸ List.prefix_rfl
  · intro sid' hsid'
    have hne : sid' ≠ sid := fun hz => hsid' (hz ▸ hsid)
    dsimp only
    rw [Function.update_of_ne hne]
    exact h.fresh sid' hsid'
  · intro sid'
    dsimp only
    rw [hevents]
    by_cases hz : sid' = sid
    · rw [hz, Function.update_self, Function.update_self, List.filterMap_append, h.queue]
      simp [hx]
    · rw [Function.update_of_ne hz, Function.update_of_ne hz]
      exact h.queue sid'
  · intro j y u zs hy
    exact forall_setSend (fun i w hw u zs => h.guarded i w u zs hw) hguarded j y hy u zs
  · intro sid' j
    have hcopies := h.copies sid' j
    dsimp only
    rw [lookup_setSend]
    by_cases hj : j = k
    · rw [hj, hx] at hcopies
      rw [if_pos hj, hj, Option.elim_some, hreached, List.count_append]
      by_cases hz : sid' = sid
      · subst hz
        rw [Function.update_self, List.count_append, hcopies]
        simp
      · rw [Function.update_of_ne hz, hcopies]
        simp [Ne.symm hz]
    · rw [if_neg hj, ← hcopies]
      by_cases hz : sid' = sid
      · rw [hz, Function.update_self, List.count_append]
        simp [Ne.symm hj]
      · rw [Function.update_of_ne hz]

theorem inv_push (h : s.Inv text) {k : ℕ} (hstep : s.step serde (.push k) = some s') :
    s'.Inv text := by
  obtain ⟨x, u, z, zs, hx, hguard, rfl⟩ := step_push hstep
  cases hclosed : s.pipes.closed z.sessionId with
  | true =>
    simp only [Pipes.send, hclosed, if_true, Bool.false_eq_true, if_false]
    exact h.push_closed hx hguard
  | false =>
    simp only [Pipes.send, hclosed, if_true, Bool.false_eq_true, if_false]
    refine h.enqueue hx ((h.sends k x hx).reach hguard true) (fun u' zs' hguard' => ?_) rfl ?_
      rfl
    · obtain ⟨rfl, rfl⟩ := Prod.mk.inj (Option.some.inj hguard')
      exact fun _ hz => h.guarded k x u _ hx hguard (List.mem_cons_of_mem z hz)
    · exact List.mem_map_of_mem (h.registry.inserted_of_mem
        (h.guarded k x u _ hx hguard List.mem_cons_self))

/-- **Every step keeps the invariant.** -/
theorem step_inv (hser : ∀ e, serde.toString e = .ok (text e)) {a : Action} (h : s.Inv text)
    (hstep : s.step serde a = some s') : s'.Inv text := by
  cases a with
  | connect t x username => exact inv_connect h hstep
  | handler sid a => exact inv_handler hser h hstep
  | cleanup t sid => exact inv_cleanup h hstep
  | reap t u sid =>
    simp only [step, Option.map_eq_some_iff] at hstep
    obtain ⟨r, hr, rfl⟩ := hstep
    apply h.setRegistry hr
    intro u _
    rw [Registry.step_store hr nofun]
  | op t => exact inv_op h hstep
  | call k userIds event => exact inv_call h hstep
  | get k => exact inv_get h hstep
  | push k => exact inv_push h hstep
  | release k => exact inv_release h hstep

theorem init_inv : init.Inv text where
  registry := Registry.inv_init
  handlers _ _ hc := absurd hc nofun
  fresh _ _ := rfl
  queue _ := rfl
  sends _ _ hx := absurd hx nofun
  guarded _ _ _ _ hx := absurd hx nofun
  copies _ _ := rfl

/-! ## Runs -/

/-- What is promised of the streams. -/
structure Delivers (text : ServerEvent → String) (s : Streaming) : Prop where
  /-- READY, and then a prefix of what was sent into the channel. -/
  stream : ∀ sid c, s.handlers.lookup sid = some c → c.written = [] ∨
    ∃ w frames, frames <+: s.pipes.queue sid ∧ c.written =
      text (buildReadyPayload w c.session.userId c.username sid) :: frames.map text
  /-- The channel is empty when the session is inserted, and the calls alone fill it. -/
  fresh : ∀ sid, sid ∉ s.registry.inserted.map Session.sessionId → s.pipes.queue sid = []
  channel : ∀ sid, s.pipes.queue sid =
    (s.senders sid).filterMap fun k => (s.sends.lookup k).map UserSend.event
  /-- A session that a call is about to reach is registered. -/
  registered : ∀ k x u zs, s.sends.lookup k = some x → x.guard = some (u, zs) →
    zs ⊆ s.registry.store.vec u
  /-- A returned call has looked all its users up, and has sent one copy for each time it found a
  session whose receiver was there. -/
  copies : ∀ k x, s.sends.lookup k = some x → x.Returned → x.found.map Prod.fst = x.userIds ∧
    ∀ z ∈ s.registry.inserted, (z.sessionId, false) ∉ x.reached →
      (s.senders z.sessionId).count k = x.found.countP fun f => z ∈ f.2

/-- The answers of `Session::send` are true wherever they are not false. -/
theorem count_reached {reached : List (SessionId × Bool)} {sid : SessionId}
    (h : (sid, false) ∉ reached) :
    reached.count (sid, true) = (reached.map Prod.fst).count sid := by
  rw [List.count, List.count, List.countP_map]
  apply List.countP_congr
  intro p hp
  obtain ⟨sid', ok⟩ := p
  cases ok with
  | true => simp
  | false =>
    have hne : sid' ≠ sid := fun heq => h (heq ▸ hp)
    simp [hne]

/-- **What a client receives is READY followed by its events.** -/
theorem client_stream (hser : ∀ e, serde.toString e = .ok (text e)) {as : List Action}
    (hrun : exec (step serde) init as = some s) : s.Delivers text := by
  have hinv : s.Inv text := exec_invariant (fun _ _ _ h hs => step_inv hser h hs) init_inv hrun
  refine ⟨fun sid c hc => ?_, hinv.fresh, hinv.queue, hinv.guarded, fun k x hx hret => ⟨?_, ?_⟩⟩
  · obtain ⟨rfl, hstreams⟩ := hinv.handlers sid c hc
    apply hstreams.frames.imp_right
    intro hwrote
    obtain ⟨n, w, hw⟩ := hwrote
    exact ⟨w, _, List.take_prefix n _, hw⟩
  · rw [← (hinv.sends k x hx).users, hret.1, List.append_nil]
  · intro z hz hopen
    have hsend := hinv.sends k x hx
    have hreached := hsend.reached
    rw [UserSend.left, hret.2, Option.elim_none, List.map_nil, List.append_nil] at hreached
    rw [hinv.copies, hx, Option.elim_some, count_reached hopen, hreached]
    exact hsend.count_found fun y hy hid => hinv.registry.eq_of_sessionId hy hz hid

/-- The frames of the run below. -/
def ackText : ServerEvent → String
  | .heartbeatAck _ => "\x7b\"t\":\"HEARTBEAT_ACK\",\"d\":\x7b\"seq\":1\x7d\x7d"
  | _ => "\x7b\"t\":\"READY\",\"d\":\x7b" ++
    "\"session_id\":\"00000000-0000-0000-0000-000000000001\"," ++
    "\"user\":\x7b\"id\":\"00000000-0000-0000-0000-000000000007\",\"username\":\"ann\"\x7d," ++
    "\"guilds\":[],\"read_states\":[],\"heartbeat_interval_ms\":30000\x7d\x7d"

def ackSerde : Serde ServerEvent where
  toString e := .ok (ackText e)
  fromStr s := if s = ackText (.heartbeatAck 1) then .ok (.heartbeatAck 1) else .error "not an ack"

/-- An event comes before READY and is written after it; another one comes when the client closes
the connection, and is lost to the abort. -/
def earlyEvent : List Action :=
  [.connect 0 ⟨1, 7⟩ "ann", .op 0, .call 0 [7] (.heartbeatAck 1), .get 0, .op 0, .push 0,
    .release 0, .handler 1 .inserted, .handler 1 .presence,
    .handler 1 (.ready ⟨.ok [], .ok [], 30000⟩ .ok),
    .handler 1 .recv, .handler 1 (.send .ok), .handler 1 .close, .call 1 [7] (.heartbeatAck 1),
    .get 1, .push 1, .release 1, .handler 1 .recv, .handler 1 (.abort false), .cleanup 2 1, .op 2,
    .op 2, .op 2, .handler 1 .removed]

theorem client_stream_earlyEvent :
    ∃ s, exec (step ackSerde) init earlyEvent = some s ∧ s.Delivers ackText ∧
      (s.handlers.lookup 1).map Handler.written =
        some [ackText (.ready 1 ⟨7, "ann"⟩ [] [] 30000), ackText (.heartbeatAck 1)] := by
  have hrun : (exec (step ackSerde) init earlyEvent).map
      (fun s => (s.handlers.lookup 1).map Handler.written) =
        some (some [ackText (.ready 1 ⟨7, "ann"⟩ [] [] 30000), ackText (.heartbeatAck 1)]) := by
    decide +kernel
  obtain ⟨s, hs, hwritten⟩ := Option.map_eq_some_iff.1 hrun
  exact ⟨s, hs, client_stream (fun _ => rfl) hs, hwritten⟩

/-! ## A call, undisturbed -/

/-- The pushes under one guard are the loop of `send_to_user`. -/
theorem exec_sendAll {k : ℕ} {u : UserId} (sessions : List Session) {s : Streaming} {x : UserSend}
    (hx : s.sends.lookup k = some x) (hguard : x.guard = some (u, sessions)) :
    ∃ s' x', exec (step serde) s (List.replicate sessions.length (.push k)) = some s' ∧
      s'.registry = s.registry ∧ s'.pipes = (sendAll x.event sessions s.pipes).2 ∧
      s'.sends.lookup k = some x' ∧ x'.guard = some (u, []) ∧ x'.todo = x.todo ∧
      x'.event = x.event := by
  induction sessions generalizing s x with
  | nil => exact ⟨s, x, rfl, rfl, rfl, hx, hguard, rfl, rfl⟩
  | cons z zs ih =>
    obtain ⟨s₁, hs₁, hregistry, hpipes, x₁, hx₁, hguard₁, htodo, hevent⟩ :
        ∃ s₁, s.step serde (.push k) = some s₁ ∧ s₁.registry = s.registry ∧
          s₁.pipes = (s.pipes.send z.sessionId x.event).2 ∧ ∃ x₁, s₁.sends.lookup k = some x₁ ∧
          x₁.guard = some (u, zs) ∧ x₁.todo = x.todo ∧ x₁.event = x.event := by
      simp only [step, hx, hguard]
      exact ⟨_, rfl, rfl, rfl, _, AList.lookup_insert _, rfl, rfl, rfl⟩
    obtain ⟨s', x', hexec, hregistry', hpipes', hx', hguard', htodo', hevent'⟩ := ih hx₁ hguard₁
    refine ⟨s', x', exec_cons.2 ⟨s₁, hs₁, hexec⟩, hregistry'.trans hregistry, ?_, hx', hguard',
      htodo'.trans htodo, hevent'.trans hevent⟩
    rw [hpipes', hpipes, hevent]
    rfl

/-- **The steps of a call, undisturbed, are `send_to_users`.** -/
theorem exec_sendToUsers {k : ℕ} (userIds : List UserId) {s : Streaming} {x : UserSend}
    (hx : s.sends.lookup k = some x) (hguard : x.guard = none) (htodo : x.todo = userIds) :
    ∃ as s' x', exec (step serde) s as = some s' ∧ s'.registry = s.registry ∧
      s'.pipes = (s.registry.store.sendToUsers s.pipes userIds x.event).2 ∧
      s'.sends.lookup k = some x' ∧ x'.Returned := by
  induction userIds generalizing s x with
  | nil => exact ⟨[], s, x, rfl, rfl, rfl, hx, htodo, hguard⟩
  | cons u us ih =>
    have hget : s.step serde (.get k) = some (s.setSend k { x with
        todo := us
        guard := (s.registry.store.sessions.lookup u).map fun sessions => (u, sessions)
        found := x.found ++ [(u, s.registry.store.vec u)] }) := by
      simp only [step, hx, hguard, htodo]
    cases hlook : s.registry.store.sessions.lookup u with
    | none =>
      rw [hlook, Option.map_none] at hget
      obtain ⟨as, s', x', hexec, hregistry, hpipes, hx', hret⟩ := ih
        (s := s.setSend k { x with
          todo := us, guard := none, found := x.found ++ [(u, s.registry.store.vec u)] })
        (AList.lookup_insert _) rfl rfl
      refine ⟨.get k :: as, s', x', exec_cons.2 ⟨_, hget, hexec⟩, hregistry, ?_, hx', hret⟩
      have hnone (p : Pipes) : (s.registry.store.sendToUser p u x.event).2 = p := by
        rw [SessionStore.sendToUser, hlook]
      rw [hpipes]
      simp only [SessionStore.sendToUsers, hnone]
      rfl
    | some sessions =>
      rw [hlook, Option.map_some] at hget
      obtain ⟨s₁, x₁, hexec₁, hregistry₁, hpipes₁, hx₁, hguard₁, htodo₁, hevent₁⟩ :=
        exec_sendAll (k := k) (u := u) sessions
          (s := s.setSend k { x with
            todo := us
            guard := some (u, sessions)
            found := x.found ++ [(u, s.registry.store.vec u)] })
          (AList.lookup_insert _) rfl
      have hrelease : s₁.step serde (.release k) =
          some (s₁.setSend k { x₁ with guard := none }) := by
        simp only [step, hx₁, hguard₁]
      obtain ⟨as, s', x', hexec, hregistry, hpipes, hx', hret⟩ := ih
        (s := s₁.setSend k { x₁ with guard := none }) (AList.lookup_insert _) rfl htodo₁
      refine ⟨.get k :: (List.replicate sessions.length (.push k) ++ .release k :: as), s', x',
        exec_cons.2 ⟨_, hget, exec_append.2 ⟨s₁, hexec₁, exec_cons.2 ⟨_, hrelease, hexec⟩⟩⟩,
        hregistry.trans hregistry₁, ?_, hx', hret⟩
      have hsome (p : Pipes) : (s.registry.store.sendToUser p u x.event).2 =
          (sendAll x.event sessions p).2 := by
        rw [SessionStore.sendToUser, hlook]
      rw [hpipes]
      simp only [SessionStore.sendToUsers, hsome]
      change (s₁.registry.store.sendToUsers s₁.pipes us x₁.event).2 = _
      rw [hregistry₁, hpipes₁, hevent₁]
      rfl

end Streaming

end RustRelay
