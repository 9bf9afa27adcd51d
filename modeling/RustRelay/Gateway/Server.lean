import RustRelay.Core.Run
import RustRelay.Gateway.Auth
import RustRelay.Gateway.Dispatch
import RustRelay.Routes.SendMessage

/-!
# A node and its clients

`handle_connection` from its first frame to its cleanup, for any number of connections, with the
REST routes, the heartbeat monitor, the debounce timers and whatever else sends to sessions. A
dispatch is a single step here.

**Theorem (`nothing_in_their_name`).** Whatever the others do, nothing happens in the name of a user
who is not connected and whose token nobody presents: no message of theirs comes, goes or changes,
nothing is marked as read for them and their presence stays. REST asks for no token; its sends in
their name are excluded.

**Theorem (`login_admits`).** From a login on its JWT admits a client as that user, however it is
sent and whatever becomes of the user's name and token, for 24 hours and the leeway, as long as the
user exists.
-/

namespace RustRelay

open Machine

/-! ## The state -/

/-- Where `handle_connection` is. -/
inductive ConnectionState
  /-- The first frame is awaited, since then. -/
  | waiting (since : ℕ)
  /-- The reader loop runs, for this user and session. -/
  | serving (userId : UserId) (sessionId : SessionId)
  deriving DecidableEq, Repr

/-- What `ws.recv()` gives first: a text, or any other frame, an error or the end. -/
inductive FirstFrame
  | text (token : String)
  | other
  deriving DecidableEq, Repr

structure Server where
  users : Users
  db : Database
  app : AppState
  /-- In seconds. -/
  now : ℕ
  connections : DashMap ℕ ConnectionState
  /-- The session ids that were given out. -/
  opened : List SessionId
  /-- The JWTs that were given out, and for whom. -/
  issued : List (UserId × String)
  /-- The connections that were closed, with the error they were sent. Without one it says
  `Auth timeout — send your token within 5 seconds`. -/
  refused : List (ℕ × Option AppError)

namespace Server

inductive Action
  /-- `POST /api/login`, with the answer of the database. -/
  | login (req : LoginRequest) (query : Except DbError Unit)
  /-- `GET /ws`. -/
  | accept (k : ℕ)
  /-- The first frame comes in time. If it is good, the session gets this id. -/
  | first (k : ℕ) (frame : FirstFrame) (query : Except DbError Unit) (sessionId : SessionId)
  /-- The first frame does not come in time. -/
  | timeout (k : ℕ)
  /-- A text frame. -/
  | text (k : ℕ) (text : String) (w : DispatchAnswers)
  /-- The client closes or breaks the connection, or READY cannot be sent: `cleanup`. -/
  | leave (k : ℕ)
  /-- The heartbeat monitor removes a session. -/
  | reap (userId : UserId) (sessionId : SessionId)
  /-- A debounce task takes the branch of the sleep. -/
  | expire (notify : NotifyId)
  /-- A debounce task takes the branch of the notification. -/
  | cancel (notify : NotifyId)
  /-- `POST /api/channels/:channel_id/messages`. -/
  | post (channelId : ChannelId) (req : SendMessageRequest) (w w' : Answers)
  /-- The presence worker or the Redis subscriber sends an event to users. -/
  | deliver (targets : List UserId) (event : ServerEvent)
  /-- A pass of `spawn_cache_cleanup`. -/
  | sweep (instant : ℕ)
  /-- Somebody changes users, guilds or channels, and leaves the messages alone. -/
  | alter (users : Users) (db : Database)
  | tick (seconds : ℕ)

variable (jwt : Jwt) (client : Serde ClientMessage) (json : Json) (offlineDebounce : ℕ)

/-- The connection is closed with an error. -/
def refuse (s : Server) (k : ℕ) (error : Option AppError) : Server :=
  { s with connections := s.connections.erase k, refused := (k, error) :: s.refused }

/-- The sessions and the tracker change. -/
def setPresence (s : Server) (presence : Presence) : Server :=
  { s with app := { s.app with presence } }

/-- Steps 2 and 3 of `handle_connection`. -/
def openSession (s : Server) (k : ℕ) (user : User) (sessionId : SessionId) : Server :=
  { s.setPresence (s.app.presence.openSession ⟨sessionId, user.id⟩) with
    connections := s.connections.insert k (.serving user.id sessionId)
    opened := sessionId :: s.opened }

/-- The reader loop ends: the receiver is dropped, then `cleanup`. -/
def closeSession (s : Server) (k : ℕ) (userId : UserId) (sessionId : SessionId) : Server :=
  { s with
    app := { s.app with
      presence := s.app.presence.cleanup offlineDebounce s.now userId sessionId
      pipes := { s.app.pipes with closed := Function.update s.app.pipes.closed sessionId true } }
    connections := s.connections.erase k }

def step (s : Server) : Action → Option Server
  | .login req query => match login jwt s.now s.users query req with
    | .error _ => some s
    | .ok response => some { s with issued := (response.user.id, response.token) :: s.issued }
  | .accept k =>
    if s.connections.lookup k = none then
      some { s with connections := s.connections.insert k (.waiting s.now) }
    else none
  | .first k frame query sid => match s.connections.lookup k with
    | some (.waiting since) =>
      if since + 5 < s.now ∨ sid ∈ s.opened then none
      else match frame with
        | .other => some (s.refuse k none)
        | .text rawToken => match authenticate jwt s.now s.users query rawToken with
          | .error e => some (s.refuse k (some e))
          | .ok user => some (s.openSession k user sid)
    | _ => none
  | .timeout k => match s.connections.lookup k with
    | some (.waiting since) => if since + 5 ≤ s.now then some (s.refuse k none) else none
    | _ => none
  | .text k text w => match s.connections.lookup k with
    | some (.serving u _) =>
      let d := s.app.handleClientMessage client json w s.db u text
      some { s with app := d.app, db := d.db }
    | _ => none
  | .leave k => match s.connections.lookup k with
    | some (.serving u sid) => some (s.closeSession offlineDebounce k u sid)
    | _ => none
  | .reap u sid =>
    if sid ∈ (s.app.presence.sessions.vec u).map Session.sessionId then
      some (s.setPresence (s.app.presence.cleanup offlineDebounce s.now u sid))
    else none
  | .expire n => match s.app.presence.timers.lookup n with
    | some timer =>
      if s.now < timer.deadline then none
      else some (s.setPresence (s.app.presence.expire n timer))
    | none => none
  | .cancel n =>
    if n ∈ s.app.presence.tracker.notified then
      some (s.setPresence { s.app.presence with timers := s.app.presence.timers.erase n })
    else none
  | .post channelId req w w' =>
    let posted := s.app.node.sendMessage json w w' s.db channelId req
    some { s with
      app := { s.app with router := posted.node.router, pipes := posted.node.pipes }
      db := posted.db }
  | .deliver targets event =>
    some { s with app := { s.app with
      pipes := (s.app.presence.sessions.sendToUsers s.app.pipes targets event).2 } }
  | .sweep instant => some { s with app := { s.app with router := s.app.router.cleanup instant } }
  | .alter users db => some { s with
      users
      db := { db with
        users := users.rows.map User.id
        messages := s.db.messages
        readStates := s.db.readStates } }
  | .tick d => some { s with now := s.now + d }

/-! ## In whose name -/

/-- The action presents the token of the user, or names the user as an author over REST. -/
def Uses (v : UserId) (s : Server) : Action → Prop
  | .first _ (.text rawToken) _ _ =>
    ∃ user ∈ s.users.rows, user.id = v ∧ user.token = bearer rawToken
  | .login req _ =>
    ∃ user ∈ s.users.rows, user.id = v ∧ user.username = req.username ∧ user.token = req.token
  | .post _ req _ _ => req.authorId = v
  | _ => False

/-- A JWT that is presented and can be read was given out, for the user it names. -/
def Unforged (s : Server) : Action → Prop
  | .first _ (.text rawToken) _ _ => ∀ claims ∈ (jwt.decode s.now (bearer rawToken)).toOption,
    (claims.sub, bearer rawToken) ∈ s.issued
  | _ => True

/-- The user is not connected, has no JWT and no timer. -/
structure Absent (v : UserId) (s : Server) : Prop where
  connections : ∀ k sid, s.connections.lookup k ≠ some (.serving v sid)
  issued : ∀ p ∈ s.issued, p.1 ≠ v
  sessions : s.app.presence.sessions.vec v = []
  timers : ∀ n timer, s.app.presence.timers.lookup n = some timer → timer.userId ≠ v

instance (v : UserId) (s : Server) : (a : Action) → Decidable (Uses v s a)
  | .first _ (.text rawToken) _ _ => inferInstanceAs (Decidable
      (∃ user ∈ s.users.rows, user.id = v ∧ user.token = bearer rawToken))
  | .login req _ => inferInstanceAs (Decidable (∃ user ∈ s.users.rows,
      user.id = v ∧ user.username = req.username ∧ user.token = req.token))
  | .post _ req _ _ => inferInstanceAs (Decidable (req.authorId = v))
  | .first _ .other _ _ | .accept _ | .timeout _ | .text _ _ _ | .leave _ | .reap _ _ | .expire _
  | .cancel _ | .deliver _ _ | .sweep _ | .alter _ _ | .tick _ => .isFalse id

instance (s : Server) : (a : Action) → Decidable (Unforged jwt s a)
  | .first _ (.text rawToken) _ _ => inferInstanceAs (Decidable
      (∀ claims ∈ (jwt.decode s.now (bearer rawToken)).toOption,
        (claims.sub, bearer rawToken) ∈ s.issued))
  | .first _ .other _ _ | .login _ _ | .accept _ | .timeout _ | .text _ _ _ | .leave _ | .reap _ _
  | .expire _ | .cancel _ | .post _ _ _ _ | .deliver _ _ | .sweep _ | .alter _ _ | .tick _ =>
    .isTrue trivial

variable {jwt client json offlineDebounce} {s t : Server} {a : Action} {v : UserId}

/-! ## What a step does -/

theorem login_cases {req : LoginRequest} {query : Except DbError Unit}
    (hstep : s.step jwt client json offlineDebounce (.login req query) = some t) :
    t = s ∨ ∃ response, login jwt s.now s.users query req = .ok response ∧
      t = { s with issued := (response.user.id, response.token) :: s.issued } := by
  simp only [step] at hstep
  split at hstep
  · exact .inl (Option.some.inj hstep).symm
  · next response hlogin => exact .inr ⟨response, hlogin, (Option.some.inj hstep).symm⟩

theorem accept_eq {k : ℕ} (hstep : s.step jwt client json offlineDebounce (.accept k) = some t) :
    t = { s with connections := s.connections.insert k (.waiting s.now) } := by
  simp only [step] at hstep
  split_ifs at hstep
  exact (Option.some.inj hstep).symm

/-- A first frame opens a session under a new id, or the connection is refused. -/
theorem first_cases {k : ℕ} {frame : FirstFrame} {query : Except DbError Unit} {sid : SessionId}
    (hstep : s.step jwt client json offlineDebounce (.first k frame query sid) = some t) :
    (∃ error, t = s.refuse k error) ∨
    ∃ rawToken user, frame = .text rawToken ∧ sid ∉ s.opened ∧
      authenticate jwt s.now s.users query rawToken = .ok user ∧ t = s.openSession k user sid := by
  simp only [step] at hstep
  split at hstep
  · split_ifs at hstep with hok
    cases frame with
    | other => exact .inl ⟨none, (Option.some.inj hstep).symm⟩
    | text rawToken =>
      dsimp only at hstep
      split at hstep
      · next e _ => exact .inl ⟨some e, (Option.some.inj hstep).symm⟩
      · next user huser =>
        exact .inr ⟨rawToken, user, rfl, (not_or.1 hok).2, huser, (Option.some.inj hstep).symm⟩
  · cases hstep

theorem timeout_eq {k : ℕ} (hstep : s.step jwt client json offlineDebounce (.timeout k) = some t) :
    t = s.refuse k none := by
  simp only [step] at hstep
  split at hstep
  · split_ifs at hstep
    exact (Option.some.inj hstep).symm
  · cases hstep

theorem text_cases {k : ℕ} {text : String} {w : DispatchAnswers}
    (hstep : s.step jwt client json offlineDebounce (.text k text w) = some t) :
    ∃ u sid, s.connections.lookup k = some (.serving u sid) ∧
      t = { s with
        app := (s.app.handleClientMessage client json w s.db u text).app
        db := (s.app.handleClientMessage client json w s.db u text).db } := by
  simp only [step] at hstep
  split at hstep
  · next u sid hserving => exact ⟨u, sid, hserving, (Option.some.inj hstep).symm⟩
  · cases hstep

theorem leave_cases {k : ℕ} (hstep : s.step jwt client json offlineDebounce (.leave k) = some t) :
    ∃ u sid, s.connections.lookup k = some (.serving u sid) ∧
      t = s.closeSession offlineDebounce k u sid := by
  simp only [step] at hstep
  split at hstep
  · next u sid hserving => exact ⟨u, sid, hserving, (Option.some.inj hstep).symm⟩
  · cases hstep

theorem reap_cases {u : UserId} {sid : SessionId}
    (hstep : s.step jwt client json offlineDebounce (.reap u sid) = some t) :
    sid ∈ (s.app.presence.sessions.vec u).map Session.sessionId ∧
      t = s.setPresence (s.app.presence.cleanup offlineDebounce s.now u sid) := by
  simp only [step] at hstep
  split_ifs at hstep with hmem
  exact ⟨hmem, (Option.some.inj hstep).symm⟩

theorem expire_cases {n : NotifyId}
    (hstep : s.step jwt client json offlineDebounce (.expire n) = some t) :
    ∃ timer, s.app.presence.timers.lookup n = some timer ∧
      t = s.setPresence (s.app.presence.expire n timer) := by
  simp only [step] at hstep
  split at hstep
  · next timer htimer =>
    split_ifs at hstep
    exact ⟨timer, htimer, (Option.some.inj hstep).symm⟩
  · cases hstep

theorem cancel_eq {n : NotifyId}
    (hstep : s.step jwt client json offlineDebounce (.cancel n) = some t) :
    t = s.setPresence { s.app.presence with timers := s.app.presence.timers.erase n } := by
  simp only [step] at hstep
  split_ifs at hstep
  exact (Option.some.inj hstep).symm

/-! ## Who is absent -/

/-- Who is admitted is not a user who is absent and whose token is not presented. -/
theorem Absent.ne_of_authenticate (h : Absent v s) {k : ℕ} {rawToken : String}
    {query : Except DbError Unit} {sid : SessionId} {user : User}
    (huses : ¬ Uses v s (.first k (.text rawToken) query sid))
    (hunforged : Unforged jwt s (.first k (.text rawToken) query sid))
    (huser : authenticate jwt s.now s.users query rawToken = .ok user) : user.id ≠ v := by
  intro hv
  obtain ⟨-, ⟨claims, hclaims, hfound⟩ | ⟨-, hfound⟩⟩ := authenticate_ok_iff.1 huser
  · obtain ⟨-, hid⟩ := Users.byId_eq_some_iff.1 hfound
    exact h.issued _ (hunforged claims (by rw [hclaims]; rfl)) (hid.symm.trans hv)
  · obtain ⟨hmem, htoken⟩ := Users.byToken_mem hfound
    exact huses ⟨user, hmem, hv, htoken⟩

theorem Absent.erase (h : Absent v s) (k : ℕ) :
    ∀ k' sid, (s.connections.erase k).lookup k' ≠ some (.serving v sid) := by
  intro k' sid hserving
  rw [DashMap.lookup_erase_ite] at hserving
  split_ifs at hserving
  exact h.connections k' sid hserving

theorem Absent.refuse (h : Absent v s) (k : ℕ) (error : Option AppError) :
    Absent v (s.refuse k error) := ⟨h.erase k, h.issued, h.sessions, h.timers⟩

/-- What the presence operations on other users leave alone. -/
structure Spares (v : UserId) (p p' : Presence) : Prop where
  sessions : p'.sessions.vec v = p.sessions.vec v
  tracker : Tracker.SameFor v p.tracker p'.tracker
  timers : ∀ n timer, p'.timers.lookup n = some timer → timer.userId = v →
    p.timers.lookup n = some timer

theorem spares_openSession (p : Presence) {x : Session} (h : x.userId ≠ v) :
    Spares v p (p.openSession x) := by
  refine ⟨?_, ⟨Tracker.getStatus_onSessionOpen_of_ne (Ne.symm h), ?_⟩, fun _ _ hlook _ => hlook⟩
  · exact (SessionStore.vec_insert p.sessions x v).trans (if_neg (Ne.symm h))
  · have hentry : ((p.tracker.cancelPending x.userId).openEntry x.userId).2.broadcasts =
        p.tracker.broadcasts := by
      rw [Tracker.openEntry, Tracker.cancelPending_eq]
      dsimp only
      split
      · split_ifs <;> rfl
      · rfl
    rw [Presence.openSession, Tracker.onSessionOpen]
    cases hopen : (p.tracker.cancelPending x.userId).openEntry x.userId with
    | mk changed tr =>
      rw [hopen] at hentry
      cases changed with
      | true =>
        refine (Tracker.updatesOf_broadcast_of_ne (Ne.symm h) tr .online).trans ?_
        rw [Tracker.updatesOf, hentry]
        rfl
      | false =>
        dsimp only
        rw [Tracker.updatesOf, hentry]
        rfl

theorem spares_cleanup (p : Presence) (offlineDebounce now : ℕ) {u : UserId} (h : u ≠ v)
    (sid : SessionId) : Spares v p (p.cleanup offlineDebounce now u sid) := by
  have hvec : (p.sessions.remove u sid).2.vec v = p.sessions.vec v :=
    (SessionStore.remove_vec p.sessions u sid v).trans (if_neg (Ne.symm h))
  unfold Presence.cleanup
  dsimp only
  split_ifs
  · exact ⟨hvec, ⟨rfl, rfl⟩, fun _ _ hlook _ => hlook⟩
  · refine ⟨hvec, Tracker.sameFor_onAllSessionsClosed, fun n timer hlook htimer => ?_⟩
    rw [DashMap.lookup_insert_ite] at hlook
    split_ifs at hlook
    · rw [← Option.some.inj hlook] at htimer
      exact absurd htimer h
    · exact hlook

theorem spares_expire (p : Presence) {n : NotifyId} {timer : Timer} (h : timer.userId ≠ v) :
    Spares v p (p.expire n timer) := by
  refine ⟨rfl, Tracker.sameFor_debounced (Ne.symm h), fun m tm hlook _ => ?_⟩
  rw [Presence.expire, DashMap.lookup_erase_ite] at hlook
  split_ifs at hlook
  exact hlook

theorem spares_cancel (p : Presence) (n : NotifyId) :
    Spares v p { p with timers := p.timers.erase n } := by
  refine ⟨rfl, ⟨rfl, rfl⟩, fun m tm hlook _ => ?_⟩
  dsimp only at hlook
  rw [DashMap.lookup_erase_ite] at hlook
  split_ifs at hlook
  exact hlook

theorem Absent.setPresence (h : Absent v s) {p : Presence} (hp : Spares v s.app.presence p) :
    Absent v (s.setPresence p) ∧ SameOf v s.app (s.setPresence p).app s.db s.db :=
  ⟨⟨h.connections, h.issued, hp.sessions.trans h.sessions,
    fun n timer hlook htimer => h.timers n timer (hp.timers n timer hlook htimer) htimer⟩,
    ⟨.refl v s.db, fun _ => rfl, hp.tracker⟩⟩

theorem sendMessage_spares (json : Json) (w w' : Answers) (node : Node) (db : Database)
    (channelId : ChannelId) {req : SendMessageRequest} (h : req.authorId ≠ v) :
    SameMessages v db (node.sendMessage json w w' db channelId req).db := by
  unfold Node.sendMessage
  cases hpersist : persist w db req.authorId channelId req.content with
  | error e => exact .refl v db
  | ok stored =>
    obtain ⟨message, db'⟩ := stored
    obtain ⟨rfl, hnew, rfl⟩ := persist_ok hpersist
    exact (SameMessages.insert hnew h).trans (handleSend_messages h)

theorem Absent.login (h : Absent v s) {req : LoginRequest} {query : Except DbError Unit}
    {response : LoggedIn} (huses : ¬ Uses v s (.login req query))
    (hlogin : RustRelay.login jwt s.now s.users query req = .ok response) :
    Absent v { s with issued := (response.user.id, response.token) :: s.issued } := by
  obtain ⟨-, user, hmem, hname, htoken, -, hresponse⟩ := login_ok_iff.1 hlogin
  refine ⟨h.connections, List.forall_mem_cons.2 ⟨fun hv => ?_, h.issued⟩, h.sessions, h.timers⟩
  rw [hresponse] at hv
  exact huses ⟨user, hmem, hv, hname, htoken⟩

theorem Absent.accept (h : Absent v s) (k : ℕ) :
    Absent v { s with connections := s.connections.insert k (.waiting s.now) } := by
  refine ⟨fun k' sid hserving => ?_, h.issued, h.sessions, h.timers⟩
  rw [DashMap.lookup_insert_ite] at hserving
  split_ifs at hserving
  · cases hserving
  · exact h.connections k' sid hserving

theorem Absent.openSession (h : Absent v s) {user : User} (hne : user.id ≠ v) (k : ℕ)
    (sid : SessionId) : Absent v (s.openSession k user sid) ∧
      SameOf v s.app (s.openSession k user sid).app s.db s.db := by
  obtain ⟨habsent, hkept⟩ :=
    h.setPresence (spares_openSession s.app.presence (x := ⟨sid, user.id⟩) hne)
  refine ⟨⟨fun k' sid' hserving => ?_, h.issued, habsent.sessions, habsent.timers⟩, hkept⟩
  rw [Server.openSession, DashMap.lookup_insert_ite] at hserving
  split_ifs at hserving
  · obtain ⟨hid, -⟩ := ConnectionState.serving.inj (Option.some.inj hserving)
    exact hne hid
  · exact h.connections k' sid' hserving

theorem Absent.closeSession (h : Absent v s) {u : UserId} (hne : u ≠ v) (offlineDebounce k : ℕ)
    (sid : SessionId) : Absent v (s.closeSession offlineDebounce k u sid) ∧
      SameOf v s.app (s.closeSession offlineDebounce k u sid).app s.db s.db := by
  obtain ⟨habsent, hkept⟩ :=
    h.setPresence (spares_cleanup s.app.presence offlineDebounce s.now hne sid)
  exact ⟨⟨h.erase k, h.issued, habsent.sessions, habsent.timers⟩,
    ⟨hkept.messages, hkept.readStates, hkept.presence⟩⟩

theorem Absent.text (h : Absent v s) {u : UserId} (hne : u ≠ v) (client : Serde ClientMessage)
    (json : Json) (w : DispatchAnswers) (text : String) :
    let d := s.app.handleClientMessage client json w s.db u text
    Absent v { s with app := d.app, db := d.db } ∧ SameOf v s.app d.app s.db d.db := by
  intro d
  obtain ⟨hkept, hsessions, htimers⟩ := handleClientMessage_frame client json w s.app s.db hne text
  refine ⟨⟨h.connections, h.issued, ?_, fun n timer hlook => h.timers n timer ?_⟩, hkept⟩
  · rw [hsessions]
    exact h.sessions
  · rw [← htimers]
    exact hlook

/-- **One step.** -/
theorem step_absent (h : Absent v s) (huses : ¬ Uses v s a) (hunforged : Unforged jwt s a)
    (hstep : s.step jwt client json offlineDebounce a = some t) :
    Absent v t ∧ SameOf v s.app t.app s.db t.db := by
  have hsame : SameOf v s.app s.app s.db s.db := .refl v s.app s.db
  cases a with
  | login req query =>
    rcases login_cases hstep with rfl | ⟨response, hlogin, rfl⟩
    · exact ⟨h, hsame⟩
    · exact ⟨h.login huses hlogin, hsame⟩
  | accept k =>
    obtain rfl := accept_eq hstep
    exact ⟨h.accept k, hsame⟩
  | first k frame query sid =>
    rcases first_cases hstep with ⟨error, rfl⟩ | ⟨rawToken, user, rfl, -, huser, rfl⟩
    · exact ⟨h.refuse k error, hsame⟩
    · exact h.openSession (h.ne_of_authenticate huses hunforged huser) k sid
  | timeout k =>
    obtain rfl := timeout_eq hstep
    exact ⟨h.refuse k none, hsame⟩
  | text k text w =>
    obtain ⟨u, sid, hserving, rfl⟩ := text_cases hstep
    exact h.text (fun hu => h.connections k sid (hu ▸ hserving)) client json w text
  | leave k =>
    obtain ⟨u, sid, hserving, rfl⟩ := leave_cases hstep
    exact h.closeSession (fun hu => h.connections k sid (hu ▸ hserving)) offlineDebounce k sid
  | reap u sid =>
    obtain ⟨hmem, rfl⟩ := reap_cases hstep
    have hne : u ≠ v := by
      rintro rfl
      rw [h.sessions] at hmem
      cases hmem
    exact h.setPresence (spares_cleanup s.app.presence offlineDebounce s.now hne sid)
  | expire n =>
    obtain ⟨timer, htimer, rfl⟩ := expire_cases hstep
    exact h.setPresence (spares_expire s.app.presence (h.timers n timer htimer))
  | cancel n =>
    obtain rfl := cancel_eq hstep
    exact h.setPresence (spares_cancel s.app.presence n)
  | post channelId req w w' =>
    obtain rfl := Option.some.inj hstep
    exact ⟨⟨h.connections, h.issued, h.sessions, h.timers⟩,
      ⟨sendMessage_spares json w w' s.app.node s.db channelId huses, fun _ => rfl, rfl, rfl⟩⟩
  | deliver | sweep =>
    obtain rfl := Option.some.inj hstep
    exact ⟨⟨h.connections, h.issued, h.sessions, h.timers⟩, ⟨.refl v s.db, fun _ => rfl, rfl, rfl⟩⟩
  | alter users db =>
    obtain rfl := Option.some.inj hstep
    exact ⟨⟨h.connections, h.issued, h.sessions, h.timers⟩,
      ⟨fun _ _ _ => Iff.rfl, fun _ => rfl, rfl, rfl⟩⟩
  | tick d =>
    obtain rfl := Option.some.inj hstep
    exact ⟨⟨h.connections, h.issued, h.sessions, h.timers⟩, hsame⟩

/-- **Nothing happens in the name of a user who is absent**, whatever the others do. -/
theorem nothing_in_their_name (jwt : Jwt) (client : Serde ClientMessage) (json : Json)
    (offlineDebounce : ℕ) (v : UserId) (s t : Server) (as : List Action) (h : Absent v s)
    (hquiet : Along (step jwt client json offlineDebounce)
      (fun s a => ¬ Uses v s a ∧ Unforged jwt s a) s as)
    (hrun : exec (step jwt client json offlineDebounce) s as = some t) :
    Absent v t ∧ SameOf v s.app t.app s.db t.db := by
  have hinv := exec_invariant_along (I := fun r => Absent v r ∧ SameOf v s.app r.app s.db r.db)
    (fun r a r' hr hok hstep => ?_) ⟨h, .refl v s.app s.db⟩ hquiet hrun
  · exact hinv
  · obtain ⟨habsent, hsame⟩ := step_absent hr.1 hok.1 hok.2 hstep
    exact ⟨habsent, hr.2.trans hsame⟩

/-! ### A user who is logged in next to one who is not -/

/-- Users 1 and 2, and a node that has just started. -/
def twoUsers : Server where
  users := ⟨[⟨1, "alice", "token_alice"⟩, ⟨2, "bob", "token_bob"⟩], by decide, by decide⟩
  db := pair
  app := ⟨⟨"node-1", ⟨"node-1", true⟩, ∅, 300⟩, .init, ⟨fun _ => [], fun _ => false⟩, .new⟩
  now := 1000
  connections := ∅
  opened := []
  issued := []
  refused := []

/-- The JWT of the second one. -/
def bobToken : String := "eyJhbGciOiJIUzI1NiJ9.eyJzdWIiOiJib2IifQ.c2ln"

def bobClaims : Claims := ⟨2, "bob", 1000 + 24 * 3600⟩

def bobJwt : Jwt where
  encode claims := if claims = bobClaims then .ok bobToken else .error "unknown claims"
  decode now text :=
    if text = bobToken then
      if now ≤ bobClaims.exp + 60 then .ok bobClaims else .error "ExpiredSignature"
    else .error "InvalidToken"

def bobClient : Serde ClientMessage := .two (.heartbeat 5) (.ackMessage 20 9) "heartbeat" "ack"

/-- User 2 logs in, connects with the JWT and reads up to message 9. -/
def bobReads : List Action :=
  [.login ⟨"bob", "token_bob"⟩ (.ok ()), .accept 0,
    .first 0 (.text ("Bearer " ++ bobToken)) (.ok ()) 30,
    .text 0 "ack" ⟨allWell, 0⟩, .tick 60, .leave 0]

theorem nothing_in_their_name_bobReads :
    ∃ t, exec (step bobJwt bobClient greetingJson 5) twoUsers bobReads = some t ∧
      Absent 1 t ∧ SameOf 1 twoUsers.app t.app twoUsers.db t.db := by
  have hrun : (exec (step bobJwt bobClient greetingJson 5) twoUsers bobReads).isSome = true := by
    decide +kernel
  obtain ⟨t, ht⟩ := Option.isSome_iff_exists.1 hrun
  refine ⟨t, ht, nothing_in_their_name bobJwt bobClient greetingJson 5 1 twoUsers t bobReads
    ⟨nofun, nofun, rfl, nofun⟩ (by decide +kernel) ht⟩

/-! ## How long a login is good for -/

theorem step_issued (hstep : s.step jwt client json offlineDebounce a = some t) :
    s.issued <:+ t.issued := by
  have hsame : s.issued <:+ s.issued := List.suffix_refl _
  cases a with
  | login req query =>
    rcases login_cases hstep with rfl | ⟨response, -, rfl⟩
    · exact hsame
    · exact List.suffix_cons _ _
  | accept k =>
    obtain rfl := accept_eq hstep
    exact hsame
  | first k frame query sid =>
    rcases first_cases hstep with ⟨error, rfl⟩ | ⟨rawToken, user, -, -, -, rfl⟩ <;> exact hsame
  | timeout k =>
    obtain rfl := timeout_eq hstep
    exact hsame
  | text k text w =>
    obtain ⟨u, sid, -, rfl⟩ := text_cases hstep
    exact hsame
  | leave k =>
    obtain ⟨u, sid, -, rfl⟩ := leave_cases hstep
    exact hsame
  | reap u sid =>
    obtain ⟨-, rfl⟩ := reap_cases hstep
    exact hsame
  | expire n =>
    obtain ⟨timer, -, rfl⟩ := expire_cases hstep
    exact hsame
  | cancel n =>
    obtain rfl := cancel_eq hstep
    exact hsame
  | post | deliver | sweep | alter | tick =>
    obtain rfl := Option.some.inj hstep
    exact hsame

/-- **How long a login is good for**: for 24 hours and a minute, if the user still exists, and then
only as a token that some user has. -/
theorem login_admits (hjwt : jwt.Lawful) {req : LoginRequest} {response : LoggedIn}
    {as : List Action} {s' : Server} {query : Except DbError Unit}
    (hlogin : login jwt s.now s.users query req = .ok response)
    (hstep : s.step jwt client json offlineDebounce (.login req query) = some s')
    (hrun : exec (step jwt client json offlineDebounce) s' as = some t) {k since : ℕ}
    (hwaiting : t.connections.lookup k = some (.waiting since)) (htime : t.now ≤ since + 5)
    {sid : SessionId} (hsid : sid ∉ t.opened) {before after : List Char}
    (hbefore : ∀ c ∈ before, isWhitespace c) (hafter : ∀ c ∈ after, isWhitespace c)
    {text : List Char}
    (htext : text = response.token.toList ∨ text = scheme ++ response.token.toList) :
    (response.user.id, response.token) ∈ t.issued ∧
      t.step jwt client json offlineDebounce
        (.first k (.text (.ofList (before ++ text ++ after))) (.ok ()) sid) =
      some (if t.now ≤ s.now + 24 * 3600 + 60 then
        (t.users.byId response.user.id).elim (t.refuse k (some (.auth "User not found")))
          fun user => t.openSession k user sid
      else (t.users.byToken response.token).elim (t.refuse k (some (.auth "Invalid token")))
        fun user => t.openSession k user sid) := by
  obtain ⟨-, user, -, -, -, hencode, huser⟩ := login_ok_iff.1 hlogin
  obtain ⟨hne, hplain⟩ := hjwt.plain _ _ hencode
  have hbearer : bearer (.ofList (before ++ text ++ after)) = response.token := by
    obtain ⟨hraw, hscheme⟩ := bearer_padded hbefore hafter hne hplain
    rcases htext with rfl | rfl
    · exact hraw
    · exact hscheme
  constructor
  · have hissued : (response.user.id, response.token) ∈ s'.issued := by
      simp only [step, hlogin] at hstep
      rw [← Option.some.inj hstep]
      exact List.mem_cons_self
    refine exec_invariant (I := fun r => (response.user.id, response.token) ∈ r.issued)
      (fun r a q hr hq => ?_) hissued hrun
    exact (step_issued hq).subset hr
  · have hok : ¬ (since + 5 < t.now ∨ sid ∈ t.opened) := by
      rintro (hlate | hmem)
      · omega
      · exact hsid hmem
    have hid : response.user.id = user.id := by rw [huser]
    simp only [step, hwaiting, if_neg hok, authenticate, validateToken, hbearer]
    split_ifs with hlive
    · rw [hjwt.decode_encode _ _ _ hencode hlive, hid]
      dsimp only
      cases t.users.byId user.id <;> rfl
    · obtain ⟨e, he⟩ := hjwt.decode_expired _ _ _ hencode (not_le.1 hlive)
      rw [he]
      dsimp only
      cases t.users.byToken response.token <;> rfl

theorem bobJwt_lawful : bobJwt.Lawful where
  decode_encode claims text now hencode hlive := by
    simp only [bobJwt] at hencode ⊢
    split_ifs at hencode with hclaims
    subst hclaims
    rw [if_pos (Except.ok.inj hencode).symm, if_pos hlive]
  decode_expired claims text now hencode hexpired := by
    simp only [bobJwt] at hencode ⊢
    split_ifs at hencode with hclaims
    subst hclaims
    exact ⟨_, by rw [if_pos (Except.ok.inj hencode).symm, if_neg (not_le.2 hexpired)]⟩
  plain claims text hencode := by
    simp only [bobJwt] at hencode
    split_ifs at hencode
    rw [← Except.ok.inj hencode]
    have hplain : (bobToken.toList.all fun c => !isWhitespace c) = true := by decide +kernel
    exact ⟨by decide, by simpa using hplain⟩

/-- An hour after the login of user 2 a connection waits. -/
def bobWaits : Server :=
  { twoUsers with
    issued := [(2, bobToken)]
    now := 4600
    connections := AList.insert 0 (.waiting 4600) ∅ }

theorem login_admits_bob :
    (step bobJwt bobClient greetingJson 5 bobWaits
      (.first 0 (.text (.ofList ([' '] ++ (scheme ++ bobToken.toList) ++ ['\n']))) (.ok ()) 30)).map
      (fun t => t.connections.lookup 0) = some (some (.serving 2 30)) := by
  have hlogin : login bobJwt twoUsers.now twoUsers.users (.ok ()) ⟨"bob", "token_bob"⟩ =
      .ok ⟨bobToken, ⟨2, "bob"⟩⟩ := by rfl
  have hstep : step bobJwt bobClient greetingJson 5 twoUsers
      (.login ⟨"bob", "token_bob"⟩ (.ok ())) =
      some { twoUsers with issued := [(2, bobToken)] } := by rfl
  have hrun : exec (step bobJwt bobClient greetingJson 5)
      { twoUsers with issued := [(2, bobToken)] } [.tick 3600, .accept 0] = some bobWaits := by rfl
  have hwaiting : bobWaits.connections.lookup 0 = some (.waiting 4600) := rfl
  have hsid : (30 : SessionId) ∉ bobWaits.opened := List.not_mem_nil
  have hbefore : ∀ c ∈ [' '], isWhitespace c := List.forall_mem_singleton.2 rfl
  have hafter : ∀ c ∈ ['\n'], isWhitespace c := List.forall_mem_singleton.2 rfl
  have hadmits := (login_admits bobJwt_lawful hlogin hstep hrun hwaiting (by decide) hsid hbefore
    hafter (.inr rfl)).2
  rw [hadmits]
  rfl

end Server

end RustRelay
