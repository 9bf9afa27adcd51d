import RustRelay.Core.Run
import RustRelay.Gateway.Session

/-!
# Connections and the heartbeat monitor

Each connection registers its session, sends READY, and then reads frames until its client is
gone: a text frame stores the heartbeat and is dispatched, a ping only stores the heartbeat. The
monitor looks for silent sessions and then removes them one by one. The store operations are
single steps.

The session of a connection is registered until a monitor pass goes over it (`Inv`). Removing it
drops its sender and ends the writer task; the reader of the connection is a task of its own, and
nothing stops it.
-/

namespace RustRelay

open Machine

/-! ## Connections -/

/-- Where `handle_connection` is, from the registration of the session on. -/
inductive ConnectionPhase
  /-- READY is being sent. -/
  | opening
  /-- The reader loop waits for a frame. -/
  | reading
  /-- A text frame came and the heartbeat is stored; `handle_client_message` is next. The text is
  `none` if it is no client message. -/
  | received (text : Option ClientMessage)
  deriving DecidableEq, Repr

structure Connection where
  userId : UserId
  phase : ConnectionPhase
  deriving DecidableEq, Repr

structure Serving where
  sessions : SessionStore
  /-- The connections whose `handle_connection` has not returned. -/
  connections : DashMap SessionId Connection
  /-- The `last_heartbeat` cell of each session, in seconds. -/
  lastHeartbeat : SessionId → ℕ
  now : ℕ
  /-- What the monitor pass found and has not gone over yet. -/
  stale : List (UserId × SessionId)
  /-- What monitor passes have gone over. -/
  passed : List SessionId
  /-- The session ids that were given out. -/
  opened : List SessionId
  /-- The messages that were dispatched, the latest first. -/
  dispatched : List (SessionId × ClientMessage)

/-- `find_stale_sessions`. -/
def SessionStore.findStaleSessions (st : SessionStore) (lastHeartbeat : SessionId → ℕ)
    (now timeoutSecs : ℕ) : List (UserId × SessionId) :=
  st.sessions.entries.flatMap fun entry =>
    (entry.2.filter fun s => timeoutSecs < now - lastHeartbeat s.sessionId).map fun s =>
      (entry.1, s.sessionId)

theorem SessionStore.mem_findStaleSessions {st : SessionStore} {lastHeartbeat : SessionId → ℕ}
    {now timeoutSecs : ℕ} {u : UserId} {sid : SessionId} :
    (u, sid) ∈ st.findStaleSessions lastHeartbeat now timeoutSecs ↔
      ∃ x ∈ st.vec u, x.sessionId = sid ∧ timeoutSecs < now - lastHeartbeat sid :=
  mem_entries_flatMap fun sid => timeoutSecs < now - lastHeartbeat sid

namespace Serving

def init : Serving := ⟨.new, ∅, fun _ => 0, 0, [], [], [], []⟩

inductive Action
  /-- A client authenticates: `sessions.insert`, with a new session id. -/
  | connect (session : Session)
  /-- READY was sent. -/
  | ready (sessionId : SessionId)
  /-- A text frame comes; the heartbeat is stored. -/
  | text (sessionId : SessionId) (text : Option ClientMessage)
  /-- `handle_client_message`. -/
  | dispatch (sessionId : SessionId)
  /-- A ping comes; the heartbeat is stored. -/
  | ping (sessionId : SessionId)
  /-- READY failed, or the client closed or broke the connection: `cleanup`. -/
  | close (sessionId : SessionId)
  /-- The monitor wakes up: `find_stale_sessions`. -/
  | scan
  /-- The monitor removes the next session it found. -/
  | reap
  | tick (seconds : ℕ)
  deriving DecidableEq, Repr

/-- The connection goes to another phase. -/
def setPhase (s : Serving) (sid : SessionId) (c : Connection) (phase : ConnectionPhase) : Serving :=
  { s with connections := s.connections.insert sid { c with phase } }

variable (timeoutSecs : ℕ)

def step (s : Serving) : Action → Option Serving
  | .connect x =>
    if x.sessionId ∈ s.opened then none
    else some { s with
      sessions := s.sessions.insert x
      connections := s.connections.insert x.sessionId ⟨x.userId, .opening⟩
      lastHeartbeat := Function.update s.lastHeartbeat x.sessionId s.now
      opened := x.sessionId :: s.opened }
  | .ready sid => match s.connections.lookup sid with
    | some ⟨u, .opening⟩ => some (s.setPhase sid ⟨u, .opening⟩ .reading)
    | _ => none
  | .text sid text => match s.connections.lookup sid with
    | some ⟨u, .reading⟩ => some { s.setPhase sid ⟨u, .reading⟩ (.received text) with
        lastHeartbeat := Function.update s.lastHeartbeat sid s.now }
    | _ => none
  | .dispatch sid => match s.connections.lookup sid with
    | some ⟨u, .received text⟩ => some { s.setPhase sid ⟨u, .received text⟩ .reading with
        dispatched := text.toList.map (fun message => (sid, message)) ++ s.dispatched }
    | _ => none
  | .ping sid => match s.connections.lookup sid with
    | some ⟨_, .reading⟩ =>
      some { s with lastHeartbeat := Function.update s.lastHeartbeat sid s.now }
    | _ => none
  | .close sid => match s.connections.lookup sid with
    | some ⟨_, .received _⟩ | none => none
    | some ⟨u, _⟩ => some { s with
        sessions := (s.sessions.remove u sid).2
        connections := s.connections.erase sid }
  | .scan =>
    if s.stale = [] then
      some { s with stale := s.sessions.findStaleSessions s.lastHeartbeat s.now timeoutSecs }
    else none
  | .reap => match s.stale with
    | [] => none
    | (u, sid) :: rest => some { s with
        sessions := (s.sessions.remove u sid).2
        stale := rest
        passed := sid :: s.passed }
  | .tick seconds => some { s with now := s.now + seconds }

/-- A message is dispatched only while the session of the connection is registered. -/
def Registered (s : Serving) : Action → Prop
  | .dispatch sid => ∀ c ∈ s.connections.lookup sid, ⟨sid, c.userId⟩ ∈ s.sessions.vec c.userId
  | _ => True

/-- A message is dispatched only before the monitor has gone over the session. -/
def NotPassed (s : Serving) : Action → Prop
  | .dispatch sid => sid ∉ s.passed
  | _ => True

/-! ## The invariant -/

/-- The user of a connection. -/
def user (s : Serving) (sid : SessionId) : Option UserId :=
  (s.connections.lookup sid).map Connection.userId

structure Inv (s : Serving) : Prop where
  owner : ∀ u, ∀ x ∈ s.sessions.vec u, x.userId = u
  /-- A registered session has its connection. -/
  known : ∀ u, ∀ x ∈ s.sessions.vec u, s.user x.sessionId = some u
  opened : ∀ sid u, s.user sid = some u → sid ∈ s.opened
  stale : ∀ p ∈ s.stale, p.2 ∈ s.opened ∧ ∀ u, s.user p.2 = some u → u = p.1
  passed : ∀ sid ∈ s.passed, sid ∈ s.opened
  /-- The session of a connection is registered until the monitor goes over it. -/
  registered : ∀ sid u, s.user sid = some u →
    (⟨sid, u⟩ ∈ s.sessions.vec u ↔ sid ∉ s.passed)

variable {timeoutSecs} {s s' : Serving}

theorem user_setPhase {sid : SessionId} {c : Connection} (hc : s.connections.lookup sid = some c)
    (phase : ConnectionPhase) (sid' : SessionId) :
    (s.setPhase sid c phase).user sid' = s.user sid' := by
  simp only [user, setPhase, DashMap.lookup_insert_ite]
  split_ifs with h
  · rw [h, hc]; rfl
  · rfl

theorem Inv.congr (h : s.Inv) (hsessions : s'.sessions = s.sessions)
    (huser : ∀ sid, s'.user sid = s.user sid) (hstale : s'.stale = s.stale)
    (hpassed : s'.passed = s.passed) (hopened : s'.opened = s.opened) : s'.Inv where
  owner := by rw [hsessions]; exact h.owner
  known u x hx := by
    rw [huser]
    rw [hsessions] at hx
    exact h.known u x hx
  opened sid u hu := by
    rw [huser] at hu
    rw [hopened]
    exact h.opened sid u hu
  stale p hp := by
    rw [hstale] at hp
    rw [hopened, huser]
    exact h.stale p hp
  passed := by rw [hpassed, hopened]; exact h.passed
  registered sid u hu := by
    rw [huser] at hu
    rw [hsessions, hpassed]
    exact h.registered sid u hu

theorem mem_remove {u : UserId} {sid : SessionId} {v : UserId} {x : Session} :
    x ∈ (s.sessions.remove u sid).2.vec v ↔
      x ∈ s.sessions.vec v ∧ ¬(v = u ∧ x.sessionId = sid) := by
  rw [SessionStore.remove_vec]
  split_ifs with hv
  · simp [List.mem_filter, hv]
  · simp [hv]

theorem inv_connect (h : s.Inv) {x : Session}
    (hstep : s.step timeoutSecs (.connect x) = some s') : s'.Inv := by
  simp only [step] at hstep
  split_ifs at hstep with hopened
  obtain rfl := Option.some.inj hstep
  have hmem (u : UserId) (y : Session) : y ∈ (s.sessions.insert x).vec u ↔
      y ∈ s.sessions.vec u ∨ (y = x ∧ u = x.userId) := SessionStore.mem_vec_insert
  have huser (sid : SessionId) (connections : DashMap SessionId Connection)
      (hc : connections = s.connections.insert x.sessionId ⟨x.userId, .opening⟩) :
      (connections.lookup sid).map Connection.userId =
        if sid = x.sessionId then some x.userId else s.user sid := by
    rw [hc, DashMap.lookup_insert_ite]
    split_ifs <;> rfl
  -- ids of earlier connections are not the new one
  have hne {sid : SessionId} (hsid : sid ∈ s.opened) : sid ≠ x.sessionId :=
    ne_of_mem_of_not_mem hsid hopened
  refine ⟨?_, ?_, ?_, ?_, fun sid hsid => List.mem_cons_of_mem _ (h.passed sid hsid), ?_⟩
  · intro u y hy
    rcases (hmem u y).1 hy with hy | ⟨rfl, rfl⟩
    · exact h.owner u y hy
    · rfl
  · intro u y hy
    rw [user, huser _ _ rfl]
    rcases (hmem u y).1 hy with hy | ⟨rfl, rfl⟩
    · have hold := h.known u y hy
      rw [if_neg (hne (h.opened _ u hold)), hold]
    · rw [if_pos rfl]
  · intro sid u hu
    rw [user, huser _ _ rfl] at hu
    split_ifs at hu with hsid
    · rw [hsid]
      exact List.mem_cons_self
    · exact List.mem_cons_of_mem _ (h.opened sid u hu)
  · intro p hp
    obtain ⟨hsid, hstale⟩ := h.stale p hp
    refine ⟨List.mem_cons_of_mem _ hsid, ?_⟩
    intro u hu
    rw [user, huser _ _ rfl, if_neg (hne hsid)] at hu
    exact hstale u hu
  · intro sid u hu
    rw [user, huser _ _ rfl] at hu
    dsimp only
    rw [hmem]
    split_ifs at hu with hsid
    · obtain rfl := Option.some.inj hu
      have hx : (⟨sid, x.userId⟩ : Session) = x := by rw [hsid]
      refine ⟨fun _ hpassed => hopened (hsid ▸ h.passed sid hpassed), fun _ => .inr ⟨hx, rfl⟩⟩
    · rw [← h.registered sid u hu]
      refine or_iff_left fun hx => hsid ?_
      rw [← hx.1]

theorem inv_close (h : s.Inv) {sid : SessionId}
    (hstep : s.step timeoutSecs (.close sid) = some s') : s'.Inv := by
  obtain ⟨c, hc, rfl⟩ : ∃ c, s.connections.lookup sid = some c ∧
      s' = { s with
        sessions := (s.sessions.remove c.userId sid).2
        connections := s.connections.erase sid } := by
    simp only [step] at hstep
    split at hstep
    · exact absurd hstep nofun
    · exact absurd hstep nofun
    · next u phase _ hc => exact ⟨⟨u, phase⟩, hc, (Option.some.inj hstep).symm⟩
  have hsid : s.user sid = some c.userId := by rw [user, hc]; rfl
  have huser (sid' : SessionId) (connections : DashMap SessionId Connection)
      (hc : connections = s.connections.erase sid) :
      (connections.lookup sid').map Connection.userId =
        if sid' = sid then none else s.user sid' := by
    rw [hc, DashMap.lookup_erase_ite]
    split_ifs <;> rfl
  refine ⟨fun u y hy => h.owner u y (mem_remove.1 hy).1, ?_, ?_, ?_, h.passed, ?_⟩
  · intro u y hy
    obtain ⟨hy, hnot⟩ := mem_remove.1 hy
    have hknown := h.known u y hy
    rw [user, huser _ _ rfl, if_neg, hknown]
    intro heq
    rw [heq, hsid] at hknown
    exact hnot ⟨(Option.some.inj hknown).symm, heq⟩
  · intro sid' u hu
    rw [user, huser _ _ rfl] at hu
    split_ifs at hu
    exact h.opened sid' u hu
  · intro p hp
    obtain ⟨hopened, hstale⟩ := h.stale p hp
    refine ⟨hopened, ?_⟩
    intro u hu
    rw [user, huser _ _ rfl] at hu
    split_ifs at hu
    exact hstale u hu
  · intro sid' u hu
    rw [user, huser _ _ rfl] at hu
    split_ifs at hu with hne
    rw [mem_remove, ← h.registered sid' u hu]
    exact and_iff_left fun heq => hne heq.2

theorem inv_scan (h : s.Inv) (hstep : s.step timeoutSecs .scan = some s') : s'.Inv := by
  simp only [step] at hstep
  split_ifs at hstep
  obtain rfl := Option.some.inj hstep
  refine { h with stale := fun p hp => ?_ }
  obtain ⟨x, hx, hsid, -⟩ := SessionStore.mem_findStaleSessions.1 hp
  have huser := h.known p.1 x hx
  rw [hsid] at huser
  refine ⟨h.opened p.2 p.1 huser, ?_⟩
  intro u hu
  exact Option.some.inj (hu.symm.trans huser)

theorem inv_reap (h : s.Inv) (hstep : s.step timeoutSecs .reap = some s') : s'.Inv := by
  simp only [step] at hstep
  split at hstep
  · exact absurd hstep nofun
  · next u sid rest hrest =>
    obtain rfl := Option.some.inj hstep
    obtain ⟨hopened, hstale⟩ := h.stale (u, sid) (by rw [hrest]; exact List.mem_cons_self)
    refine ⟨fun v y hy => h.owner v y (mem_remove.1 hy).1,
      fun v y hy => h.known v y (mem_remove.1 hy).1, h.opened,
      fun p hp => h.stale p (by rw [hrest]; exact List.mem_cons_of_mem _ hp), ?_, ?_⟩
    · intro sid' hsid'
      rcases List.mem_cons.1 hsid' with rfl | hsid'
      · exact hopened
      · exact h.passed sid' hsid'
    · intro sid' v hv
      rw [mem_remove, List.mem_cons, not_or, ← h.registered sid' v hv, and_comm]
      refine and_congr_left fun _ => not_congr ⟨fun heq => heq.2, fun heq => ⟨?_, heq⟩⟩
      obtain rfl : sid' = sid := heq
      exact hstale v hv

/-- **Every step keeps the invariant.** -/
theorem step_inv {a : Action} (h : s.Inv) (hstep : s.step timeoutSecs a = some s') : s'.Inv := by
  cases a with
  | connect x => exact inv_connect h hstep
  | close sid => exact inv_close h hstep
  | scan => exact inv_scan h hstep
  | reap => exact inv_reap h hstep
  | tick seconds =>
    obtain rfl := Option.some.inj hstep
    exact h.congr rfl (fun _ => rfl) rfl rfl rfl
  | ready sid | text sid text | dispatch sid =>
    simp only [step] at hstep
    split at hstep
    · next hc =>
      obtain rfl := Option.some.inj hstep
      exact h.congr rfl (user_setPhase hc _) rfl rfl rfl
    · exact absurd hstep nofun
  | ping sid =>
    simp only [step] at hstep
    split at hstep
    · obtain rfl := Option.some.inj hstep
      exact h.congr rfl (fun _ => rfl) rfl rfl rfl
    · exact absurd hstep nofun

/-! ## Runs -/

theorem init_inv : init.Inv where
  owner _ _ hx := absurd hx List.not_mem_nil
  known _ _ hx := absurd hx List.not_mem_nil
  opened _ _ hu := absurd hu nofun
  stale _ hp := absurd hp List.not_mem_nil
  passed _ hsid := absurd hsid List.not_mem_nil
  registered _ _ hu := absurd hu nofun

/-- A message is dispatched by a registered connection exactly if the monitor did not pass it. -/
theorem registered_iff_notPassed {a : Action} (h : s.Inv)
    (hstep : s.step timeoutSecs a = some s') : s.Registered a ↔ s.NotPassed a := by
  cases a with
  | dispatch sid =>
    simp only [step] at hstep
    split at hstep
    · next u text hc =>
      have hsid : s.user sid = some u := by rw [user, hc]; rfl
      rw [NotPassed, ← h.registered sid u hsid, Registered, hc]
      exact ⟨fun hall => hall _ rfl, fun hmem c hc' => by rw [← Option.some.inj hc']; exact hmem⟩
    · exact absurd hstep nofun
  | connect | ready | text | ping | close | scan | reap | tick => exact Iff.rfl

end Serving

end RustRelay
