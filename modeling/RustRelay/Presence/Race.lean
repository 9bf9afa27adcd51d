import RustRelay.Core.Run
import RustRelay.Gateway.Session
import RustRelay.Presence.Tracker

/-!
# Reconnects against debounce timers

Connections of a node open and close while debounce timers run. Every operation on a `DashMap`
or a `Notify` is a step of its own; a task is at the operation it takes next.

* The open sequence: `sessions.insert`, then `on_session_open`.
* The close sequence, of `cleanup` and of the heartbeat monitor: `sessions.remove`, the
  `is_connected` check, then `on_all_sessions_closed`.
* The debounce task: it sleeps, and `select!` takes any branch that is ready when it is polled.

Undisturbed, they are the methods of the tracker and the store: `leads_open`, `leads_close`,
`leads_debounced`.

**Theorem (`not_shown_offline`).** A registered user whose sequences and timers are all done is
not shown as offline, provided that no timer wrote `Offline` *late*: while a session of the user
was registered and its open sequence had already made its state entry. A late write that nothing
follows leaves the user registered and shown as offline for good. `expired_reconnect` is a run
with one: the timer was notified in time, but `select!` took the branch of the sleep.
-/

namespace RustRelay

open Machine

/-! ## Tasks -/

/-- A task, at its next operation. -/
inductive Task
  /-- `sessions.insert(session)`. -/
  | insert (session : Session) (c : Call)
  /-- `on_session_open`: `pending_offline.remove`. -/
  | takeOpen (session : Session)
  /-- `notify.notify_one()`. -/
  | notifyOpen (session : Session) (notify : NotifyId)
  /-- `state.entry(user_id)`. -/
  | entry (session : Session)
  /-- `sessions.remove(user_id, session_id)`. -/
  | remove (userId : UserId) (c : Call)
  /-- `sessions.is_connected(&user_id)`. -/
  | isConnected (userId : UserId)
  /-- `on_all_sessions_closed`: `pending_offline.remove`. -/
  | takeClose (userId : UserId)
  | notifyClose (userId : UserId) (notify : NotifyId)
  /-- `pending_offline.insert`, with a new `Notify`. -/
  | insertPending (userId : UserId)
  /-- The debounce task is spawned. Its first poll starts the sleep. -/
  | spawn (userId : UserId) (notify : NotifyId)
  /-- The debounce task waits in `select!`. -/
  | sleeping (userId : UserId) (notify : NotifyId) (deadline : ℕ)
  /-- It took the branch of the sleep: `state.get_mut`, and the write. -/
  | writeOffline (userId : UserId)
  /-- `pending.remove(&user_id)`. -/
  | removePending (userId : UserId)
  /-- `broadcaster.broadcast(user_id, status)`, the last operation of a sequence or a timer. -/
  | broadcast (userId : UserId) (status : PresenceStatus)
  deriving DecidableEq, Repr

namespace Task

/-- The user a task is for. -/
def userId : Task → UserId
  | .insert x _ | .takeOpen x | .notifyOpen x _ | .entry x => x.userId
  | .remove u _ | .isConnected u | .takeClose u | .notifyClose u _ | .insertPending u
  | .spawn u _ | .sleeping u _ _ | .writeOffline u | .removePending u | .broadcast u _ => u

/-- The session whose open sequence has not made its state entry yet. -/
def opening : Task → Option Session
  | .insert x _ | .takeOpen x | .notifyOpen x _ | .entry x => some x
  | _ => none

/-- `insert` and `remove` take their own operations. -/
def WF : Task → Prop
  | .insert x c => c = .insert x ∨ c = .insertCount
  | .remove _ c => ∀ x, c ≠ .insert x
  | _ => True

end Task

/-! ## The machine -/

/-- The sessions and the presence of one node, its tasks and its clock. -/
structure Gateway where
  sessions : SessionStore
  presence : Tracker
  tasks : DashMap ℕ Task
  now : ℕ

namespace Gateway

def init : Gateway := ⟨.new, .new, ∅, 0⟩

/-- The next operation of a task, and where the task is after it. -/
def op (offlineDebounce : ℕ) (g : Gateway) : Task → Gateway × Option Task
  | .insert x c =>
    ({ g with sessions := (g.sessions.op c).1 },
      some ((g.sessions.op c).2.elim (.takeOpen x) (.insert x)))
  | .takeOpen x =>
    ({ g with presence := (g.presence.takePending x.userId).2 },
      some ((g.presence.takePending x.userId).1.elim (.entry x) (.notifyOpen x)))
  | .notifyOpen x n => ({ g with presence := g.presence.notifyOne n }, some (.entry x))
  | .entry x =>
    ({ g with presence := (g.presence.openEntry x.userId).2 },
      if (g.presence.openEntry x.userId).1 then some (.broadcast x.userId .online) else none)
  | .remove u c =>
    ({ g with sessions := (g.sessions.op c).1 },
      some ((g.sessions.op c).2.elim (.isConnected u) (.remove u)))
  | .isConnected u => (g, if g.sessions.isConnected u then none else some (.takeClose u))
  | .takeClose u =>
    ({ g with presence := (g.presence.takePending u).2 },
      some ((g.presence.takePending u).1.elim (.insertPending u) (.notifyClose u)))
  | .notifyClose u n => ({ g with presence := g.presence.notifyOne n }, some (.insertPending u))
  | .insertPending u =>
    ({ g with presence := (g.presence.insertPending u).2 },
      some (.spawn u (g.presence.insertPending u).1))
  | .spawn u n => (g, some (.sleeping u n (g.now + offlineDebounce)))
  | .sleeping u n deadline => (g, some (.sleeping u n deadline))
  | .writeOffline u =>
    ({ g with presence := g.presence.writeOffline u }, some (.removePending u))
  | .removePending u =>
    ({ g with presence := g.presence.removePending u }, some (.broadcast u .offline))
  | .broadcast u status => ({ g with presence := g.presence.broadcast u status }, none)

inductive Action
  /-- Task `t` opens a session. -/
  | connect (t : ℕ) (session : Session)
  /-- Task `t` closes a session: its connection ended, or the monitor found it silent. -/
  | close (t : ℕ) (userId : UserId) (sessionId : SessionId)
  /-- A client sends `update_presence`. -/
  | setStatus (userId : UserId) (status : PresenceStatus)
  | tick (seconds : ℕ)
  /-- Task `t` takes its next operation. -/
  | run (t : ℕ)
  /-- The debounce task `t` is polled and takes the branch of the sleep. -/
  | expire (t : ℕ)
  /-- The debounce task `t` is polled and takes the branch of the notification. -/
  | cancel (t : ℕ)
  deriving DecidableEq, Repr

variable (offlineDebounce : ℕ)

def step (g : Gateway) : Action → Option Gateway
  | .connect t x =>
    if g.tasks.lookup t = none then
      some { g with tasks := DashMap.set g.tasks t (some (.insert x (.insert x))) }
    else none
  | .close t u sid =>
    if g.tasks.lookup t = none then
      some { g with tasks := DashMap.set g.tasks t (some (.remove u (.remove u sid))) }
    else none
  | .setStatus u status => some { g with presence := g.presence.setStatus u status }
  | .tick seconds => some { g with now := g.now + seconds }
  | .run t => (g.tasks.lookup t).map fun k =>
    { (g.op offlineDebounce k).1 with tasks := DashMap.set g.tasks t (g.op offlineDebounce k).2 }
  | .expire t => match g.tasks.lookup t with
    | some (.sleeping u _ deadline) =>
      if deadline ≤ g.now then
        some { g with tasks := DashMap.set g.tasks t (some (.writeOffline u)) }
      else none
    | _ => none
  | .cancel t => match g.tasks.lookup t with
    | some (.sleeping _ n _) =>
      if n ∈ g.presence.notified then some { g with tasks := DashMap.set g.tasks t none }
      else none
    | _ => none

/-- No sequence of the user is in progress and no debounce timer is outstanding. -/
def Idle (g : Gateway) (u : UserId) : Prop := ∀ k ∈ DashMap.values g.tasks, k.userId ≠ u

/-- The session is registered and its open sequence is past the state entry. -/
def Open (g : Gateway) (x : Session) : Prop :=
  x ∈ g.sessions.vec x.userId ∧ ∀ k ∈ DashMap.values g.tasks, k.opening ≠ some x

/-- A debounce task is about to write `Offline` for a user with an open session. -/
def Late (u : UserId) (g : Gateway) : Action → Prop
  | .run t => g.tasks.lookup t = some (.writeOffline u) ∧ ∃ x ∈ g.sessions.vec u, g.Open x
  | _ => False

instance (g : Gateway) (u : UserId) : Decidable (g.Idle u) :=
  inferInstanceAs (Decidable (∀ k ∈ DashMap.values g.tasks, k.userId ≠ u))

instance (g : Gateway) (x : Session) : Decidable (g.Open x) :=
  inferInstanceAs (Decidable (_ ∧ ∀ k ∈ DashMap.values g.tasks, k.opening ≠ some x))

instance (u : UserId) (g : Gateway) : (a : Action) → Decidable (g.Late u a)
  | .run _ => inferInstanceAs (Decidable (_ ∧ ∃ x ∈ g.sessions.vec u, g.Open x))
  | .connect _ _ | .close _ _ _ | .setStatus _ _ | .tick _ | .expire _ | .cancel _ =>
    inferInstanceAs (Decidable False)

/-! ## Undisturbed sequences -/

section
variable (offlineDebounce : ℕ) (t : ℕ)

/-- Alone, task `t` gets from `k` to `o` and takes the gateway from `g` to `g'`. -/
def Leads (g : Gateway) (k : Task) (g' : Gateway) (o : Option Task) : Prop :=
  ∀ tasks, ∃ n, exec (step offlineDebounce) { g with tasks := DashMap.set tasks t (some k) }
    (List.replicate n (.run t)) = some { g' with tasks := DashMap.set tasks t o }

variable {offlineDebounce t} {g g' g'' : Gateway} {k k' : Task} {o : Option Task}

theorem leads_op (h : g.op offlineDebounce k = (g', o)) : Leads offlineDebounce t g k g' o := by
  intro tasks
  refine ⟨1, exec_cons.2 ⟨_, ?_, exec_nil _⟩⟩
  have hlook : (DashMap.set tasks t (some k)).lookup t = some k := by
    rw [DashMap.lookup_set, if_pos rfl]
  have hop : Gateway.op offlineDebounce { g with tasks := DashMap.set tasks t (some k) } k =
      ({ g' with tasks := DashMap.set tasks t (some k) }, o) := by
    obtain ⟨rfl, rfl⟩ := Prod.mk.inj h
    cases k <;> rfl
  simp only [step, hlook, Option.map_some, hop, DashMap.set_set]

theorem leads_refl (g : Gateway) (k : Task) : Leads offlineDebounce t g k g (some k) :=
  fun _ => ⟨0, rfl⟩

theorem Leads.trans (h : Leads offlineDebounce t g k g' (some k'))
    (h' : Leads offlineDebounce t g' k' g'' o) : Leads offlineDebounce t g k g'' o := by
  intro tasks
  obtain ⟨n, hn⟩ := h tasks
  obtain ⟨n', hn'⟩ := h' tasks
  refine ⟨n + n', ?_⟩
  rw [List.replicate_add]
  exact exec_append.2 ⟨_, hn, hn'⟩

theorem leads_cancelOpen (g : Gateway) (x : Session) :
    Leads offlineDebounce t g (.takeOpen x)
      { g with presence := g.presence.cancelPending x.userId } (some (.entry x)) := by
  unfold Tracker.cancelPending
  cases h : g.presence.takePending x.userId with
  | mk pending tr =>
    cases pending with
    | none => exact leads_op (by simp only [op, h]; rfl)
    | some n =>
      have htake : g.op offlineDebounce (.takeOpen x) =
          ({ g with presence := tr }, some (.notifyOpen x n)) := by simp only [op, h]; rfl
      exact (leads_op htake).trans (leads_op rfl)

theorem leads_cancelClose (g : Gateway) (u : UserId) :
    Leads offlineDebounce t g (.takeClose u)
      { g with presence := g.presence.cancelPending u } (some (.insertPending u)) := by
  unfold Tracker.cancelPending
  cases h : g.presence.takePending u with
  | mk pending tr =>
    cases pending with
    | none => exact leads_op (by simp only [op, h]; rfl)
    | some n =>
      have htake : g.op offlineDebounce (.takeClose u) =
          ({ g with presence := tr }, some (.notifyClose u n)) := by simp only [op, h]; rfl
      exact (leads_op htake).trans (leads_op rfl)

/-- **The open sequence** is `sessions.insert`, then `on_session_open`. -/
theorem leads_open (g : Gateway) (x : Session) :
    Leads offlineDebounce t g (.insert x (.insert x))
      { g with
        sessions := g.sessions.insert x
        presence := g.presence.onSessionOpen x.userId } none := by
  have hinsert : Leads offlineDebounce t g (.insert x (.insert x))
      { g with sessions := g.sessions.insert x } (some (.takeOpen x)) :=
    (leads_op rfl).trans (leads_op rfl)
  refine hinsert.trans ((leads_cancelOpen _ x).trans ?_)
  unfold Tracker.onSessionOpen
  cases h : (g.presence.cancelPending x.userId).openEntry x.userId with
  | mk changed tr =>
    cases changed with
    | false => exact leads_op (by simp only [op, h]; rfl)
    | true =>
      have hentry : Gateway.op offlineDebounce { g with
          sessions := g.sessions.insert x
          presence := g.presence.cancelPending x.userId } (.entry x) =
          ({ g with sessions := g.sessions.insert x, presence := tr },
            some (.broadcast x.userId .online)) := by simp only [op, h]; rfl
      exact (leads_op hentry).trans (leads_op rfl)

theorem leads_remove (g : Gateway) (u : UserId) (sid : SessionId) :
    Leads offlineDebounce t g (.remove u (.remove u sid))
      { g with sessions := (g.sessions.remove u sid).2 } (some (.isConnected u)) := by
  unfold SessionStore.remove
  cases hvec : g.sessions.sessions.lookup u with
  | none => exact leads_op (by simp only [op, SessionStore.op, hvec]; rfl)
  | some sessions =>
    apply (leads_op (by simp only [op, SessionStore.op, hvec]; rfl)).trans
    dsimp only
    generalize (sessions.filter fun s => s.sessionId ≠ sid) = kept
    generalize decide (kept.length < sessions.length) = removed
    have hkey : (g.sessions.sessions.insert u kept).erase u = g.sessions.sessions.erase u :=
      DashMap.erase_insert _ _ _
    cases kept.isEmpty with
    | true =>
      have herase : Gateway.op offlineDebounce
          { g with sessions := { g.sessions with
            sessions := g.sessions.sessions.insert u kept } }
            (.remove u (.removeKey u sid removed)) =
          ({ g with sessions := { g.sessions with sessions := g.sessions.sessions.erase u } },
            some ((if removed then some (.removeCount u sid) else none).elim (.isConnected u)
              (.remove u))) := by
        rw [← hkey]
        rfl
      cases removed with
      | false => exact leads_op herase
      | true => exact (leads_op herase).trans (leads_op rfl)
    | false =>
      cases removed with
      | false => exact leads_refl _ _
      | true => exact leads_op rfl

/-- **The close sequence** is `sessions.remove`, and `on_all_sessions_closed` if the user has no
session left; the task goes on as the debounce task. -/
theorem leads_close (g : Gateway) (u : UserId) (sid : SessionId) :
    if (g.sessions.remove u sid).2.isConnected u then
      Leads offlineDebounce t g (.remove u (.remove u sid))
        { g with sessions := (g.sessions.remove u sid).2 } none
    else
      Leads offlineDebounce t g (.remove u (.remove u sid))
        { g with
          sessions := (g.sessions.remove u sid).2
          presence := (g.presence.onAllSessionsClosed u).2 }
        (some (.sleeping u (g.presence.onAllSessionsClosed u).1 (g.now + offlineDebounce))) := by
  split_ifs with hconn
  · exact (leads_remove g u sid).trans (leads_op (by simp only [op, if_pos hconn]))
  · have hcheck : Gateway.op offlineDebounce { g with sessions := (g.sessions.remove u sid).2 }
        (.isConnected u) = ({ g with sessions := (g.sessions.remove u sid).2 },
          some (.takeClose u)) := by simp only [op, if_neg hconn]
    refine (leads_remove g u sid).trans ((leads_op hcheck).trans ?_)
    exact (leads_cancelClose _ u).trans ((leads_op rfl).trans (leads_op rfl))

/-- **The branch of the sleep** is `debounced`. -/
theorem leads_debounced (g : Gateway) (u : UserId) :
    Leads offlineDebounce t g (.writeOffline u)
      { g with presence := g.presence.debounced u } none :=
  (leads_op rfl).trans ((leads_op rfl).trans (leads_op rfl))

end

/-! ## What one operation does -/

structure WF (g : Gateway) : Prop where
  owner : ∀ u, ∀ x ∈ g.sessions.vec u, x.userId = u
  tasks : ∀ k ∈ DashMap.values g.tasks, k.WF

/-- A session registered for `u` is still opening, or `u` is not shown as offline. -/
def Shown (u : UserId) (g : Gateway) : Prop :=
  ∀ x ∈ g.sessions.vec u, (∃ k ∈ DashMap.values g.tasks, k.opening = some x) ∨
    g.presence.getStatus u ≠ .offline

variable {offlineDebounce} {g g' : Gateway} {u : UserId}

theorem op_task_wf {k k' : Task} (hk : k.WF) (h : (g.op offlineDebounce k).2 = some k') :
    k'.WF := by
  cases k with
  | insert x c =>
    rcases hk with rfl | rfl
    · obtain rfl := Option.some.inj h
      exact .inr rfl
    · obtain rfl := Option.some.inj h
      trivial
  | remove u c =>
    obtain rfl := Option.some.inj h
    cases hnext : (g.sessions.op c).2 with
    | none => trivial
    | some c' => exact SessionStore.op_next_ne_insert hnext
  | takeOpen x =>
    obtain rfl := Option.some.inj h
    cases (g.presence.takePending x.userId).1 <;> trivial
  | takeClose u =>
    obtain rfl := Option.some.inj h
    cases (g.presence.takePending u).1 <;> trivial
  | entry x =>
    simp only [op, Option.ite_none_right_eq_some, Option.some.injEq] at h
    obtain ⟨-, rfl⟩ := h
    trivial
  | isConnected u =>
    simp only [op, Option.ite_none_left_eq_some, Option.some.injEq] at h
    obtain ⟨-, rfl⟩ := h
    trivial
  | broadcast u status => exact absurd h nofun
  | notifyOpen | notifyClose | insertPending | spawn | sleeping | writeOffline | removePending =>
    obtain rfl := Option.some.inj h
    trivial

theorem op_owner (hg : g.WF) (k : Task) :
    ∀ u, ∀ x ∈ (g.op offlineDebounce k).1.sessions.vec u, x.userId = u := by
  cases k with
  | insert x c => exact SessionStore.op_owner hg.owner c
  | remove u c => exact SessionStore.op_owner hg.owner c
  | _ => exact hg.owner

/-- Only a debounce task makes a user offline. -/
theorem op_status {k : Task} (hk : k ≠ .writeOffline u)
    (h : g.presence.getStatus u ≠ .offline) :
    (g.op offlineDebounce k).1.presence.getStatus u ≠ .offline := by
  cases k with
  | entry x =>
    by_cases hu : u = x.userId
    · subst hu
      exact Tracker.getStatus_openEntry g.presence x.userId
    · simp only [op]
      rw [Tracker.getStatus_openEntry_of_ne _ _ _ hu]
      exact h
  | writeOffline u' =>
    have hu : u ≠ u' := by
      rintro rfl
      exact hk rfl
    simp only [op]
    rw [Tracker.getStatus_writeOffline, if_neg hu]
    exact h
  | _ => exact h

/-- A session registered after an operation is one that the task is opening, or it was registered
before; and the task stops opening it only when the user is not shown as offline. -/
theorem op_registered {k : Task} (hg : g.WF) (hk : k.WF) {x : Session}
    (hx : x ∈ (g.op offlineDebounce k).1.sessions.vec u) :
    (∃ k', (g.op offlineDebounce k).2 = some k' ∧ k'.opening = some x) ∨
      (x ∈ g.sessions.vec u ∧ (k.opening = some x →
        (g.op offlineDebounce k).1.presence.getStatus u ≠ .offline)) := by
  cases k with
  | insert y c =>
    by_cases hxy : y = x
    · subst hxy
      refine .inl ⟨_, rfl, ?_⟩
      cases (g.sessions.op c).2 <;> rfl
    · refine .inr ⟨?_, fun h => absurd (Option.some.inj h) hxy⟩
      rcases hk with rfl | rfl
      · exact (SessionStore.mem_vec_insert.1 hx).resolve_right fun h => hxy h.1.symm
      · exact hx
  | takeOpen y =>
    by_cases hxy : y = x
    · subst hxy
      refine .inl ⟨_, rfl, ?_⟩
      cases (g.presence.takePending y.userId).1 <;> rfl
    · exact .inr ⟨hx, fun h => absurd (Option.some.inj h) hxy⟩
  | notifyOpen y n =>
    by_cases hxy : y = x
    · subst hxy
      exact .inl ⟨_, rfl, rfl⟩
    · exact .inr ⟨hx, fun h => absurd (Option.some.inj h) hxy⟩
  | entry y =>
    refine .inr ⟨hx, fun h => ?_⟩
    obtain rfl := Option.some.inj h
    rw [← hg.owner u y hx]
    exact Tracker.getStatus_openEntry g.presence y.userId
  | remove u' c => exact .inr ⟨SessionStore.mem_vec_op hk hx, nofun⟩
  | isConnected | takeClose | notifyClose | insertPending | spawn | sleeping | writeOffline
  | removePending | broadcast => exact .inr ⟨hx, nofun⟩

/-! ## What one step does -/

/-- What a step can do to the tasks, the sessions and the status of a user. -/
theorem step_cases {a : Action} (h : g.step offlineDebounce a = some g') :
    (∃ t k, g.tasks.lookup t = none ∧
      ((∃ x, k = .insert x (.insert x)) ∨ ∃ u sid, k = .remove u (.remove u sid)) ∧
      g' = { g with tasks := DashMap.set g.tasks t (some k) }) ∨
    (∃ u status, a = .setStatus u status ∧
      g' = { g with presence := g.presence.setStatus u status }) ∨
    (∃ d, g' = { g with now := g.now + d }) ∨
    (∃ t k, a = .run t ∧ g.tasks.lookup t = some k ∧
      g' = { (g.op offlineDebounce k).1 with
        tasks := DashMap.set g.tasks t (g.op offlineDebounce k).2 }) ∨
    (∃ t u n d o, g.tasks.lookup t = some (.sleeping u n d) ∧
      (o = none ∨ o = some (.writeOffline u)) ∧
      g' = { g with tasks := DashMap.set g.tasks t o }) := by
  cases a with
  | connect t x =>
    simp only [step, Option.ite_none_right_eq_some, Option.some.injEq] at h
    exact .inl ⟨t, .insert x (.insert x), h.1, .inl ⟨x, rfl⟩, h.2.symm⟩
  | close t u sid =>
    simp only [step, Option.ite_none_right_eq_some, Option.some.injEq] at h
    exact .inl ⟨t, .remove u (.remove u sid), h.1, .inr ⟨u, sid, rfl⟩, h.2.symm⟩
  | setStatus u status => exact .inr (.inl ⟨u, status, rfl, (Option.some.inj h).symm⟩)
  | tick d => exact .inr (.inr (.inl ⟨d, (Option.some.inj h).symm⟩))
  | run t =>
    simp only [step, Option.map_eq_some_iff] at h
    obtain ⟨k, ht, rfl⟩ := h
    exact .inr (.inr (.inr (.inl ⟨t, k, rfl, ht, rfl⟩)))
  | expire t =>
    simp only [step] at h
    split at h
    · next u n d ht =>
      simp only [Option.ite_none_right_eq_some, Option.some.injEq] at h
      exact .inr (.inr (.inr (.inr ⟨t, u, n, d, _, ht, .inr rfl, h.2.symm⟩)))
    · exact absurd h nofun
  | cancel t =>
    simp only [step] at h
    split at h
    · next u n d ht =>
      simp only [Option.ite_none_right_eq_some, Option.some.injEq] at h
      exact .inr (.inr (.inr (.inr ⟨t, u, n, d, _, ht, .inl rfl, h.2.symm⟩)))
    · exact absurd h nofun

theorem step_wf {a : Action} (hg : g.WF) (h : g.step offlineDebounce a = some g') : g'.WF := by
  have hold (t k) (ht : g.tasks.lookup t = some k) : k.WF :=
    hg.tasks k (DashMap.mem_values_iff.2 ⟨t, ht⟩)
  obtain ⟨t, k, -, hk, rfl⟩ | ⟨u, status, -, rfl⟩ | ⟨d, rfl⟩ | ⟨t, k, -, ht, rfl⟩ |
    ⟨t, u, n, d, o, -, ho, rfl⟩ := step_cases h
  · refine ⟨hg.owner, ?_⟩
    intro k' hk'
    rcases DashMap.mem_values_set.1 hk' with hnew | ⟨t', -, ht'⟩
    · rw [← Option.some.inj hnew]
      rcases hk with ⟨x, rfl⟩ | ⟨u, sid, rfl⟩
      · exact .inl rfl
      · exact fun _ => Call.noConfusion
    · exact hold t' k' ht'
  · exact ⟨hg.owner, hg.tasks⟩
  · exact ⟨hg.owner, hg.tasks⟩
  · refine ⟨op_owner hg k, ?_⟩
    intro k' hk'
    rcases DashMap.mem_values_set.1 hk' with hnew | ⟨t', -, ht'⟩
    · exact op_task_wf (hold t k ht) hnew
    · exact hold t' k' ht'
  · refine ⟨hg.owner, ?_⟩
    intro k' hk'
    rcases DashMap.mem_values_set.1 hk' with hnew | ⟨t', -, ht'⟩
    · rcases ho with rfl | rfl
      · exact absurd hnew nofun
      · rw [← Option.some.inj hnew]
        trivial
    · exact hold t' k' ht'

theorem opening_set {t : ℕ} {o : Option Task} {x : Session}
    (h : ∃ k ∈ DashMap.values g.tasks, k.opening = some x)
    (ht : ∀ k, g.tasks.lookup t = some k → k.opening ≠ some x) :
    ∃ k ∈ DashMap.values (DashMap.set g.tasks t o), k.opening = some x := by
  obtain ⟨k, hk, hopening⟩ := h
  obtain ⟨t', ht'⟩ := DashMap.mem_values_iff.1 hk
  refine ⟨k, DashMap.mem_values_set.2 (.inr ⟨t', ?_, ht'⟩), hopening⟩
  rintro rfl
  exact ht k ht' hopening

/-- **Every step that is not a late write keeps the user shown.** -/
theorem step_shown {a : Action} (hg : g.WF) (hshown : g.Shown u)
    (hclient : a ≠ .setStatus u .offline) (hlate : ¬g.Late u a)
    (h : g.step offlineDebounce a = some g') : g'.Shown u := by
  intro x hx
  obtain ⟨t, k, ht, -, rfl⟩ | ⟨u', status, rfl, rfl⟩ | ⟨d, rfl⟩ | ⟨t, k, rfl, ht, rfl⟩ |
    ⟨t, u', n, d, o, ht, -, rfl⟩ := step_cases h
  · refine (hshown x hx).imp_left fun hopening => opening_set hopening fun k' hk' => ?_
    rw [ht] at hk'
    exact absurd hk' nofun
  · apply (hshown x hx).imp_right
    intro hstatus
    by_cases hu : u = u'
    · subst hu
      exact Tracker.getStatus_setStatus _ _ (fun hs => hclient (by rw [hs])) hstatus
    · rw [Tracker.getStatus_setStatus_of_ne _ _ _ hu]
      exact hstatus
  · exact hshown x hx
  · by_cases hk : k = .writeOffline u
    · -- the write is not late, so every registered session is opening
      subst hk
      left
      refine opening_set ?_ fun k' hk' => ?_
      · by_contra hnone
        push Not at hnone
        refine hlate ⟨ht, x, hx, ?_, hnone⟩
        rw [hg.owner u x hx]
        exact hx
      · rw [← Option.some.inj (ht.symm.trans hk')]
        exact nofun
    · rcases op_registered hg (hg.tasks k (DashMap.mem_values_iff.2 ⟨t, ht⟩)) hx with
        ⟨k', hk', hopening⟩ | ⟨hx, hend⟩
      · exact .inl ⟨k', DashMap.mem_values_set.2 (.inl hk'), hopening⟩
      · by_cases hopening : k.opening = some x
        · exact .inr (hend hopening)
        · refine (hshown x hx).imp (fun h => opening_set h fun k' hk' => ?_) (op_status hk)
          rw [← Option.some.inj (ht.symm.trans hk')]
          exact hopening
  · refine (hshown x hx).imp_left fun hopening => opening_set hopening fun k' hk' => ?_
    rw [← Option.some.inj (ht.symm.trans hk')]
    exact nofun

/-! ## Runs -/

theorem init_wf : init.WF where
  owner _ _ hx := absurd hx List.not_mem_nil
  tasks _ hk := absurd hk List.not_mem_nil

theorem init_shown : init.Shown u := fun _ hx => absurd hx List.not_mem_nil

theorem exists_of_isConnected (h : g.sessions.isConnected u) : ∃ x, x ∈ g.sessions.vec u := by
  apply List.exists_mem_of_ne_nil
  intro hnil
  rw [SessionStore.isConnected, hnil] at h
  exact absurd h (by decide)

/-- **Without late writes, a registered user is not left shown as offline.** -/
theorem not_shown_offline (as : List Action)
    (hrun : exec (step offlineDebounce) init as = some g)
    (hclient : .setStatus u .offline ∉ as)
    (hlate : Along (step offlineDebounce) (fun g a => ¬g.Late u a) init as)
    (hidle : g.Idle u) (hconn : g.sessions.isConnected u) :
    g.presence.getStatus u ≠ .offline := by
  have hok : Along (step offlineDebounce)
      (fun g a => ¬g.Late u a ∧ a ≠ .setStatus u .offline) init as :=
    hlate.and (along_of_forall_mem (fun _ ha => ne_of_mem_of_not_mem ha hclient) init)
  obtain ⟨hwf, hshown⟩ : g.WF ∧ g.Shown u :=
    exec_invariant_along (I := fun g => g.WF ∧ g.Shown u)
      (fun _ _ _ h hok hs => ⟨step_wf h.1 hs, step_shown h.1 h.2 hok.2 hok.1 hs⟩)
      ⟨init_wf, init_shown⟩ hok hrun
  obtain ⟨x, hx⟩ := exists_of_isConnected hconn
  apply (hshown x hx).resolve_left
  intro htask
  rcases htask with ⟨k, hk, hopening⟩
  -- an opening task of `x` is a task of `u`
  have huser : k.userId = x.userId := by
    cases k <;> simp_all [Task.opening, Task.userId]
  exact hidle k hk (huser.trans (hwf.owner u x hx))

theorem step_run {t : ℕ} {k : Task} (ht : g.tasks.lookup t = some k) :
    g.step offlineDebounce (.run t) = some { (g.op offlineDebounce k).1 with
      tasks := DashMap.set g.tasks t (g.op offlineDebounce k).2 } := by
  rw [step, ht, Option.map_some]

/-- **A late write that nothing follows is for good**: once the debounce task has done the rest,
the user is idle, registered and shown as offline. -/
theorem late_write_stays {t : ℕ} (hlate : g.Late u (.run t))
    (honly : ∀ t' k, g.tasks.lookup t' = some k → k.userId = u → t' = t) :
    ∃ g', exec (step offlineDebounce) g (List.replicate 3 (.run t)) = some g' ∧ g'.Idle u ∧
      g'.sessions.isConnected u ∧ g'.presence.getStatus u = .offline := by
  obtain ⟨ht, x, hx, -⟩ := hlate
  have hset (o : Option Task) (tasks : DashMap ℕ Task) : (DashMap.set tasks t o).lookup t = o := by
    rw [DashMap.lookup_set, if_pos rfl]
  refine ⟨_, exec_cons.2 ⟨_, step_run ht, exec_cons.2 ⟨_, step_run (hset _ _),
    exec_cons.2 ⟨_, step_run (hset _ _), exec_nil _⟩⟩⟩, ?_, ?_, ?_⟩
  · intro k hk huser
    obtain ⟨t', ht'⟩ := DashMap.mem_values_iff.1 hk
    simp only [DashMap.lookup_set] at ht'
    split_ifs at ht' with h
    · exact absurd ht' nofun
    · exact h (honly t' k ht' huser)
  · have hne : g.sessions.vec u ≠ [] := List.ne_nil_of_mem hx
    simpa [op, SessionStore.isConnected] using hne
  · show ((g.presence.writeOffline u).removePending u).getStatus u = .offline
    rw [Tracker.getStatus_removePending, Tracker.getStatus_writeOffline, if_pos rfl]

/-- A user reconnects while the timer is pending, and the timer is cancelled. -/
def reconnect : List Action :=
  [.connect 0 ⟨1, 7⟩] ++ List.replicate 5 (Action.run 0) ++
  [.close 1 7 1] ++ List.replicate 7 (Action.run 1) ++ [.tick 2, .connect 2 ⟨2, 7⟩] ++
  List.replicate 5 (Action.run 2) ++ [.cancel 1]

theorem not_shown_offline_reconnect :
    ∃ g, exec (step 5) init reconnect = some g ∧ g.Idle 7 ∧ g.sessions.isConnected 7 ∧
      g.presence.getStatus 7 ≠ .offline := by
  refine ⟨_, rfl, ?_, ?_, not_shown_offline reconnect rfl ?_ ?_ ?_ ?_⟩ <;> decide

/-- The user reconnects when the sleep is over and the timer has not been polled yet: it is
notified in time, and takes the branch of the sleep. -/
def expiredReconnect : List Action :=
  [.connect 0 ⟨1, 7⟩] ++ List.replicate 5 (Action.run 0) ++
  [.close 1 7 1] ++ List.replicate 7 (Action.run 1) ++ [.tick 5, .connect 2 ⟨2, 7⟩] ++
  List.replicate 5 (Action.run 2) ++ [.expire 1] ++ List.replicate 3 (Action.run 1)

/-- **A connected user is left shown as offline**, though the reconnect notified the timer. -/
theorem expired_reconnect :
    ∃ g, exec (step 5) init expiredReconnect = some g ∧ .setStatus 7 .offline ∉ expiredReconnect ∧
      g.Idle 7 ∧ g.sessions.isConnected 7 ∧ g.presence.getStatus 7 = .offline := by
  refine ⟨_, rfl, ?_, ?_, ?_, ?_⟩ <;> decide

end Gateway

end RustRelay
