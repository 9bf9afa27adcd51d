import RustRelay.Gateway.Connection
import RustRelay.Presence.Cluster

/-!
# Ghosts

A node serves its connections and tracks presence. Every call of the store and of the tracker is
one step: an open is `sessions.insert` and then `on_session_open`; a close, whether `cleanup` or
the heartbeat monitor runs it, is `sessions.remove`, the `is_connected` test, and
`on_all_sessions_closed` where it is false. Readers dispatch `update_presence` at any time, and
`select!` may take either branch of a debounce task that has both.

A user is *backed* if a session is registered, a close is in progress, or a timer waits that was
not notified. Only two calls raise a status, and both can come from a connection whose session was
reaped long ago.

**Theorem (`no_ghost`).** If no step raises the status of a user whom nothing backs, then a user
with no session, no timer and no close in progress is offline. A step that does makes the user a
ghost (`unbacked_raises`): `reaped_reader_ghost` is a run with one.
-/

namespace RustRelay

open Machine

namespace Serving

/-- The session that a step removes from the store. -/
def removing (s : Serving) : Action → Option (UserId × SessionId)
  | .close sid => (s.user sid).map fun u => (u, sid)
  | .reap => s.stale.head?
  | _ => none

/-- The call of `set_status` that a step dispatches. -/
def settingStatus (s : Serving) : Action → Option (UserId × PresenceStatus)
  | .dispatch sid => match s.connections.lookup sid with
    | some ⟨u, .received (some (.updatePresence status))⟩ => some (u, status)
    | _ => none
  | _ => none

variable {timeoutSecs : ℕ} {s t : Serving} {a : Action}

theorem sessions_step (h : s.step timeoutSecs a = some t) :
    (∃ x, a = .connect x ∧ t.sessions = s.sessions.insert x ∧ s.removing a = none) ∨
    (∃ u sid, s.removing a = some (u, sid) ∧ t.sessions = (s.sessions.remove u sid).2) ∨
    (s.removing a = none ∧ t.sessions = s.sessions) := by
  cases a with
  | connect x =>
    simp only [step] at h
    split_ifs at h
    obtain rfl := Option.some.inj h
    exact .inl ⟨x, rfl, rfl, rfl⟩
  | close sid =>
    simp only [step] at h
    split at h
    · cases h
    · cases h
    · next u phase _ hc =>
      obtain rfl := Option.some.inj h
      refine .inr (.inl ⟨u, sid, ?_, rfl⟩)
      rw [removing, user, hc]
      rfl
  | reap =>
    simp only [step] at h
    split at h
    · cases h
    · next u sid rest hrest =>
      obtain rfl := Option.some.inj h
      exact .inr (.inl ⟨u, sid, by rw [removing, hrest]; rfl, rfl⟩)
  | scan =>
    simp only [step] at h
    split_ifs at h
    obtain rfl := Option.some.inj h
    exact .inr (.inr ⟨rfl, rfl⟩)
  | ready sid | text sid text | dispatch sid | ping sid =>
    simp only [step] at h
    split at h
    · obtain rfl := Option.some.inj h
      exact .inr (.inr ⟨rfl, rfl⟩)
    · cases h
  | tick seconds =>
    obtain rfl := Option.some.inj h
    exact .inr (.inr ⟨rfl, rfl⟩)

end Serving

/-- A close that has removed its session. `tested` once `is_connected` was false. -/
structure Closing where
  userId : UserId
  tested : Bool
  deriving DecidableEq, Repr

structure PresenceServing where
  serving : Serving
  tracker : Tracker
  timers : DashMap NotifyId Timer
  /-- The connections that have not called `on_session_open` yet. -/
  unopened : List SessionId
  /-- The closes in progress: of a connection, or (`none`) of the monitor. -/
  closing : DashMap (Option SessionId) Closing

namespace PresenceServing

def init : PresenceServing := ⟨.init, .new, ∅, [], ∅⟩

inductive Action
  /-- A connection, the monitor or the clock takes a step. -/
  | serving (a : Serving.Action)
  /-- A connection calls `on_session_open`. -/
  | openSession (sessionId : SessionId)
  /-- A close takes its next call. -/
  | advance (closer : Option SessionId)
  /-- A debounce task takes the branch of the sleep. -/
  | expire (notify : NotifyId)
  /-- A debounce task takes the branch of the notification. -/
  | cancel (notify : NotifyId)
  deriving DecidableEq, Repr

/-- The task whose close a step begins. -/
def closer : Serving.Action → Option SessionId
  | .close sid => some sid
  | _ => none

/-- The connection and the monitor are where they can take the step: READY and `cleanup` come
after `on_session_open`, and a task runs one close at a time. -/
def Ready (s : PresenceServing) : Serving.Action → Prop
  | .ready sid => sid ∉ s.unopened
  | .close sid => sid ∉ s.unopened ∧ s.closing.lookup (some sid) = none
  | .scan | .reap => s.closing.lookup none = none
  | .connect _ | .text _ _ | .dispatch _ | .ping _ | .tick _ => True

instance (s : PresenceServing) : (a : Serving.Action) → Decidable (s.Ready a)
  | .ready _ => inferInstanceAs (Decidable (_ ∉ _))
  | .close _ => inferInstanceAs (Decidable (_ ∧ _))
  | .scan | .reap => inferInstanceAs (Decidable (_ = _))
  | .connect _ | .text _ _ | .dispatch _ | .ping _ | .tick _ => .isTrue trivial

/-- The rest of the node after a step of `serving`. -/
def follow (s : PresenceServing) (a : Serving.Action) (serving : Serving) : PresenceServing where
  serving := serving
  tracker := match s.serving.settingStatus a with
    | some (u, status) => s.tracker.setStatus u status
    | none => s.tracker
  timers := s.timers
  unopened := match a with
    | .connect x => x.sessionId :: s.unopened
    | _ => s.unopened
  closing := match s.serving.removing a with
    | some (u, _) => s.closing.insert (closer a) ⟨u, false⟩
    | none => s.closing

variable (offlineDebounce timeoutSecs : ℕ)

def step (s : PresenceServing) : Action → Option PresenceServing
  | .serving a =>
    if s.Ready a then (s.serving.step timeoutSecs a).map (s.follow a) else none
  | .openSession sid =>
    if sid ∈ s.unopened then
      (s.serving.user sid).map fun u => { s with
        tracker := s.tracker.onSessionOpen u
        unopened := s.unopened.erase sid }
    else none
  | .advance key => match s.closing.lookup key with
    | some ⟨u, false⟩ =>
      if s.serving.sessions.isConnected u then some { s with closing := s.closing.erase key }
      else some { s with closing := s.closing.insert key ⟨u, true⟩ }
    | some ⟨u, true⟩ =>
      some { s with
        tracker := (s.tracker.onAllSessionsClosed u).2
        timers := s.timers.insert (s.tracker.onAllSessionsClosed u).1
          ⟨u, s.serving.now + offlineDebounce⟩
        closing := s.closing.erase key }
    | none => none
  | .expire n => match s.timers.lookup n with
    | some timer =>
      if timer.deadline ≤ s.serving.now then
        some { s with
          tracker := s.tracker.debounced timer.userId
          timers := s.timers.erase n }
      else none
    | none => none
  | .cancel n =>
    if n ∈ s.tracker.notified then some { s with timers := s.timers.erase n } else none

/-! ## What backs a status -/

/-- A close of a session of the user is in progress. -/
def Closes (s : PresenceServing) (u : UserId) : Prop :=
  ∃ key c, s.closing.lookup key = some c ∧ c.userId = u

/-- `n` names a timer of the user that was not notified. -/
def Waits (s : PresenceServing) (u : UserId) (n : NotifyId) : Prop :=
  (∃ timer, s.timers.lookup n = some timer ∧ timer.userId = u) ∧ n ∉ s.tracker.notified

/-- The user is registered, or something will look whether it is. -/
def Backed (s : PresenceServing) (u : UserId) : Prop :=
  s.serving.sessions.isConnected u = true ∨ s.Closes u ∨ ∃ n, s.Waits u n

/-- The same, apart from the timer that `on_session_open` is about to notify. -/
def BackedElsewise (s : PresenceServing) (u : UserId) : Prop :=
  s.serving.sessions.isConnected u = true ∨ s.Closes u ∨
    ∃ n, s.Waits u n ∧ s.tracker.pendingOffline.lookup u ≠ some n

/-- The step raises the status of a user whom nothing backs: a client that is not registered sets
another status than offline, or a session opens that is not registered any more. -/
def Unbacked (s : PresenceServing) : Action → Prop
  | .serving a => ∃ u status, s.serving.settingStatus a = some (u, status) ∧ status ≠ .offline ∧
      s.tracker.state.lookup u ≠ none ∧ s.tracker.getStatus u = .offline ∧ ¬s.Backed u
  | .openSession sid => ∃ u, s.serving.user sid = some u ∧ ¬s.BackedElsewise u
  | .advance _ | .expire _ | .cancel _ => False

/-- Handles are new, and a pending one names no timer of another user. -/
structure Handles (s : PresenceServing) : Prop where
  notified : ∀ n ∈ s.tracker.notified, n < s.tracker.nextNotify
  timers : ∀ n timer, s.timers.lookup n = some timer → n < s.tracker.nextNotify
  pending : ∀ u n, s.tracker.pendingOffline.lookup u = some n → n < s.tracker.nextNotify ∧
    ∀ timer, s.timers.lookup n = some timer → timer.userId = u

/-- A status that is not offline is backed. -/
def Present (s : PresenceServing) : Prop := ∀ u, s.tracker.getStatus u ≠ .offline → s.Backed u

structure Inv (s : PresenceServing) : Prop where
  handles : s.Handles
  present : s.Present

variable {offlineDebounce timeoutSecs : ℕ} {s t : PresenceServing} {u : UserId}

/-! ## Steps of connections and of the monitor -/

theorem isConnected_iff {st : SessionStore} : st.isConnected u = true ↔ ∃ x, x ∈ st.vec u := by
  rw [SessionStore.isConnected, Bool.not_eq_true', List.isEmpty_eq_false_iff_exists_mem]

theorem isConnected_insert {st : SessionStore} (h : st.isConnected u = true) (x : Session) :
    (st.insert x).isConnected u = true := by
  obtain ⟨y, hy⟩ := isConnected_iff.1 h
  have hmem : y ∈ (st.insert x).vec u := SessionStore.mem_vec_insert.2 (.inl hy)
  exact isConnected_iff.2 ⟨y, hmem⟩

theorem isConnected_remove_of_ne {st : SessionStore} {v : UserId} (h : u ≠ v) (sid : SessionId) :
    (st.remove v sid).2.isConnected u = st.isConnected u := by
  rw [SessionStore.isConnected, SessionStore.remove_vec, if_neg h, SessionStore.isConnected]

theorem follow_timers (s : PresenceServing) (a : Serving.Action) (serving : Serving) :
    (s.follow a serving).tracker.notified = s.tracker.notified ∧
      (s.follow a serving).tracker.pendingOffline = s.tracker.pendingOffline ∧
      (s.follow a serving).tracker.nextNotify = s.tracker.nextNotify := by
  simp only [follow]
  cases s.serving.settingStatus a with
  | none => exact ⟨rfl, rfl, rfl⟩
  | some p =>
    obtain ⟨hpending, hnotified⟩ := s.tracker.setStatus_timers p.1 p.2
    exact ⟨hnotified, hpending, s.tracker.nextNotify_setStatus p.1 p.2⟩

theorem Ready.closing_eq_none {a : Serving.Action} (h : s.Ready a)
    {p : UserId × SessionId} (hremoving : s.serving.removing a = some p) :
    s.closing.lookup (closer a) = none := by
  cases a with
  | close sid => exact h.2
  | reap => exact h
  | connect | ready | text | dispatch | ping | scan | tick => cases hremoving

theorem backed_follow {a : Serving.Action} {serving : Serving} (hready : s.Ready a)
    (hstep : s.serving.step timeoutSecs a = some serving) (h : s.Backed u) :
    (s.follow a serving).Backed u := by
  rcases h with hconn | ⟨key, c, hkey, hu⟩ | ⟨n, htimer, hnot⟩
  · rcases Serving.sessions_step hstep with ⟨x, -, hs, -⟩ | ⟨v, sid, hremoving, hs⟩ | ⟨-, hs⟩
    · left
      show serving.sessions.isConnected u = true
      rw [hs]
      exact isConnected_insert hconn x
    · by_cases huv : u = v
      · -- The session may have been the last one; its close is in progress now.
        refine .inr (.inl ⟨closer a, ⟨v, false⟩, ?_, huv.symm⟩)
        simp only [follow, hremoving]
        exact AList.lookup_insert _
      · left
        show serving.sessions.isConnected u = true
        rw [hs, isConnected_remove_of_ne huv]
        exact hconn
    · left
      show serving.sessions.isConnected u = true
      rw [hs]
      exact hconn
  · refine .inr (.inl ⟨key, c, ?_, hu⟩)
    simp only [follow]
    cases hremoving : s.serving.removing a with
    | none => exact hkey
    | some p =>
      have hne : key ≠ closer a := by
        intro heq
        rw [heq, hready.closing_eq_none hremoving] at hkey
        cases hkey
      exact (AList.lookup_insert_ne hne).trans hkey
  · refine .inr (.inr ⟨n, htimer, ?_⟩)
    rw [(s.follow_timers a serving).1]
    exact hnot

theorem inv_follow {a : Serving.Action} {serving : Serving} (h : s.Inv) (hready : s.Ready a)
    (hstep : s.serving.step timeoutSecs a = some serving) (hok : ¬s.Unbacked (.serving a)) :
    (s.follow a serving).Inv := by
  obtain ⟨hnotified, hpending, hnext⟩ := s.follow_timers a serving
  refine ⟨⟨?_, ?_, ?_⟩, fun u hu => backed_follow hready hstep ?_⟩
  · rw [hnotified, hnext]
    exact h.handles.notified
  · rw [hnext]
    exact h.handles.timers
  · rw [hpending, hnext]
    exact h.handles.pending
  · by_cases hold : s.tracker.getStatus u = .offline
    · -- The status was raised, by `set_status` of the user.
      simp only [follow] at hu
      cases hsetting : s.serving.settingStatus a with
      | none =>
        rw [hsetting] at hu
        exact absurd hold hu
      | some p =>
        obtain ⟨v, status⟩ := p
        rw [hsetting] at hu
        dsimp only at hu
        by_cases huv : u = v
        · subst huv
          by_contra hback
          obtain ⟨hstatus, hknown⟩ := (Tracker.setStatus_raises_iff hold).1 hu
          exact hok ⟨u, status, hsetting, hstatus, hknown, hold, hback⟩
        · rw [Tracker.getStatus_setStatus_of_ne _ _ _ huv] at hu
          exact absurd hold hu
    · exact h.present u hold

/-! ## Steps of the tracker -/

theorem inv_openSession (h : s.Inv) {sid : SessionId} (hu : s.serving.user sid = some u)
    (hok : ¬s.Unbacked (.openSession sid)) (unopened : List SessionId) :
    Inv { s with tracker := s.tracker.onSessionOpen u, unopened } := by
  obtain ⟨hnotified, htimers, hpending⟩ := h.handles
  refine ⟨⟨fun n hn => ?_, ?_, fun v n hn => ?_⟩, fun v hv => ?_⟩
  · rw [Tracker.nextNotify_onSessionOpen]
    rw [Tracker.notified_onSessionOpen] at hn
    rcases List.mem_append.1 hn with hown | hn
    · exact (hpending u n (Option.mem_toList.1 hown)).1
    · exact hnotified n hn
  · rw [Tracker.nextNotify_onSessionOpen]
    exact htimers
  · rw [Tracker.nextNotify_onSessionOpen]
    rw [Tracker.pendingOffline_onSessionOpen, DashMap.lookup_erase_ite] at hn
    split_ifs at hn
    exact hpending v n hn
  · -- Only the pending timer of the user is notified.
    have hwaits {n : NotifyId} (hn : s.Waits v n)
        (hne : s.tracker.pendingOffline.lookup u ≠ some n) :
        Waits { s with tracker := s.tracker.onSessionOpen u, unopened } v n := by
      refine ⟨hn.1, ?_⟩
      rw [Tracker.notified_onSessionOpen, List.mem_append, Option.mem_toList, not_or]
      exact ⟨hne, hn.2⟩
    by_cases hvu : v = u
    · subst hvu
      have hback : s.BackedElsewise v := by
        by_contra hback
        exact hok ⟨v, hu, hback⟩
      rcases hback with hconn | hcloses | ⟨n, hn, hne⟩
      · exact .inl hconn
      · exact .inr (.inl hcloses)
      · exact .inr (.inr ⟨n, hwaits hn hne⟩)
    · rw [Tracker.getStatus_onSessionOpen_of_ne hvu] at hv
      rcases h.present v hv with hconn | hcloses | ⟨n, hn⟩
      · exact .inl hconn
      · exact .inr (.inl hcloses)
      · refine .inr (.inr ⟨n, hwaits hn fun hpend => hvu ?_⟩)
        obtain ⟨timer, htimer, huser⟩ := hn.1
        exact huser.symm.trans ((hpending u n hpend).2 timer htimer)

theorem Closes.erase (h : s.Closes u) {key : Option SessionId} {c : Closing}
    (hkey : s.closing.lookup key = some c) (hne : u ≠ c.userId) :
    ∃ key' c', (s.closing.erase key).lookup key' = some c' ∧ c'.userId = u := by
  obtain ⟨key', c', hkey', hc'⟩ := h
  refine ⟨key', c', ?_, hc'⟩
  have hk : key' ≠ key := by
    intro heq
    rw [heq, hkey] at hkey'
    rw [← Option.some.inj hkey'] at hc'
    exact hne hc'.symm
  exact (AList.lookup_erase_ne hk).trans hkey'

/-- A close whose user turned out to be registered is over. -/
theorem inv_spared (h : s.Inv) {key : Option SessionId} {c : Closing}
    (hkey : s.closing.lookup key = some c)
    (hconn : s.serving.sessions.isConnected c.userId = true) :
    Inv { s with closing := s.closing.erase key } := by
  refine ⟨⟨h.handles.notified, h.handles.timers, h.handles.pending⟩, ?_⟩
  intro v hv
  by_cases hvu : v = c.userId
  · left
    rw [hvu]
    exact hconn
  · rcases h.present v hv with hv | hcloses | hwaits
    · exact .inl hv
    · exact .inr (.inl (hcloses.erase hkey hvu))
    · exact .inr (.inr hwaits)

/-- A close goes on to `on_all_sessions_closed`. -/
theorem inv_tested (h : s.Inv) {key : Option SessionId} {c : Closing}
    (hkey : s.closing.lookup key = some c) (tested : Bool) :
    Inv { s with closing := s.closing.insert key ⟨c.userId, tested⟩ } := by
  refine ⟨⟨h.handles.notified, h.handles.timers, h.handles.pending⟩, ?_⟩
  intro v hv
  rcases h.present v hv with hv | ⟨key', c', hkey', hc'⟩ | hwaits
  · exact .inl hv
  · right; left
    by_cases hk : key' = key
    · rw [hk, hkey] at hkey'
      obtain rfl := Option.some.inj hkey'
      exact ⟨key, _, AList.lookup_insert _, hc'⟩
    · exact ⟨key', c', (AList.lookup_insert_ne hk).trans hkey', hc'⟩
  · exact .inr (.inr hwaits)

theorem inv_onAllSessionsClosed (h : s.Inv) {key : Option SessionId} {c : Closing}
    (hkey : s.closing.lookup key = some c) (deadline : ℕ) :
    Inv { s with
      tracker := (s.tracker.onAllSessionsClosed c.userId).2
      timers := s.timers.insert (s.tracker.onAllSessionsClosed c.userId).1 ⟨c.userId, deadline⟩
      closing := s.closing.erase key } := by
  obtain ⟨hnotified, htimers, hpending⟩ := h.handles
  obtain ⟨hhandle, hnext⟩ := s.tracker.onAllSessionsClosed_handle c.userId
  refine ⟨⟨fun n hn => ?_, fun n timer htimer => ?_, fun v n hn => ?_⟩, fun v hv => ?_⟩
  · rw [hnext]
    rw [Tracker.notified_onAllSessionsClosed] at hn
    rcases List.mem_append.1 hn with hown | hn
    · exact ((hpending c.userId n (Option.mem_toList.1 hown)).1).trans (Nat.lt_succ_self _)
    · exact (hnotified n hn).trans (Nat.lt_succ_self _)
  · rw [hnext]
    rw [hhandle, DashMap.lookup_insert_ite] at htimer
    split_ifs at htimer with hn
    · rw [hn]
      exact Nat.lt_succ_self _
    · exact (htimers n timer htimer).trans (Nat.lt_succ_self _)
  · rw [Tracker.pendingOffline_onAllSessionsClosed, hhandle, DashMap.lookup_insert_ite,
      DashMap.lookup_erase_ite] at hn
    rw [hnext, hhandle]
    split_ifs at hn with hvu
    · obtain rfl := Option.some.inj hn
      refine ⟨Nat.lt_succ_self _, ?_⟩
      intro timer htimer
      rw [AList.lookup_insert] at htimer
      rw [← Option.some.inj htimer, hvu]
    · obtain ⟨hlt, huser⟩ := hpending v n hn
      refine ⟨hlt.trans (Nat.lt_succ_self _), fun timer htimer => huser timer ?_⟩
      rw [AList.lookup_insert_ne hlt.ne] at htimer
      exact htimer
  · -- The new timer waits, and of the others only the pending one of its user is notified.
    by_cases hvu : v = c.userId
    · refine .inr (.inr ⟨s.tracker.nextNotify, ⟨⟨c.userId, deadline⟩, ?_, hvu.symm⟩,
        fun hmem => ?_⟩)
      · rw [hhandle]
        exact AList.lookup_insert _
      · rw [Tracker.notified_onAllSessionsClosed] at hmem
        rcases List.mem_append.1 hmem with hown | hmem
        · exact absurd (hpending c.userId _ (Option.mem_toList.1 hown)).1 (lt_irrefl _)
        · exact absurd (hnotified _ hmem) (lt_irrefl _)
    · have hstatus : s.tracker.getStatus v ≠ .offline := by
        have hsame : Tracker.SameFor v s.tracker (s.tracker.onAllSessionsClosed c.userId).2 :=
          Tracker.sameFor_onAllSessionsClosed
        rw [← hsame.1]
        exact hv
      rcases h.present v hstatus with hconn | hcloses | ⟨n, ⟨timer, htimer, huser⟩, hnot⟩
      · exact .inl hconn
      · exact .inr (.inl (hcloses.erase hkey hvu))
      · refine .inr (.inr ⟨n, ⟨timer, ?_, huser⟩, ?_⟩)
        · rw [hhandle]
          exact (AList.lookup_insert_ne (htimers n timer htimer).ne).trans htimer
        · rw [Tracker.notified_onAllSessionsClosed, List.mem_append, Option.mem_toList, not_or]
          refine ⟨fun hpend => hvu ?_, hnot⟩
          exact huser.symm.trans ((hpending c.userId n hpend).2 timer htimer)

theorem inv_expire (h : s.Inv) {n : NotifyId} {timer : Timer}
    (htimer : s.timers.lookup n = some timer) :
    Inv { s with
      tracker := s.tracker.debounced timer.userId
      timers := s.timers.erase n } := by
  obtain ⟨hnotified, htimers, hpending⟩ := h.handles
  obtain ⟨hmap, hpermits⟩ := s.tracker.debounced_timers timer.userId
  refine ⟨⟨?_, fun n' timer' htimer' => ?_, fun v n' hn' => ?_⟩, fun v hv => ?_⟩
  · rw [hpermits, Tracker.nextNotify_debounced]
    exact hnotified
  · rw [DashMap.lookup_erase_ite] at htimer'
    split_ifs at htimer'
    rw [Tracker.nextNotify_debounced]
    exact htimers n' timer' htimer'
  · rw [hmap, DashMap.lookup_erase_ite] at hn'
    split_ifs at hn'
    rw [Tracker.nextNotify_debounced]
    obtain ⟨hlt, huser⟩ := hpending v n' hn'
    refine ⟨hlt, fun timer' htimer' => huser timer' ?_⟩
    rw [DashMap.lookup_erase_ite] at htimer'
    split_ifs at htimer'
    exact htimer'
  · have hvu : v ≠ timer.userId := by
      intro hvu
      rw [hvu] at hv
      exact hv (Tracker.debounced_offline s.tracker timer.userId).1
    have hsame : Tracker.SameFor v s.tracker (s.tracker.debounced timer.userId) :=
      Tracker.sameFor_debounced hvu
    rw [hsame.1] at hv
    rcases h.present v hv with hconn | hcloses | ⟨n', ⟨timer', htimer', huser⟩, hnot⟩
    · exact .inl hconn
    · exact .inr (.inl hcloses)
    · refine .inr (.inr ⟨n', ⟨timer', ?_, huser⟩, ?_⟩)
      · have hn : n' ≠ n := by
          intro heq
          rw [heq, htimer] at htimer'
          rw [← Option.some.inj htimer'] at huser
          exact hvu huser.symm
        exact (AList.lookup_erase_ne hn).trans htimer'
      · rw [hpermits]
        exact hnot

theorem inv_cancel (h : s.Inv) {n : NotifyId} (hn : n ∈ s.tracker.notified) :
    Inv { s with timers := s.timers.erase n } := by
  have hold {n' : NotifyId} {timer : Timer} (htimer : (s.timers.erase n).lookup n' = some timer) :
      s.timers.lookup n' = some timer := by
    rw [DashMap.lookup_erase_ite] at htimer
    split_ifs at htimer
    exact htimer
  refine ⟨⟨h.handles.notified, fun n' timer htimer => h.handles.timers n' timer (hold htimer),
    fun v n' hn' => ?_⟩, fun v hv => ?_⟩
  · obtain ⟨hlt, huser⟩ := h.handles.pending v n' hn'
    exact ⟨hlt, fun timer htimer => huser timer (hold htimer)⟩
  · rcases h.present v hv with hconn | hcloses | ⟨n', ⟨timer, htimer, huser⟩, hnot⟩
    · exact .inl hconn
    · exact .inr (.inl hcloses)
    · have hne : n' ≠ n := by
        intro heq
        exact hnot (heq ▸ hn)
      exact .inr (.inr ⟨n', ⟨timer, (AList.lookup_erase_ne hne).trans htimer, huser⟩, hnot⟩)

/-- **One step.** A status that is not offline stays backed, unless the step raises an unbacked
one. -/
theorem step_inv {a : Action} (h : s.Inv) (hok : ¬s.Unbacked a)
    (hstep : s.step offlineDebounce timeoutSecs a = some t) : t.Inv := by
  cases a with
  | serving a =>
    simp only [step] at hstep
    split_ifs at hstep with hready
    obtain ⟨serving, hserving, rfl⟩ := Option.map_eq_some_iff.1 hstep
    exact inv_follow h hready hserving hok
  | openSession sid =>
    simp only [step] at hstep
    split_ifs at hstep
    obtain ⟨u, hu, rfl⟩ := Option.map_eq_some_iff.1 hstep
    exact inv_openSession h hu hok _
  | advance key =>
    simp only [step] at hstep
    split at hstep
    · next u hkey =>
      split_ifs at hstep with hconn <;> obtain rfl := Option.some.inj hstep
      · exact inv_spared h hkey hconn
      · exact inv_tested h hkey true
    · next u hkey =>
      obtain rfl := Option.some.inj hstep
      exact inv_onAllSessionsClosed h hkey _
    · exact absurd hstep nofun
  | expire n =>
    simp only [step] at hstep
    split at hstep
    · next timer htimer =>
      split_ifs at hstep
      obtain rfl := Option.some.inj hstep
      exact inv_expire h htimer
    · exact absurd hstep nofun
  | cancel n =>
    simp only [step] at hstep
    split_ifs at hstep with hn
    obtain rfl := Option.some.inj hstep
    exact inv_cancel h hn

/-! ## Runs -/

theorem init_inv : init.Inv :=
  ⟨⟨fun _ hn => absurd hn List.not_mem_nil, fun _ _ htimer => absurd htimer nofun,
    fun _ _ hn => absurd hn nofun⟩, fun _ hstatus => absurd rfl hstatus⟩

/-- **No ghosts.** If no step of a run raises the status of a user whom nothing backs, then in the
state reached a user without a session, a timer and a close in progress is offline. -/
theorem no_ghost (offlineDebounce timeoutSecs : ℕ) (as : List Action) (s : PresenceServing)
    (hok : Along (step offlineDebounce timeoutSecs) (fun s a => ¬s.Unbacked a) init as)
    (hs : exec (step offlineDebounce timeoutSecs) init as = some s) (u : UserId)
    (hsessions : s.serving.sessions.isConnected u = false)
    (htimers : ∀ n timer, s.timers.lookup n = some timer → timer.userId ≠ u)
    (hcloses : ¬s.Closes u) : s.tracker.getStatus u = .offline := by
  have hinv : s.Inv :=
    exec_invariant_along (fun _ _ _ h hok hstep => step_inv h hok hstep) init_inv hok hs
  by_contra hstatus
  rcases hinv.present u hstatus with hconn | hclosing | ⟨n, ⟨timer, htimer, huser⟩, -⟩
  · rw [hsessions] at hconn
    cases hconn
  · exact hcloses hclosing
  · exact htimers n timer htimer huser

/-- User 7 connects, leaves, and does not come back. -/
def leavingRun : List Action :=
  [.serving (.connect ⟨1, 7⟩), .openSession 1, .serving (.ready 1), .serving (.close 1),
    .advance (some 1), .advance (some 1), .serving (.tick 5), .expire 0]

theorem no_ghost_leaving :
    ∃ s, exec (step 5 60) init leavingRun = some s ∧ s.tracker.getStatus 7 = .offline := by
  have hok : Along (step 5 60) (fun s a => ¬s.Unbacked a) init leavingRun := by
    have hquiet {s : PresenceServing} {a : Serving.Action} (h : s.serving.settingStatus a = none) :
        ¬s.Unbacked (.serving a) := by
      intro hun
      obtain ⟨u, status, hsetting, -⟩ := hun
      rw [h] at hsetting
      cases hsetting
    refine (along_cons rfl).2 ⟨hquiet rfl, (along_cons rfl).2 ⟨?_, (along_cons rfl).2 ⟨hquiet rfl,
      (along_cons rfl).2 ⟨hquiet rfl, (along_cons rfl).2 ⟨id, (along_cons rfl).2 ⟨id,
      (along_cons rfl).2 ⟨hquiet rfl, (along_cons rfl).2 ⟨id, trivial⟩⟩⟩⟩⟩⟩⟩⟩
    intro hun
    obtain ⟨u, hu, hback⟩ := hun
    obtain rfl := Option.some.inj hu
    exact hback (.inl rfl)
  refine ⟨_, rfl, no_ghost 5 60 leavingRun _ hok rfl 7 rfl ?_ ?_⟩
  · exact fun n timer htimer => nomatch show none = some timer from htimer
  · intro hcloses
    obtain ⟨key, c, hkey, -⟩ := hcloses
    exact nomatch show none = some c from hkey

/-- A step that raises an unbacked status leaves it unbacked. -/
theorem unbacked_raises {a : Action} (hstep : s.step offlineDebounce timeoutSecs a = some t)
    (hun : s.Unbacked a) : ∃ u, t.tracker.getStatus u ≠ .offline ∧ ¬t.Backed u := by
  cases a with
  | serving a =>
    obtain ⟨u, status, hsetting, hstatus, hknown, hold, hback⟩ := hun
    simp only [step] at hstep
    split_ifs at hstep
    obtain ⟨serving, hserving, rfl⟩ := Option.map_eq_some_iff.1 hstep
    cases a with
    | dispatch sid =>
      have hsessions : serving.sessions = s.serving.sessions := by
        rcases Serving.sessions_step hserving with ⟨x, ha, -⟩ | ⟨v, sid', hremoving, -⟩ | ⟨-, hs⟩
        · cases ha
        · cases hremoving
        · exact hs
      have htracker :
          (s.follow (.dispatch sid) serving).tracker = s.tracker.setStatus u status := by
        simp only [follow, hsetting]
      refine ⟨u, ?_, fun hbacked => hback ?_⟩
      · rw [htracker]
        exact (Tracker.setStatus_raises_iff hold).2 ⟨hstatus, hknown⟩
      · rcases hbacked with hconn | hcloses | ⟨n, htimer, hnot⟩
        · exact .inl (hsessions ▸ hconn)
        · exact .inr (.inl hcloses)
        · rw [(s.follow_timers _ serving).1] at hnot
          exact .inr (.inr ⟨n, htimer, hnot⟩)
    | connect | ready | text | ping | close | scan | reap | tick => cases hsetting
  | openSession sid =>
    obtain ⟨u, hu, hback⟩ := hun
    simp only [step] at hstep
    split_ifs at hstep
    rw [hu] at hstep
    obtain rfl := Option.some.inj hstep
    refine ⟨u, Tracker.getStatus_onSessionOpen s.tracker u, fun hbacked => hback ?_⟩
    rcases hbacked with hconn | hcloses | ⟨n, htimer, hnot⟩
    · exact .inl hconn
    · exact .inr (.inl hcloses)
    · rw [Tracker.notified_onSessionOpen, List.mem_append, Option.mem_toList, not_or] at hnot
      exact .inr (.inr ⟨n, ⟨htimer, hnot.2⟩, hnot.1⟩)
  | advance | expire | cancel => exact hun.elim

/-- The client falls silent for 61 seconds, is reaped and goes offline; then its reader gets an
`update_presence`. -/
def reapedReaderRun : List Action :=
  [.serving (.connect ⟨1, 7⟩), .openSession 1, .serving (.ready 1), .serving (.tick 61),
    .serving .scan, .serving .reap, .advance none, .advance none, .serving (.tick 5), .expire 0,
    .serving (.text 1 (some (.updatePresence .online))), .serving (.dispatch 1)]

/-- **A ghost**: user 7 has no session, no timer and no close in progress, no connection is about
to open, and the user is online. -/
theorem reaped_reader_ghost :
    ∃ s, exec (step 5 60) init reapedReaderRun = some s ∧
      s.serving.sessions.isConnected 7 = false ∧ s.timers = ∅ ∧ s.unopened = [] ∧
      s.closing = ∅ ∧ s.tracker.getStatus 7 = .online :=
  ⟨_, rfl, rfl, rfl, rfl, rfl, rfl⟩

end PresenceServing

end RustRelay
