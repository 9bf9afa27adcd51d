import RustRelay.Presence.Cluster

/-!
# The offline debounce

Opening, closing and expiring are single steps, and a timer that was notified does not expire.
Each node has its own sessions and its own tracker, so everything here is about one node `b`,
whatever the others do.

**Theorem (`debounce_exact`).** In every such run, the timers of a node that sleep and were not
notified are exactly those in `pending_offline`; one that expires finds its user unregistered for
the whole debounce; between its expiries, and as long as nobody sets it, a status does not flicker;
and every call of `on_all_sessions_closed` leads to at most one update.

The invariant (`Debounced`) links the map, the sleeping timers, the permits and the handles
given out. Gone and armed timers are those of the node's cluster; `Debounced.since` adds the past.
-/

namespace RustRelay

open Machine

namespace Presence

/-- `n` names a sleeping timer of the user that was not notified. -/
def Waits (nd : Presence) (u : UserId) (n : NotifyId) : Prop :=
  (∃ timer, nd.timers.lookup n = some timer ∧ timer.userId = u) ∧ n ∉ nd.tracker.notified

/-- Every handle in use was given out. -/
def Fresh (nd : Presence) : Prop :=
  (∀ n ∈ nd.tracker.notified, n < nd.tracker.nextNotify) ∧
    ∀ n timer, nd.timers.lookup n = some timer → n < nd.tracker.nextNotify

/-- A handle in `pending_offline` names a timer of its user that waits. -/
def Held (nd : Presence) : Prop :=
  ∀ u n, nd.tracker.pendingOffline.lookup u = some n → nd.Waits u n

/-- The map, the timers, the permits, the handles and the sessions of a node agree. -/
structure Debounced (nd : Presence) : Prop where
  gone : nd.Gone
  armed : nd.Armed
  fresh : nd.Fresh
  held : nd.Held

variable {nd : Presence}

theorem Debounced.pending_iff (h : nd.Debounced) {u : UserId} {n : NotifyId} :
    nd.tracker.pendingOffline.lookup u = some n ↔ nd.Waits u n := by
  constructor
  · exact h.held u n
  · intro hwaits
    obtain ⟨⟨timer, htimer, rfl⟩, hnot⟩ := hwaits
    exact h.armed n timer htimer hnot

/-- A user whose timer waits is not registered. -/
theorem Debounced.unregistered (h : nd.Debounced) {n : NotifyId} {timer : Timer}
    (htimer : nd.timers.lookup n = some timer) (hnot : n ∉ nd.tracker.notified) :
    nd.sessions.isConnected timer.userId = false :=
  h.gone timer.userId n (h.armed n timer htimer hnot)

/-- Two users do not share a handle. -/
theorem Waits.eq {u v : UserId} {n : NotifyId} (hu : nd.Waits u n) (hv : nd.Waits v n) : u = v := by
  obtain ⟨⟨timer, htimer, rfl⟩, -⟩ := hu
  obtain ⟨⟨timer', htimer', rfl⟩, -⟩ := hv
  rw [Option.some.inj (htimer.symm.trans htimer')]

/-! ### Opening -/

theorem held_openSession (h : nd.Debounced) (session : Session) :
    (nd.openSession session).Held := by
  intro u n hpending
  rw [openSession, Tracker.pendingOffline_onSessionOpen, DashMap.lookup_erase_ite] at hpending
  split_ifs at hpending with hu
  obtain ⟨htimer, hnot⟩ := h.held u n hpending
  refine ⟨htimer, ?_⟩
  rw [openSession, Tracker.notified_onSessionOpen, List.mem_append, not_or]
  refine ⟨fun hmem => hu ?_, hnot⟩
  exact (h.held u n hpending).eq (h.held session.userId n (Option.mem_toList.1 hmem))

theorem fresh_openSession (h : nd.Debounced) (session : Session) :
    (nd.openSession session).Fresh := by
  obtain ⟨hnotified, htimers⟩ := h.fresh
  rw [Fresh, openSession, Tracker.nextNotify_onSessionOpen, Tracker.notified_onSessionOpen]
  refine ⟨?_, htimers⟩
  intro n hn
  rcases List.mem_append.1 hn with hpending | hn
  · obtain ⟨⟨timer, htimer, -⟩, -⟩ := h.held session.userId n (Option.mem_toList.1 hpending)
    exact htimers n timer htimer
  · exact hnotified n hn

/-! ### Closing -/

section
variable (offlineDebounce now : ℕ) (userId : UserId) (sessionId : SessionId)

theorem held_cleanup (h : nd.Debounced) :
    (nd.cleanup offlineDebounce now userId sessionId).Held := by
  unfold cleanup
  dsimp only
  split_ifs with hconn
  · exact h.held
  · intro u n hpending
    obtain ⟨hhandle, -⟩ := nd.tracker.onAllSessionsClosed_handle userId
    dsimp only at hpending
    rw [Tracker.pendingOffline_onAllSessionsClosed, DashMap.lookup_insert_ite,
      DashMap.lookup_erase_ite] at hpending
    dsimp only [Waits]
    rw [Tracker.notified_onAllSessionsClosed, DashMap.lookup_insert_ite, List.mem_append, not_or]
    split_ifs at hpending with hu
    · -- The new timer: nobody can have notified it.
      obtain rfl := Option.some.inj hpending
      refine ⟨⟨_, if_pos rfl, hu.symm⟩, ?_, ?_⟩
      · intro hmem
        obtain ⟨⟨timer, htimer, -⟩, -⟩ := h.held userId _ (Option.mem_toList.1 hmem)
        exact absurd (h.fresh.2 _ timer htimer) (by rw [hhandle]; exact lt_irrefl _)
      · intro hmem
        exact absurd (h.fresh.1 _ hmem) (by rw [hhandle]; exact lt_irrefl _)
    · obtain ⟨⟨timer, htimer, huser⟩, hnot⟩ := h.held u n hpending
      refine ⟨⟨timer, (if_neg ?_).trans htimer, huser⟩, fun hmem => hu ?_, hnot⟩
      · rw [hhandle]
        exact (h.fresh.2 n timer htimer).ne
      · exact (h.held u n hpending).eq (h.held userId n (Option.mem_toList.1 hmem))

theorem fresh_cleanup (h : nd.Debounced) :
    (nd.cleanup offlineDebounce now userId sessionId).Fresh := by
  obtain ⟨hnotified, htimers⟩ := h.fresh
  unfold cleanup
  dsimp only
  split_ifs with hconn
  · exact h.fresh
  · obtain ⟨hhandle, hnext⟩ := nd.tracker.onAllSessionsClosed_handle userId
    dsimp only [Fresh]
    rw [hnext, Tracker.notified_onAllSessionsClosed, hhandle]
    constructor
    · intro n hn
      rcases List.mem_append.1 hn with hpending | hn
      · obtain ⟨⟨timer, htimer, -⟩, -⟩ := h.held userId n (Option.mem_toList.1 hpending)
        exact (htimers n timer htimer).trans (Nat.lt_succ_self _)
      · exact (hnotified n hn).trans (Nat.lt_succ_self _)
    · intro n timer htimer
      rw [DashMap.lookup_insert_ite] at htimer
      split_ifs at htimer with hn
      · rw [hn]
        exact Nat.lt_succ_self _
      · exact (htimers n timer htimer).trans (Nat.lt_succ_self _)

end

/-! ### Expiring -/

theorem held_expire (h : nd.Debounced) {n : NotifyId} {timer : Timer}
    (htimer : nd.timers.lookup n = some timer) : (nd.expire n timer).Held := by
  intro u n' hpending
  obtain ⟨hmap, hnotified⟩ := nd.tracker.debounced_timers timer.userId
  rw [expire, hmap, DashMap.lookup_erase_ite] at hpending
  split_ifs at hpending with hu
  obtain ⟨⟨timer', htimer', huser⟩, hnot⟩ := h.held u n' hpending
  refine ⟨⟨timer', ?_, huser⟩, ?_⟩
  · have hn : n' ≠ n := by
      intro heq
      rw [heq, htimer] at htimer'
      rw [Option.some.inj htimer', huser] at hu
      exact hu rfl
    exact (DashMap.lookup_erase_ite nd.timers n n').trans ((if_neg hn).trans htimer')
  · rw [expire, hnotified]
    exact hnot

theorem fresh_expire (h : nd.Fresh) (n : NotifyId) (timer : Timer) : (nd.expire n timer).Fresh := by
  obtain ⟨-, hnotified⟩ := nd.tracker.debounced_timers timer.userId
  simp only [Fresh, expire, Tracker.nextNotify_debounced, hnotified, DashMap.lookup_erase_ite]
  refine ⟨h.1, ?_⟩
  intro n' timer' htimer'
  split_ifs at htimer'
  exact h.2 n' timer' htimer'

theorem debounced_cancel (h : nd.Debounced) {n : NotifyId} (hn : n ∈ nd.tracker.notified) :
    Debounced { nd with timers := nd.timers.erase n } := by
  refine ⟨h.gone, fun n' timer htimer hnot => ?_, ⟨h.fresh.1, fun n' timer htimer => ?_⟩,
    fun u n' hpending => ?_⟩
  · rw [DashMap.lookup_erase_ite] at htimer
    split_ifs at htimer
    exact h.armed n' timer htimer hnot
  · rw [DashMap.lookup_erase_ite] at htimer
    split_ifs at htimer
    exact h.fresh.2 n' timer htimer
  · obtain ⟨⟨timer, htimer, huser⟩, hnot⟩ := h.held u n' hpending
    have hne : n' ≠ n := by
      intro heq
      exact hnot (heq ▸ hn)
    exact ⟨⟨timer, (AList.lookup_erase_ne hne).trans htimer, huser⟩, hnot⟩

theorem debounced_setStatus (h : nd.Debounced) (u : UserId) (status : PresenceStatus) :
    Debounced { nd with tracker := nd.tracker.setStatus u status } := by
  obtain ⟨hpending, hnotified⟩ := nd.tracker.setStatus_timers u status
  refine ⟨?_, ?_, ?_, ?_⟩
  · intro v n
    rw [hpending]
    exact h.gone v n
  · intro n timer htimer
    rw [hpending, hnotified]
    exact h.armed n timer htimer
  · rw [Fresh, hnotified, Tracker.nextNotify_setStatus]
    exact h.fresh
  · intro v n
    rw [hpending, Waits, hnotified]
    exact h.held v n

end Presence

namespace PresenceCluster

variable {ι : Type}

/-- The node an action is about. -/
def Action.node : Action ι → Option ι
  | .openSession b _ | .cleanup b _ _ | .setStatus b _ _ | .expire b _ | .cancel b _ => some b
  | .tick _ => none

/-- A step about another node lets no timer of this one expire. -/
theorem expiring_ne {b : ι} {u : UserId} {s : PresenceCluster ι} {a : Action ι}
    (h : a.node ≠ some b) : s.expiring a ≠ some (b, u) := by
  cases a with
  | expire b' n =>
    intro heq
    obtain ⟨timer, -, hpair⟩ := Option.map_eq_some_iff.1 heq
    exact h (congrArg some (Prod.mk.inj hpair).1)
  | openSession | cleanup | setStatus | tick | cancel => exact nofun

/-- What an action does to node `b`. -/
inductive Moves (offlineDebounce now : ℕ) (b : ι) (nd : Presence) : Action ι → Presence → Prop
  | stay (a : Action ι) (h : a.node ≠ some b) : Moves offlineDebounce now b nd a nd
  | openSession (x : Session) :
    Moves offlineDebounce now b nd (.openSession b x) (nd.openSession x)
  | cleanup (u : UserId) (sid : SessionId) :
    Moves offlineDebounce now b nd (.cleanup b u sid) (nd.cleanup offlineDebounce now u sid)
  | setStatus (u : UserId) (status : PresenceStatus) :
    Moves offlineDebounce now b nd (.setStatus b u status)
      { nd with tracker := nd.tracker.setStatus u status }
  | expire (n : NotifyId) (timer : Timer) (h : nd.timers.lookup n = some timer)
    (hdeadline : timer.deadline ≤ now) :
    Moves offlineDebounce now b nd (.expire b n) (nd.expire n timer)
  | cancel (n : NotifyId) (h : n ∈ nd.tracker.notified) :
    Moves offlineDebounce now b nd (.cancel b n) { nd with timers := nd.timers.erase n }

section
variable {offlineDebounce now : ℕ} {b : ι} {nd nd' : Presence} {a : Action ι}

/-- **One step.** It keeps the agreement of map, timers, permits, handles and sessions. -/
theorem Moves.debounced (hok : ∀ n, a = .expire b n →
    n ∉ nd.tracker.notified) (hmoves : Moves offlineDebounce now b nd a nd') (h : nd.Debounced) :
    nd'.Debounced := by
  cases hmoves with
  | stay => exact h
  | openSession x =>
    exact ⟨Presence.gone_openSession h.gone x, Presence.armed_openSession h.armed x,
      Presence.fresh_openSession h x, Presence.held_openSession h x⟩
  | cleanup u sid =>
    exact ⟨Presence.gone_cleanup h.gone offlineDebounce now u sid,
      Presence.armed_cleanup h.armed offlineDebounce now u sid,
      Presence.fresh_cleanup offlineDebounce now u sid h,
      Presence.held_cleanup offlineDebounce now u sid h⟩
  | setStatus u status => exact Presence.debounced_setStatus h u status
  | expire n timer htimer =>
    exact ⟨Presence.gone_expire h.gone n timer, Presence.armed_expire h.armed htimer (hok n rfl),
      Presence.fresh_expire h.fresh n timer, Presence.held_expire h htimer⟩
  | cancel n hn => exact Presence.debounced_cancel h hn

/-- A timer that waits after a step waited before it, or was set by it. -/
theorem Moves.timer_cases (hmoves : Moves offlineDebounce now b nd a nd') {n : NotifyId}
    {timer : Timer} (htimer : nd'.timers.lookup n = some timer) (hnot : n ∉ nd'.tracker.notified) :
    nd.timers.lookup n = some timer ∧ n ∉ nd.tracker.notified ∨
      (∃ u sid, a = .cleanup b u sid) ∧ timer.deadline = now + offlineDebounce := by
  cases hmoves with
  | stay => exact .inl ⟨htimer, hnot⟩
  | openSession x =>
    rw [Presence.openSession, Tracker.notified_onSessionOpen, List.mem_append, not_or] at hnot
    exact .inl ⟨htimer, hnot.2⟩
  | cleanup u sid =>
    unfold Presence.cleanup at htimer hnot
    dsimp only at htimer hnot
    split_ifs at htimer hnot
    · exact .inl ⟨htimer, hnot⟩
    · rw [DashMap.lookup_insert_ite] at htimer
      rw [Tracker.notified_onAllSessionsClosed, List.mem_append, not_or] at hnot
      split_ifs at htimer
      · obtain rfl := Option.some.inj htimer
        exact .inr ⟨⟨u, sid, rfl⟩, rfl⟩
      · exact .inl ⟨htimer, hnot.2⟩
  | setStatus u status =>
    rw [(nd.tracker.setStatus_timers u status).2] at hnot
    exact .inl ⟨htimer, hnot⟩
  | expire n' timer' =>
    rw [Presence.expire, (nd.tracker.debounced_timers timer'.userId).2] at hnot
    simp only [Presence.expire, DashMap.lookup_erase_ite] at htimer
    split_ifs at htimer
    exact .inl ⟨htimer, hnot⟩
  | cancel n' =>
    rw [DashMap.lookup_erase_ite] at htimer
    split_ifs at htimer
    exact .inl ⟨htimer, hnot⟩

/-! ### What a step leaves alone -/

/-- The user and the node of a `set_status`. -/
def Action.setting : Action ι → Option (ι × UserId)
  | .setStatus b u _ => some (b, u)
  | _ => none

/-- Nobody sets the status of the user and no timer of the user expires. -/
def Undisturbed (b : ι) (u : UserId) (s : PresenceCluster ι) (a : Action ι) : Prop :=
  a.setting ≠ some (b, u) ∧ s.expiring a ≠ some (b, u)

theorem Moves.sameFor (hmoves : Moves offlineDebounce now b nd a nd') {u : UserId}
    (hstatus : nd.tracker.getStatus u ≠ .offline) (hset : a.setting ≠ some (b, u))
    (hexpire : ∀ n timer, a = .expire b n → nd.timers.lookup n = some timer → timer.userId ≠ u) :
    Tracker.SameFor u nd.tracker nd'.tracker := by
  cases hmoves with
  | stay => exact ⟨rfl, rfl⟩
  | openSession x => exact Tracker.sameFor_onSessionOpen hstatus
  | cleanup v sid =>
    unfold Presence.cleanup
    dsimp only
    split_ifs
    · exact ⟨rfl, rfl⟩
    · exact Tracker.sameFor_onAllSessionsClosed
  | setStatus v status =>
    refine Tracker.sameFor_setStatus (fun heq => hset ?_) status
    rw [heq]
    rfl
  | expire n timer htimer => exact Tracker.sameFor_debounced (hexpire n timer rfl htimer).symm
  | cancel n => exact ⟨rfl, rfl⟩

theorem Moves.nextNotify_le (hmoves : Moves offlineDebounce now b nd a nd') :
    nd.tracker.nextNotify ≤ nd'.tracker.nextNotify := by
  cases hmoves with
  | stay => exact le_rfl
  | openSession x => exact (nd.tracker.nextNotify_onSessionOpen x.userId).ge
  | cleanup u sid =>
    unfold Presence.cleanup
    dsimp only
    split_ifs
    · exact le_rfl
    · rw [(nd.tracker.onAllSessionsClosed_handle u).2]
      exact Nat.le_succ _
  | setStatus u status => exact (nd.tracker.nextNotify_setStatus u status).ge
  | expire n timer => exact (nd.tracker.nextNotify_debounced timer.userId).ge
  | cancel n => exact le_rfl

theorem Moves.timers_of_lt (hmoves : Moves offlineDebounce now b nd a nd') {n : NotifyId}
    (hn : n < nd.tracker.nextNotify) {timer : Timer} (h : nd'.timers.lookup n = some timer) :
    nd.timers.lookup n = some timer := by
  cases hmoves with
  | stay => exact h
  | openSession x => exact h
  | cleanup u sid =>
    unfold Presence.cleanup at h
    dsimp only at h
    split_ifs at h
    · exact h
    · rw [DashMap.lookup_insert_ite, (nd.tracker.onAllSessionsClosed_handle u).1,
        if_neg hn.ne] at h
      exact h
  | setStatus u status => exact h
  | expire n' timer' =>
    simp only [Presence.expire, DashMap.lookup_erase_ite] at h
    split_ifs at h
    exact h
  | cancel n' =>
    rw [DashMap.lookup_erase_ite] at h
    split_ifs at h
    exact h

end

variable [DecidableEq ι] {offlineDebounce : ℕ} {s t : PresenceCluster ι} {a : Action ι}

/-- A step moves the node it is about, and leaves the others. -/
theorem step_moves (h : s.step offlineDebounce a = some t) (b : ι) :
    Moves offlineDebounce s.now b (s.nodes b) a (t.nodes b) := by
  have hother {a : Action ι} {b' : ι} {nd : Presence} (ha : a.node = some b')
      (hnd : Moves offlineDebounce s.now b' (s.nodes b') a nd) :
      Moves offlineDebounce s.now b (s.nodes b) a ((s.setNode b' nd).nodes b) := by
    rw [setNode_nodes]
    split_ifs with hb
    · rw [hb]
      exact hnd
    · refine .stay a fun hnode => hb ?_
      exact (Option.some.inj (ha.symm.trans hnode)).symm
  cases a with
  | openSession b' x =>
    obtain rfl := Option.some.inj h
    exact hother rfl (.openSession x)
  | cleanup b' u sid =>
    obtain rfl := Option.some.inj h
    exact hother rfl (.cleanup u sid)
  | setStatus b' u status =>
    obtain rfl := Option.some.inj h
    exact hother rfl (.setStatus u status)
  | tick seconds =>
    obtain rfl := Option.some.inj h
    exact .stay _ (Option.some_ne_none b).symm
  | expire b' n =>
    simp only [step] at h
    split at h
    · next timer htimer =>
      split_ifs at h with hdeadline
      obtain rfl := Option.some.inj h
      exact hother rfl (.expire n timer htimer hdeadline)
    · cases h
  | cancel b' n =>
    simp only [step] at h
    split_ifs at h with hn
    obtain rfl := Option.some.inj h
    exact hother rfl (.cancel n hn)

theorem step_debounced (h : ∀ b, (s.nodes b).Debounced) (hok : s.Unnotified a)
    (hstep : s.step offlineDebounce a = some t) : ∀ b, (t.nodes b).Debounced := by
  intro b
  refine (step_moves hstep b).debounced (fun n ha => ?_) (h b)
  rw [ha] at hok
  exact hok

omit [DecidableEq ι] in
theorem init_debounced (b : ι) : ((init : PresenceCluster ι).nodes b).Debounced :=
  ⟨init_gone b, init_armed b, ⟨fun _ hn => absurd hn List.not_mem_nil,
    fun _ _ htimer => absurd htimer nofun⟩, fun _ _ hpending => absurd hpending nofun⟩

/-! ### How long a user has been gone -/

/-- Since some state at least a debounce before the deadline, the timer's user has been
unregistered. -/
def GoneSince (offlineDebounce : ℕ) (b : ι) (u : UserId) (deadline : ℕ)
    (as : List (Action ι)) : Prop :=
  Since (step offlineDebounce) (fun r => (r.nodes b).sessions.isConnected u = false)
    (fun r => r.now + offlineDebounce ≤ deadline) init as

/-- **The past of a timer that waits.** -/
theorem exec_goneSince {as : List (Action ι)}
    (hties : Along (step offlineDebounce) Unnotified init as)
    (hs : exec (step offlineDebounce) init as = some s) :
    (∀ b, (s.nodes b).Debounced) ∧ ∀ b n timer, (s.nodes b).timers.lookup n = some timer →
      n ∉ (s.nodes b).tracker.notified →
        GoneSince offlineDebounce b timer.userId timer.deadline as := by
  refine exec_history (J := fun as s => (∀ b, (s.nodes b).Debounced) ∧
      ∀ b n timer, (s.nodes b).timers.lookup n = some timer → n ∉ (s.nodes b).tracker.notified →
        GoneSince offlineDebounce b timer.userId timer.deadline as)
    ⟨init_debounced, fun _ _ timer htimer => nomatch show none = some timer from htimer⟩
    (fun as r a t h hr hok hstep => ?_)
    hties hs
  obtain ⟨hdeb, hpast⟩ := h
  have hdeb' := step_debounced hdeb hok hstep
  have ht : exec (step offlineDebounce) init (as ++ [a]) = some t := exec_snoc.2 ⟨r, hr, hstep⟩
  refine ⟨hdeb', ?_⟩
  intro b n timer htimer hnot
  have hunregistered := (hdeb' b).unregistered htimer hnot
  rcases (step_moves hstep b).timer_cases htimer hnot with ⟨hold, hnot'⟩ | ⟨⟨u, sid, rfl⟩, hnew⟩
  · exact (hpast b n timer hold hnot').snoc ht hunregistered
  · obtain rfl := Option.some.inj hstep
    exact since_now ht hunregistered hnew.ge

/-! ### Each call, and its one timer -/

/-- A `cleanup` in this state calls `on_all_sessions_closed`. -/
def Closes (s : PresenceCluster ι) (b : ι) (u : UserId) (sid : SessionId) : Prop :=
  ((s.nodes b).sessions.remove u sid).2.isConnected u = false

/-- The handle of the next timer of a node. -/
def nextTimer (s : PresenceCluster ι) (b : ι) : NotifyId := (s.nodes b).tracker.nextNotify

/-- An expiry of timer `n` of node `b` is for user `u`. -/
def ExpiresFor (b : ι) (n : NotifyId) (u : UserId) (s : PresenceCluster ι) (a : Action ι) : Prop :=
  a = .expire b n → s.expiring a = some (b, u)

/-- The handle `n` was given out, and if it names a timer, then one of `u`. -/
def Owns (s : PresenceCluster ι) (b : ι) (u : UserId) (n : NotifyId) : Prop :=
  n < s.nextTimer b ∧ ∀ timer, (s.nodes b).timers.lookup n = some timer → timer.userId = u

theorem step_owns {b : ι} {u : UserId} {n : NotifyId} (h : s.Owns b u n)
    (hstep : s.step offlineDebounce a = some t) : t.Owns b u n := by
  have hmoves := step_moves hstep b
  exact ⟨h.1.trans_le hmoves.nextNotify_le,
    fun timer htimer => h.2 timer (hmoves.timers_of_lt h.1 htimer)⟩

theorem owns_cleanup {b : ι} {u : UserId} {sid : SessionId} (hcloses : s.Closes b u sid)
    (hstep : s.step offlineDebounce (.cleanup b u sid) = some t) : t.Owns b u (s.nextTimer b) := by
  obtain rfl := Option.some.inj hstep
  obtain ⟨hhandle, hnext⟩ := (s.nodes b).tracker.onAllSessionsClosed_handle u
  have hnode : (s.setNode b ((s.nodes b).cleanup offlineDebounce s.now u sid)).nodes b =
      (s.nodes b).cleanup offlineDebounce s.now u sid := by rw [setNode_nodes, if_pos rfl]
  rw [Closes] at hcloses
  rw [Owns, nextTimer, nextTimer, hnode, Presence.cleanup, if_neg (by rw [hcloses]; decide)]
  dsimp only
  rw [hnext, hhandle]
  refine ⟨Nat.lt_succ_self _, ?_⟩
  intro timer htimer
  rw [AList.lookup_insert] at htimer
  rw [← Option.some.inj htimer]

theorem step_expire {b : ι} {n : NotifyId} (hstep : s.step offlineDebounce (.expire b n) = some t) :
    ∃ timer, (s.nodes b).timers.lookup n = some timer ∧ timer.deadline ≤ s.now ∧
      t.nodes b = (s.nodes b).expire n timer := by
  simp only [step] at hstep
  split at hstep
  · next timer htimer =>
    split_ifs at hstep with hdeadline
    obtain rfl := Option.some.inj hstep
    refine ⟨timer, htimer, hdeadline, ?_⟩
    rw [setNode_nodes, if_pos rfl]
  · cases hstep

theorem lookup_expire {b : ι} {n : NotifyId}
    (hstep : s.step offlineDebounce (.expire b n) = some t) :
    (∃ timer, (s.nodes b).timers.lookup n = some timer) ∧ (t.nodes b).timers.lookup n = none := by
  obtain ⟨timer, htimer, -, hnode⟩ := step_expire hstep
  refine ⟨⟨timer, htimer⟩, ?_⟩
  rw [hnode]
  exact (DashMap.lookup_erase_ite _ n n).trans (if_pos rfl)

theorem expire_spec {as : List (Action ι)}
    (hties : Along (step offlineDebounce) Unnotified init as)
    (hs : exec (step offlineDebounce) init as = some s) {b : ι} {n : NotifyId} {timer : Timer}
    (htimer : (s.nodes b).timers.lookup n = some timer) (hnot : n ∉ (s.nodes b).tracker.notified)
    (hstep : s.step offlineDebounce (.expire b n) = some t) :
    GoneSince offlineDebounce b timer.userId s.now as ∧
      (t.nodes b).tracker.getStatus timer.userId = .offline ∧
      (t.nodes b).tracker.broadcasts =
        (timer.userId, .offline) :: (s.nodes b).tracker.broadcasts := by
  obtain ⟨timer', htimer', hdeadline, hnode⟩ := step_expire hstep
  obtain rfl := Option.some.inj (htimer.symm.trans htimer')
  rw [hnode]
  refine ⟨((exec_goneSince hties hs).2 b n timer htimer hnot).imp fun r hr => ?_, ?_⟩
  · exact hr.trans hdeadline
  · exact Tracker.debounced_offline (s.nodes b).tracker timer.userId

theorem step_sameFor {b : ι} {u : UserId} (hok : s.Undisturbed b u a)
    (hstatus : (s.nodes b).tracker.getStatus u ≠ .offline)
    (hstep : s.step offlineDebounce a = some t) :
    Tracker.SameFor u (s.nodes b).tracker (t.nodes b).tracker := by
  refine (step_moves hstep b).sameFor hstatus hok.1 fun n timer ha htimer hu => hok.2 ?_
  rw [ha, expiring, htimer, Option.map_some, hu]

theorem exec_sameFor {b : ι} {u : UserId} {bs : List (Action ι)}
    (hstatus : (s.nodes b).tracker.getStatus u ≠ .offline)
    (hquiet : Along (step offlineDebounce) (Undisturbed b u) s bs)
    (ht : exec (step offlineDebounce) s bs = some t) :
    Tracker.SameFor u (s.nodes b).tracker (t.nodes b).tracker := by
  refine exec_invariant_along
    (I := fun r => Tracker.SameFor u (s.nodes b).tracker (r.nodes b).tracker)
    (fun r a q h hok hstep => ?_) ⟨rfl, rfl⟩ hquiet ht
  have hq := step_sameFor hok (by rw [h.1]; exact hstatus) hstep
  exact ⟨hq.1.trans h.1, hq.2.trans h.2⟩

theorem count_expire_eq_zero {b : ι} {n : NotifyId} {bs : List (Action ι)}
    (hn : n < s.nextTimer b) (hgone : (s.nodes b).timers.lookup n = none)
    (ht : exec (step offlineDebounce) s bs = some t) : bs.count (.expire b n) = 0 := by
  induction bs generalizing s with
  | nil => rfl
  | cons a bs ih =>
    obtain ⟨r, hr, ht⟩ := exec_cons.1 ht
    have hmoves := step_moves hr b
    have hne : a ≠ .expire b n := by
      intro ha
      rw [ha] at hr
      obtain ⟨⟨timer, htimer⟩, -⟩ := lookup_expire hr
      rw [hgone] at htimer
      cases htimer
    have hgone' : (r.nodes b).timers.lookup n = none := by
      apply Option.eq_none_iff_forall_ne_some.2
      intro timer htimer
      rw [hmoves.timers_of_lt hn htimer] at hgone
      cases hgone
    rw [List.count_cons_of_ne hne]
    exact ih (hn.trans_le hmoves.nextNotify_le) hgone' ht

theorem count_expire_le_one {b : ι} {n : NotifyId} {bs : List (Action ι)}
    (hn : n < s.nextTimer b) (ht : exec (step offlineDebounce) s bs = some t) :
    bs.count (.expire b n) ≤ 1 := by
  induction bs generalizing s with
  | nil => exact Nat.zero_le 1
  | cons a bs ih =>
    obtain ⟨r, hr, ht⟩ := exec_cons.1 ht
    have hnr : n < r.nextTimer b := hn.trans_le (step_moves hr b).nextNotify_le
    by_cases ha : a = .expire b n
    · rw [ha] at hr
      rw [ha, List.count_cons_self, count_expire_eq_zero hnr (lookup_expire hr).2 ht]
    · rw [List.count_cons_of_ne ha]
      exact ih hnr ht

theorem expiresFor_of_owns {b : ι} {u : UserId} {n : NotifyId} (h : s.Owns b u n)
    (hstep : s.step offlineDebounce a = some t) : s.ExpiresFor b n u a := by
  intro ha
  rw [ha] at hstep ⊢
  obtain ⟨⟨timer, htimer⟩, -⟩ := lookup_expire hstep
  rw [expiring, htimer, Option.map_some, h.2 timer htimer]

/-- The handles of the timers that expired so far were given out. -/
theorem lt_nextTimer_of_expired {as : List (Action ι)}
    (hties : Along (step offlineDebounce) Unnotified init as)
    (hs : exec (step offlineDebounce) init as = some s) {b : ι} {n : NotifyId}
    (hn : .expire b n ∈ as) : n < s.nextTimer b := by
  refine (exec_history (J := fun as s => (∀ b, (s.nodes b).Debounced) ∧
      ∀ n, .expire b n ∈ as → n < s.nextTimer b)
    ⟨init_debounced, fun _ hmem => absurd hmem List.not_mem_nil⟩
    (fun as r a t h _ hok hstep => ?_) hties hs).2 n hn
  refine ⟨step_debounced h.1 hok hstep, ?_⟩
  intro n hmem
  have hle : r.nextTimer b ≤ t.nextTimer b := (step_moves hstep b).nextNotify_le
  rcases List.mem_append.1 hmem with hold | hnew
  · exact (h.2 n hold).trans_le hle
  · obtain rfl := List.mem_singleton.1 hnew
    obtain ⟨⟨timer, htimer⟩, -⟩ := lookup_expire hstep
    exact ((h.1 b).fresh.2 n timer htimer).trans_le hle

/-- **The debounce is exact.** Take a run in which no notified timer expires, and a node `b`.
`pending_offline` holds exactly the timers that wait, at most one for each user; a timer that
expires takes its user offline, who has been unregistered for the whole debounce; a status that is
not offline outlasts any part of the run in which it is not set and no timer of the user expires;
and a call of `on_all_sessions_closed` makes a timer of its own, which expires at most once. -/
theorem debounce_exact (offlineDebounce : ℕ) (as : List (Action ι)) (s : PresenceCluster ι)
    (hties : Along (step offlineDebounce) Unnotified init as)
    (hs : exec (step offlineDebounce) init as = some s) (b : ι) :
    (∀ u n, (s.nodes b).tracker.pendingOffline.lookup u = some n ↔ (s.nodes b).Waits u n) ∧
    (∀ u n m, (s.nodes b).Waits u n → (s.nodes b).Waits u m → n = m) ∧
    (∀ n timer t, (s.nodes b).timers.lookup n = some timer → n ∉ (s.nodes b).tracker.notified →
      s.step offlineDebounce (.expire b n) = some t →
        GoneSince offlineDebounce b timer.userId s.now as ∧
        (t.nodes b).tracker.getStatus timer.userId = .offline ∧
        (t.nodes b).tracker.broadcasts =
          (timer.userId, .offline) :: (s.nodes b).tracker.broadcasts) ∧
    (∀ u bs t, (s.nodes b).tracker.getStatus u ≠ .offline →
      Along (step offlineDebounce) (Undisturbed b u) s bs →
      exec (step offlineDebounce) s bs = some t →
        Tracker.SameFor u (s.nodes b).tracker (t.nodes b).tracker) ∧
    (∀ u sid bs t, s.Closes b u sid →
      exec (step offlineDebounce) s (.cleanup b u sid :: bs) = some t →
        .expire b (s.nextTimer b) ∉ as ∧ bs.count (.expire b (s.nextTimer b)) ≤ 1 ∧
        Along (step offlineDebounce) (ExpiresFor b (s.nextTimer b) u) s (.cleanup b u sid :: bs) ∧
        s.nextTimer b < t.nextTimer b) := by
  obtain ⟨hdeb, hpast⟩ := exec_goneSince hties hs
  refine ⟨fun u n => (hdeb b).pending_iff, ?_, ?_, ?_, ?_⟩
  · intro u n m hn hm
    have hpending := (hdeb b).pending_iff.2 hn
    rw [(hdeb b).pending_iff.2 hm] at hpending
    exact (Option.some.inj hpending).symm
  · intro n timer t htimer hnot hstep
    exact expire_spec hties hs htimer hnot hstep
  · intro u bs t hstatus hquiet ht
    exact exec_sameFor hstatus hquiet ht
  · intro u sid bs t hcloses ht
    obtain ⟨r, hr, ht⟩ := exec_cons.1 ht
    have howns : r.Owns b u (s.nextTimer b) := owns_cleanup hcloses hr
    have halong : Along (step offlineDebounce) (ExpiresFor b (s.nextTimer b) u) r bs := by
      refine (along_congr (I := fun q => q.Owns b u (s.nextTimer b))
        (fun _ _ _ h _ hstep => step_owns h hstep) (fun _ _ _ h _ hstep => ?_) howns
        (along_true r bs)).2 (along_true r bs)
      exact iff_of_true (expiresFor_of_owns h hstep) trivial
    refine ⟨fun hmem => lt_irrefl _ (lt_nextTimer_of_expired hties hs hmem),
      count_expire_le_one howns.1 ht, (along_cons hr).2 ⟨nofun, halong⟩, ?_⟩
    exact (exec_invariant (fun _ _ _ h hstep => step_owns h hstep) howns ht).1

/-- User 7 closes its last session, reconnects within the debounce, and leaves for good. -/
theorem debounce_exact_oneNode :
    ∃ s t, exec (step 5) init (oneNode.take 7) = some s ∧ s.step 5 (.expire true 1) = some t ∧
      GoneSince 5 true 7 s.now (oneNode.take 7) ∧
      (t.nodes true).tracker.getStatus 7 = .offline ∧
      (t.nodes true).tracker.broadcasts = (7, .offline) :: (s.nodes true).tracker.broadcasts := by
  refine ⟨_, _, rfl, rfl, ?_⟩
  exact (debounce_exact 5 (oneNode.take 7) _ (by decide) rfl true).2.2.1 1 ⟨7, 7⟩ _ rfl
    (by decide) rfl

end PresenceCluster

end RustRelay
