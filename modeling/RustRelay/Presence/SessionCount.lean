import RustRelay.Presence.Debounce

/-!
# The session count of the tracker

Next to the status, the tracker keeps a count of the user's sessions. It goes up with every open
and back to zero when a debounce timer expires; that a session was closed while others are open,
the tracker is not told.

**Theorem (`session_count_iff`).** In every state of a run in which a user is registered on a node,
the count of the tracker there is the number of registered sessions, *if and only if* every close
of a session left the user unregistered, every open of an unregistered user came after an expiry of
a debounce timer that followed all earlier opens, no timer expired while the user was registered,
and fewer than `2 ^ 32` sessions were registered. Closing one device of two is enough to break it:
`second_device`; and so is a reconnect within the debounce: `quick_reconnect`.
-/

namespace RustRelay

open Machine

namespace Tracker

/-- The `session_count` of the user's entry, zero if there is none. -/
def sessionCount (tr : Tracker) (u : UserId) : UInt32 :=
  ((tr.state.lookup u).map UserPresence.sessionCount).getD 0

variable (tr : Tracker) (userId u : UserId)

theorem sessionCount_insert (p : UserPresence) :
    ({ tr with state := tr.state.insert userId p } : Tracker).sessionCount u =
      if u = userId then p.sessionCount else tr.sessionCount u := by
  simp only [sessionCount, DashMap.lookup_insert_ite]
  split_ifs <;> rfl

theorem sessionCount_openEntry : (tr.openEntry userId).2.sessionCount u =
    if u = userId then tr.sessionCount u + 1 else tr.sessionCount u := by
  unfold openEntry
  cases hlook : tr.state.lookup userId with
  | none =>
    rw [sessionCount_insert]
    split_ifs with hu
    · rw [hu, sessionCount, hlook]
      rfl
    · rfl
  | some p =>
    have hcount : tr.sessionCount userId = p.sessionCount := by rw [sessionCount, hlook]; rfl
    dsimp only
    split_ifs with hp hu hu
    · rw [sessionCount_insert, if_pos hu, hu, hcount]
    · rw [sessionCount_insert, if_neg hu]
    · rw [sessionCount_insert, if_pos hu, hu, hcount]
    · rw [sessionCount_insert, if_neg hu]

theorem sessionCount_onSessionOpen : (tr.onSessionOpen userId).sessionCount u =
    if u = userId then tr.sessionCount u + 1 else tr.sessionCount u := by
  have hentry := (tr.cancelPending userId).sessionCount_openEntry userId u
  have hcancel : (tr.cancelPending userId).sessionCount u = tr.sessionCount u := by
    rw [cancelPending_eq]
    rfl
  rw [← hcancel, ← hentry, onSessionOpen]
  cases (tr.cancelPending userId).openEntry userId with
  | mk changed tr' => cases changed <;> rfl

theorem sessionCount_onAllSessionsClosed :
    (tr.onAllSessionsClosed userId).2.sessionCount u = tr.sessionCount u := by
  unfold onAllSessionsClosed
  rw [cancelPending_eq]
  rfl

theorem sessionCount_setStatus (status : PresenceStatus) :
    (tr.setStatus userId status).sessionCount u = tr.sessionCount u := by
  unfold setStatus
  cases hlook : tr.state.lookup userId with
  | none => rfl
  | some p =>
    dsimp only
    split_ifs
    · refine (sessionCount_insert tr userId u _).trans ?_
      split_ifs with hu
      · rw [hu, sessionCount, hlook]
        rfl
      · rfl
    · rfl

theorem sessionCount_debounced : (tr.debounced userId).sessionCount u =
    if u = userId then 0 else tr.sessionCount u := by
  unfold debounced writeOffline
  cases hlook : tr.state.lookup userId with
  | none =>
    split_ifs with hu
    · rw [hu]
      show tr.sessionCount userId = 0
      rw [sessionCount, hlook]
      rfl
    · rfl
  | some p => exact sessionCount_insert tr userId u _

end Tracker

/-! ## One node -/

namespace Presence

/-- A registered user is counted right. -/
def Counted (nd : Presence) (u : UserId) : Prop :=
  nd.sessions.isConnected u = true →
    (nd.tracker.sessionCount u).toNat = nd.sessions.sessionCount u

instance (nd : Presence) (u : UserId) : Decidable (nd.Counted u) :=
  inferInstanceAs (Decidable (_ → _))

variable {nd : Presence} {u : UserId}

theorem isConnected_iff_pos {st : SessionStore} :
    st.isConnected u = true ↔ 0 < st.sessionCount u := by
  rw [SessionStore.isConnected, SessionStore.sessionCount]
  cases st.vec u <;> simp

/-- What an open has to find: a registered user with room for one more in the `u32`, or a user
whose count is zero. -/
def CountsOpen (nd : Presence) (u : UserId) : Prop :=
  if nd.sessions.isConnected u then nd.sessions.sessionCount u + 1 < 2 ^ 32
  else nd.tracker.sessionCount u = 0

theorem counted_openSession (h : nd.Counted u) (session : Session) :
    (nd.openSession session).Counted u ↔ (session.userId = u → nd.CountsOpen u) := by
  have hvec : (nd.openSession session).sessions.vec u =
      if u = session.userId then nd.sessions.vec u ++ [session] else nd.sessions.vec u :=
    SessionStore.vec_insert nd.sessions session u
  have hcount : (nd.openSession session).tracker.sessionCount u =
      if u = session.userId then nd.tracker.sessionCount u + 1 else nd.tracker.sessionCount u :=
    Tracker.sessionCount_onSessionOpen nd.tracker session.userId u
  by_cases hu : u = session.userId
  · have hlen : (nd.openSession session).sessions.sessionCount u =
        nd.sessions.sessionCount u + 1 := by
      rw [SessionStore.sessionCount, hvec, if_pos hu, List.length_append]
      rfl
    rw [Counted, isConnected_iff_pos, hlen, hcount, if_pos hu, UInt32.toNat_add,
      forall_prop_of_true (Nat.succ_pos _), forall_prop_of_true hu.symm, CountsOpen]
    have hlt := (nd.tracker.sessionCount u).toNat_lt
    have hone : (1 : UInt32).toNat = 1 := rfl
    split_ifs with hconn
    · have hold := h hconn
      omega
    · rw [isConnected_iff_pos, Nat.pos_iff_ne_zero, not_not] at hconn
      rw [hconn, ← UInt32.toNat_inj, UInt32.toNat_zero]
      omega
  · have hlen : (nd.openSession session).sessions.sessionCount u = nd.sessions.sessionCount u := by
      rw [SessionStore.sessionCount, hvec, if_neg hu, SessionStore.sessionCount]
    rw [Counted, isConnected_iff_pos, hlen, hcount, if_neg hu, ← isConnected_iff_pos]
    exact iff_of_true h fun heq => absurd heq.symm hu

/-- What a close has to find: no such session, or no other one. -/
def CountsClose (nd : Presence) (u : UserId) (sessionId : SessionId) : Prop :=
  (∃ x ∈ nd.sessions.vec u, x.sessionId = sessionId) →
    ∀ x ∈ nd.sessions.vec u, x.sessionId = sessionId

theorem sessionCount_cleanup (nd : Presence) (offlineDebounce now : ℕ) (v : UserId)
    (sessionId : SessionId) (u : UserId) :
    (nd.cleanup offlineDebounce now v sessionId).tracker.sessionCount u =
      nd.tracker.sessionCount u := by
  unfold cleanup
  dsimp only
  split_ifs
  · rfl
  · exact Tracker.sessionCount_onAllSessionsClosed nd.tracker v u

theorem counted_cleanup (h : nd.Counted u) (offlineDebounce now : ℕ) (v : UserId)
    (sessionId : SessionId) :
    (nd.cleanup offlineDebounce now v sessionId).Counted u ↔
      (v = u → nd.CountsClose u sessionId) := by
  have hsessions : (nd.cleanup offlineDebounce now v sessionId).sessions =
      (nd.sessions.remove v sessionId).2 := by
    unfold cleanup
    dsimp only
    split_ifs <;> rfl
  have hcount := nd.sessionCount_cleanup offlineDebounce now v sessionId u
  have hvec := SessionStore.remove_vec nd.sessions v sessionId u
  rw [Counted, isConnected_iff_pos, hcount, hsessions, SessionStore.sessionCount, hvec]
  rw [Counted, isConnected_iff_pos, SessionStore.sessionCount] at h
  rw [CountsClose]
  generalize nd.sessions.vec u = xs at h ⊢
  by_cases hu : u = v
  · rw [if_pos hu, forall_prop_of_true hu.symm]
    by_cases hmem : ∃ x ∈ xs, x.sessionId = sessionId
    · -- One goes, so the count is right only if none stays.
      rw [forall_prop_of_true hmem]
      obtain ⟨x, hx, hid⟩ := hmem
      have hlt : (xs.filter fun y => y.sessionId ≠ sessionId).length < xs.length := by
        refine List.length_filter_lt_length_iff_exists.2 ⟨x, hx, ?_⟩
        simpa using hid
      have hold := h (List.length_pos_of_mem hx)
      rw [hold]
      constructor
      · intro hsame
        have hnil : (xs.filter fun y => y.sessionId ≠ sessionId) = [] := by
          by_contra hne
          exact absurd (hsame (List.length_pos_iff.2 hne)) hlt.ne'
        intro y hy
        simpa using List.filter_eq_nil_iff.1 hnil y hy
      · intro hall hpos
        obtain ⟨y, hy⟩ := List.exists_mem_of_length_pos hpos
        obtain ⟨hy, hne⟩ := List.mem_filter.1 hy
        exact absurd (hall y hy) (by simpa using hne)
    · refine iff_of_true ?_ fun hex => absurd hex hmem
      push Not at hmem
      rwa [List.filter_eq_self.2 fun x hx => decide_eq_true (hmem x hx)]
  · rw [if_neg hu]
    exact iff_of_true h fun heq => absurd heq.symm hu

theorem counted_expire (h : nd.Counted u) (n : NotifyId) (timer : Timer) :
    (nd.expire n timer).Counted u ↔ (timer.userId = u → nd.sessions.isConnected u = false) := by
  have hcount : (nd.expire n timer).tracker.sessionCount u =
      if u = timer.userId then 0 else nd.tracker.sessionCount u :=
    Tracker.sessionCount_debounced nd.tracker timer.userId u
  rw [Counted, hcount]
  show (nd.sessions.isConnected u = true → _ = nd.sessions.sessionCount u) ↔ _
  by_cases hu : u = timer.userId
  · rw [if_pos hu, forall_prop_of_true hu.symm, UInt32.toNat_zero, ← Bool.not_eq_true,
      isConnected_iff_pos]
    omega
  · rw [if_neg hu]
    exact iff_of_true h fun heq => absurd heq.symm hu

end Presence

/-! ## Runs -/

namespace PresenceCluster

variable {ι : Type}

/-- What a step has to find so that the user stays counted right on the node, with a condition on
the opens. -/
def Finds (b : ι) (u : UserId) (s : PresenceCluster ι) (opens : Prop) : Action ι → Prop
  | .openSession b' x => b' = b → x.userId = u → opens
  | .cleanup b' v sid => b' = b → v = u → (s.nodes b).CountsClose u sid
  | .expire b' n => b' = b → ∀ timer, (s.nodes b).timers.lookup n = some timer →
      timer.userId = u → (s.nodes b).sessions.isConnected u = false
  | .setStatus _ _ _ | .tick _ | .cancel _ _ => True

/-- An open is counted right by the count it finds. -/
def KeepsCount (b : ι) (u : UserId) (s : PresenceCluster ι) : Action ι → Prop :=
  s.Finds b u ((s.nodes b).CountsOpen u)

variable [DecidableEq ι] {offlineDebounce : ℕ} {s t : PresenceCluster ι} {a : Action ι}

/-- **One step.** -/
theorem step_counted (h : s.step offlineDebounce a = some t) {b : ι} {u : UserId}
    (hs : (s.nodes b).Counted u) : (t.nodes b).Counted u ↔ s.KeepsCount b u a := by
  have hmoves := step_moves h b
  generalize t.nodes b = nd at hmoves
  cases hmoves with
  | stay _ hother =>
    refine iff_of_true hs ?_
    cases a with
    | openSession b' x | cleanup b' v sid | expire b' n =>
      intro hb
      exact absurd (congrArg some hb) hother
    | setStatus | tick | cancel => trivial
  | openSession x =>
    rw [Presence.counted_openSession hs]
    exact ⟨fun hok _ => hok, fun hok => hok rfl⟩
  | cleanup v sid =>
    rw [Presence.counted_cleanup hs]
    exact ⟨fun hok _ => hok, fun hok => hok rfl⟩
  | setStatus v status =>
    refine iff_of_true ?_ trivial
    rw [Presence.Counted, Tracker.sessionCount_setStatus]
    exact hs
  | expire n timer htimer =>
    rw [Presence.counted_expire hs, KeepsCount, Finds, forall_prop_of_true rfl, htimer]
    simp
  | cancel n hn => exact iff_of_true hs trivial

/-! ### The count, by the run so far -/

/-- After the last session that the user opened on the node, a debounce timer of the user expired
there. -/
def Reset (offlineDebounce : ℕ) (b : ι) (u : UserId) (as : List (Action ι)) : Prop :=
  ∀ pre x post, as = pre ++ .openSession b x :: post → x.userId = u →
    ∃ mid a rest s, post = mid ++ a :: rest ∧
      exec (step offlineDebounce) init (pre ++ .openSession b x :: mid) = some s ∧
      s.expiring a = some (b, u)

variable {b : ι} {u : UserId} {as : List (Action ι)}

/-- A step resets the user by an expiry, and undoes it by an open. -/
theorem reset_snoc (hs : exec (step offlineDebounce) init as = some s) :
    Reset offlineDebounce b u (as ++ [a]) ↔ s.expiring a = some (b, u) ∨
      Reset offlineDebounce b u as ∧ ∀ x, a = .openSession b x → x.userId ≠ u := by
  constructor
  · intro hreset
    refine or_iff_not_imp_left.2 fun hexpire => ⟨fun pre x post has hu => ?_, fun x ha hu => ?_⟩
    · obtain ⟨mid, c, rest, r, hpost, hr, hc⟩ := hreset pre x (post ++ [a]) (by rw [has]; simp) hu
      rcases snoc_eq_split.1 hpost with ⟨rfl, rfl, rfl⟩ | ⟨rest', -, hpost'⟩
      · rw [← has, hs] at hr
        obtain rfl := Option.some.inj hr
        exact absurd hc hexpire
      · exact ⟨mid, c, rest', r, hpost', hr, hc⟩
    · obtain ⟨mid, c, rest, r, hnil, -⟩ := hreset as x [] (by rw [ha]) hu
      exact absurd hnil (by simp)
  · intro hcase pre x post has hu
    rcases snoc_eq_split.1 has with ⟨rfl, ha, rfl⟩ | ⟨mid, rfl, hbefore⟩
    · rcases hcase with hexpire | ⟨-, hopen⟩
      · rw [← ha] at hexpire
        cases hexpire
      · exact absurd hu (hopen x ha.symm)
    · rcases hcase with hexpire | ⟨hreset, -⟩
      · exact ⟨mid, a, [], s, rfl, by rw [← hbefore]; exact hs, hexpire⟩
      · obtain ⟨mid', c, rest, r, rfl, hr, hc⟩ := hreset pre x mid hbefore hu
        exact ⟨mid', c, rest ++ [a], r, by simp, hr, hc⟩

/-- **The count of a user who was counted right so far is zero exactly after a reset.** -/
theorem sessionCount_eq_zero_iff
    (hok : Along (step offlineDebounce) (KeepsCount b u) init as)
    (hs : exec (step offlineDebounce) init as = some s) :
    (s.nodes b).Counted u ∧
      ((s.nodes b).tracker.sessionCount u = 0 ↔ Reset offlineDebounce b u as) := by
  apply exec_history (J := fun as s => (s.nodes b).Counted u ∧
    ((s.nodes b).tracker.sessionCount u = 0 ↔ Reset offlineDebounce b u as)) ?_ ?_ hok hs
  · refine ⟨fun hconn => absurd hconn Bool.false_ne_true, iff_of_true rfl fun pre x post has => ?_⟩
    simp at has
  · intro as r a t hold hr ha ht
    have hcounted : (t.nodes b).Counted u := (step_counted ht hold.1).2 ha
    refine ⟨hcounted, ?_⟩
    rw [reset_snoc hr, ← hold.2]
    -- where the step neither opens a session of the user nor expires a timer, the count stays
    have hsame {nd : Presence}
        (hcount : nd.tracker.sessionCount u = (r.nodes b).tracker.sessionCount u)
        (hexpire : r.expiring a ≠ some (b, u)) (hopen : ∀ x, a = .openSession b x → x.userId ≠ u) :
        nd.tracker.sessionCount u = 0 ↔ r.expiring a = some (b, u) ∨
          (r.nodes b).tracker.sessionCount u = 0 ∧ ∀ x, a = .openSession b x → x.userId ≠ u := by
      rw [hcount, or_iff_right hexpire, and_iff_left hopen]
    have hmoves := step_moves ht b
    generalize t.nodes b = nd at hmoves hcounted
    cases hmoves with
    | stay _ hother =>
      refine hsame rfl (expiring_ne hother) fun x hx => ?_
      exact absurd (by rw [hx]; rfl) hother
    | openSession x =>
      have hcount := Tracker.sessionCount_onSessionOpen (r.nodes b).tracker x.userId u
      by_cases hu : u = x.userId
      · -- the open was counted, and an open never counts to zero
        refine iff_of_false (fun hzero => ?_) ?_
        · have hvec : x ∈ ((r.nodes b).openSession x).sessions.vec u :=
            SessionStore.mem_vec_insert.2 (.inr ⟨rfl, hu⟩)
          have hpos : 0 < ((r.nodes b).openSession x).sessions.sessionCount u :=
            List.length_pos_of_mem hvec
          rw [← hcounted (Presence.isConnected_iff_pos.2 hpos), hzero] at hpos
          exact absurd hpos (lt_irrefl 0)
        · rintro (hexpire | ⟨-, hopen⟩)
          · cases hexpire
          · exact hopen x rfl hu.symm
      · refine hsame (hcount.trans (if_neg hu)) (by rintro ⟨⟩) fun y hy => ?_
        obtain rfl := (Action.openSession.inj hy).2
        exact fun heq => hu heq.symm
    | cleanup v sid =>
      exact hsame (Presence.sessionCount_cleanup _ _ _ _ _ _) (by rintro ⟨⟩) (by simp)
    | setStatus v status =>
      exact hsame (Tracker.sessionCount_setStatus _ _ _ _) (by rintro ⟨⟩) (by simp)
    | expire n timer htimer =>
      have hcount := Tracker.sessionCount_debounced (r.nodes b).tracker timer.userId u
      by_cases hu : u = timer.userId
      · refine iff_of_true (hcount.trans (if_pos hu)) (.inl ?_)
        rw [expiring, htimer, Option.map_some, hu]
      · refine hsame (hcount.trans (if_neg hu)) (fun hexpire => hu ?_) (by simp)
        rw [expiring, htimer, Option.map_some] at hexpire
        exact (Prod.mk.inj (Option.some.inj hexpire)).2.symm
    | cancel n hn => exact hsame rfl (by rintro ⟨⟩) (by simp)

/-- What a step has to find, by the run so far: an open needs room in the `u32` where the user is
registered, and a reset where it is not. -/
def FindsCounted (offlineDebounce : ℕ) (b : ι) (u : UserId) (pre : List (Action ι))
    (s : PresenceCluster ι) : Action ι → Prop :=
  s.Finds b u <|
    if (s.nodes b).sessions.isConnected u then (s.nodes b).sessions.sessionCount u + 1 < 2 ^ 32
    else Reset offlineDebounce b u pre

/-- **The tracker counts a registered user right in every state of a run if and only if** every
step finds what it has to. -/
theorem session_count_iff (offlineDebounce : ℕ) (b : ι) (u : UserId) (as : List (Action ι)) :
    (∀ pre post s, as = pre ++ post → exec (step offlineDebounce) init pre = some s →
      (s.nodes b).Counted u) ↔
    ∀ pre a post s t, as = pre ++ a :: post → exec (step offlineDebounce) init pre = some s →
      s.step offlineDebounce a = some t → FindsCounted offlineDebounce b u pre s a := by
  have hsteps : (∀ pre post s, as = pre ++ post → exec (step offlineDebounce) init pre = some s →
      (s.nodes b).Counted u) ↔ Along (step offlineDebounce) (KeepsCount b u) init as :=
    always_iff_along (I := fun _ => True) (fun _ _ _ _ _ => trivial)
      (fun _ _ _ _ hs hstep => step_counted hstep hs) trivial
      fun hconn => absurd hconn Bool.false_ne_true
  rw [hsteps]
  refine along_iff_history fun pre a r t hok hr _ => ?_
  rw [KeepsCount, FindsCounted, Presence.CountsOpen, (sessionCount_eq_zero_iff hok hr).2]

/-- A user opens a second device and closes the first. -/
def secondDevice : List (Action Unit) :=
  [.openSession () ⟨1, 7⟩, .openSession () ⟨2, 7⟩, .cleanup () 7 1]

/-- **The tracker counts two sessions, and one is registered.** -/
theorem second_device :
    ∃ s, exec (step 5) init secondDevice = some s ∧
      (s.nodes ()).sessions.isConnected 7 = true ∧ (s.nodes ()).tracker.sessionCount 7 = 2 ∧
      (s.nodes ()).sessions.sessionCount 7 = 1 ∧ ¬(s.nodes ()).Counted 7 :=
  ⟨_, rfl, by decide, by decide, by decide, by decide⟩

/-- A user reconnects within the debounce. -/
def quickReconnect : List (Action Unit) :=
  [.openSession () ⟨1, 7⟩, .cleanup () 7 1, .openSession () ⟨2, 7⟩]

/-- The open finds no expiry after the one before. -/
theorem quick_reconnect :
    ∃ s, exec (step 5) init quickReconnect = some s ∧ ¬(s.nodes ()).Counted 7 :=
  ⟨_, rfl, by decide⟩

end PresenceCluster

end RustRelay
