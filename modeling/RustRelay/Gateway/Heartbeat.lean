import Mathlib.Data.List.Flatten
import RustRelay.Gateway.Connection
import RustRelay.Gateway.Registry
import RustRelay.Presence.Tracker

/-!
# The heartbeat monitor

A pass of the monitor collects the sessions that have been silent for more than the timeout, in
whole seconds, and then removes them one by one. After each removal it looks whether the user is
still connected.

**Theorem (`heartbeat_pass_reaps`).** A pass that nothing interferes with removes exactly the stale
sessions of any store, counts them off, and calls `on_all_sessions_closed` once for each user whose
sessions were all stale. A session that it removes was silent for more than the timeout in real
time too.

**Theorem (`reaps_stale_iff`).** Where readers store heartbeats meanwhile, the monitor removes only
stale sessions *if and only if* every found session that comes back has been silent for longer than
the timeout again when the monitor gets to it. It does not look at the heartbeat a second time:
`pinging_reaped`.
-/

namespace RustRelay

open Machine

/-! ## One pass -/

/-- `DateTime::timestamp`, the whole seconds of a wall clock in nanoseconds. -/
def timestamp (wallClock : ℕ) : ℕ := wallClock / 10 ^ 9

/-- `seconds_since_heartbeat() > timeout_secs`, with the clock as it is read for the session. -/
def Stale (lastHeartbeat now : SessionId → ℕ) (timeoutSecs : ℕ) (sid : SessionId) : Prop :=
  timeoutSecs < now sid - lastHeartbeat sid

instance (lastHeartbeat now : SessionId → ℕ) (timeoutSecs : ℕ) :
    DecidablePred (Stale lastHeartbeat now timeoutSecs) :=
  fun _ => inferInstanceAs (Decidable (_ < _))

/-- `find_stale_sessions`, with a clock that goes on between the sessions. -/
def SessionStore.collectStale (st : SessionStore) (lastHeartbeat now : SessionId → ℕ)
    (timeoutSecs : ℕ) : List (UserId × SessionId) :=
  st.sessions.entries.flatMap fun entry =>
    (entry.2.filter fun s => Stale lastHeartbeat now timeoutSecs s.sessionId).map fun s =>
      (entry.1, s.sessionId)

theorem SessionStore.collectStale_const (st : SessionStore) (lastHeartbeat : SessionId → ℕ)
    (now timeoutSecs : ℕ) : st.collectStale lastHeartbeat (fun _ => now) timeoutSecs =
      st.findStaleSessions lastHeartbeat now timeoutSecs := rfl

structure HeartbeatPass where
  sessions : SessionStore
  presence : Tracker
  /-- The debounce tasks that the calls of `on_all_sessions_closed` have spawned. -/
  spawned : List (UserId × NotifyId)

namespace HeartbeatPass

/-- The body of the loop over the stale sessions. -/
def reap (p : HeartbeatPass) (stale : UserId × SessionId) : HeartbeatPass :=
  let sessions := (p.sessions.remove stale.1 stale.2).2
  if !sessions.isConnected stale.1 then
    let (notify, presence) := p.presence.onAllSessionsClosed stale.1
    ⟨sessions, presence, p.spawned ++ [(stale.1, notify)]⟩
  else { p with sessions }

end HeartbeatPass

/-- One pass of `spawn_heartbeat_monitor`, without interference. -/
def heartbeatPass (st : SessionStore) (presence : Tracker) (lastHeartbeat now : SessionId → ℕ)
    (timeoutSecs : ℕ) : HeartbeatPass :=
  (st.collectStale lastHeartbeat now timeoutSecs).foldl HeartbeatPass.reap ⟨st, presence, []⟩

/-- Session ids are distinct, no `Vec` is empty, and the counter counts the sessions. -/
structure SessionStore.Sound (st : SessionStore) : Prop where
  ids : (st.sessions.entries.flatMap fun entry => entry.2.map Session.sessionId).Nodup
  keys : ∀ u, st.sessions.lookup u ≠ some []
  counter : st.totalConnections.toNat = st.size

namespace HeartbeatPass

/-- `on_all_sessions_closed` for one user after the other. -/
def closeAll (presence : Tracker) (userIds : List UserId) : Tracker :=
  userIds.foldl (fun presence u => (presence.onAllSessionsClosed u).2) presence

/-- What a pass makes of a store and a tracker. -/
structure Reaps (stale : SessionId → Prop) [DecidablePred stale] (st : SessionStore)
    (presence : Tracker) (p : HeartbeatPass) : Prop where
  /-- The stale sessions are gone, the others stay in order. -/
  sessions : ∀ u, p.sessions.vec u = (st.vec u).filter fun x => ¬stale x.sessionId
  /-- A key is dropped exactly if all sessions of its user were stale. -/
  keys : ∀ u, u ∈ p.sessions.connectedUserIds ↔
    u ∈ st.connectedUserIds ∧ ¬∀ x ∈ st.vec u, stale x.sessionId
  /-- The counter goes down by the number of stale sessions, and does not wrap. -/
  counter : p.sessions.totalConnections.toNat +
    DashMap.sum (List.countP fun x => stale x.sessionId) st.sessions = st.totalConnections.toNat
  size : p.sessions.totalConnections.toNat = p.sessions.size
  /-- `on_all_sessions_closed` is called once for each user whose sessions were all stale. -/
  closed : ∀ u, (p.spawned.map Prod.fst).count u =
    if u ∈ st.connectedUserIds ∧ ∀ x ∈ st.vec u, stale x.sessionId then 1 else 0
  /-- Nothing else happens to the tracker. -/
  presence : p.presence = closeAll presence (p.spawned.map Prod.fst)

end HeartbeatPass

/-! ### One removal -/

namespace SessionStore

/-- `Sound`, as the removals need it. -/
structure Tidy (st : SessionStore) : Prop where
  ids : ∀ u, ((st.vec u).map Session.sessionId).Nodup
  keys : ∀ u, st.sessions.lookup u ≠ some []
  counter : st.totalConnections.toNat = st.size

variable {st : SessionStore}

theorem mem_connectedUserIds_iff (hkeys : ∀ u, st.sessions.lookup u ≠ some []) {u : UserId} :
    u ∈ st.connectedUserIds ↔ st.vec u ≠ [] := by
  rw [connectedUserIds, DashMap.mem_keys_iff, vec]
  cases hlook : st.sessions.lookup u with
  | none => simp
  | some xs =>
    have hne : xs ≠ [] := fun h => hkeys u (h ▸ hlook)
    simpa using hne

theorem Sound.tidy (h : st.Sound) : st.Tidy := by
  refine ⟨fun u => ?_, h.keys, h.counter⟩
  rw [vec]
  cases hlook : st.sessions.lookup u with
  | none => exact List.nodup_nil
  | some xs => exact (List.nodup_flatMap.1 h.ids).1 ⟨u, xs⟩ (List.of_mem_dlookup hlook)

theorem length_retain {xs : List Session} (hids : (xs.map Session.sessionId).Nodup) {x : Session}
    (hx : x ∈ xs) : (xs.filter fun s => s.sessionId ≠ x.sessionId).length + 1 = xs.length := by
  have hone : xs.countP (fun s => s.sessionId = x.sessionId) = 1 := by
    have hcount := List.count_eq_one_of_mem hids (List.mem_map_of_mem (f := Session.sessionId) hx)
    rw [List.count, List.countP_map] at hcount
    rw [← hcount]
    apply List.countP_congr
    intro s _
    simp
  have htotal := List.length_eq_countP_add_countP (l := xs) fun s => s.sessionId = x.sessionId
  rw [htotal, hone, Nat.add_comm, List.countP_eq_length_filter]
  simp

theorem Tidy.remove (h : st.Tidy) {u : UserId} {x : Session} (hx : x ∈ st.vec u) :
    (st.remove u x.sessionId).2.Tidy ∧ (st.remove u x.sessionId).2.size + 1 = st.size := by
  obtain ⟨xs, hvec⟩ : ∃ xs, st.vec u = xs := ⟨_, rfl⟩
  have hlook : st.sessions.lookup u = some xs := hvec ▸ lookup_of_mem_vec hx
  have hlen := length_retain (h.ids u) hx
  obtain ⟨kept, hkept⟩ : ∃ kept, (xs.filter fun s => s.sessionId ≠ x.sessionId) = kept := ⟨_, rfl⟩
  rw [hvec, hkept] at hlen
  have hremove : (st.remove u x.sessionId).2 =
      { sessions := DashMap.set st.sessions u (if kept.isEmpty then none else some kept)
        totalConnections := st.totalConnections - 1 } := by
    have hlt : kept.length < xs.length := by omega
    simp only [SessionStore.remove, hlook, hkept]
    rw [if_pos (decide_eq_true hlt)]
    split_ifs <;> rfl
  have hsize : (st.remove u x.sessionId).2.size + 1 = st.size := by
    have hsum := DashMap.sum_set List.length st.sessions u
      (if kept.isEmpty then none else some kept)
    have helim : (if kept.isEmpty then none else some kept).elim 0 List.length = kept.length := by
      split_ifs with hempty
      · rw [List.isEmpty_iff.1 hempty]
        rfl
      · rfl
    rw [valueAt_length, hvec, helim] at hsum
    rw [hremove]
    simp only [size]
    omega
  refine ⟨⟨fun v => ?_, fun v => ?_, ?_⟩, hsize⟩
  · rw [remove_vec]
    split_ifs
    · exact (h.ids v).sublist (List.filter_sublist.map _)
    · exact h.ids v
  · rw [hremove, DashMap.lookup_set]
    split_ifs with hv hempty
    · simp
    · intro hnil
      exact hempty (List.isEmpty_iff.2 (Option.some.inj hnil))
    · exact h.keys v
  · have hcounter := h.counter
    have hone : (1 : UInt64) ≤ st.totalConnections := by
      rw [UInt64.le_iff_toNat_le, hcounter, ← hsize]
      exact Nat.le_add_left _ _
    rw [← Nat.add_right_cancel_iff (n := 1), hsize, hremove, UInt64.toNat_sub_of_le _ _ hone,
      hcounter, ← hsize]
    rfl

end SessionStore

/-! ### The loop -/

namespace HeartbeatPass

/-- The calls of `on_all_sessions_closed` in one round. -/
def closes (p : HeartbeatPass) (q : UserId × SessionId) : List UserId :=
  if (p.sessions.remove q.1 q.2).2.vec q.1 = [] then [q.1] else []

/-- **One round**: the session is removed, and its user closed if that was the last one. -/
theorem reap_spec (p : HeartbeatPass) (q : UserId × SessionId) :
    (p.reap q).sessions = (p.sessions.remove q.1 q.2).2 ∧
      (p.reap q).spawned.map Prod.fst = p.spawned.map Prod.fst ++ p.closes q ∧
      (p.reap q).presence = closeAll p.presence (p.closes q) := by
  unfold reap closes SessionStore.isConnected
  by_cases hnil : (p.sessions.remove q.1 q.2).2.vec q.1 = []
  · simp [hnil, closeAll]
  · simp [hnil, closeAll]

/-- What rounds over the list `l` make of `p`. -/
structure Reaped (l : List (UserId × SessionId)) (p p' : HeartbeatPass) : Prop where
  sessions : ∀ u, p'.sessions.vec u = (p.sessions.vec u).filter fun x => (u, x.sessionId) ∉ l
  tidy : p'.sessions.Tidy
  size : p'.sessions.size + l.length = p.sessions.size
  closed : ∃ us, p'.spawned.map Prod.fst = p.spawned.map Prod.fst ++ us ∧
    p'.presence = closeAll p.presence us ∧
    ∀ u, us.count u = if u ∈ l.map Prod.fst ∧ p'.sessions.vec u = [] then 1 else 0

/-- The last of a user's sessions is removed once, and the user is closed then. -/
theorem count_closes {p p' : HeartbeatPass} {q : UserId × SessionId}
    {l : List (UserId × SessionId)} {us : List UserId}
    (hregistered : ∀ r ∈ l, ∃ x ∈ (p.reap q).sessions.vec r.1, x.sessionId = r.2)
    (hsessions : ∀ u, p'.sessions.vec u =
      ((p.reap q).sessions.vec u).filter fun x => (u, x.sessionId) ∉ l)
    (hus : ∀ u, us.count u = if u ∈ l.map Prod.fst ∧ p'.sessions.vec u = [] then 1 else 0)
    (u : UserId) : (p.closes q ++ us).count u =
      if u ∈ (q :: l).map Prod.fst ∧ p'.sessions.vec u = [] then 1 else 0 := by
  have hone := (p.reap_spec q).1
  rw [List.count_append, hus, closes, ← hone]
  simp only [List.map_cons, List.mem_cons]
  by_cases hu : u = q.1
  · subst hu
    by_cases hnil : (p.reap q).sessions.vec q.1 = []
    · -- Nothing of this user is left to go over.
      have hnot : q.1 ∉ l.map Prod.fst := by
        intro hmem
        obtain ⟨r, hr, heq⟩ := List.mem_map.1 hmem
        obtain ⟨x, hx, -⟩ := hregistered r hr
        rw [heq, hnil] at hx
        exact List.not_mem_nil hx
      have hlast : p'.sessions.vec q.1 = [] := by rw [hsessions, hnil]; rfl
      simp [hnil, hnot, hlast]
    · by_cases hmem : q.1 ∈ l.map Prod.fst
      · simp [hnil, hmem]
      · have hsame : p'.sessions.vec q.1 = (p.reap q).sessions.vec q.1 := by
          rw [hsessions, List.filter_eq_self]
          intro x _
          rw [decide_eq_true_eq]
          intro hx
          exact hmem (List.mem_map.2 ⟨_, hx, rfl⟩)
        simp [hsame, hnil, hmem]
  · have hcount : (if (p.reap q).sessions.vec q.1 = [] then [q.1] else []).count u = 0 := by
      split_ifs <;> simp [Ne.symm hu]
    rw [hcount, Nat.zero_add]
    exact if_congr (by simp [hu]) rfl rfl

/-- **The loop.** It goes over registered sessions, each once. -/
theorem foldl_reap (l : List (UserId × SessionId)) {p : HeartbeatPass} (hp : p.sessions.Tidy)
    (hnodup : l.Nodup) (hregistered : ∀ q ∈ l, ∃ x ∈ p.sessions.vec q.1, x.sessionId = q.2) :
    Reaped l p (l.foldl reap p) := by
  induction l generalizing p with
  | nil =>
    refine ⟨fun u => ?_, hp, rfl, [], (List.append_nil _).symm, rfl, fun u => rfl⟩
    exact (List.filter_eq_self.2 fun x _ => decide_eq_true List.not_mem_nil).symm
  | cons q l ih =>
    obtain ⟨hq, hl⟩ := List.nodup_cons.1 hnodup
    obtain ⟨⟨x, hx, hxq⟩, hrest⟩ := List.forall_mem_cons.1 hregistered
    obtain ⟨hsessions, hspawned, hpresence⟩ := p.reap_spec q
    obtain ⟨htidy, hsize⟩ := hp.remove hx
    rw [hxq, ← hsessions] at htidy hsize
    have hvec (u : UserId) : (p.reap q).sessions.vec u =
        (p.sessions.vec u).filter fun x => (u, x.sessionId) ≠ q := by
      rw [hsessions, SessionStore.remove_vec]
      split_ifs with hu
      · subst hu
        apply List.filter_congr
        intro y _
        simp [Prod.ext_iff]
      · refine (List.filter_eq_self.2 fun y _ => ?_).symm
        rw [decide_eq_true_eq]
        intro heq
        exact hu (congrArg Prod.fst heq)
    have hregistered' : ∀ r ∈ l, ∃ x ∈ (p.reap q).sessions.vec r.1, x.sessionId = r.2 := by
      intro r hr
      obtain ⟨y, hy, hyr⟩ := hrest r hr
      refine ⟨y, ?_, hyr⟩
      rw [hvec, List.mem_filter, hyr, decide_eq_true_eq]
      exact ⟨hy, fun heq => hq (heq ▸ hr)⟩
    obtain ⟨hfinal, htidy', hsize', us, hus, hclosed, hcount⟩ := ih htidy hl hregistered'
    refine ⟨fun u => ?_, htidy', ?_, p.closes q ++ us, ?_, ?_,
      count_closes hregistered' hfinal hcount⟩
    · rw [List.foldl_cons, hfinal, hvec, List.filter_filter]
      apply List.filter_congr
      intro y _
      simp [not_or, Bool.and_comm]
    · rw [List.foldl_cons, List.length_cons]
      omega
    · rw [List.foldl_cons, hus, hspawned, List.append_assoc]
    · rw [List.foldl_cons, hclosed, hpresence, closeAll, closeAll, closeAll, List.foldl_append]

end HeartbeatPass

/-! ### The whole pass -/

section
variable {st : SessionStore} {lastHeartbeat now : SessionId → ℕ} {timeoutSecs : ℕ}

theorem SessionStore.mem_collectStale {u : UserId} {sid : SessionId} :
    (u, sid) ∈ st.collectStale lastHeartbeat now timeoutSecs ↔
      ∃ x ∈ st.vec u, x.sessionId = sid ∧ Stale lastHeartbeat now timeoutSecs sid :=
  mem_entries_flatMap (Stale lastHeartbeat now timeoutSecs)

theorem SessionStore.mem_collectStale_iff {u : UserId} {x : Session} (hx : x ∈ st.vec u) :
    (u, x.sessionId) ∈ st.collectStale lastHeartbeat now timeoutSecs ↔
      Stale lastHeartbeat now timeoutSecs x.sessionId := by
  rw [mem_collectStale]
  exact ⟨fun hfound => hfound.elim fun y hy => hy.2.2, fun hstale => ⟨x, hx, rfl, hstale⟩⟩

theorem SessionStore.collectStale_ids_nodup
    (hids : (st.sessions.entries.flatMap fun entry => entry.2.map Session.sessionId).Nodup) :
    ((st.collectStale lastHeartbeat now timeoutSecs).map Prod.snd).Nodup := by
  rw [collectStale, List.map_flatMap]
  refine hids.sublist (List.Sublist.flatMap_right _ fun entry _ => ?_)
  rw [List.map_map]
  exact List.filter_sublist.map Session.sessionId

theorem SessionStore.Sound.collectStale_nodup (hst : st.Sound) :
    (st.collectStale lastHeartbeat now timeoutSecs).Nodup :=
  List.Nodup.of_map Prod.snd (collectStale_ids_nodup hst.ids)

theorem SessionStore.length_collectStale : (st.collectStale lastHeartbeat now timeoutSecs).length =
    DashMap.sum (List.countP fun x => Stale lastHeartbeat now timeoutSecs x.sessionId)
      st.sessions := by
  rw [collectStale, List.length_flatMap, DashMap.sum]
  simp only [List.length_map, List.countP_eq_length_filter]

/-- **A pass over any store**, whatever the heartbeats and the clock are. -/
theorem SessionStore.Sound.reaps (hst : st.Sound) (presence : Tracker) :
    (heartbeatPass st presence lastHeartbeat now timeoutSecs).Reaps
      (Stale lastHeartbeat now timeoutSecs) st presence := by
  have hreaped : HeartbeatPass.Reaped (st.collectStale lastHeartbeat now timeoutSecs)
      ⟨st, presence, []⟩ (heartbeatPass st presence lastHeartbeat now timeoutSecs) := by
    refine HeartbeatPass.foldl_reap _ hst.tidy hst.collectStale_nodup fun q hq => ?_
    obtain ⟨x, hx, hid, -⟩ := SessionStore.mem_collectStale.1 hq
    exact ⟨x, hx, hid⟩
  generalize heartbeatPass st presence lastHeartbeat now timeoutSecs = pass at hreaped
  obtain ⟨hsessions, htidy, hsize, us, hus, hclosed, hcount⟩ := hreaped
  have hkept (u : UserId) : pass.sessions.vec u =
      (st.vec u).filter fun x => ¬Stale lastHeartbeat now timeoutSecs x.sessionId := by
    refine (hsessions u).trans (List.filter_congr fun x hx => ?_)
    simp only [SessionStore.mem_collectStale_iff hx]
  have hgone (u : UserId) : pass.sessions.vec u = [] ↔
      ∀ x ∈ st.vec u, Stale lastHeartbeat now timeoutSecs x.sessionId := by
    rw [hkept, List.filter_eq_nil_iff]
    simp
  have hfound (u : UserId) : u ∈ (st.collectStale lastHeartbeat now timeoutSecs).map Prod.fst ↔
      ∃ x ∈ st.vec u, Stale lastHeartbeat now timeoutSecs x.sessionId := by
    constructor
    · intro hmem
      obtain ⟨⟨v, sid⟩, hq, rfl⟩ := List.mem_map.1 hmem
      obtain ⟨x, hx, rfl, hstale⟩ := SessionStore.mem_collectStale.1 hq
      exact ⟨x, hx, hstale⟩
    · intro hex
      obtain ⟨x, hx, hstale⟩ := hex
      exact List.mem_map.2 ⟨_, (SessionStore.mem_collectStale_iff hx).2 hstale, rfl⟩
  have hus' : pass.spawned.map Prod.fst = us := hus
  refine ⟨hkept, fun u => ?_, ?_, htidy.counter, fun u => ?_, hus' ▸ hclosed⟩
  · rw [SessionStore.mem_connectedUserIds_iff htidy.keys,
      SessionStore.mem_connectedUserIds_iff hst.keys, Ne, hgone]
    refine ⟨fun hnot => ⟨fun hnil => hnot ?_, hnot⟩, And.right⟩
    rw [hnil]
    exact fun x hx => absurd hx List.not_mem_nil
  · rw [← SessionStore.length_collectStale, hst.counter, ← hsize, htidy.counter]
  · rw [hus', hcount]
    refine if_congr ?_ rfl rfl
    rw [hfound, hgone, SessionStore.mem_connectedUserIds_iff hst.keys]
    refine and_congr_left fun hall => ?_
    constructor
    · intro hex hnil
      obtain ⟨x, hx, -⟩ := hex
      rw [hnil] at hx
      exact List.not_mem_nil hx
    · intro hne
      obtain ⟨x, hx⟩ := List.exists_mem_of_ne_nil _ hne
      exact ⟨x, hx, hall x hx⟩

/-- What was silent for more than the timeout in whole seconds was silent for more than it. -/
theorem silent_of_timestamp {lastActive checked : ℕ}
    (h : timeoutSecs < timestamp checked - timestamp lastActive) :
    lastActive + timeoutSecs * 10 ^ 9 < checked := by
  unfold timestamp at h
  omega

/-- **A pass reaps exactly the stale sessions**, and none of those was active within the timeout
before its check, or before any moment after that. -/
theorem heartbeat_pass_reaps (hst : st.Sound) (presence : Tracker)
    (lastActive checked : SessionId → ℕ) (timeoutSecs : ℕ) :
    (heartbeatPass st presence (timestamp ∘ lastActive) (timestamp ∘ checked) timeoutSecs).Reaps
      (Stale (timestamp ∘ lastActive) (timestamp ∘ checked) timeoutSecs) st presence ∧
    ∀ u, ∀ x ∈ st.vec u,
      x ∉ (heartbeatPass st presence (timestamp ∘ lastActive) (timestamp ∘ checked)
        timeoutSecs).sessions.vec u →
      ∀ t, checked x.sessionId ≤ t → lastActive x.sessionId + timeoutSecs * 10 ^ 9 < t := by
  have hreaps : (heartbeatPass st presence (timestamp ∘ lastActive) (timestamp ∘ checked)
      timeoutSecs).Reaps (Stale (timestamp ∘ lastActive) (timestamp ∘ checked) timeoutSecs) st
      presence := hst.reaps presence
  refine ⟨hreaps, fun u x hx hgone t ht => ?_⟩
  rw [hreaps.sessions, List.mem_filter, not_and] at hgone
  have hstale : Stale (timestamp ∘ lastActive) (timestamp ∘ checked) timeoutSecs x.sessionId := by
    simpa using hgone hx
  exact (silent_of_timestamp hstale).trans_le ht

end

/-- The user `7` on two devices, and the user `8`. -/
def devices : SessionStore := ((SessionStore.new.insert ⟨1, 7⟩).insert ⟨2, 7⟩).insert ⟨3, 8⟩

theorem devices_sound : devices.Sound := by
  refine ⟨by decide, fun u => ?_, by decide⟩
  simp only [devices, SessionStore.insert, DashMap.lookup_insert_ite]
  split_ifs <;> simp [SessionStore.new]

/-- When each session was last active, in nanoseconds. -/
def devicesActive (sid : SessionId) : ℕ := if sid = 2 then 40000000001 else 39999999999

/-- After a hundred seconds the sessions `1` and `3` are reaped, and the user `8` is closed. -/
theorem heartbeat_pass_reaps_devices :
    ∃ p, p = heartbeatPass devices .new (timestamp ∘ devicesActive)
        (timestamp ∘ fun _ => 100999999999) 60 ∧
      p.Reaps (Stale (timestamp ∘ devicesActive) (timestamp ∘ fun _ => 100999999999) 60) devices
        .new ∧
      (p.sessions.vec 7, p.sessions.vec 8) = ([⟨2, 7⟩], []) ∧ p.spawned = [(8, 0)] ∧
      39999999999 + 60 * 10 ^ 9 < 100999999999 :=
  ⟨_, rfl,
    (heartbeat_pass_reaps devices_sound .new devicesActive (fun _ => 100999999999) 60).1,
    by decide +kernel, by decide +kernel,
    (heartbeat_pass_reaps devices_sound .new devicesActive (fun _ => 100999999999) 60).2 8 ⟨3, 8⟩
      (by decide +kernel) (by decide +kernel) _ le_rfl⟩

/-! ## Passes against readers -/

namespace Serving

/-- The session whose heartbeat an action stores. -/
def Action.frame : Action → Option SessionId
  | .text sid _ | .ping sid => some sid
  | _ => none

def Action.seconds : Action → ℕ
  | .tick seconds => seconds
  | _ => 0

/-- The seconds that pass while the actions are taken. -/
def elapsed (as : List Action) : ℕ := (as.map Action.seconds).sum

/-- The next session the monitor removes, and it is registered. -/
def Reaps (s : Serving) (sid : SessionId) : Prop :=
  ∃ u, s.stale.head? = some (u, sid) ∧ ∃ x ∈ s.sessions.vec u, x.sessionId = sid

/-- A session is stale when the monitor removes it. -/
def ReapsStale (timeoutSecs : ℕ) (s : Serving) : Action → Prop
  | .reap => ∀ sid, s.Reaps sid → timeoutSecs < s.now - s.lastHeartbeat sid
  | _ => True

variable {timeoutSecs : ℕ} {s t : Serving} {a : Action}

theorem now_step (h : s.step timeoutSecs a = some t) : t.now = s.now + a.seconds := by
  cases a with
  | tick seconds =>
    obtain rfl := Option.some.inj h
    rfl
  | connect | scan =>
    simp only [step] at h
    split_ifs at h
    obtain rfl := Option.some.inj h
    rfl
  | ready | text | dispatch | ping | close | reap =>
    simp only [step] at h
    split at h <;> cases h
    rfl

theorem lastHeartbeat_step (h : s.step timeoutSecs a = some t) {sid : SessionId}
    (hsid : sid ∈ s.opened) :
    t.lastHeartbeat sid = if a.frame = some sid then s.now else s.lastHeartbeat sid := by
  cases a with
  | connect x =>
    simp only [step] at h
    split_ifs at h with hopened
    obtain rfl := Option.some.inj h
    have hne : sid ≠ x.sessionId := ne_of_mem_of_not_mem hsid hopened
    exact Function.update_of_ne hne _ _
  | text sid' | ping sid' =>
    simp only [step] at h
    split at h
    · obtain rfl := Option.some.inj h
      simp only [Action.frame, Option.some.injEq, Function.update_apply, eq_comm]
    · cases h
  | ready | dispatch | close | reap =>
    simp only [step] at h
    split at h <;> cases h
    rfl
  | scan =>
    simp only [step] at h
    split_ifs at h
    obtain rfl := Option.some.inj h
    rfl
  | tick =>
    obtain rfl := Option.some.inj h
    rfl

theorem opened_step_iff (h : s.step timeoutSecs a = some t) {sid : SessionId} :
    sid ∈ t.opened ↔ sid ∈ s.opened ∨ ∃ x, a = .connect x ∧ x.sessionId = sid := by
  have hsame (hopened : t.opened = s.opened) (hconnect : ∀ x, a ≠ .connect x) :
      sid ∈ t.opened ↔ sid ∈ s.opened ∨ ∃ x, a = .connect x ∧ x.sessionId = sid := by
    rw [hopened, or_iff_left]
    rintro ⟨x, hx, -⟩
    exact hconnect x hx
  cases a with
  | connect x =>
    simp only [step] at h
    split_ifs at h
    obtain rfl := Option.some.inj h
    simp [or_comm, eq_comm]
  | ready | text | dispatch | ping | close | reap =>
    simp only [step] at h
    split at h <;> cases h
    exact hsame rfl (by simp)
  | scan =>
    simp only [step] at h
    split_ifs at h
    obtain rfl := Option.some.inj h
    exact hsame rfl (by simp)
  | tick =>
    obtain rfl := Option.some.inj h
    exact hsame rfl (by simp)

theorem opened_step (h : s.step timeoutSecs a = some t) {sid : SessionId} (hsid : sid ∈ s.opened) :
    sid ∈ t.opened :=
  (opened_step_iff h).2 (.inl hsid)

theorem stale_step (h : s.step timeoutSecs a = some t) {p : UserId × SessionId}
    (hp : p ∈ t.stale) : p ∈ s.stale ∨
      a.frame = none ∧ timeoutSecs < t.now - t.lastHeartbeat p.2 := by
  cases a with
  | scan =>
    simp only [step] at h
    split_ifs at h
    obtain rfl := Option.some.inj h
    obtain ⟨x, -, -, hstale⟩ := SessionStore.mem_findStaleSessions.1 hp
    exact .inr ⟨rfl, hstale⟩
  | reap =>
    simp only [step] at h
    split at h
    · cases h
    · next u sid rest hrest =>
      obtain rfl := Option.some.inj h
      rw [hrest]
      exact .inl (List.mem_cons_of_mem _ hp)
  | connect =>
    simp only [step] at h
    split_ifs at h
    obtain rfl := Option.some.inj h
    exact .inl hp
  | ready | text | dispatch | ping | close =>
    simp only [step] at h
    split at h <;> cases h
    exact .inl hp
  | tick =>
    obtain rfl := Option.some.inj h
    exact .inl hp

/-! ### Runs -/

theorem exec_now {as : List Action} (h : exec (step timeoutSecs) s as = some t) :
    t.now = s.now + elapsed as := by
  induction as generalizing s with
  | nil =>
    obtain rfl : s = t := by simpa using h
    rfl
  | cons a as ih =>
    obtain ⟨r, hr, ht⟩ := exec_cons.1 h
    rw [ih ht, now_step hr, elapsed, elapsed, List.map_cons, List.sum_cons, Nat.add_assoc]

theorem elapsed_append (as bs : List Action) : elapsed (as ++ bs) = elapsed as + elapsed bs := by
  rw [elapsed, List.map_append, List.sum_append, elapsed, elapsed]

/-- A found session is stale, or it came back: its last frame came after the pass had found it. -/
def CameBack (timeoutSecs : ℕ) (as : List Action) (s : Serving) (sid : SessionId) : Prop :=
  ∃ pre a mid r, as = pre ++ a :: mid ∧ exec (step timeoutSecs) init pre = some r ∧
    a.frame = some sid ∧ sid ∈ r.stale.map Prod.snd ∧ s.lastHeartbeat sid + elapsed mid = s.now

theorem Action.seconds_of_frame {sid : SessionId} (h : a.frame = some sid) : a.seconds = 0 := by
  cases a with
  | tick => cases h
  | _ => rfl

theorem stale_or_cameBack {as : List Action} (h : exec (step timeoutSecs) init as = some s) :
    ∀ p ∈ s.stale, timeoutSecs < s.now - s.lastHeartbeat p.2 ∨ CameBack timeoutSecs as s p.2 := by
  apply exec_history (J := fun as s => ∀ p ∈ s.stale,
    timeoutSecs < s.now - s.lastHeartbeat p.2 ∨ CameBack timeoutSecs as s p.2)
    (fun _ hp => absurd hp List.not_mem_nil) ?_ (along_true init as) h
  intro as r a t hold hr _ ht p hp
  have hinv : r.Inv := exec_invariant (fun _ _ _ h hs => step_inv h hs) init_inv hr
  have hnow := now_step ht
  rcases stale_step ht hp with hp | ⟨-, hstale⟩
  · have hlast := lastHeartbeat_step ht (hinv.stale p hp).1
    by_cases hframe : a.frame = some p.2
    · rw [if_pos hframe] at hlast
      refine .inr ⟨as, a, [], r, rfl, hr, hframe, List.mem_map_of_mem hp, ?_⟩
      rw [hlast, hnow, Action.seconds_of_frame hframe]
      rfl
    · rw [if_neg hframe] at hlast
      rcases hold p hp with hstale | ⟨pre, b, mid, q, rfl, hq, hb, hfound, hsum⟩
      · left
        omega
      · refine .inr ⟨pre, b, mid ++ [a], q, by simp, hq, hb, hfound, ?_⟩
        rw [elapsed_append, hlast, hnow, ← Nat.add_assoc, hsum]
        simp [elapsed]
  · exact .inl hstale

theorem le_lastHeartbeat {as : List Action} {sid : SessionId} {now : ℕ} (hinv : s.Inv)
    (hsid : sid ∈ s.opened) (hlast : now ≤ s.lastHeartbeat sid) (hnow : now ≤ s.now)
    (h : exec (step timeoutSecs) s as = some t) : now ≤ t.lastHeartbeat sid := by
  have hall : t.Inv ∧ sid ∈ t.opened ∧ now ≤ t.lastHeartbeat sid ∧ now ≤ t.now := by
    apply exec_invariant (I := fun s => s.Inv ∧ sid ∈ s.opened ∧ now ≤ s.lastHeartbeat sid ∧
      now ≤ s.now) ?_ ⟨hinv, hsid, hlast, hnow⟩ h
    intro s a t hs hstep
    obtain ⟨hinv, hsid, hlast, hnow⟩ := hs
    refine ⟨step_inv hinv hstep, opened_step hstep hsid, ?_, ?_⟩
    · rw [lastHeartbeat_step hstep hsid]
      split_ifs
      · exact hnow
      · exact hlast
    · rw [now_step hstep]
      exact hnow.trans (Nat.le_add_right _ _)
  exact hall.2.2.1

/-- **The monitor removes only stale sessions if and only if** every found session that comes back
has been silent for longer than the timeout again when the monitor gets to it. -/
theorem reaps_stale_iff (timeoutSecs : ℕ) (as : List Action) :
    Along (step timeoutSecs) (ReapsStale timeoutSecs) init as ↔
    ∀ pre a mid post s t sid, as = pre ++ a :: (mid ++ .reap :: post) →
      exec (step timeoutSecs) init pre = some s → a.frame = some sid →
      sid ∈ s.stale.map Prod.snd →
      exec (step timeoutSecs) init (pre ++ a :: mid) = some t → t.Reaps sid →
      timeoutSecs < elapsed mid := by
  constructor
  · intro h pre a mid post s t sid hsplit hs hframe hfound ht hreaps
    obtain ⟨r, hr, hmid⟩ : ∃ r, s.step timeoutSecs a = some r ∧
        exec (step timeoutSecs) r mid = some t := by
      obtain ⟨s', hs', hrest⟩ := exec_append.1 ht
      obtain rfl := Option.some.inj (hs.symm.trans hs')
      exact exec_cons.1 hrest
    have hinv : s.Inv := exec_invariant (fun _ _ _ h hs => step_inv h hs) init_inv hs
    -- From the frame on, the heartbeat is not older than the frame.
    have hsid : sid ∈ s.opened := by
      obtain ⟨p, hp, rfl⟩ := List.mem_map.1 hfound
      exact (hinv.stale p hp).1
    have hlast : s.now ≤ t.lastHeartbeat sid := by
      apply le_lastHeartbeat (step_inv hinv hr) (opened_step hr hsid) _ _ hmid
      · rw [lastHeartbeat_step hr hsid, if_pos hframe]
      · rw [now_step hr]
        exact Nat.le_add_right _ _
    have hnow : t.now = s.now + elapsed mid := by
      rw [exec_now hmid, now_step hr, Action.seconds_of_frame hframe, Nat.add_zero]
    obtain ⟨u, hhead, hregistered⟩ := hreaps
    obtain ⟨rest, hstale⟩ := List.head?_eq_some_iff.1 hhead
    have hok : ReapsStale timeoutSecs t .reap := by
      rw [along_iff_split] at h
      obtain ⟨t', hreap⟩ : ∃ t', t.step timeoutSecs .reap = some t' := by
        simp only [step, hstale]
        exact ⟨_, rfl⟩
      exact h (pre ++ a :: mid) .reap post t t' (by rw [hsplit]; simp) ht hreap
    have hsilent := hok sid ⟨u, hhead, hregistered⟩
    omega
  · intro h
    rw [along_iff_split]
    intro pre a post s t hsplit hs hstep
    cases a with
    | reap =>
      intro sid hreaps
      obtain ⟨u, hhead, hregistered⟩ := hreaps
      rcases stale_or_cameBack hs (u, sid) (List.mem_of_mem_head? hhead) with hstale | hcame
      · exact hstale
      · obtain ⟨pre', b, mid, r, rfl, hr, hframe, hfound, hsum⟩ := hcame
        have hlong := h pre' b mid post r s sid (by rw [hsplit]; simp) hr hframe hfound hs
          ⟨u, hhead, hregistered⟩
        dsimp only at hsum
        omega
    | connect | ready | text | dispatch | ping | close | scan | tick => trivial

/-- A client is silent for 61 seconds, and pings while the monitor is going over what it found. -/
def pingingClient : List Action :=
  [.connect ⟨1, 7⟩, .ready 1, .tick 61, .scan, .ping 1, .reap]

/-- **The session is removed in the second of its ping.** -/
theorem pinging_reaped : ¬Along (step 60) (ReapsStale 60) init pingingClient := by
  intro h
  have hstale := along_iff_split.1 h (pingingClient.take 5) .reap [] _ _ rfl rfl rfl 1
    ⟨7, rfl, ⟨1, 7⟩, List.mem_singleton.2 rfl, rfl⟩
  exact absurd hstale (by decide +kernel)

end Serving

end RustRelay
