import Mathlib.Data.Fintype.Defs
import RustRelay.Core.Run
import RustRelay.Gateway.Session
import RustRelay.Presence.Tracker

/-!
# Presence on several nodes

Every node has its own sessions, its own tracker and its own debounce timers; what a timer
broadcasts goes to all nodes and to the shared presence key. Opening, closing and expiring are
single steps here.

**Theorem (`offline_everywhere_iff`).** In any run, the timers that expire find their users
registered on no node *if and only if* they find them registered on no other node, and the
cancelled ones among them find them not registered on their own node either. If `select!` never
prefers the sleep to a notification, the first condition is enough.

On its own node the tracker takes care of that: a timer that was not notified is still the
pending one of its user (`Presence.Armed`), and a user with a pending timer is not connected
there (`Presence.Gone`). Of other nodes a timer knows nothing: `other_device_offline`.
-/

namespace RustRelay

open Machine

/-! ## One node -/

/-- A debounce task that sleeps. -/
structure Timer where
  userId : UserId
  deadline : ℕ
  deriving DecidableEq, Repr

structure Presence where
  sessions : SessionStore
  tracker : Tracker
  timers : DashMap NotifyId Timer

namespace Presence

def init : Presence := ⟨.new, .new, ∅⟩

/-- `sessions.insert`, then `on_session_open`. -/
def openSession (nd : Presence) (session : Session) : Presence :=
  { nd with
    sessions := nd.sessions.insert session
    tracker := nd.tracker.onSessionOpen session.userId }

/-- `cleanup`, and the same lines of the heartbeat monitor. -/
def cleanup (nd : Presence) (offlineDebounce now : ℕ) (userId : UserId) (sessionId : SessionId) :
    Presence :=
  let sessions := (nd.sessions.remove userId sessionId).2
  if sessions.isConnected userId then { nd with sessions }
  else
    let (notify, tracker) := nd.tracker.onAllSessionsClosed userId
    { sessions, tracker, timers := nd.timers.insert notify ⟨userId, now + offlineDebounce⟩ }

/-- The debounce task of a timer takes the branch of the sleep. -/
def expire (nd : Presence) (notify : NotifyId) (timer : Timer) : Presence :=
  { nd with
    tracker := nd.tracker.debounced timer.userId
    timers := nd.timers.erase notify }

/-- A user with a pending timer is not connected here. -/
def Gone (nd : Presence) : Prop :=
  ∀ u n, nd.tracker.pendingOffline.lookup u = some n → nd.sessions.isConnected u = false

/-- A timer that was not notified is the pending one of its user. -/
def Armed (nd : Presence) : Prop :=
  ∀ n timer, nd.timers.lookup n = some timer → n ∉ nd.tracker.notified →
    nd.tracker.pendingOffline.lookup timer.userId = some n

variable {nd : Presence}

/-! ### Pending timers and sessions -/

theorem gone_openSession (h : nd.Gone) (session : Session) : (nd.openSession session).Gone := by
  intro u n hpending
  have herase : (nd.openSession session).tracker.pendingOffline.lookup u =
      if u = session.userId then none else nd.tracker.pendingOffline.lookup u := by
    rw [openSession, Tracker.pendingOffline_onSessionOpen, DashMap.lookup_erase_ite]
  rw [herase] at hpending
  split_ifs at hpending with hu
  have hconn := h u n hpending
  have hvec : (nd.openSession session).sessions.vec u = nd.sessions.vec u := by
    rw [openSession]
    exact (SessionStore.vec_insert nd.sessions session u).trans (if_neg hu)
  rw [SessionStore.isConnected] at hconn ⊢
  rw [hvec]
  exact hconn

theorem isConnected_remove {st : SessionStore} {userId u : UserId} {sessionId : SessionId}
    (h : st.isConnected u = false) : (st.remove userId sessionId).2.isConnected u = false := by
  have hnil : st.vec u = [] := by simpa [SessionStore.isConnected] using h
  have hvec := SessionStore.remove_vec st userId sessionId u
  rw [hnil, List.filter_nil, ite_self] at hvec
  rw [SessionStore.isConnected, hvec]
  rfl

theorem gone_cleanup (h : nd.Gone) (offlineDebounce now : ℕ) (userId : UserId)
    (sessionId : SessionId) : (nd.cleanup offlineDebounce now userId sessionId).Gone := by
  unfold cleanup
  dsimp only
  split_ifs with hconn
  · intro u n hpending
    exact isConnected_remove (h u n hpending)
  · intro u n hpending
    dsimp only at hpending ⊢
    rw [Tracker.pendingOffline_onAllSessionsClosed, DashMap.lookup_insert_ite,
      DashMap.lookup_erase_ite] at hpending
    split_ifs at hpending with hu
    · rw [hu]
      simpa using hconn
    · exact isConnected_remove (h u n hpending)

theorem gone_expire (h : nd.Gone) (n : NotifyId) (timer : Timer) : (nd.expire n timer).Gone := by
  intro u n' hpending
  rw [expire, (nd.tracker.debounced_timers timer.userId).1, DashMap.lookup_erase_ite] at hpending
  split_ifs at hpending
  exact h u n' hpending

/-! ### Timers and notifications -/

theorem armed_openSession (h : nd.Armed) (session : Session) : (nd.openSession session).Armed := by
  intro n timer htimer hnot
  rw [openSession, Tracker.notified_onSessionOpen, List.mem_append, not_or] at hnot
  have hpending := h n timer htimer hnot.2
  -- an own timer would have been notified
  have hne : timer.userId ≠ session.userId := by
    intro heq
    rw [← heq, hpending] at hnot
    exact hnot.1 (by simp)
  rw [openSession, Tracker.pendingOffline_onSessionOpen, AList.lookup_erase_ne hne, hpending]

theorem armed_cleanup (h : nd.Armed) (offlineDebounce now : ℕ) (userId : UserId)
    (sessionId : SessionId) : (nd.cleanup offlineDebounce now userId sessionId).Armed := by
  unfold cleanup
  dsimp only
  split_ifs with hconn
  · exact h
  · intro n timer htimer hnot
    simp only [DashMap.lookup_insert_ite] at htimer
    rw [Tracker.notified_onAllSessionsClosed, List.mem_append, not_or] at hnot
    rw [Tracker.pendingOffline_onAllSessionsClosed, DashMap.lookup_insert_ite,
      DashMap.lookup_erase_ite]
    split_ifs at htimer with hn
    · obtain rfl := Option.some.inj htimer
      rw [if_pos rfl, hn]
    · have hpending := h n timer htimer hnot.2
      have hne : timer.userId ≠ userId := by
        intro heq
        rw [← heq, hpending] at hnot
        exact hnot.1 (by simp)
      rw [if_neg hne, if_neg hne, hpending]

/-- A timer that expires without having been notified leaves no other one of its user behind. -/
theorem armed_expire (h : nd.Armed) {n : NotifyId} {timer : Timer}
    (htimer : nd.timers.lookup n = some timer) (hnot : n ∉ nd.tracker.notified) :
    (nd.expire n timer).Armed := by
  intro n' timer' htimer' hnot'
  obtain ⟨herase, hnotified⟩ := nd.tracker.debounced_timers timer.userId
  simp only [expire, DashMap.lookup_erase_ite, hnotified, herase] at htimer' hnot' ⊢
  split_ifs at htimer' with hn
  have hpending := h n' timer' htimer' hnot'
  rw [if_neg, hpending]
  intro heq
  rw [heq, h n timer htimer hnot] at hpending
  exact hn (Option.some.inj hpending).symm

end Presence

/-! ## The nodes together -/

structure PresenceCluster (ι : Type) where
  nodes : ι → Presence
  now : ℕ

namespace PresenceCluster

variable {ι : Type} [DecidableEq ι]

def init : PresenceCluster ι := ⟨fun _ => .init, 0⟩

inductive Action (ι : Type)
  /-- A user connects to a node. -/
  | openSession (node : ι) (session : Session)
  /-- A session ends, or the heartbeat monitor removes it. -/
  | cleanup (node : ι) (userId : UserId) (sessionId : SessionId)
  | setStatus (node : ι) (userId : UserId) (status : PresenceStatus)
  | tick (seconds : ℕ)
  /-- A debounce task is polled and takes the branch of the sleep. -/
  | expire (node : ι) (notify : NotifyId)
  /-- A debounce task is polled and takes the branch of the notification. -/
  | cancel (node : ι) (notify : NotifyId)
  deriving DecidableEq, Repr

def setNode (s : PresenceCluster ι) (b : ι) (nd : Presence) : PresenceCluster ι :=
  { s with nodes := Function.update s.nodes b nd }

theorem setNode_nodes (s : PresenceCluster ι) (b b' : ι) (nd : Presence) :
    (s.setNode b nd).nodes b' = if b' = b then nd else s.nodes b' :=
  Function.update_apply s.nodes b nd b'

variable (offlineDebounce : ℕ)

def step (s : PresenceCluster ι) : Action ι → Option (PresenceCluster ι)
  | .openSession b x => some (s.setNode b ((s.nodes b).openSession x))
  | .cleanup b u sid => some (s.setNode b ((s.nodes b).cleanup offlineDebounce s.now u sid))
  | .setStatus b u status =>
    some (s.setNode b { s.nodes b with tracker := (s.nodes b).tracker.setStatus u status })
  | .tick seconds => some { s with now := s.now + seconds }
  | .expire b n => match (s.nodes b).timers.lookup n with
    | some timer =>
      if timer.deadline ≤ s.now then some (s.setNode b ((s.nodes b).expire n timer)) else none
    | none => none
  | .cancel b n =>
    if n ∈ (s.nodes b).tracker.notified then
      some (s.setNode b { s.nodes b with timers := (s.nodes b).timers.erase n })
    else none

/-- The user for whom a step enqueues `Offline`, and the node. -/
def expiring (s : PresenceCluster ι) : Action ι → Option (ι × UserId)
  | .expire b n => ((s.nodes b).timers.lookup n).map fun timer => (b, timer.userId)
  | _ => none

/-- A timer that expires was not notified. -/
def Unnotified (s : PresenceCluster ι) : Action ι → Prop
  | .expire b n => n ∉ (s.nodes b).tracker.notified
  | _ => True

/-- A timer that expires finds its user registered on no other node. -/
def NowhereElse (s : PresenceCluster ι) (a : Action ι) : Prop :=
  ∀ p ∈ s.expiring a, ∀ b, b ≠ p.1 → (s.nodes b).sessions.isConnected p.2 = false

/-- A timer that expires finds its user registered on no node. -/
def Nowhere (s : PresenceCluster ι) (a : Action ι) : Prop :=
  ∀ p ∈ s.expiring a, ∀ b, (s.nodes b).sessions.isConnected p.2 = false

/-- A timer that expires after its entry was taken from `pending_offline` finds its user without
a session on its own node. -/
def HeedsCancel (s : PresenceCluster ι) : Action ι → Prop
  | .expire b n => ∀ timer ∈ (s.nodes b).timers.lookup n,
    (s.nodes b).tracker.pendingOffline.lookup timer.userId ≠ some n →
      (s.nodes b).sessions.isConnected timer.userId = false
  | _ => True

instance [Fintype ι] (s : PresenceCluster ι) (a : Action ι) : Decidable (s.NowhereElse a) :=
  inferInstanceAs (Decidable (∀ p ∈ s.expiring a, ∀ b, b ≠ p.1 →
    (s.nodes b).sessions.isConnected p.2 = false))

instance [Fintype ι] (s : PresenceCluster ι) (a : Action ι) : Decidable (s.Nowhere a) :=
  inferInstanceAs (Decidable (∀ p ∈ s.expiring a, ∀ b,
    (s.nodes b).sessions.isConnected p.2 = false))

instance (s : PresenceCluster ι) : (a : Action ι) → Decidable (s.Unnotified a)
  | .expire b n => inferInstanceAs (Decidable (n ∉ (s.nodes b).tracker.notified))
  | .openSession _ _ | .cleanup _ _ _ | .setStatus _ _ _ | .tick _ | .cancel _ _ =>
    inferInstanceAs (Decidable True)

variable {offlineDebounce} {s s' : PresenceCluster ι}

/-- What the operations on a node keep, a step keeps on every node. -/
theorem step_node {I : Presence → Prop} {a : Action ι} (h : ∀ b, I (s.nodes b))
    (hopen : ∀ b x, I ((s.nodes b).openSession x))
    (hcleanup : ∀ b u sid, I ((s.nodes b).cleanup offlineDebounce s.now u sid))
    (hstatus : ∀ b u status,
      I { s.nodes b with tracker := (s.nodes b).tracker.setStatus u status })
    (hexpire : ∀ b n timer, a = .expire b n → (s.nodes b).timers.lookup n = some timer →
      I ((s.nodes b).expire n timer))
    (hcancel : ∀ b n, I { s.nodes b with timers := (s.nodes b).timers.erase n })
    (hstep : s.step offlineDebounce a = some s') : ∀ b, I (s'.nodes b) := by
  have hupdate {b : ι} {nd : Presence} (hnd : I nd) : ∀ b', I ((s.setNode b nd).nodes b') := by
    intro b'
    rw [setNode_nodes]
    split_ifs
    · exact hnd
    · exact h b'
  cases a with
  | openSession b x =>
    obtain rfl := Option.some.inj hstep
    exact hupdate (hopen b x)
  | cleanup b u sid =>
    obtain rfl := Option.some.inj hstep
    exact hupdate (hcleanup b u sid)
  | setStatus b u status =>
    obtain rfl := Option.some.inj hstep
    exact hupdate (hstatus b u status)
  | tick seconds =>
    obtain rfl := Option.some.inj hstep
    exact h
  | expire b n =>
    simp only [step] at hstep
    split at hstep
    · next timer htimer =>
      split_ifs at hstep
      obtain rfl := Option.some.inj hstep
      exact hupdate (hexpire b n timer rfl htimer)
    · exact absurd hstep nofun
  | cancel b n =>
    simp only [step] at hstep
    split_ifs at hstep
    obtain rfl := Option.some.inj hstep
    exact hupdate (hcancel b n)

theorem step_gone {a : Action ι} (h : ∀ b, (s.nodes b).Gone)
    (hstep : s.step offlineDebounce a = some s') : ∀ b, (s'.nodes b).Gone := by
  refine step_node h (fun b x => Presence.gone_openSession (h b) x)
    (fun b u sid => Presence.gone_cleanup (h b) offlineDebounce s.now u sid)
    (fun b u status => ?_) (fun b n timer _ _ => Presence.gone_expire (h b) n timer)
    (fun b n => h b) hstep
  intro u' n hpending
  rw [((s.nodes b).tracker.setStatus_timers u status).1] at hpending
  exact h b u' n hpending

theorem step_armed {a : Action ι} (h : ∀ b, (s.nodes b).Armed) (hok : s.Unnotified a)
    (hstep : s.step offlineDebounce a = some s') : ∀ b, (s'.nodes b).Armed := by
  refine step_node h (fun b x => Presence.armed_openSession (h b) x)
    (fun b u sid => Presence.armed_cleanup (h b) offlineDebounce s.now u sid)
    (fun b u status => ?_) (fun b n timer ha htimer => ?_) (fun b n => ?_) hstep
  · intro n timer htimer hnot
    obtain ⟨hpending, hnotified⟩ := (s.nodes b).tracker.setStatus_timers u status
    dsimp only at hnot ⊢
    rw [hnotified] at hnot
    rw [hpending]
    exact h b n timer htimer hnot
  · subst ha
    exact Presence.armed_expire (h b) htimer hok
  · intro n' timer htimer hnot
    dsimp only at htimer
    rw [DashMap.lookup_erase_ite] at htimer
    split_ifs at htimer
    exact h b n' timer htimer hnot

theorem nowhere_iff {a : Action ι} :
    s.Nowhere a ↔ s.NowhereElse a ∧
      ∀ p ∈ s.expiring a, (s.nodes p.1).sessions.isConnected p.2 = false := by
  constructor
  · intro hno
    exact ⟨fun p hexp b _ => hno p hexp b, fun p hexp => hno p hexp p.1⟩
  · intro hboth p hexp b
    rcases hboth with ⟨helse, hown⟩
    by_cases hb : b = p.1
    · rw [hb]
      exact hown p hexp
    · exact helse p hexp b hb

omit [DecidableEq ι] in
/-- On its own node a timer that is still pending finds its user gone. -/
theorem heedsCancel_iff {a : Action ι} (h : ∀ b, (s.nodes b).Gone) :
    s.HeedsCancel a ↔ ∀ p ∈ s.expiring a, (s.nodes p.1).sessions.isConnected p.2 = false := by
  cases a with
  | expire b n =>
    constructor
    · intro hheeds p hexp
      obtain ⟨timer, htimer, rfl⟩ := Option.map_eq_some_iff.1 hexp
      by_cases hpending : (s.nodes b).tracker.pendingOffline.lookup timer.userId = some n
      · exact h b timer.userId n hpending
      · exact hheeds timer htimer hpending
    · intro hown timer htimer _
      exact hown (b, timer.userId) (Option.map_eq_some_iff.2 ⟨timer, htimer, rfl⟩)
  | openSession | cleanup | setStatus | tick | cancel =>
    exact iff_of_true trivial fun _ hexp => absurd hexp nofun

omit [DecidableEq ι] in
/-- A timer that was not notified is pending. -/
theorem heedsCancel_of_unnotified {a : Action ι} (h : ∀ b, (s.nodes b).Armed)
    (hok : s.Unnotified a) : s.HeedsCancel a := by
  cases a with
  | expire b n =>
    intro timer htimer hne
    exact absurd (h b n timer htimer hok) hne
  | openSession | cleanup | setStatus | tick | cancel => trivial

omit [DecidableEq ι] in
theorem init_gone (b : ι) : ((init : PresenceCluster ι).nodes b).Gone :=
  fun _ _ hpending => absurd hpending nofun

omit [DecidableEq ι] in
theorem init_armed (b : ι) : ((init : PresenceCluster ι).nodes b).Armed :=
  fun _ _ htimer => absurd htimer nofun

/-- **Offline is cluster-wide exactly when no timer expires for a user with a session on another
node, and no cancelled one for a user with a session on its own.** Where no notified timer
expires, the latter does not happen. -/
theorem offline_everywhere_iff (as : List (Action ι)) :
    (Along (step offlineDebounce) Nowhere init as ↔
      Along (step offlineDebounce) (fun s a => s.NowhereElse a ∧ s.HeedsCancel a) init as) ∧
    (Along (step offlineDebounce) Unnotified init as →
      (Along (step offlineDebounce) Nowhere init as ↔
        Along (step offlineDebounce) (NowhereElse (ι := ι)) init as)) := by
  constructor
  · refine along_congr (I := fun s => ∀ b, (s.nodes b).Gone) (fun _ _ _ h _ hs => step_gone h hs)
      (fun s a _ h _ _ => ?_) init_gone (along_true init as)
    rw [nowhere_iff, heedsCancel_iff h]
  · intro hties
    refine along_congr (I := fun s => ∀ b, (s.nodes b).Gone ∧ (s.nodes b).Armed)
      (fun _ _ _ h hok hs b => ⟨step_gone (fun b => (h b).1) hs b,
        step_armed (fun b => (h b).2) hok hs b⟩)
      (fun s a _ h hok _ => ?_) (fun b => ⟨init_gone b, init_armed b⟩) hties
    rw [nowhere_iff, ← heedsCancel_iff fun b => (h b).1]
    exact and_iff_left (heedsCancel_of_unnotified (fun b => (h b).2) hok)

/-- User 7 has a device on one node, reconnects in time, and leaves for good. -/
def oneNode : List (Action Bool) :=
  [.openSession true ⟨1, 7⟩, .cleanup true 7 1, .tick 2, .openSession true ⟨2, 7⟩,
    .cancel true 0, .cleanup true 7 2, .tick 5, .expire true 1]

theorem offline_everywhere_iff_oneNode : Along (step 5) Nowhere init oneNode :=
  ((offline_everywhere_iff oneNode).2 (by decide)).2 (by decide)

/-- User 7 has a device on each of two nodes, and closes one of them. -/
def twoDevices : List (Action Bool) :=
  [.openSession true ⟨1, 7⟩, .openSession false ⟨2, 7⟩, .cleanup true 7 1, .tick 5]

/-- **The other device is taken offline**: the timer of the first node enqueues `Offline`, while
the user is registered and online on the second. -/
theorem other_device_offline :
    ∃ s s', exec (step 5) (init : PresenceCluster Bool) twoDevices = some s ∧
      s.step 5 (.expire true 0) = some s' ∧
      (s'.nodes true).tracker.broadcasts = (7, .offline) :: (s.nodes true).tracker.broadcasts ∧
      (s.nodes false).sessions.isConnected 7 = true ∧
      (s.nodes false).tracker.getStatus 7 = .online ∧ ¬s.Nowhere (.expire true 0) := by
  refine ⟨_, _, rfl, rfl, rfl, by decide, by decide, by decide⟩

end PresenceCluster

end RustRelay
