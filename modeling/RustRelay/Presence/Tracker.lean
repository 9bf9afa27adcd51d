import RustRelay.Core.DashMap
import RustRelay.Models

/-!
# The presence tracker

`PresenceTracker` has two maps: the status of each user, and the `Notify` of the debounce timer
that is pending for a user. A `Notify` is named by a number, and the tracker remembers which
ones `notify_one` was called on (a `Notify` has one waiter and keeps its permit).

The methods are given as their single operations on the maps and on a `Notify`, and composed out
of these. What is sent to the broadcaster is recorded in `broadcasts`.
-/

namespace RustRelay

abbrev NotifyId := ℕ

/-- The count wraps, as it does in a release build. -/
structure UserPresence where
  status : PresenceStatus
  sessionCount : UInt32
  deriving DecidableEq, Repr

structure Tracker where
  state : DashMap UserId UserPresence
  pendingOffline : DashMap UserId NotifyId
  /-- The notifies with a permit. -/
  notified : List NotifyId
  /-- The next `Notify::new`. -/
  nextNotify : NotifyId
  /-- What was sent to the broadcaster, the latest first. -/
  broadcasts : List (UserId × PresenceStatus)

namespace Tracker

/-- `PresenceTracker::new`. -/
def new : Tracker := ⟨∅, ∅, [], 0, []⟩

/-! ## Single operations -/

/-- `pending_offline.remove(&user_id)`. -/
def takePending (tr : Tracker) (userId : UserId) : Option NotifyId × Tracker :=
  (tr.pendingOffline.lookup userId, { tr with pendingOffline := tr.pendingOffline.erase userId })

/-- `notify.notify_one()`. -/
def notifyOne (tr : Tracker) (notify : NotifyId) : Tracker :=
  { tr with notified := notify :: tr.notified }

/-- `broadcaster.broadcast(user_id, status)`. -/
def broadcast (tr : Tracker) (userId : UserId) (status : PresenceStatus) : Tracker :=
  { tr with broadcasts := (userId, status) :: tr.broadcasts }

/-- The `entry` of `on_session_open`, with `changed`. -/
def openEntry (tr : Tracker) (userId : UserId) : Bool × Tracker :=
  match tr.state.lookup userId with
  | some p =>
    if p.status = .offline then
      (true, { tr with state := tr.state.insert userId ⟨.online, p.sessionCount + 1⟩ })
    else (false, { tr with state := tr.state.insert userId ⟨p.status, p.sessionCount + 1⟩ })
  | none => (true, { tr with state := tr.state.insert userId ⟨.online, 1⟩ })

/-- A new `Notify`, inserted into `pending_offline`. -/
def insertPending (tr : Tracker) (userId : UserId) : NotifyId × Tracker :=
  (tr.nextNotify, { tr with
    pendingOffline := tr.pendingOffline.insert userId tr.nextNotify
    nextNotify := tr.nextNotify + 1 })

/-- The state write of the debounce task. -/
def writeOffline (tr : Tracker) (userId : UserId) : Tracker :=
  match tr.state.lookup userId with
  | some _ => { tr with state := tr.state.insert userId ⟨.offline, 0⟩ }
  | none => tr

/-- `pending.remove(&user_id)` of the debounce task. -/
def removePending (tr : Tracker) (userId : UserId) : Tracker :=
  { tr with pendingOffline := tr.pendingOffline.erase userId }

/-- `get_status`. -/
def getStatus (tr : Tracker) (userId : UserId) : PresenceStatus :=
  ((tr.state.lookup userId).map UserPresence.status).getD .offline

/-! ## The methods -/

/-- The first lines of `on_session_open` and of `on_all_sessions_closed`. -/
def cancelPending (tr : Tracker) (userId : UserId) : Tracker :=
  match tr.takePending userId with
  | (some notify, tr) => tr.notifyOne notify
  | (none, tr) => tr

def onSessionOpen (tr : Tracker) (userId : UserId) : Tracker :=
  match (tr.cancelPending userId).openEntry userId with
  | (true, tr) => tr.broadcast userId .online
  | (false, tr) => tr

/-- `on_all_sessions_closed`, with the `Notify` of the debounce task it spawns. -/
def onAllSessionsClosed (tr : Tracker) (userId : UserId) : NotifyId × Tracker :=
  (tr.cancelPending userId).insertPending userId

/-- The branch of the debounce task that follows the `sleep`. -/
def debounced (tr : Tracker) (userId : UserId) : Tracker :=
  ((tr.writeOffline userId).removePending userId).broadcast userId .offline

def setStatus (tr : Tracker) (userId : UserId) (status : PresenceStatus) : Tracker :=
  match tr.state.lookup userId with
  | none => tr
  | some p =>
    if p.status ≠ status then
      { tr with state := tr.state.insert userId { p with status } }.broadcast userId status
    else tr

/-! ## What the methods do to the timers -/

section
variable (tr : Tracker) (userId : UserId)

theorem cancelPending_eq :
    tr.cancelPending userId = { tr with
      pendingOffline := tr.pendingOffline.erase userId
      notified := (tr.pendingOffline.lookup userId).toList ++ tr.notified } := by
  unfold cancelPending takePending
  cases tr.pendingOffline.lookup userId <;> rfl

theorem pendingOffline_onSessionOpen :
    (tr.onSessionOpen userId).pendingOffline = tr.pendingOffline.erase userId := by
  unfold onSessionOpen openEntry
  rw [cancelPending_eq]
  dsimp only
  cases tr.state.lookup userId with
  | none => rfl
  | some p => dsimp only; split_ifs <;> rfl

theorem notified_onSessionOpen : (tr.onSessionOpen userId).notified =
    (tr.pendingOffline.lookup userId).toList ++ tr.notified := by
  unfold onSessionOpen openEntry
  rw [cancelPending_eq]
  dsimp only
  cases tr.state.lookup userId with
  | none => rfl
  | some p => dsimp only; split_ifs <;> rfl

theorem pendingOffline_onAllSessionsClosed : (tr.onAllSessionsClosed userId).2.pendingOffline =
    (tr.pendingOffline.erase userId).insert userId (tr.onAllSessionsClosed userId).1 := by
  unfold onAllSessionsClosed
  rw [cancelPending_eq]
  rfl

theorem notified_onAllSessionsClosed : (tr.onAllSessionsClosed userId).2.notified =
    (tr.pendingOffline.lookup userId).toList ++ tr.notified := by
  unfold onAllSessionsClosed
  rw [cancelPending_eq]
  rfl

theorem nextNotify_onSessionOpen : (tr.onSessionOpen userId).nextNotify = tr.nextNotify := by
  unfold onSessionOpen openEntry
  rw [cancelPending_eq]
  dsimp only
  cases tr.state.lookup userId with
  | none => rfl
  | some p => dsimp only; split_ifs <;> rfl

theorem onAllSessionsClosed_handle : (tr.onAllSessionsClosed userId).1 = tr.nextNotify ∧
    (tr.onAllSessionsClosed userId).2.nextNotify = tr.nextNotify + 1 := by
  unfold onAllSessionsClosed
  rw [cancelPending_eq]
  exact ⟨rfl, rfl⟩

theorem nextNotify_debounced : (tr.debounced userId).nextNotify = tr.nextNotify := by
  unfold debounced writeOffline
  cases tr.state.lookup userId <;> rfl

theorem nextNotify_setStatus (status : PresenceStatus) :
    (tr.setStatus userId status).nextNotify = tr.nextNotify := by
  unfold setStatus
  cases tr.state.lookup userId with
  | none => rfl
  | some p => dsimp only; split_ifs <;> rfl

theorem debounced_timers : (tr.debounced userId).pendingOffline = tr.pendingOffline.erase userId ∧
    (tr.debounced userId).notified = tr.notified := by
  unfold debounced writeOffline
  cases tr.state.lookup userId <;> exact ⟨rfl, rfl⟩

theorem setStatus_timers (status : PresenceStatus) :
    (tr.setStatus userId status).pendingOffline = tr.pendingOffline ∧
      (tr.setStatus userId status).notified = tr.notified := by
  unfold setStatus
  cases tr.state.lookup userId with
  | none => exact ⟨rfl, rfl⟩
  | some p => dsimp only; split_ifs <;> exact ⟨rfl, rfl⟩

end

/-! ## What the operations do to a status -/

section
variable (tr : Tracker) (userId u : UserId)

@[simp] theorem getStatus_broadcast (status : PresenceStatus) :
    (tr.broadcast userId status).getStatus u = tr.getStatus u := rfl

@[simp] theorem getStatus_removePending :
    (tr.removePending userId).getStatus u = tr.getStatus u := rfl

theorem getStatus_insert (p : UserPresence) :
    ({ tr with state := tr.state.insert userId p } : Tracker).getStatus u =
      if u = userId then p.status else tr.getStatus u := by
  simp only [getStatus, DashMap.lookup_insert_ite]
  split_ifs <;> rfl

theorem getStatus_openEntry : (tr.openEntry userId).2.getStatus userId ≠ .offline := by
  unfold openEntry
  cases tr.state.lookup userId with
  | none =>
    rw [getStatus_insert, if_pos rfl]
    exact nofun
  | some p =>
    dsimp only
    split_ifs with h
    · rw [getStatus_insert, if_pos rfl]
      exact nofun
    · rw [getStatus_insert, if_pos rfl]
      exact h

theorem getStatus_openEntry_of_ne (h : u ≠ userId) :
    (tr.openEntry userId).2.getStatus u = tr.getStatus u := by
  unfold openEntry
  cases tr.state.lookup userId with
  | none => rw [getStatus_insert, if_neg h]
  | some p =>
    dsimp only
    split_ifs <;> rw [getStatus_insert, if_neg h]

theorem getStatus_writeOffline :
    (tr.writeOffline userId).getStatus u = if u = userId then .offline else tr.getStatus u := by
  unfold writeOffline
  cases h : tr.state.lookup userId with
  | none =>
    split_ifs with hu
    · rw [hu, getStatus, h]; rfl
    · rfl
  | some p => rw [getStatus_insert]

theorem getStatus_setStatus_of_ne {status : PresenceStatus} (h : u ≠ userId) :
    (tr.setStatus userId status).getStatus u = tr.getStatus u := by
  unfold setStatus
  cases tr.state.lookup userId with
  | none => rfl
  | some p =>
    dsimp only
    split_ifs
    · rw [getStatus_broadcast, getStatus_insert, if_neg h]
    · rfl

theorem getStatus_setStatus {status : PresenceStatus} (hs : status ≠ .offline)
    (h : tr.getStatus userId ≠ .offline) :
    (tr.setStatus userId status).getStatus userId ≠ .offline := by
  unfold setStatus
  cases hlook : tr.state.lookup userId with
  | none => exact h
  | some p =>
    dsimp only
    split_ifs
    · rw [getStatus_broadcast, getStatus_insert, if_pos rfl]
      exact hs
    · exact h

end

/-! ## What the methods do to a status and its updates -/

/-- What was sent to the broadcaster about a user, the latest first. -/
def updatesOf (tr : Tracker) (u : UserId) : List (UserId × PresenceStatus) :=
  tr.broadcasts.filter fun p => p.1 = u

/-- The status of the user, and what was sent about it, are as they were. -/
def SameFor (u : UserId) (tr tr' : Tracker) : Prop :=
  tr'.getStatus u = tr.getStatus u ∧ tr'.updatesOf u = tr.updatesOf u

section
variable {tr : Tracker} {userId u : UserId}

theorem updatesOf_broadcast_of_ne (h : u ≠ userId) (tr : Tracker) (status : PresenceStatus) :
    (tr.broadcast userId status).updatesOf u = tr.updatesOf u := by
  rw [updatesOf, broadcast, List.filter_cons_of_neg (by simpa using Ne.symm h)]
  rfl

/-- Opening another session of a user who is not offline changes no status. -/
theorem sameFor_onSessionOpen (h : tr.getStatus u ≠ .offline) :
    SameFor u tr (tr.onSessionOpen userId) := by
  unfold onSessionOpen openEntry
  rw [cancelPending_eq]
  dsimp only
  cases hlook : tr.state.lookup userId with
  | none =>
    have hne : u ≠ userId := by
      intro heq
      rw [heq, getStatus, hlook] at h
      exact h rfl
    refine ⟨?_, updatesOf_broadcast_of_ne hne _ _⟩
    exact (getStatus_insert _ userId u _).trans (if_neg hne)
  | some p =>
    dsimp only
    split_ifs with hp
    · have hne : u ≠ userId := by
        intro heq
        rw [heq, getStatus, hlook] at h
        exact h hp
      refine ⟨?_, updatesOf_broadcast_of_ne hne _ _⟩
      exact (getStatus_insert _ userId u _).trans (if_neg hne)
    · refine ⟨(getStatus_insert _ userId u _).trans ?_, rfl⟩
      split_ifs with hu
      · rw [hu, getStatus, hlook]
        rfl
      · rfl

theorem sameFor_onAllSessionsClosed : SameFor u tr (tr.onAllSessionsClosed userId).2 := by
  unfold onAllSessionsClosed
  rw [cancelPending_eq]
  exact ⟨rfl, rfl⟩

theorem sameFor_debounced (h : u ≠ userId) : SameFor u tr (tr.debounced userId) := by
  refine ⟨?_, (updatesOf_broadcast_of_ne h _ _).trans ?_⟩
  · rw [debounced, getStatus_broadcast, getStatus_removePending, getStatus_writeOffline, if_neg h]
  · unfold writeOffline
    cases tr.state.lookup userId <;> rfl

theorem sameFor_setStatus (h : u ≠ userId) (status : PresenceStatus) :
    SameFor u tr (tr.setStatus userId status) := by
  refine ⟨tr.getStatus_setStatus_of_ne userId u h, ?_⟩
  unfold setStatus
  cases tr.state.lookup userId with
  | none => rfl
  | some p =>
    dsimp only
    split_ifs
    · exact updatesOf_broadcast_of_ne h _ _
    · rfl

/-- An offline user is raised by another status, if the tracker knows the user. -/
theorem setStatus_raises_iff {status : PresenceStatus} (h : tr.getStatus u = .offline) :
    (tr.setStatus u status).getStatus u ≠ .offline ↔
      status ≠ .offline ∧ tr.state.lookup u ≠ none := by
  unfold setStatus
  cases hlook : tr.state.lookup u with
  | none => exact iff_of_false (not_not.2 h) fun hboth => hboth.2 rfl
  | some p =>
    have hp : p.status = .offline := by
      rw [getStatus, hlook] at h
      exact h
    dsimp only
    split_ifs with hne
    · rw [getStatus_broadcast, getStatus_insert, if_pos rfl]
      exact (and_iff_left nofun).symm
    · rw [not_not] at hne
      exact iff_of_false (not_not.2 h) fun hboth => hboth.1 (hne.symm.trans hp)

theorem getStatus_onSessionOpen_of_ne (h : u ≠ userId) :
    (tr.onSessionOpen userId).getStatus u = tr.getStatus u := by
  have hentry := (tr.cancelPending userId).getStatus_openEntry_of_ne userId u h
  have hcancel : (tr.cancelPending userId).getStatus u = tr.getStatus u := by
    rw [cancelPending_eq]
    rfl
  rw [← hcancel, ← hentry, onSessionOpen]
  cases hopen : (tr.cancelPending userId).openEntry userId with
  | mk changed tr' => cases changed <;> rfl

theorem getStatus_onSessionOpen (tr : Tracker) (userId : UserId) :
    (tr.onSessionOpen userId).getStatus userId ≠ .offline := by
  have hentry := (tr.cancelPending userId).getStatus_openEntry userId
  rw [onSessionOpen]
  cases hopen : (tr.cancelPending userId).openEntry userId with
  | mk changed tr' =>
    rw [hopen] at hentry
    cases changed <;> exact hentry

theorem debounced_offline (tr : Tracker) (userId : UserId) :
    (tr.debounced userId).getStatus userId = .offline ∧
      (tr.debounced userId).broadcasts = (userId, .offline) :: tr.broadcasts := by
  constructor
  · rw [debounced, getStatus_broadcast, getStatus_removePending, getStatus_writeOffline, if_pos rfl]
  · unfold debounced writeOffline
    cases tr.state.lookup userId <;> rfl

end

end Tracker

end RustRelay
