import RustRelay.Core.Run
import RustRelay.Presence.Tracker

/-!
# The order of presence updates

`on_session_open`, `set_status` and the debounce task write the status under the lock of its
entry and enqueue their update after they have released it. Each of the two is a step here, and
any number of calls are between them at any time. Writes that are followed by an update are
numbered, and the number of a user's latest one is remembered.

**Theorem (`last_enqueued_eq`).** With no update of a user outstanding, the last one that was
enqueued is the user's status, provided that no update was enqueued *late*: with another status
than the user's, after that of the user's latest write. A late update that no other follows leaves
every observer with the wrong status (`late_diverges`), and two devices that set a status at the
same time are enough for one (`two_devices_diverge`).

Undisturbed, the two steps of a call are the methods of the tracker: `exec_call`.
-/

namespace RustRelay

open Machine

/-- A call that writes a status and may enqueue an update. -/
inductive PresenceCall
  /-- `on_session_open`. -/
  | sessionOpen (userId : UserId)
  | setStatus (userId : UserId) (status : PresenceStatus)
  /-- The debounce task, after its `sleep`. -/
  | expire (userId : UserId)
  deriving DecidableEq, Repr

def PresenceCall.userId : PresenceCall → UserId
  | .sessionOpen u | .setStatus u _ | .expire u => u

namespace Tracker

/-- The `entry` of `set_status`, with `changed`. -/
def statusEntry (tr : Tracker) (userId : UserId) (status : PresenceStatus) : Bool × Tracker :=
  match tr.state.lookup userId with
  | none => (false, tr)
  | some p =>
    if p.status ≠ status then
      (true, { tr with state := tr.state.insert userId { p with status } })
    else (false, tr)

/-- What a call does before it enqueues, and the status it enqueues then, if any. -/
def write (tr : Tracker) : PresenceCall → Option PresenceStatus × Tracker
  | .sessionOpen u =>
    let (changed, tr) := (tr.cancelPending u).openEntry u
    (if changed then some .online else none, tr)
  | .setStatus u status =>
    let (changed, tr) := tr.statusEntry u status
    (if changed then some status else none, tr)
  | .expire u => (some .offline, (tr.writeOffline u).removePending u)

/-- A whole call, without interference. -/
def call (tr : Tracker) : PresenceCall → Tracker
  | .sessionOpen u => tr.onSessionOpen u
  | .setStatus u status => tr.setStatus u status
  | .expire u => tr.debounced u

theorem call_eq_write (tr : Tracker) (c : PresenceCall) :
    tr.call c = match tr.write c with
      | (some status, tr') => tr'.broadcast c.userId status
      | (none, tr') => tr' := by
  cases c with
  | sessionOpen u =>
    simp only [call, onSessionOpen, write]
    cases (tr.cancelPending u).openEntry u with
    | mk changed tr' => cases changed <;> rfl
  | setStatus u status =>
    cases hlook : tr.state.lookup u with
    | none => simp only [call, setStatus, write, statusEntry, hlook]; rfl
    | some p =>
      by_cases h : p.status ≠ status
      · simp only [call, setStatus, write, statusEntry, hlook, if_pos h]
        rfl
      · simp only [call, setStatus, write, statusEntry, hlook, if_neg h]
        rfl
  | expire u => rfl

/-- The last update enqueued for a user, `Offline` if there is none. -/
def lastEnqueued (tr : Tracker) (u : UserId) : PresenceStatus :=
  ((tr.broadcasts.find? fun p => p.1 = u).map Prod.snd).getD .offline

theorem lastEnqueued_broadcast (tr : Tracker) (userId : UserId) (status : PresenceStatus)
    (u : UserId) : (tr.broadcast userId status).lastEnqueued u =
      if u = userId then status else tr.lastEnqueued u := by
  simp only [lastEnqueued, broadcast, List.find?_cons]
  by_cases h : u = userId
  · simp [h]
  · simp [h, Ne.symm h]

/-- The status a call leaves is the one it enqueues, and without one it changes no status. -/
theorem getStatus_write (tr : Tracker) (c : PresenceCall) (u : UserId) :
    (tr.write c).2.getStatus u =
      if u = c.userId then (tr.write c).1.getD (tr.getStatus u) else tr.getStatus u := by
  cases c with
  | sessionOpen v =>
    have hcancel : (tr.cancelPending v).getStatus u = tr.getStatus u := by
      rw [cancelPending_eq]
      rfl
    rw [← hcancel]
    generalize hq : tr.cancelPending v = q
    simp only [write, PresenceCall.userId, hq]
    by_cases hu : u = v
    · subst hu
      rw [if_pos rfl]
      cases hlook : q.state.lookup u with
      | none =>
        simp only [openEntry, hlook, getStatus_insert]
        rfl
      | some p =>
        by_cases h : p.status = .offline
        · simp only [openEntry, hlook, if_pos h, getStatus_insert]
          rfl
        · simp only [openEntry, hlook, if_neg h, getStatus_insert]
          rw [getStatus, hlook]
          rfl
    · rw [if_neg hu]
      exact q.getStatus_openEntry_of_ne v u hu
  | setStatus v status =>
    simp only [PresenceCall.userId]
    cases hlook : tr.state.lookup v with
    | none =>
      simp only [write, statusEntry, hlook]
      exact (ite_self (tr.getStatus u)).symm
    | some p =>
      by_cases h : p.status ≠ status
      · simp only [write, statusEntry, hlook, if_pos h, getStatus_insert]
        rfl
      · simp only [write, statusEntry, hlook, if_neg h]
        exact (ite_self (tr.getStatus u)).symm
  | expire v =>
    simp only [write, PresenceCall.userId, getStatus_removePending, getStatus_writeOffline]
    rfl

theorem broadcasts_write (tr : Tracker) (c : PresenceCall) :
    (tr.write c).2.broadcasts = tr.broadcasts := by
  cases c with
  | sessionOpen v =>
    simp only [write, openEntry, cancelPending_eq]
    cases tr.state.lookup v with
    | none => rfl
    | some p => dsimp only; split_ifs <;> rfl
  | setStatus v status =>
    simp only [write, statusEntry]
    cases tr.state.lookup v with
    | none => rfl
    | some p => dsimp only; split_ifs <;> rfl
  | expire v =>
    simp only [write, writeOffline, removePending]
    cases tr.state.lookup v <;> rfl

end Tracker

/-! ## The machine -/

/-- The tracker, the updates that are written and not enqueued, by the number of their write, and
the number of each user's latest write. -/
structure Publishing where
  tracker : Tracker
  outgoing : DashMap ℕ (UserId × PresenceStatus)
  nextWrite : ℕ
  latest : UserId → Option ℕ

namespace Publishing

def init : Publishing := ⟨.new, ∅, 0, fun _ => none⟩

inductive Action
  /-- A call writes the status of its user. -/
  | call (c : PresenceCall)
  /-- The call that made this write enqueues its update. -/
  | publish (n : ℕ)
  deriving DecidableEq, Repr

def step (s : Publishing) : Action → Option Publishing
  | .call c => match s.tracker.write c with
    | (none, tracker) => some { s with tracker }
    | (some status, tracker) => some {
        tracker
        outgoing := s.outgoing.insert s.nextWrite (c.userId, status)
        nextWrite := s.nextWrite + 1
        latest := Function.update s.latest c.userId (some s.nextWrite) }
  | .publish n => match s.outgoing.lookup n with
    | some (u, status) => some { s with
        tracker := s.tracker.broadcast u status
        outgoing := s.outgoing.erase n }
    | none => none

/-- An update is enqueued that is not the user's status, after that of the user's latest write. -/
def Late (s : Publishing) : Action → Prop
  | .call _ => False
  | .publish n => ∃ p ∈ s.outgoing.lookup n, p.2 ≠ s.tracker.getStatus p.1 ∧
      ∀ m ∈ s.latest p.1, s.outgoing.lookup m = none

instance (s : Publishing) : (a : Action) → Decidable (s.Late a)
  | .call _ => .isFalse id
  | .publish n => inferInstanceAs (Decidable (∃ p ∈ s.outgoing.lookup n, _ ∧
      ∀ m ∈ s.latest p.1, s.outgoing.lookup m = none))

variable {s t : Publishing} {c : PresenceCall} {tracker : Tracker} {status : PresenceStatus}

theorem step_call_none (h : s.tracker.write c = (none, tracker)) :
    step s (.call c) = some { s with tracker } := by
  rw [step, h]

theorem step_call_some (h : s.tracker.write c = (some status, tracker)) :
    step s (.call c) = some {
      tracker
      outgoing := s.outgoing.insert s.nextWrite (c.userId, status)
      nextWrite := s.nextWrite + 1
      latest := Function.update s.latest c.userId (some s.nextWrite) } := by
  rw [step, h]

theorem step_publish {n : ℕ} {p : UserId × PresenceStatus} (h : s.outgoing.lookup n = some p) :
    step s (.publish n) = some { s with
      tracker := s.tracker.broadcast p.1 p.2
      outgoing := s.outgoing.erase n } := by
  simp only [step, h]

theorem exec_call (s : Publishing) (c : PresenceCall) :
    ∃ t, exec step s (.call c :: (s.tracker.write c).1.toList.map fun _ => .publish s.nextWrite) =
      some t ∧ t.tracker = s.tracker.call c := by
  rw [s.tracker.call_eq_write c]
  cases hwrite : s.tracker.write c with
  | mk o tracker =>
    cases o with
    | none => exact ⟨_, exec_cons.2 ⟨_, step_call_none hwrite, rfl⟩, rfl⟩
    | some status =>
      have hpublish := step_publish (s := ⟨tracker,
        s.outgoing.insert s.nextWrite (c.userId, status), s.nextWrite + 1,
        Function.update s.latest c.userId (some s.nextWrite)⟩) (AList.lookup_insert s.outgoing)
      exact ⟨_, exec_cons.2 ⟨_, step_call_some hwrite, exec_cons.2 ⟨_, hpublish, rfl⟩⟩, rfl⟩

/-! ## The invariant -/

/-- The update of the user's latest write is outstanding, or it was enqueued and the last one
enqueued is as good. -/
def Follows (s : Publishing) (u : UserId) : Prop :=
  (∃ m, s.latest u = some m ∧ s.outgoing.lookup m = some (u, s.tracker.getStatus u)) ∨
    s.tracker.lastEnqueued u = s.tracker.getStatus u ∧
      ∀ m, s.latest u = some m → s.outgoing.lookup m = none

structure Inv (s : Publishing) : Prop where
  latest : ∀ u m, s.latest u = some m → m < s.nextWrite
  follows : ∀ u, s.Follows u

theorem inv_call (h : s.Inv) (hstep : step s (.call c) = some t) : t.Inv := by
  have hstatus := s.tracker.getStatus_write c
  have hsent := s.tracker.broadcasts_write c
  cases hwrite : s.tracker.write c with
  | mk o tracker =>
    rw [hwrite] at hstatus hsent
    have hlast (u : UserId) : tracker.lastEnqueued u = s.tracker.lastEnqueued u := by
      rw [Tracker.lastEnqueued, hsent, Tracker.lastEnqueued]
    cases o with
    | none =>
      rw [step_call_none hwrite] at hstep
      obtain rfl := Option.some.inj hstep
      refine ⟨h.latest, ?_⟩
      intro u
      have hsame : tracker.getStatus u = s.tracker.getStatus u := (hstatus u).trans (ite_self _)
      rw [Follows, hsame, hlast]
      exact h.follows u
    | some status =>
      rw [step_call_some hwrite] at hstep
      obtain rfl := Option.some.inj hstep
      refine ⟨?_, ?_⟩
      · intro u m hm
        dsimp only at hm ⊢
        rw [Function.update_apply] at hm
        split_ifs at hm
        · rw [← Option.some.inj hm]
          exact Nat.lt_succ_self _
        · exact (h.latest u m hm).trans (Nat.lt_succ_self _)
      · intro u
        rw [Follows, hstatus u, hlast]
        dsimp only
        rw [Function.update_apply]
        by_cases hu : u = c.userId
        · -- The new update is that of the latest write.
          left
          rw [if_pos hu, if_pos hu, hu]
          exact ⟨s.nextWrite, rfl, AList.lookup_insert _⟩
        · rw [if_neg hu, if_neg hu]
          have hold {m : ℕ} (hm : s.latest u = some m) :
              (s.outgoing.insert s.nextWrite (c.userId, status)).lookup m = s.outgoing.lookup m :=
            AList.lookup_insert_ne (h.latest u m hm).ne
          rcases h.follows u with ⟨m, hm, hout⟩ | ⟨heq, hdone⟩
          · exact .inl ⟨m, hm, (hold hm).trans hout⟩
          · exact .inr ⟨heq, fun m hm => (hold hm).trans (hdone m hm)⟩

theorem inv_publish (h : s.Inv) {n : ℕ} (hok : ¬s.Late (.publish n))
    (hstep : step s (.publish n) = some t) : t.Inv := by
  cases hlook : s.outgoing.lookup n with
  | none => simp only [step, hlook, reduceCtorEq] at hstep
  | some p =>
    rw [step_publish hlook] at hstep
    obtain rfl := Option.some.inj hstep
    refine ⟨h.latest, ?_⟩
    intro u
    rw [Follows, Tracker.lastEnqueued_broadcast, Tracker.getStatus_broadcast]
    rcases h.follows u with ⟨m, hm, hout⟩ | ⟨heq, hdone⟩
    · by_cases hmn : m = n
      · -- The update of the latest write.
        rw [hmn, hlook] at hout
        obtain rfl := Option.some.inj hout
        refine .inr ⟨if_pos rfl, fun m' hm' => ?_⟩
        rw [← Option.some.inj (hm.symm.trans hm'), hmn]
        exact (DashMap.lookup_erase_ite s.outgoing n n).trans (if_pos rfl)
      · exact .inl ⟨m, hm, (AList.lookup_erase_ne hmn).trans hout⟩
    · refine .inr ⟨?_, fun m hm => ?_⟩
      · split_ifs with hu
        · -- Not late, so as good as the update of the latest write.
          subst hu
          by_contra hne
          exact hok ⟨p, hlook, hne, hdone⟩
        · exact heq
      · rw [DashMap.lookup_erase_ite]
        split_ifs
        · rfl
        · exact hdone m hm

/-- **One step.** -/
theorem step_inv {a : Action} (h : s.Inv) (hok : ¬s.Late a) (hstep : step s a = some t) :
    t.Inv := by
  cases a with
  | call c => exact inv_call h hstep
  | publish n => exact inv_publish h hok hstep

/-! ## Runs -/

theorem init_inv : init.Inv := ⟨fun _ _ hm => absurd hm nofun, fun _ => .inr ⟨rfl, fun _ _ => rfl⟩⟩

/-- **The last update enqueued for a user is the user's status** when none of the user is
outstanding, after a run in which no update was enqueued late. -/
theorem last_enqueued_eq (as : List Action) (s : Publishing)
    (hok : Along step (fun s a => ¬s.Late a) init as) (hs : exec step init as = some s) (u : UserId)
    (hrest : ∀ n p, s.outgoing.lookup n = some p → p.1 ≠ u) :
    s.tracker.lastEnqueued u = s.tracker.getStatus u := by
  have hinv : s.Inv :=
    exec_invariant_along (fun _ _ _ h hok hstep => step_inv h hok hstep) init_inv hok hs
  rcases hinv.follows u with ⟨m, -, hout⟩ | ⟨heq, -⟩
  · exact absurd rfl (hrest m _ hout)
  · exact heq

/-- Two devices set a status, and their updates are enqueued in the order of the writes. -/
def inOrder : List Action :=
  [.call (.sessionOpen 7), .publish 0, .call (.setStatus 7 .idle), .call (.setStatus 7 .dnd),
    .publish 1, .publish 2]

theorem last_enqueued_eq_inOrder :
    ∃ s, exec step init inOrder = some s ∧ s.tracker.lastEnqueued 7 = s.tracker.getStatus 7 :=
  ⟨_, rfl, last_enqueued_eq inOrder _ (by decide) rfl 7
    fun _ p hp => nomatch show none = some p from hp⟩

/-- The same two calls, enqueued the other way round. -/
def outOfOrder : List Action :=
  [.call (.sessionOpen 7), .publish 0, .call (.setStatus 7 .idle), .call (.setStatus 7 .dnd),
    .publish 2, .publish 1]

/-- **The observers do not converge**: nothing is outstanding, the user's status is `Dnd`, and the
last update says `Idle`. -/
theorem two_devices_diverge :
    ∃ s, exec step init outOfOrder = some s ∧ s.outgoing = ∅ ∧
      s.tracker.getStatus 7 = .dnd ∧ s.tracker.lastEnqueued 7 = .idle :=
  ⟨_, rfl, rfl, rfl, rfl⟩

/-- A late update leaves the observers of its user with another status than the tracker. -/
theorem late_diverges {n : ℕ} (h : s.Late (.publish n)) :
    ∃ t u, step s (.publish n) = some t ∧ t.tracker.lastEnqueued u ≠ t.tracker.getStatus u := by
  obtain ⟨p, hlook, hne, -⟩ := h
  refine ⟨_, p.1, step_publish hlook, ?_⟩
  rw [Tracker.lastEnqueued_broadcast, if_pos rfl, Tracker.getStatus_broadcast]
  exact hne

end Publishing

end RustRelay
