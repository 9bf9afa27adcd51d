import Mathlib.Data.List.Chain
import RustRelay.Presence.Debounce
import RustRelay.Presence.Publish

/-!
# Announcing changes only

`on_session_open` and `set_status` enqueue an update when they have changed the status. The
debounce task enqueues `Offline` in any case.

**Theorem (`announced_on_change_iff`).** After any run of opens, closes, `set_status` calls and
expiries on any nodes, each a single step, the updates that a node enqueued for a user, after an
implicit `Offline`, never repeat a status *if and only if* no timer of the user expired on the node
while the user was offline there. A user who goes offline by hand and then disconnects is announced
as offline twice: `offline_twice`.

The last update is the user's status (`Announces`), so an update repeats a status exactly if it
does not change the status.
-/

namespace RustRelay

open Machine

namespace Tracker

/-- An implicit `Offline`, and then the updates that were enqueued for the user. -/
def announced (tr : Tracker) (u : UserId) : List PresenceStatus :=
  .offline :: ((tr.updatesOf u).map Prod.snd).reverse

/-- The last update is the status. -/
def Announces (tr : Tracker) (u : UserId) : Prop :=
  (tr.announced u).getLast? = some (tr.getStatus u)

variable {tr tr' : Tracker} {u : UserId}

theorem announced_broadcast (tr : Tracker) (userId : UserId) (status : PresenceStatus)
    (u : UserId) : (tr.broadcast userId status).announced u =
      if u = userId then tr.announced u ++ [status] else tr.announced u := by
  split_ifs with hu
  · subst hu
    simp [announced, updatesOf, broadcast]
  · rw [announced, updatesOf_broadcast_of_ne hu, announced]

theorem SameFor.announced (h : SameFor u tr tr') : tr'.announced u = tr.announced u := by
  rw [Tracker.announced, h.2, Tracker.announced]

/-- The update that a call enqueues for the user. -/
def enqueued (tr : Tracker) (c : PresenceCall) (u : UserId) : Option PresenceStatus :=
  if u = c.userId then (tr.write c).1 else none

theorem announced_call (tr : Tracker) (c : PresenceCall) (u : UserId) :
    (tr.call c).announced u = tr.announced u ++ (tr.enqueued c u).toList := by
  have hsent := tr.broadcasts_write c
  have hsame (tr' : Tracker) (h : tr'.broadcasts = tr.broadcasts) :
      tr'.announced u = tr.announced u := by
    rw [announced, updatesOf, h]
    rfl
  rw [call_eq_write, enqueued]
  cases hwrite : tr.write c with
  | mk o tr' =>
    rw [hwrite] at hsent
    cases o with
    | none => simp [hsame tr' hsent]
    | some status =>
      dsimp only
      rw [announced_broadcast, hsame tr' hsent]
      split_ifs
      · rfl
      · exact (List.append_nil _).symm

theorem getStatus_call (tr : Tracker) (c : PresenceCall) (u : UserId) :
    (tr.call c).getStatus u = (tr.enqueued c u).getD (tr.getStatus u) := by
  have hstatus := tr.getStatus_write c u
  rw [call_eq_write, enqueued]
  cases hwrite : tr.write c with
  | mk o tr' =>
    rw [hwrite] at hstatus
    cases o with
    | none =>
      rw [hstatus]
      split_ifs <;> rfl
    | some status =>
      dsimp only at hstatus ⊢
      rw [getStatus_broadcast, hstatus]
      split_ifs <;> rfl

/-- **A call.** The last update stays the status, and a status is repeated if the call enqueues
the one that the user has. -/
theorem Announces.call (h : tr.Announces u) (c : PresenceCall) :
    (tr.call c).Announces u ∧ (((tr.call c).announced u).IsChain (· ≠ ·) ↔
      (tr.announced u).IsChain (· ≠ ·) ∧ tr.enqueued c u ≠ some (tr.getStatus u)) := by
  rw [Announces, announced_call, getStatus_call]
  cases henq : tr.enqueued c u with
  | none =>
    rw [Option.toList_none, List.append_nil, Option.getD_none]
    exact ⟨h, (and_iff_left nofun).symm⟩
  | some status =>
    refine ⟨by simp, ?_⟩
    rw [Option.toList_some, List.isChain_append, h]
    simp [eq_comm]

/-- An open or `set_status` enqueues only changes. -/
theorem enqueued_ne (tr : Tracker) (c : PresenceCall) (u : UserId)
    (hc : ∀ v, c ≠ .expire v) : tr.enqueued c u ≠ some (tr.getStatus u) := by
  unfold enqueued
  split_ifs with hu
  · subst hu
    cases c with
    | sessionOpen u =>
      have hsame : (tr.cancelPending u).state = tr.state := by rw [cancelPending_eq]
      cases hlook : tr.state.lookup u with
      | none => simp [PresenceCall.userId, write, openEntry, hsame, hlook, getStatus]
      | some p =>
        by_cases hp : p.status = .offline <;>
          simp [PresenceCall.userId, write, openEntry, hsame, hlook, getStatus, hp]
    | setStatus u status =>
      cases hlook : tr.state.lookup u with
      | none => simp [PresenceCall.userId, write, statusEntry, hlook, getStatus]
      | some p =>
        by_cases hp : p.status = status
        · simp [PresenceCall.userId, write, statusEntry, hlook, getStatus, hp]
        · simp [PresenceCall.userId, write, statusEntry, hlook, getStatus, hp, Ne.symm hp]
    | expire v => exact absurd rfl (hc v)
  · simp

theorem enqueued_expire (tr : Tracker) (v u : UserId) :
    tr.enqueued (.expire v) u = if u = v then some .offline else none := rfl

end Tracker

namespace PresenceCluster

variable {ι : Type}

/-- A timer of the user expires on the node, and the user is offline there already. -/
def ExpiresOffline (b : ι) (u : UserId) (s : PresenceCluster ι) (a : Action ι) : Prop :=
  s.expiring a = some (b, u) ∧ (s.nodes b).tracker.getStatus u = .offline

instance [DecidableEq ι] (b : ι) (u : UserId) (s : PresenceCluster ι) (a : Action ι) :
    Decidable (s.ExpiresOffline b u a) := inferInstanceAs (Decidable (_ ∧ _))

variable [DecidableEq ι] {offlineDebounce : ℕ} {s t : PresenceCluster ι} {a : Action ι}

/-- **One step**: a status is repeated exactly if a timer expires for a user who is offline. -/
theorem step_announces (h : s.step offlineDebounce a = some t) {b : ι} {u : UserId}
    (hs : (s.nodes b).tracker.Announces u) : (t.nodes b).tracker.Announces u ∧
      (((t.nodes b).tracker.announced u).IsChain (· ≠ ·) ↔
        ((s.nodes b).tracker.announced u).IsChain (· ≠ ·) ∧ ¬s.ExpiresOffline b u a) := by
  have hsame {tr : Tracker} (htr : Tracker.SameFor u (s.nodes b).tracker tr)
      (hexpire : s.expiring a ≠ some (b, u)) : tr.Announces u ∧ ((tr.announced u).IsChain (· ≠ ·) ↔
        ((s.nodes b).tracker.announced u).IsChain (· ≠ ·) ∧ ¬s.ExpiresOffline b u a) := by
    rw [Tracker.Announces, htr.announced, htr.1]
    exact ⟨hs, (and_iff_left fun hoff => hexpire hoff.1).symm⟩
  have hmoves := step_moves h b
  generalize t.nodes b = nd at hmoves
  cases hmoves with
  | stay _ hother => exact hsame ⟨rfl, rfl⟩ (expiring_ne hother)
  | cleanup v sid =>
    unfold Presence.cleanup
    dsimp only
    split_ifs
    · exact hsame ⟨rfl, rfl⟩ nofun
    · exact hsame Tracker.sameFor_onAllSessionsClosed nofun
  | cancel n hn => exact hsame ⟨rfl, rfl⟩ nofun
  | openSession x =>
    refine (hs.call (.sessionOpen x.userId)).imp_right fun hchain => hchain.trans ?_
    exact and_congr_right fun _ => iff_of_true (Tracker.enqueued_ne _ _ _ nofun) fun hoff =>
      absurd hoff.1 nofun
  | setStatus v status =>
    refine (hs.call (.setStatus v status)).imp_right fun hchain => hchain.trans ?_
    exact and_congr_right fun _ => iff_of_true (Tracker.enqueued_ne _ _ _ nofun) fun hoff =>
      absurd hoff.1 nofun
  | expire n timer htimer =>
    refine (hs.call (.expire timer.userId)).imp_right fun hchain => hchain.trans ?_
    refine and_congr_right fun _ => not_congr ?_
    rw [Tracker.enqueued_expire, ExpiresOffline, expiring, htimer]
    by_cases hu : u = timer.userId
    · simp [hu, eq_comm]
    · simp [hu, Ne.symm hu]

omit [DecidableEq ι] in
theorem init_announces (b : ι) (u : UserId) :
    ((init : PresenceCluster ι).nodes b).tracker.Announces u := rfl

/-- **A node announces only changes if and only if no timer expires for a user who is offline.** -/
theorem announced_on_change_iff (offlineDebounce : ℕ) (b : ι) (u : UserId) (as : List (Action ι))
    (hs : exec (step offlineDebounce) init as = some s) :
    ((s.nodes b).tracker.announced u).IsChain (· ≠ ·) ↔
      Along (step offlineDebounce) (fun s a => ¬s.ExpiresOffline b u a) init as := by
  have hiff := exec_iff_along (I := fun s : PresenceCluster ι => (s.nodes b).tracker.Announces u)
    (Q := fun s => ((s.nodes b).tracker.announced u).IsChain (· ≠ ·))
    (fun s a t h hstep => (step_announces hstep h).1)
    (fun s a t h hstep => (step_announces hstep h).2) (init_announces b u) hs
  rw [hiff]
  exact and_iff_right (List.isChain_singleton _)

/-- A user goes idle, comes back, and leaves. -/
def changes : List (Action Unit) :=
  [.openSession () ⟨1, 7⟩, .setStatus () 7 .idle, .setStatus () 7 .idle, .cleanup () 7 1, .tick 5,
    .expire () 0]

theorem announced_on_change_iff_changes :
    ∃ s, exec (step 5) init changes = some s ∧
      (s.nodes ()).tracker.announced 7 = [.offline, .online, .idle, .offline] ∧
      ((s.nodes ()).tracker.announced 7).IsChain (· ≠ ·) :=
  ⟨_, rfl, rfl, (announced_on_change_iff 5 () 7 changes rfl).2 (by decide)⟩

/-- A user goes offline by hand, and then disconnects. -/
def offlineByHand : List (Action Unit) :=
  [.openSession () ⟨1, 7⟩, .setStatus () 7 .offline, .cleanup () 7 1, .tick 5, .expire () 0]

/-- **The user is announced as offline twice.** -/
theorem offline_twice :
    ∃ s, exec (step 5) init offlineByHand = some s ∧
      (s.nodes ()).tracker.announced 7 = [.offline, .online, .offline, .offline] ∧
      ¬((s.nodes ()).tracker.announced 7).IsChain (· ≠ ·) :=
  ⟨_, rfl, rfl, by decide⟩

end PresenceCluster

end RustRelay
