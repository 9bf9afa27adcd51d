import Mathlib.Data.Finset.Basic
import RustRelay.Core.Run
import RustRelay.Gateway.Session
import RustRelay.Presence.Tracker

/-!
# The presence of one user

What the session store and the tracker are for, with everything about other users left out and
every call a single step: a user has sessions, a status, at most one pending debounce task and
some that still wait, and a list of announced statuses.

* A user who opens a session is shown as connected, and the pending debounce task is notified.
* A user who closes the last one is not shown as offline before a debounce task expires.
* `expire` and `cancel` are the two branches of the `select!` of a debounce task.

**Theorem (`run_settled`).** In every run that is `Regular` (the user sets a status other than
`Offline`, and only while registered; no notified task expires) a registered user is not shown as
offline, and a user who is shown as connected is registered or has exactly one debounce task that
was not notified. In any run at all the last status announced is the status (`run_announced`).
-/

namespace RustRelay

open Machine

/-- One user on one node. A debounce task goes by a number. -/
structure UserView where
  sessions : List Session
  presence : Option UserPresence
  /-- The task whose `Notify` is in `pending_offline`. -/
  pending : Option ℕ
  /-- The debounce tasks that wait in `select!`. -/
  waiting : Finset ℕ
  /-- Those of them that were notified. -/
  notified : Finset ℕ
  /-- What was announced, the latest first. -/
  broadcasts : List PresenceStatus

inductive UserEvent
  | openSession (session : Session)
  /-- A session is removed; the debounce task, if one is spawned, is called `timer`. -/
  | closeSession (sessionId : SessionId) (timer : ℕ)
  | setStatus (status : PresenceStatus)
  | expire (timer : ℕ)
  | cancel (timer : ℕ)
  deriving DecidableEq, Repr

namespace UserView

def init : UserView := ⟨[], none, none, ∅, ∅, []⟩

def getStatus (v : UserView) : PresenceStatus := (v.presence.map UserPresence.status).getD .offline

/-- The last status announced, `Offline` if there is none. -/
def lastBroadcast (v : UserView) : PresenceStatus := v.broadcasts.head?.getD .offline

/-! ## Steps -/

def broadcast (v : UserView) (status : PresenceStatus) : UserView :=
  { v with broadcasts := status :: v.broadcasts }

/-- The pending task is notified. -/
def cancelPending (v : UserView) : UserView :=
  { v with
    pending := none
    notified := v.pending.elim v.notified fun t => insert t v.notified }

/-- The state of an opened session. -/
def openState (v : UserView) : UserView :=
  { v with presence := some ⟨if v.getStatus = .offline then .online else v.getStatus,
      v.presence.elim 0 UserPresence.sessionCount + 1⟩ }

/-- The state of an opened session, announced if the user was offline. -/
def entry (v : UserView) : UserView :=
  if v.getStatus = .offline then v.openState.broadcast .online else v.openState

def push (v : UserView) (session : Session) : UserView :=
  { v with sessions := v.sessions ++ [session] }

def openSession (v : UserView) (session : Session) : UserView :=
  (v.push session).cancelPending.entry

/-- A debounce task waits, and is the pending one. -/
def arm (v : UserView) (timer : ℕ) : UserView :=
  { v with pending := some timer, waiting := insert timer v.waiting }

/-- What follows the removal of a session. -/
def afterRemove (v : UserView) (timer : ℕ) : UserView :=
  if v.sessions.isEmpty then v.cancelPending.arm timer else v

def retain (v : UserView) (sessionId : SessionId) : UserView :=
  { v with sessions := v.sessions.filter fun s => s.sessionId ≠ sessionId }

def setStatus (v : UserView) (status : PresenceStatus) : UserView :=
  match v.presence with
  | none => v
  | some p =>
    if p.status ≠ status then
      { v with presence := some { p with status } }.broadcast status
    else v

/-- A debounce task ends. -/
def drop (v : UserView) (timer : ℕ) : UserView :=
  { v with waiting := v.waiting.erase timer, notified := v.notified.erase timer }

def writeOffline (v : UserView) : UserView :=
  { v with presence := v.presence.map fun _ => ⟨.offline, 0⟩ }

def removePending (v : UserView) : UserView := { v with pending := none }

/-- What a debounce task does after its sleep. -/
def debounced (v : UserView) : UserView := v.writeOffline.removePending.broadcast .offline

def step (v : UserView) : UserEvent → Option UserView
  | .openSession x => some (v.openSession x)
  | .closeSession sid t => if t ∈ v.waiting then none else some ((v.retain sid).afterRemove t)
  | .setStatus status => some (v.setStatus status)
  | .expire t => if t ∈ v.waiting then some (v.drop t).debounced else none
  | .cancel t => if t ∈ v.notified then some (v.drop t) else none

/-- A status is set while the user is registered and is not `Offline`; no notified task expires. -/
def Regular (v : UserView) : UserEvent → Prop
  | .setStatus status => status ≠ .offline ∧ v.sessions ≠ []
  | .expire t => t ∉ v.notified
  | _ => True

instance (v : UserView) : (e : UserEvent) → Decidable (v.Regular e)
  | .setStatus _ => inferInstanceAs (Decidable (_ ∧ _))
  | .expire t => inferInstanceAs (Decidable (t ∉ v.notified))
  | .openSession _ | .closeSession _ _ | .cancel _ => inferInstanceAs (Decidable True)

/-! ## What the steps do to the status -/

variable {v v' : UserView}

@[simp] theorem getStatus_cancelPending : v.cancelPending.getStatus = v.getStatus := rfl

@[simp] theorem getStatus_entry : v.entry.getStatus =
    if v.getStatus = .offline then .online else v.getStatus := by
  unfold entry
  split_ifs with h <;> simp [getStatus, openState, broadcast] at h ⊢ <;> simp [h]

theorem lastBroadcast_entry (h : v.lastBroadcast = v.getStatus) :
    v.entry.lastBroadcast = v.entry.getStatus := by
  rw [getStatus_entry]
  unfold entry
  split_ifs with hs
  · rfl
  · exact h

theorem getStatus_writeOffline : v.writeOffline.getStatus = .offline := by
  cases h : v.presence <;> simp [writeOffline, getStatus, h]

theorem setStatus_cases (v : UserView) (status : PresenceStatus) :
    v.setStatus status = v ∨ ∃ p, v.setStatus status =
      { v with presence := some p }.broadcast status ∧ p.status = status := by
  unfold setStatus
  cases hp : v.presence with
  | none => exact .inl rfl
  | some p =>
    dsimp only
    split_ifs
    · exact .inr ⟨{ p with status }, rfl, rfl⟩
    · exact .inl rfl

/-! ## A notified task ends at any time -/

section
variable {t t' : ℕ}

theorem cancelPending_drop (h : v.pending ≠ some t') :
    (v.drop t').cancelPending = v.cancelPending.drop t' := by
  unfold cancelPending
  cases hp : v.pending with
  | none => simp only [drop, hp, Option.elim_none]
  | some t₀ =>
    have hne : t₀ ≠ t' := fun heq => h (by rw [hp, heq])
    simp only [drop, hp, Option.elim_some, Finset.erase_insert_of_ne hne]

theorem entry_drop : (v.drop t').entry = v.entry.drop t' := by
  have hstatus : (v.drop t').getStatus = v.getStatus := rfl
  unfold entry
  rw [hstatus]
  split_ifs <;> rfl

theorem arm_drop (h : t ≠ t') : (v.drop t').arm t = (v.arm t).drop t' := by
  simp only [arm, drop, Finset.erase_insert_of_ne h]

theorem afterRemove_drop (h : t ≠ t') (hp : v.pending ≠ some t') :
    (v.drop t').afterRemove t = (v.afterRemove t).drop t' := by
  have hsessions : (v.drop t').sessions = v.sessions := rfl
  unfold afterRemove
  rw [hsessions]
  split_ifs
  · rw [cancelPending_drop hp, arm_drop h]
  · rfl

theorem notified_cancelPending : v.notified ⊆ v.cancelPending.notified := by
  unfold cancelPending
  cases v.pending with
  | none => exact Finset.Subset.refl _
  | some t₀ => exact Finset.subset_insert t₀ v.notified

theorem notified_entry : v.entry.notified = v.notified := by
  unfold entry
  split_ifs <;> rfl

theorem notified_afterRemove : v.notified ⊆ (v.afterRemove t).notified := by
  unfold afterRemove
  split_ifs
  · exact notified_cancelPending
  · exact Finset.Subset.refl _

end

/-! ## Any run -/

theorem step_announced {e : UserEvent} (h : v.lastBroadcast = v.getStatus)
    (hstep : v.step e = some v') : v'.lastBroadcast = v'.getStatus := by
  cases e with
  | openSession x =>
    obtain rfl := Option.some.inj hstep
    exact lastBroadcast_entry h
  | closeSession sid t =>
    simp only [step, Option.ite_none_left_eq_some, Option.some.injEq] at hstep
    obtain ⟨-, rfl⟩ := hstep
    unfold afterRemove
    split_ifs <;> exact h
  | setStatus status =>
    obtain rfl := Option.some.inj hstep
    rcases v.setStatus_cases status with heq | ⟨p, heq, hp⟩
    · rw [heq]
      exact h
    · rw [heq]
      exact hp.symm
  | expire t =>
    simp only [step, Option.ite_none_right_eq_some, Option.some.injEq] at hstep
    obtain ⟨-, rfl⟩ := hstep
    exact (getStatus_writeOffline (v := v.drop t)).symm
  | cancel t =>
    simp only [step, Option.ite_none_right_eq_some, Option.some.injEq] at hstep
    obtain ⟨-, rfl⟩ := hstep
    exact h

/-- **What observers were told last is the status**, in any run. -/
theorem run_announced {es : List UserEvent} (h : exec step init es = some v) :
    v.lastBroadcast = v.getStatus :=
  exec_invariant (I := fun v => v.lastBroadcast = v.getStatus)
    (fun _ _ _ h hstep => step_announced h hstep) rfl h

/-! ## Regular runs -/

structure Settled (v : UserView) : Prop where
  notified : v.notified ⊆ v.waiting
  pending : ∀ t, v.pending = some t → t ∈ v.waiting ∧ t ∉ v.notified
  /-- A debounce task that was not notified is the pending one. -/
  armed : ∀ t ∈ v.waiting, t ∉ v.notified → v.pending = some t
  gone : v.pending ≠ none → v.sessions = []
  shown : v.sessions ≠ [] → v.getStatus ≠ .offline
  away : v.getStatus ≠ .offline → v.sessions ≠ [] ∨ v.pending ≠ none

theorem Settled.cancelPending (h : v.Settled) :
    v.cancelPending.notified ⊆ v.waiting ∧ ∀ t ∈ v.waiting, t ∈ v.cancelPending.notified := by
  unfold UserView.cancelPending
  cases hp : v.pending with
  | none =>
    refine ⟨h.notified, fun t ht => ?_⟩
    by_contra hnot
    rw [h.armed t ht hnot] at hp
    cases hp
  | some t₀ =>
    refine ⟨Finset.insert_subset (h.pending t₀ hp).1 h.notified, fun t ht => ?_⟩
    by_cases hnot : t ∈ v.notified
    · exact Finset.mem_insert_of_mem hnot
    · rw [h.armed t ht hnot] at hp
      exact Finset.mem_insert.2 (.inl (Option.some.inj hp))

theorem settled_openSession (h : v.Settled) (x : Session) : (v.openSession x).Settled := by
  obtain ⟨hsub, hall⟩ := h.cancelPending
  have hne : v.sessions ++ [x] ≠ [] := by simp
  have hstatus : (v.openSession x).getStatus ≠ .offline := by
    rw [openSession, getStatus_entry]
    split_ifs with hs
    · simp
    · exact hs
  have hkeep : (v.openSession x).sessions = v.sessions ++ [x] ∧
      (v.openSession x).pending = none ∧ (v.openSession x).waiting = v.waiting ∧
      (v.openSession x).notified = v.cancelPending.notified := by
    unfold openSession entry
    split_ifs <;> exact ⟨rfl, rfl, rfl, rfl⟩
  obtain ⟨hsessions, hpending, hwaiting, hnotified⟩ := hkeep
  constructor
  · rw [hnotified, hwaiting]
    exact hsub
  · rw [hpending]
    intro t ht
    cases ht
  · rw [hnotified, hwaiting]
    exact fun t ht hnot => absurd (hall t ht) hnot
  · rw [hpending]
    exact fun hp => absurd rfl hp
  · exact fun _ => hstatus
  · rw [hsessions]
    exact fun _ => .inl hne

theorem settled_closeSession (h : v.Settled) (sid : SessionId) {t : ℕ} (ht : t ∉ v.waiting) :
    ((v.retain sid).afterRemove t).Settled := by
  obtain ⟨hsub, hall⟩ := h.cancelPending
  unfold afterRemove
  split_ifs with hempty
  · have hnil : (v.retain sid).sessions = [] := by simpa using hempty
    constructor
    · exact hsub.trans (Finset.subset_insert t v.waiting)
    · intro t' ht'
      obtain rfl := Option.some.inj ht'
      exact ⟨Finset.mem_insert_self t v.waiting, fun hnot => ht (hsub hnot)⟩
    · intro t' ht' hnot
      rcases Finset.mem_insert.1 ht' with rfl | ht'
      · rfl
      · exact absurd (hall t' ht') hnot
    · exact fun _ => hnil
    · exact fun hne => absurd hnil hne
    · exact fun _ => .inr (by simp [arm])
  · have hne : (v.retain sid).sessions ≠ [] := by simpa using hempty
    have hold : v.sessions ≠ [] := by
      intro hnil
      simp [retain, hnil] at hne
    constructor
    · exact h.notified
    · exact h.pending
    · exact h.armed
    · exact fun hp => absurd (h.gone hp) hold
    · exact fun _ => h.shown hold
    · exact fun _ => .inl hne

theorem settled_setStatus (h : v.Settled) {status : PresenceStatus} (hs : status ≠ .offline)
    (hsessions : v.sessions ≠ []) : (v.setStatus status).Settled := by
  rcases v.setStatus_cases status with heq | ⟨p, heq, hp⟩
  · rw [heq]
    exact h
  · rw [heq]
    have hstatus : ({ v with presence := some p }.broadcast status).getStatus = status := hp
    constructor
    · exact h.notified
    · exact h.pending
    · exact h.armed
    · exact h.gone
    · exact fun _ => by rw [hstatus]; exact hs
    · exact fun _ => .inl hsessions

theorem settled_expire (h : v.Settled) {t : ℕ} (ht : t ∈ v.waiting) (hnot : t ∉ v.notified) :
    (v.drop t).debounced.Settled := by
  have hpending := h.armed t ht hnot
  have hnil : v.sessions = [] := h.gone (by simp [hpending])
  have hstatus : (v.drop t).debounced.getStatus = .offline := getStatus_writeOffline (v := v.drop t)
  constructor
  · exact Finset.erase_subset_erase t h.notified
  · intro t' ht'
    cases ht'
  · intro t' ht' hnot'
    obtain ⟨hne, ht'⟩ := Finset.mem_erase.1 ht'
    have hother := h.armed t' ht' fun hmem => hnot' (Finset.mem_erase.2 ⟨hne, hmem⟩)
    rw [hpending] at hother
    exact absurd (Option.some.inj hother).symm hne
  · exact fun _ => hnil
  · exact fun hne => absurd hnil hne
  · exact fun hs => absurd hstatus hs

theorem settled_cancel (h : v.Settled) {t : ℕ} (ht : t ∈ v.notified) : (v.drop t).Settled := by
  constructor
  · exact Finset.erase_subset_erase t h.notified
  · intro t' ht'
    obtain ⟨hwait, hnot⟩ := h.pending t' ht'
    have hne : t' ≠ t := fun heq => hnot (heq ▸ ht)
    exact ⟨Finset.mem_erase.2 ⟨hne, hwait⟩, fun hmem => hnot (Finset.mem_of_mem_erase hmem)⟩
  · intro t' ht' hnot
    obtain ⟨hne, ht'⟩ := Finset.mem_erase.1 ht'
    exact h.armed t' ht' fun hmem => hnot (Finset.mem_erase.2 ⟨hne, hmem⟩)
  · exact h.gone
  · exact h.shown
  · exact h.away

/-- **One regular step.** -/
theorem step_settled {e : UserEvent} (h : v.Settled) (hok : v.Regular e)
    (hstep : v.step e = some v') : v'.Settled := by
  cases e with
  | openSession x =>
    obtain rfl := Option.some.inj hstep
    exact settled_openSession h x
  | closeSession sid t =>
    simp only [step, Option.ite_none_left_eq_some, Option.some.injEq] at hstep
    obtain ⟨ht, rfl⟩ := hstep
    exact settled_closeSession h sid ht
  | setStatus status =>
    obtain rfl := Option.some.inj hstep
    exact settled_setStatus h hok.1 hok.2
  | expire t =>
    simp only [step, Option.ite_none_right_eq_some, Option.some.injEq] at hstep
    obtain ⟨ht, rfl⟩ := hstep
    exact settled_expire h ht hok
  | cancel t =>
    simp only [step, Option.ite_none_right_eq_some, Option.some.injEq] at hstep
    obtain ⟨ht, rfl⟩ := hstep
    exact settled_cancel h ht

theorem init_settled : init.Settled where
  notified := Finset.Subset.refl _
  pending _ ht := by cases ht
  armed _ ht := absurd ht (Finset.notMem_empty _)
  gone _ := rfl
  shown hne := absurd rfl hne
  away hs := absurd rfl hs

/-- **Presence is accurate in regular runs.** -/
theorem run_settled {es : List UserEvent} (hok : Along step Regular init es)
    (h : exec step init es = some v) : v.Settled :=
  exec_invariant_along (fun _ _ _ h hok hstep => step_settled h hok hstep) init_settled hok h

/-- A user who is shown and has no session has exactly one debounce task that was not notified. -/
theorem Settled.existsUnique (h : v.Settled) (hs : v.getStatus ≠ .offline)
    (hnil : v.sessions = []) : ∃! t, t ∈ v.waiting ∧ t ∉ v.notified := by
  obtain ⟨t, ht⟩ := Option.ne_none_iff_exists'.1 ((h.away hs).resolve_left (not_not.2 hnil))
  refine ⟨t, h.pending t ht, ?_⟩
  intro t' ht'
  have hother := h.armed t' ht'.1 ht'.2
  rw [ht] at hother
  exact (Option.some.inj hother).symm

end UserView

end RustRelay
