import Mathlib.Tactic.Tauto
import RustRelay.Presence.Timers

/-!
# What an operation touches

An operation of a sequence is on the entries of its own user (`op_frame`). Users meet in two
places only: the counter that names a new `Notify`, and the permits. A `Notify` counts as notified
from when it is taken out of `pending_offline` on, since nothing else can happen to it then; so an
operation notifies exactly what it takes (`notified_after`).

**Theorem (`names_step`).** In every run, each `Notify` is of one user, no two debounce tasks hold
the same one, and one that is still in `pending_offline` is not notified (`Names`).
-/

namespace RustRelay

open Machine

namespace Task

/-- The `Notify` of a debounce task. -/
def holds : Task → Option NotifyId
  | .spawn _ n | .sleeping _ n _ => some n
  | _ => none

/-- The user whose pending `Notify` a task is about to take. -/
def takes : Task → Option UserId
  | .takeOpen x => some x.userId
  | .takeClose u => some u
  | _ => none

def isSleeping : Task → Bool
  | .sleeping _ _ _ => true
  | _ => false

/-- `insert` and `remove` take their own operations, of their own user. -/
def Own : Task → Prop
  | .insert x c => c = .insert x ∨ c = .insertCount
  | .remove u c => (∃ sid, c = .remove u sid) ∨ (∃ sid removed, c = .removeKey u sid removed) ∨
    ∃ sid, c = .removeCount u sid
  | _ => True

theorem eq_sleeping {k : Task} (h : k.isSleeping = true) : ∃ n d, k = .sleeping k.userId n d := by
  cases k with
  | sleeping u n d => exact ⟨n, d, rfl⟩
  | _ => cases h

end Task

namespace Tracker

theorem openEntry_eq (tr : Tracker) (u : UserId) : tr.openEntry u =
    (decide (tr.getStatus u = .offline), { tr with
      state := tr.state.insert u ⟨if tr.getStatus u = .offline then .online else tr.getStatus u,
        (tr.state.lookup u).elim 0 UserPresence.sessionCount + 1⟩ }) := by
  unfold openEntry getStatus
  cases h : tr.state.lookup u with
  | none => rfl
  | some p => by_cases hp : p.status = .offline <;> simp [hp]

theorem writeOffline_eq (tr : Tracker) (u : UserId) :
    ∃ state, tr.writeOffline u = { tr with state } ∧
      ∀ u', state.lookup u' = if u' = u then (tr.state.lookup u).map fun _ => ⟨.offline, 0⟩
        else tr.state.lookup u' := by
  unfold writeOffline
  cases h : tr.state.lookup u with
  | none =>
    refine ⟨tr.state, rfl, fun u' => ?_⟩
    split_ifs with hu
    · rw [hu, h]
      rfl
    · rfl
  | some p => exact ⟨_, rfl, fun u' => DashMap.lookup_insert_ite _ _ _ _⟩

end Tracker

namespace Gateway

variable {offlineDebounce : ℕ} {g g' : Gateway} {u : UserId} {t : ℕ} {k : Task} {o : Option Task}
  {n : NotifyId} {owner : NotifyId → UserId}

/-! ## Notifications -/

/-- The `Notify` has a permit, or a task is about to give it one. -/
def Notified (g : Gateway) (n : NotifyId) : Prop :=
  n ∈ g.presence.notified ∨ ∃ t k, g.tasks.lookup t = some k ∧ k.taken = some n

theorem notified_iff (t : ℕ) : g.Notified n ↔ n ∈ g.presence.notified ∨
    (∃ k, g.tasks.lookup t = some k ∧ k.taken = some n) ∨
    ∃ t' k, t' ≠ t ∧ g.tasks.lookup t' = some k ∧ k.taken = some n := by
  unfold Notified
  constructor
  · rintro (hn | ⟨t', k, ht', hk⟩)
    · exact .inl hn
    · by_cases h : t' = t
      · exact .inr (.inl ⟨k, h ▸ ht', hk⟩)
      · exact .inr (.inr ⟨t', k, h, ht', hk⟩)
  · rintro (hn | ⟨k, ht, hk⟩ | ⟨t', k, -, ht', hk⟩)
    · exact .inl hn
    · exact .inr ⟨t, k, ht, hk⟩
    · exact .inr ⟨t', k, ht', hk⟩

theorem notified_set_iff (htasks : g'.tasks = DashMap.set g.tasks t o) :
    g'.Notified n ↔ n ∈ g'.presence.notified ∨ (∃ k, o = some k ∧ k.taken = some n) ∨
      ∃ t' k, t' ≠ t ∧ g.tasks.lookup t' = some k ∧ k.taken = some n := by
  rw [notified_iff t, htasks]
  simp only [DashMap.lookup_set, if_true]
  refine or_congr Iff.rfl (or_congr Iff.rfl (exists_congr fun t' => exists_congr fun k => ?_))
  exact and_congr_right fun h => by rw [if_neg h]

/-- Setting a task that notifies nothing, before and after, changes no notification. -/
theorem notified_set (htasks : g'.tasks = DashMap.set g.tasks t o)
    (hnotified : g'.presence.notified = g.presence.notified)
    (hold : ∀ k, g.tasks.lookup t = some k → k.taken = none)
    (hnew : ∀ k, o = some k → k.taken = none) : g'.Notified n ↔ g.Notified n := by
  rw [notified_set_iff htasks, notified_iff t, hnotified]
  have hleft : ¬∃ k, o = some k ∧ k.taken = some n := by
    rintro ⟨k, ho, hk⟩
    rw [hnew k ho] at hk
    cases hk
  have hright : ¬∃ k, g.tasks.lookup t = some k ∧ k.taken = some n := by
    rintro ⟨k, ht, hk⟩
    rw [hold k ht] at hk
    cases hk
  rw [iff_false_intro hleft, iff_false_intro hright]

/-- The gateway after task `t` took its next operation. -/
def after (offlineDebounce : ℕ) (g : Gateway) (t : ℕ) (k : Task) : Gateway :=
  { (g.op offlineDebounce k).1 with tasks := DashMap.set g.tasks t (g.op offlineDebounce k).2 }

@[simp] theorem after_tasks : (after offlineDebounce g t k).tasks =
    DashMap.set g.tasks t (g.op offlineDebounce k).2 := rfl

@[simp] theorem after_presence :
    (after offlineDebounce g t k).presence = (g.op offlineDebounce k).1.presence := rfl

@[simp] theorem after_sessions :
    (after offlineDebounce g t k).sessions = (g.op offlineDebounce k).1.sessions := rfl

/-- An operation notifies what it takes out of `pending_offline`, and nothing else. -/
theorem notified_after (ht : g.tasks.lookup t = some k) :
    (after offlineDebounce g t k).Notified n ↔ g.Notified n ∨
      ∃ u, k.takes = some u ∧ g.presence.pendingOffline.lookup u = some n := by
  rw [notified_set_iff (after_tasks (t := t)), notified_iff t]
  simp only [ht, Option.some.injEq, exists_eq_left', after_presence]
  generalize (∃ t' k', t' ≠ t ∧ g.tasks.lookup t' = some k' ∧ k'.taken = some n) = others
  cases k with
  | insert x c => cases hc : (g.sessions.op c).2 <;> simp [op, hc, Task.taken, Task.takes]
  | remove u c => cases hc : (g.sessions.op c).2 <;> simp [op, hc, Task.taken, Task.takes]
  | takeOpen x =>
    cases hp : g.presence.pendingOffline.lookup x.userId with
    | none => simp [op, Tracker.takePending, hp, Task.taken, Task.takes]
    | some m =>
      simp [op, Tracker.takePending, hp, Task.taken, Task.takes]
      tauto
  | takeClose u =>
    cases hp : g.presence.pendingOffline.lookup u with
    | none => simp [op, Tracker.takePending, hp, Task.taken, Task.takes]
    | some m =>
      simp [op, Tracker.takePending, hp, Task.taken, Task.takes]
      tauto
  | notifyOpen x m =>
    simp [op, Tracker.notifyOne, Task.taken, Task.takes, eq_comm, or_left_comm, or_assoc]
  | notifyClose u m =>
    simp [op, Tracker.notifyOne, Task.taken, Task.takes, eq_comm, or_left_comm, or_assoc]
  | entry x => simp [op, Tracker.openEntry_eq, Task.taken, Task.takes]
  | isConnected u => simp [op, Task.taken, Task.takes]
  | writeOffline u =>
    obtain ⟨state, heq, -⟩ := g.presence.writeOffline_eq u
    simp [op, heq, Task.taken, Task.takes]
  | insertPending | spawn | sleeping | removePending | broadcast =>
    simp [op, Tracker.insertPending, Tracker.removePending, Tracker.broadcast, Task.taken,
      Task.takes]

/-! ## Other users -/

/-- What a node has under the key of a user is the same. -/
structure SameEntries (u : UserId) (g g' : Gateway) : Prop where
  sessions : g'.sessions.vec u = g.sessions.vec u
  state : g'.presence.state.lookup u = g.presence.state.lookup u
  pending : g'.presence.pendingOffline.lookup u = g.presence.pendingOffline.lookup u
  updates : g'.presence.updatesOf u = g.presence.updatesOf u

/-- **An operation is on the entries of its own user.** -/
theorem op_frame (hk : k.Own) (hu : u ≠ k.userId) :
    SameEntries u g (g.op offlineDebounce k).1 := by
  cases k with
  | insert x c =>
    refine ⟨?_, rfl, rfl, rfl⟩
    rcases hk with rfl | rfl
    · exact (SessionStore.vec_insert g.sessions x u).trans (if_neg hu)
    · rfl
  | remove v c =>
    refine ⟨?_, rfl, rfl, rfl⟩
    rcases hk with ⟨sid, rfl⟩ | ⟨sid, removed, rfl⟩ | ⟨sid, rfl⟩
    · exact (SessionStore.vec_remove g.sessions v sid u).trans (if_neg hu)
    · exact (SessionStore.vec_removeKey g.sessions v sid removed u).trans (if_neg hu)
    · rfl
  | takeOpen x => exact ⟨rfl, rfl, AList.lookup_erase_ne hu, rfl⟩
  | takeClose v => exact ⟨rfl, rfl, AList.lookup_erase_ne hu, rfl⟩
  | entry x =>
    simp only [op, Tracker.openEntry_eq]
    exact ⟨rfl, AList.lookup_insert_ne hu, rfl, rfl⟩
  | insertPending v => exact ⟨rfl, rfl, AList.lookup_insert_ne hu, rfl⟩
  | removePending v => exact ⟨rfl, rfl, AList.lookup_erase_ne hu, rfl⟩
  | writeOffline v =>
    obtain ⟨state, heq, hstate⟩ := g.presence.writeOffline_eq v
    simp only [op, heq]
    exact ⟨rfl, (hstate u).trans (if_neg hu), rfl, rfl⟩
  | broadcast v status =>
    exact ⟨rfl, rfl, rfl, Tracker.updatesOf_broadcast_of_ne hu g.presence status⟩
  | notifyOpen | notifyClose | isConnected | spawn | sleeping => exact ⟨rfl, rfl, rfl, rfl⟩

/-! ## The names of the notifies -/

/-- Every `Notify` is of one user, and held by at most one task; a pending one is not notified. -/
structure Names (g : Gateway) (owner : NotifyId → UserId) : Prop where
  own : ∀ t k, g.tasks.lookup t = some k → k.Own
  named : ∀ t k n, g.tasks.lookup t = some k → k.holds = some n ∨ k.taken = some n →
    n < g.presence.nextNotify ∧ owner n = k.userId
  unique : ∀ t t' k k' n, g.tasks.lookup t = some k → g.tasks.lookup t' = some k' →
    k.holds = some n → k'.holds = some n → t = t'
  pending : ∀ u n, g.presence.pendingOffline.lookup u = some n →
    n < g.presence.nextNotify ∧ owner n = u ∧ ¬g.Notified n
  notified : ∀ n ∈ g.presence.notified, n < g.presence.nextNotify

theorem Names.lt_of_notified (h : Names g owner) (hn : g.Notified n) :
    n < g.presence.nextNotify := by
  rcases hn with hn | ⟨t, k, ht, hk⟩
  · exact h.notified n hn
  · exact (h.named t k n ht (.inr hk)).1

theorem Names.set (h : Names g owner) (htasks : g'.tasks = DashMap.set g.tasks t o)
    (hnext : g'.presence.nextNotify = g.presence.nextNotify)
    (hown : ∀ k, o = some k → k.Own)
    (hholds : ∀ k n, o = some k → k.holds = some n →
      ∃ k', g.tasks.lookup t = some k' ∧ k'.holds = some n ∧ k'.userId = k.userId)
    (htaken : ∀ k n, o = some k → k.taken = some n →
      n < g.presence.nextNotify ∧ owner n = k.userId)
    (hpending : ∀ u n, g'.presence.pendingOffline.lookup u = some n →
      g.presence.pendingOffline.lookup u = some n ∧ (g'.Notified n → g.Notified n))
    (hnotified : ∀ n ∈ g'.presence.notified, g.Notified n) : Names g' owner := by
  have hcases {t' : ℕ} {k : Task} (ht' : g'.tasks.lookup t' = some k) :
      t' = t ∧ o = some k ∨ t' ≠ t ∧ g.tasks.lookup t' = some k := by
    rw [htasks, DashMap.lookup_set] at ht'
    split_ifs at ht' with heq
    · exact .inl ⟨heq, ht'⟩
    · exact .inr ⟨heq, ht'⟩
  -- whoever holds a name now, held it before
  have hheld {t' : ℕ} {k : Task} {n : NotifyId} (ht' : g'.tasks.lookup t' = some k)
      (hk : k.holds = some n) :
      ∃ k', g.tasks.lookup t' = some k' ∧ k'.holds = some n ∧ k'.userId = k.userId := by
    rcases hcases ht' with ⟨rfl, ho⟩ | ⟨-, hold⟩
    · exact hholds k n ho hk
    · exact ⟨k, hold, hk, rfl⟩
  constructor
  · intro t' k ht'
    rcases hcases ht' with ⟨-, ho⟩ | ⟨-, hold⟩
    · exact hown k ho
    · exact h.own t' k hold
  · intro t' k n ht' hk
    rw [hnext]
    rcases hk with hk | hk
    · obtain ⟨k', hold, hk', huser⟩ := hheld ht' hk
      rw [← huser]
      exact h.named t' k' n hold (.inl hk')
    · rcases hcases ht' with ⟨-, ho⟩ | ⟨-, hold⟩
      · exact htaken k n ho hk
      · exact h.named t' k n hold (.inr hk)
  · intro t₁ t₂ k₁ k₂ n h₁ h₂ hk₁ hk₂
    obtain ⟨k₁', hold₁, hk₁', -⟩ := hheld h₁ hk₁
    obtain ⟨k₂', hold₂, hk₂', -⟩ := hheld h₂ hk₂
    exact h.unique t₁ t₂ k₁' k₂' n hold₁ hold₂ hk₁' hk₂'
  · intro u n hlook
    obtain ⟨hold, himp⟩ := hpending u n hlook
    obtain ⟨hlt, howner, hnot⟩ := h.pending u n hold
    rw [hnext]
    exact ⟨hlt, howner, fun hn => hnot (himp hn)⟩
  · intro n hn
    rw [hnext]
    exact h.lt_of_notified (hnotified n hn)

theorem Names.set_plain (h : Names g owner) (hkeep : ∀ k, g.tasks.lookup t = some k →
    k.taken = none) (ho : ∀ k, o = some k → k.Own ∧ k.holds = none ∧ k.taken = none) :
    Names { g with tasks := DashMap.set g.tasks t o } owner := by
  have hsame (n : NotifyId) :
      Notified { g with tasks := DashMap.set g.tasks t o } n ↔ g.Notified n :=
    notified_set rfl rfl hkeep fun k hk => (ho k hk).2.2
  refine h.set rfl rfl (fun k hk => (ho k hk).1) ?_ ?_ (fun u n hn => ⟨hn, (hsame n).1⟩)
    fun n hn => .inl hn
  · intro k n hk hn
    rw [(ho k hk).2.1] at hn
    cases hn
  · intro k n hk hn
    rw [(ho k hk).2.2] at hn
    cases hn

/-- The next operation of a task is for the same user. It notifies what was taken, and holds what
was held, except that `insertPending` makes a new `Notify`. -/
theorem op_next {k' : Task} (hk : k.Own) (h : (g.op offlineDebounce k).2 = some k') :
    k'.userId = k.userId ∧ k'.Own ∧
      k'.taken = k.takes.bind (fun v => g.presence.pendingOffline.lookup v) ∧
      (k'.holds = k.holds ∨
        ∃ u, k = .insertPending u ∧ k' = .spawn u g.presence.nextNotify) := by
  cases k with
  | insert x c =>
    obtain rfl := Option.some.inj h
    rcases hk with rfl | rfl
    · exact ⟨rfl, .inr rfl, rfl, .inl rfl⟩
    · exact ⟨rfl, trivial, rfl, .inl rfl⟩
  | remove v c =>
    obtain rfl := Option.some.inj h
    rcases hk with ⟨sid, rfl⟩ | ⟨sid, removed, rfl⟩ | ⟨sid, rfl⟩
    · cases hlook : g.sessions.sessions.lookup v with
      | none =>
        simp only [SessionStore.op, hlook]
        exact ⟨rfl, trivial, rfl, .inl rfl⟩
      | some xs =>
        simp only [SessionStore.op, hlook]
        split_ifs
        · exact ⟨rfl, .inr (.inl ⟨sid, _, rfl⟩), rfl, .inl rfl⟩
        · exact ⟨rfl, .inr (.inr ⟨sid, rfl⟩), rfl, .inl rfl⟩
        · exact ⟨rfl, trivial, rfl, .inl rfl⟩
    · simp only [SessionStore.op]
      split_ifs
      · exact ⟨rfl, .inr (.inr ⟨sid, rfl⟩), rfl, .inl rfl⟩
      · exact ⟨rfl, trivial, rfl, .inl rfl⟩
    · exact ⟨rfl, trivial, rfl, .inl rfl⟩
  | takeOpen x =>
    obtain rfl := Option.some.inj h
    simp only [Tracker.takePending, Task.takes, Option.bind_some]
    cases g.presence.pendingOffline.lookup x.userId <;> exact ⟨rfl, trivial, rfl, .inl rfl⟩
  | takeClose v =>
    obtain rfl := Option.some.inj h
    simp only [Tracker.takePending, Task.takes, Option.bind_some]
    cases g.presence.pendingOffline.lookup v <;> exact ⟨rfl, trivial, rfl, .inl rfl⟩
  | entry x =>
    simp only [op, Option.ite_none_right_eq_some, Option.some.injEq] at h
    obtain ⟨-, rfl⟩ := h
    exact ⟨rfl, trivial, rfl, .inl rfl⟩
  | isConnected v =>
    simp only [op, Option.ite_none_left_eq_some, Option.some.injEq] at h
    obtain ⟨-, rfl⟩ := h
    exact ⟨rfl, trivial, rfl, .inl rfl⟩
  | insertPending v =>
    obtain rfl := Option.some.inj h
    exact ⟨rfl, trivial, rfl, .inr ⟨v, rfl, rfl⟩⟩
  | broadcast v status => cases h
  | notifyOpen | notifyClose | spawn | sleeping | writeOffline | removePending =>
    obtain rfl := Option.some.inj h
    exact ⟨rfl, trivial, rfl, .inl rfl⟩

/-- What is pending after an operation was pending before, and was not taken. -/
theorem pending_of_op (hk : ∀ v, k ≠ .insertPending v) {v : UserId}
    (h : (g.op offlineDebounce k).1.presence.pendingOffline.lookup v = some n) :
    g.presence.pendingOffline.lookup v = some n ∧ k.takes ≠ some v := by
  have herase {w : UserId} (hlook : (g.presence.pendingOffline.erase w).lookup v = some n) :
      g.presence.pendingOffline.lookup v = some n ∧ w ≠ v := by
    rw [DashMap.lookup_erase_ite] at hlook
    split_ifs at hlook with hw
    exact ⟨hlook, Ne.symm hw⟩
  cases k with
  | takeOpen x => exact (herase h).imp id fun hne heq => hne (Option.some.inj heq)
  | takeClose w => exact (herase h).imp id fun hne heq => hne (Option.some.inj heq)
  | removePending w => exact ⟨(herase h).1, by simp [Task.takes]⟩
  | insertPending w => exact absurd rfl (hk w)
  | entry x =>
    simp only [op, Tracker.openEntry_eq] at h
    exact ⟨h, by simp [Task.takes]⟩
  | writeOffline w =>
    obtain ⟨state, heq, -⟩ := g.presence.writeOffline_eq w
    simp only [op, heq] at h
    exact ⟨h, by simp [Task.takes]⟩
  | insert | remove | notifyOpen | notifyClose | isConnected | spawn | sleeping | broadcast =>
    exact ⟨h, by simp [Task.takes]⟩

theorem notified_of_op (h : n ∈ (g.op offlineDebounce k).1.presence.notified) :
    n ∈ g.presence.notified ∨ k.taken = some n := by
  cases k with
  | notifyOpen x m => exact (List.mem_cons.1 h).symm.imp id fun heq => congrArg some heq.symm
  | notifyClose v m => exact (List.mem_cons.1 h).symm.imp id fun heq => congrArg some heq.symm
  | entry x =>
    simp only [op, Tracker.openEntry_eq] at h
    exact .inl h
  | writeOffline w =>
    obtain ⟨state, heq, -⟩ := g.presence.writeOffline_eq w
    simp only [op, heq] at h
    exact .inl h
  | insert | remove | takeOpen | takeClose | isConnected | insertPending | spawn | sleeping
  | removePending | broadcast => exact .inl h

theorem nextNotify_op (hk : ∀ v, k ≠ .insertPending v) :
    (g.op offlineDebounce k).1.presence.nextNotify = g.presence.nextNotify := by
  cases k with
  | entry x => simp only [op, Tracker.openEntry_eq]
  | writeOffline w =>
    obtain ⟨state, heq, -⟩ := g.presence.writeOffline_eq w
    simp only [op, heq]
  | insertPending v => exact absurd rfl (hk v)
  | _ => rfl

theorem names_insertPending (h : Names g owner) (ht : g.tasks.lookup t = some (.insertPending u)) :
    Names (after offlineDebounce g t (.insertPending u))
      (Function.update owner g.presence.nextNotify u) := by
  have hold {m : NotifyId} (hm : m < g.presence.nextNotify) :
      Function.update owner g.presence.nextNotify u m = owner m := Function.update_of_ne hm.ne _ _
  have hsame (m : NotifyId) : (after offlineDebounce g t (.insertPending u)).Notified m ↔
      g.Notified m := by
    rw [notified_after ht]
    simp [Task.takes]
  have hcases {t' : ℕ} {k : Task}
      (ht' : (after offlineDebounce g t (.insertPending u)).tasks.lookup t' = some k) :
      t' = t ∧ k = .spawn u g.presence.nextNotify ∨ t' ≠ t ∧ g.tasks.lookup t' = some k := by
    rw [after_tasks, DashMap.lookup_set] at ht'
    split_ifs at ht' with heq
    · exact .inl ⟨heq, (Option.some.inj ht').symm⟩
    · exact .inr ⟨heq, ht'⟩
  have hfresh {t' : ℕ} {k : Task} (ht' : g.tasks.lookup t' = some k) :
      k.holds ≠ some g.presence.nextNotify :=
    fun hk => lt_irrefl _ (h.named t' k _ ht' (.inl hk)).1
  constructor
  · intro t' k ht'
    rcases hcases ht' with ⟨-, rfl⟩ | ⟨-, ht'⟩
    · trivial
    · exact h.own t' k ht'
  · intro t' k m ht' hk
    rcases hcases ht' with ⟨-, rfl⟩ | ⟨-, ht'⟩
    · have hm : g.presence.nextNotify = m := by simpa [Task.holds, Task.taken] using hk
      subst hm
      exact ⟨Nat.lt_succ_self _, Function.update_self _ _ _⟩
    · obtain ⟨hlt, howner⟩ := h.named t' k m ht' hk
      exact ⟨hlt.trans (Nat.lt_succ_self _), (hold hlt).trans howner⟩
  · intro t₁ t₂ k₁ k₂ m h₁ h₂ hk₁ hk₂
    rcases hcases h₁ with ⟨ht₁, rfl⟩ | ⟨-, hold₁⟩ <;>
      rcases hcases h₂ with ⟨ht₂, rfl⟩ | ⟨-, hold₂⟩
    · exact ht₁.trans ht₂.symm
    · obtain rfl := Option.some.inj hk₁
      exact absurd hk₂ (hfresh hold₂)
    · obtain rfl := Option.some.inj hk₂
      exact absurd hk₁ (hfresh hold₁)
    · exact h.unique t₁ t₂ k₁ k₂ m hold₁ hold₂ hk₁ hk₂
  · intro v m hlook
    rw [hsame]
    simp only [after_presence, op, Tracker.insertPending, DashMap.lookup_insert_ite] at hlook
    split_ifs at hlook with hv
    · obtain rfl := Option.some.inj hlook
      exact ⟨Nat.lt_succ_self _, (Function.update_self _ _ _).trans hv.symm,
        fun hn => lt_irrefl _ (h.lt_of_notified hn)⟩
    · obtain ⟨hlt, howner, hnot⟩ := h.pending v m hlook
      exact ⟨hlt.trans (Nat.lt_succ_self _), (hold hlt).trans howner, hnot⟩
  · intro m hm
    exact (h.notified m hm).trans (Nat.lt_succ_self _)

/-- **An operation keeps the names.** -/
theorem names_after (h : Names g owner) (ht : g.tasks.lookup t = some k) :
    ∃ owner', Names (after offlineDebounce g t k) owner' := by
  by_cases hk : ∃ v, k = .insertPending v
  · obtain ⟨v, rfl⟩ := hk
    exact ⟨_, names_insertPending h ht⟩
  have hne : ∀ v, k ≠ .insertPending v := fun v hv => hk ⟨v, hv⟩
  have hown := h.own t k ht
  refine ⟨owner, h.set after_tasks ?_ ?_ ?_ ?_ ?_ ?_⟩
  · exact nextNotify_op hne
  · exact fun k' hk' => (op_next hown hk').2.1
  · intro k' m hk' hm
    obtain ⟨huser, -, -, hholds | ⟨v, rfl, -⟩⟩ := op_next hown hk'
    · exact ⟨k, ht, hholds ▸ hm, huser.symm⟩
    · exact absurd rfl (hne v)
  · intro k' m hk' hm
    obtain ⟨huser, -, htaken, -⟩ := op_next hown hk'
    rw [htaken, Option.bind_eq_some_iff] at hm
    obtain ⟨v, htakes, hpending⟩ := hm
    have hv : v = k.userId := by
      cases k <;> simp_all [Task.takes, Task.userId]
    obtain ⟨hlt, howner, -⟩ := h.pending v m hpending
    exact ⟨hlt, by rw [howner, hv, huser]⟩
  · intro v m hm
    obtain ⟨hold, htakes⟩ := pending_of_op hne hm
    refine ⟨hold, fun hn => ?_⟩
    rcases (notified_after ht).1 hn with hn | ⟨w, hw, hpending⟩
    · exact hn
    · have hvw : v = w := (h.pending v m hold).2.1.symm.trans (h.pending w m hpending).2.1
      exact absurd (hvw ▸ hw) htakes
  · intro m hm
    rcases notified_of_op hm with hm | hm
    · exact .inl hm
    · exact .inr ⟨t, k, ht, hm⟩

theorem names_setStatus (h : Names g owner) (v : UserId) (status : PresenceStatus) :
    Names { g with presence := g.presence.setStatus v status } owner := by
  obtain ⟨hpending, hnotified⟩ := g.presence.setStatus_timers v status
  have hnext := g.presence.nextNotify_setStatus v status
  have hsame (n : NotifyId) : Notified { g with presence := g.presence.setStatus v status } n ↔
      g.Notified n := by
    rw [Notified, Notified, hnotified]
  constructor
  · exact h.own
  · rw [hnext]
    exact h.named
  · exact h.unique
  · simp only [hpending, hnext, hsame]
    exact h.pending
  · simp only [hnotified, hnext]
    exact h.notified

/-- **A step keeps the names.** -/
theorem names_step {a : Action} (h : Names g owner) (hstep : g.step offlineDebounce a = some g') :
    ∃ owner', Names g' owner' := by
  obtain ⟨t, k, ht, hk, rfl⟩ | ⟨v, status, -, rfl⟩ | ⟨d, rfl⟩ | ⟨t, k, -, ht, rfl⟩ |
    ⟨t, v, n, d, o, ht, ho, rfl⟩ := step_cases hstep
  · refine ⟨owner, h.set_plain (fun k' hk' => ?_) fun k' hk' => ?_⟩
    · rw [ht] at hk'
      cases hk'
    · rw [← Option.some.inj hk']
      rcases hk with ⟨x, rfl⟩ | ⟨v, sid, rfl⟩
      · exact ⟨.inl rfl, rfl, rfl⟩
      · exact ⟨.inl ⟨sid, rfl⟩, rfl, rfl⟩
  · exact ⟨owner, names_setStatus h v status⟩
  · exact ⟨owner, h.own, h.named, h.unique, h.pending, h.notified⟩
  · exact names_after h ht
  · refine ⟨owner, h.set_plain (fun k' hk' => ?_) fun k' hk' => ?_⟩
    · rw [← Option.some.inj (ht.symm.trans hk')]
      rfl
    · rcases ho with rfl | rfl
      · cases hk'
      · rw [← Option.some.inj hk']
        exact ⟨trivial, rfl, rfl⟩

end Gateway

end RustRelay
