import RustRelay.Presence.Race

/-!
# Cancelling debounce timers

A debounce timer can be cancelled as long as its `Notify` is in `pending_offline` under its user,
or a call that has removed it from there is about to notify it. `on_all_sessions_closed` puts a
new `Notify` there without looking at what is there by then, and a timer that expires removes
whatever it finds under its user.

**Theorem (`live_timer_stored`).** With no call of the tracker and no expiry in progress for a
user, a debounce task of the user that waits and was not notified is the only one, and its `Notify`
is in `pending_offline`, provided that no step of the run *dropped a live handle*: overwrote or
removed the `Notify` of a task that waits and was not notified. Two closes at once do that
(`two_closers`), and so does a timer that expires while the user opens and closes a session
(`expiry_overtaken`).

The methods of the tracker are called here by the connections of a gateway and, at any time, by
anybody else (`trackerStep`). The invariant is `Owned`.
-/

namespace RustRelay

open Machine

namespace Task

/-- The user and the `Notify` of a debounce task that waits. -/
def timer : Task → Option (UserId × NotifyId)
  | .spawn u n | .sleeping u n _ => some (u, n)
  | _ => none

/-- The `Notify` that the task has removed from `pending_offline` and notifies next. -/
def taken : Task → Option NotifyId
  | .notifyOpen _ n | .notifyClose _ n => some n
  | _ => none

/-- The task is in a method of the tracker, or in the block that follows the sleep. -/
def calling : Task → Bool
  | .takeOpen _ | .notifyOpen _ _ | .entry _ | .takeClose _ | .notifyClose _ _ | .insertPending _
  | .writeOffline _ | .removePending _ | .broadcast _ _ => true
  | .insert _ _ | .remove _ _ | .isConnected _ | .spawn _ _ | .sleeping _ _ _ => false

theorem calling_of_taken {k : Task} {n : NotifyId} (h : k.taken = some n) : k.calling = true := by
  cases k <;> first | rfl | cases h

end Task

namespace Gateway

/-- A step of the gateway, or a task `t` that calls a method of the tracker. -/
inductive TrackerAction
  | gateway (a : Action)
  | onSessionOpen (t : ℕ) (session : Session)
  | onAllSessionsClosed (t : ℕ) (userId : UserId)
  deriving DecidableEq, Repr

def trackerStep (offlineDebounce : ℕ) (g : Gateway) : TrackerAction → Option Gateway
  | .gateway a => g.step offlineDebounce a
  | .onSessionOpen t x =>
    if g.tasks.lookup t = none then
      some { g with tasks := DashMap.set g.tasks t (some (.takeOpen x)) }
    else none
  | .onAllSessionsClosed t u =>
    if g.tasks.lookup t = none then
      some { g with tasks := DashMap.set g.tasks t (some (.takeClose u)) }
    else none

/-- No method of the tracker and no expiry is in progress for the user. -/
def Quiet (g : Gateway) (u : UserId) : Prop :=
  ∀ k ∈ DashMap.values g.tasks, k.userId = u → k.calling = false

/-- Task `t` is a debounce task of the user that waits for `n` and was not notified. -/
def Waits (g : Gateway) (u : UserId) (t : ℕ) (n : NotifyId) : Prop :=
  (g.tasks.lookup t).bind Task.timer = some (u, n) ∧ n ∉ g.presence.notified

/-- The step overwrites or removes the `Notify` of a task that waits and was not notified. -/
def DropsHandle (u : UserId) (g : Gateway) : TrackerAction → Prop
  | .gateway (.run t) =>
    (g.tasks.lookup t = some (.insertPending u) ∨ g.tasks.lookup t = some (.removePending u)) ∧
      ∃ n ∈ g.presence.pendingOffline.lookup u, ∃ t' ∈ g.tasks.keys, g.Waits u t' n
  | _ => False

instance (g : Gateway) (u : UserId) : Decidable (g.Quiet u) :=
  inferInstanceAs (Decidable (∀ k ∈ DashMap.values g.tasks, k.userId = u → k.calling = false))

instance (g : Gateway) (u : UserId) (t : ℕ) (n : NotifyId) : Decidable (g.Waits u t n) :=
  inferInstanceAs (Decidable (_ ∧ _))

instance (g : Gateway) (u : UserId) : (a : TrackerAction) → Decidable (g.DropsHandle u a)
  | .gateway (.run _) =>
    inferInstanceAs (Decidable (_ ∧ ∃ n ∈ g.presence.pendingOffline.lookup u,
      ∃ t' ∈ g.tasks.keys, g.Waits u t' n))
  | .gateway (.connect _ _) | .gateway (.close _ _ _) | .gateway (.setStatus _ _)
  | .gateway (.tick _) | .gateway (.expire _) | .gateway (.cancel _) | .onSessionOpen _ _
  | .onAllSessionsClosed _ _ => .isFalse id

variable {offlineDebounce : ℕ} {g g' : Gateway} {u v : UserId} {t t' : ℕ} {n : NotifyId}

theorem waits_iff : g.Waits u t n ↔
    (∃ k, g.tasks.lookup t = some k ∧ k.timer = some (u, n)) ∧ n ∉ g.presence.notified := by
  rw [Waits, Option.bind_eq_some_iff]

/-! ## What one operation does to the timers -/

theorem openEntry_timers (tr : Tracker) (userId : UserId) :
    (tr.openEntry userId).2.pendingOffline = tr.pendingOffline ∧
    (tr.openEntry userId).2.notified = tr.notified ∧
    (tr.openEntry userId).2.nextNotify = tr.nextNotify := by
  unfold Tracker.openEntry
  cases tr.state.lookup userId with
  | none => exact ⟨rfl, rfl, rfl⟩
  | some p => dsimp only; split_ifs <;> exact ⟨rfl, rfl, rfl⟩

theorem writeOffline_timers (tr : Tracker) (userId : UserId) :
    (tr.writeOffline userId).pendingOffline = tr.pendingOffline ∧
    (tr.writeOffline userId).notified = tr.notified ∧
    (tr.writeOffline userId).nextNotify = tr.nextNotify := by
  unfold Tracker.writeOffline
  cases tr.state.lookup userId <;> exact ⟨rfl, rfl, rfl⟩

theorem op_nextNotify (k : Task) :
    g.presence.nextNotify ≤ (g.op offlineDebounce k).1.presence.nextNotify := by
  cases k with
  | entry x => exact (openEntry_timers g.presence x.userId).2.2.ge
  | writeOffline u => exact (writeOffline_timers g.presence u).2.2.ge
  | insertPending u => exact Nat.le_succ _
  | _ => exact le_refl _

theorem op_notified (k : Task) (h : n ∈ g.presence.notified) :
    n ∈ (g.op offlineDebounce k).1.presence.notified := by
  cases k with
  | entry x =>
    simp only [op]
    rw [(openEntry_timers g.presence x.userId).2.1]
    exact h
  | writeOffline u =>
    simp only [op]
    rw [(writeOffline_timers g.presence u).2.1]
    exact h
  | notifyOpen x m => exact List.mem_cons_of_mem m h
  | notifyClose u m => exact List.mem_cons_of_mem m h
  | _ => exact h

theorem op_taken {k : Task} (h : k.taken = some n) :
    n ∈ (g.op offlineDebounce k).1.presence.notified := by
  cases k with
  | notifyOpen x m => exact Option.some.inj h ▸ List.mem_cons_self
  | notifyClose u m => exact Option.some.inj h ▸ List.mem_cons_self
  | _ => cases h

/-- A task that waits for a `Notify` did so before, or the `Notify` is new and stored. -/
theorem op_timer {k k' : Task} (h : (g.op offlineDebounce k).2 = some k')
    (htimer : k'.timer = some (v, n)) :
    k.timer = some (v, n) ∨ (n = g.presence.nextNotify ∧
      n < (g.op offlineDebounce k).1.presence.nextNotify ∧
      (g.op offlineDebounce k).1.presence.pendingOffline.lookup v = some n) := by
  cases k with
  | insertPending u =>
    obtain rfl := Option.some.inj h
    obtain ⟨rfl, rfl⟩ := Prod.mk.inj (Option.some.inj htimer)
    exact .inr ⟨rfl, Nat.lt_succ_self _, AList.lookup_insert _⟩
  | spawn u m =>
    obtain rfl := Option.some.inj h
    exact .inl htimer
  | sleeping u m deadline =>
    obtain rfl := Option.some.inj h
    exact .inl htimer
  | insert x c =>
    obtain rfl := Option.some.inj h
    cases hnext : (g.sessions.op c).2 <;> rw [hnext] at htimer <;> cases htimer
  | remove u c =>
    obtain rfl := Option.some.inj h
    cases hnext : (g.sessions.op c).2 <;> rw [hnext] at htimer <;> cases htimer
  | takeOpen x =>
    obtain rfl := Option.some.inj h
    cases htake : (g.presence.takePending x.userId).1 <;> rw [htake] at htimer <;> cases htimer
  | takeClose u =>
    obtain rfl := Option.some.inj h
    cases htake : (g.presence.takePending u).1 <;> rw [htake] at htimer <;> cases htimer
  | entry x =>
    simp only [op, Option.ite_none_right_eq_some, Option.some.injEq] at h
    obtain ⟨-, rfl⟩ := h
    cases htimer
  | isConnected u =>
    simp only [op, Option.ite_none_left_eq_some, Option.some.injEq] at h
    obtain ⟨-, rfl⟩ := h
    cases htimer
  | broadcast u status => cases h
  | notifyOpen | notifyClose | writeOffline | removePending =>
    obtain rfl := Option.some.inj h
    cases htimer

/-- What is stored for the user stays stored, unless it is taken, overwritten or removed. -/
theorem op_pending {k : Task} (hp : g.presence.pendingOffline.lookup u = some n)
    (hinsert : k ≠ .insertPending u) (hremove : k ≠ .removePending u) :
    (g.op offlineDebounce k).1.presence.pendingOffline.lookup u = some n ∨
      ∃ k', (g.op offlineDebounce k).2 = some k' ∧ k'.userId = u ∧ k'.taken = some n := by
  have herase (v : UserId) : (g.presence.pendingOffline.erase v).lookup u = some n ∨ u = v := by
    by_cases hv : u = v
    · exact .inr hv
    · exact .inl (by rw [AList.lookup_erase_ne hv, hp])
  cases k with
  | takeOpen x =>
    refine (herase x.userId).imp_right ?_
    rintro rfl
    exact ⟨.notifyOpen x n, by simp only [op, Tracker.takePending, hp, Option.elim_some], rfl, rfl⟩
  | takeClose v =>
    refine (herase v).imp_right ?_
    rintro rfl
    exact ⟨.notifyClose u n, by simp only [op, Tracker.takePending, hp, Option.elim_some], rfl, rfl⟩
  | insertPending v =>
    left
    have hv : u ≠ v := by
      rintro rfl
      exact hinsert rfl
    exact (AList.lookup_insert_ne hv).trans hp
  | removePending v =>
    refine (herase v).imp_right ?_
    rintro rfl
    exact absurd rfl hremove
  | entry x =>
    left
    simp only [op]
    rw [(openEntry_timers g.presence x.userId).1, hp]
  | writeOffline v =>
    left
    simp only [op]
    rw [(writeOffline_timers g.presence v).1, hp]
  | _ => exact .inl hp

/-! ## What one step does to the timers -/

theorem trackerStep_cases {a : TrackerAction} (h : trackerStep offlineDebounce g a = some g') :
    (∃ t o, (∀ k, o = some k → k.timer = none) ∧
      (∀ k, g.tasks.lookup t = some k → k.taken = none) ∧
      g' = { g with tasks := DashMap.set g.tasks t o }) ∨
    (g'.tasks = g.tasks ∧ g'.presence.pendingOffline = g.presence.pendingOffline ∧
      g'.presence.notified = g.presence.notified ∧
      g'.presence.nextNotify = g.presence.nextNotify) ∨
    ∃ t k, a = .gateway (.run t) ∧ g.tasks.lookup t = some k ∧
      g' = { (g.op offlineDebounce k).1 with
        tasks := DashMap.set g.tasks t (g.op offlineDebounce k).2 } := by
  have hstart {t : ℕ} {k : Task} (hk : k.timer = none) (hnew : g.tasks.lookup t = none)
      (hg : { g with tasks := DashMap.set g.tasks t (some k) } = g') :
      ∃ t o, (∀ k, o = some k → k.timer = none) ∧
        (∀ k, g.tasks.lookup t = some k → k.taken = none) ∧
        g' = { g with tasks := DashMap.set g.tasks t o } := by
    refine ⟨t, some k, ?_, ?_, hg.symm⟩
    · intro k' hk'
      rw [← Option.some.inj hk', hk]
    · intro k' hk'
      rw [hnew] at hk'
      cases hk'
  cases a with
  | onSessionOpen t x =>
    simp only [trackerStep, Option.ite_none_right_eq_some, Option.some.injEq] at h
    exact .inl (hstart rfl h.1 h.2)
  | onAllSessionsClosed t v =>
    simp only [trackerStep, Option.ite_none_right_eq_some, Option.some.injEq] at h
    exact .inl (hstart rfl h.1 h.2)
  | gateway a =>
    have hstep : g.step offlineDebounce a = some g' := h
    obtain ⟨t, k, hnew, hk, rfl⟩ | ⟨v, status, -, rfl⟩ | ⟨d, rfl⟩ | ⟨t, k, rfl, ht, rfl⟩ |
      ⟨t, v, m, d, o, ht, ho, rfl⟩ := step_cases hstep
    · refine .inl (hstart ?_ hnew rfl)
      rcases hk with ⟨x, rfl⟩ | ⟨v, sid, rfl⟩ <;> rfl
    · obtain ⟨hpending, hnotified⟩ := g.presence.setStatus_timers v status
      exact .inr (.inl ⟨rfl, hpending, hnotified, g.presence.nextNotify_setStatus v status⟩)
    · exact .inr (.inl ⟨rfl, rfl, rfl, rfl⟩)
    · exact .inr (.inr ⟨t, k, rfl, ht, rfl⟩)
    · -- The sleep is over, or was ended.
      refine .inl ⟨t, o, ?_, ?_, rfl⟩
      · intro k hk
        rcases ho with rfl | rfl
        · cases hk
        · rw [← Option.some.inj hk]
          rfl
      · intro k hk
        rw [← Option.some.inj (ht.symm.trans hk)]
        rfl

/-! ## The invariant -/

/-- Debounce tasks wait for different notifies, and one that was not notified has its `Notify`
stored, or a call for the user has taken it and is about to notify it. -/
structure Owned (u : UserId) (g : Gateway) : Prop where
  lt : ∀ t k v n, g.tasks.lookup t = some k → k.timer = some (v, n) → n < g.presence.nextNotify
  inj : ∀ t t' k k' v v' n, g.tasks.lookup t = some k → g.tasks.lookup t' = some k' →
    k.timer = some (v, n) → k'.timer = some (v', n) → t = t'
  owned : ∀ t n, g.Waits u t n → g.presence.pendingOffline.lookup u = some n ∨
    ∃ t' k, g.tasks.lookup t' = some k ∧ k.userId = u ∧ k.taken = some n

theorem Owned.set (h : g.Owned u) {o : Option Task} (ho : ∀ k, o = some k → k.timer = none)
    (hold : ∀ k, g.tasks.lookup t = some k → k.taken = none) :
    ({ g with tasks := DashMap.set g.tasks t o } : Gateway).Owned u := by
  have htimer (t' : ℕ) (k : Task) (v : UserId) (n : NotifyId)
      (hk : (DashMap.set g.tasks t o).lookup t' = some k) (htimer : k.timer = some (v, n)) :
      g.tasks.lookup t' = some k := by
    rw [DashMap.lookup_set] at hk
    split_ifs at hk with ht
    · rw [ho k hk] at htimer
      cases htimer
    · exact hk
  refine ⟨?_, ?_, ?_⟩
  · intro t' k v n hk hn
    exact h.lt t' k v n (htimer t' k v n hk hn) hn
  · intro t₁ t₂ k₁ k₂ v₁ v₂ n hk₁ hk₂ hn₁ hn₂
    exact h.inj t₁ t₂ k₁ k₂ v₁ v₂ n (htimer t₁ k₁ v₁ n hk₁ hn₁) (htimer t₂ k₂ v₂ n hk₂ hn₂) hn₁ hn₂
  · intro t' n hwaits
    obtain ⟨⟨k, hk, hn⟩, hnot⟩ := waits_iff.1 hwaits
    refine (h.owned t' n (waits_iff.2 ⟨⟨k, htimer t' k u n hk hn, hn⟩, hnot⟩)).imp_right ?_
    intro htaken
    obtain ⟨t₂, k₂, hk₂, huser, htaken⟩ := htaken
    refine ⟨t₂, k₂, ?_, huser, htaken⟩
    have hne : t₂ ≠ t := by
      rintro rfl
      rw [hold k₂ hk₂] at htaken
      cases htaken
    rw [DashMap.lookup_set, if_neg hne, hk₂]

/-- One operation that drops no live handle. -/
theorem Owned.run (h : g.Owned u) {k : Task} (ht : g.tasks.lookup t = some k)
    (hdrop : ¬g.DropsHandle u (.gateway (.run t))) :
    ({ (g.op offlineDebounce k).1 with
      tasks := DashMap.set g.tasks t (g.op offlineDebounce k).2 } : Gateway).Owned u := by
  have hnext : g.presence.nextNotify ≤ (g.op offlineDebounce k).1.presence.nextNotify :=
    op_nextNotify k
  -- A timer is an old one, or the new one that is stored.
  have htimer (t' : ℕ) (k' : Task) (v : UserId) (n : NotifyId)
      (hk' : (DashMap.set g.tasks t (g.op offlineDebounce k).2).lookup t' = some k')
      (hn : k'.timer = some (v, n)) :
      (∃ k₀, g.tasks.lookup t' = some k₀ ∧ k₀.timer = some (v, n)) ∨
      (t' = t ∧ n = g.presence.nextNotify ∧ n < (g.op offlineDebounce k).1.presence.nextNotify ∧
        (g.op offlineDebounce k).1.presence.pendingOffline.lookup v = some n) := by
    rw [DashMap.lookup_set] at hk'
    split_ifs at hk' with heq
    · subst heq
      exact (op_timer hk' hn).imp (fun hold => ⟨k, ht, hold⟩) fun hnew => ⟨rfl, hnew⟩
    · exact .inl ⟨k', hk', hn⟩
  refine ⟨?_, ?_, ?_⟩
  · intro t' k' v n hk' hn
    rcases htimer t' k' v n hk' hn with ⟨k₀, hk₀, hn⟩ | ⟨-, -, hlt, -⟩
    · exact (h.lt t' k₀ v n hk₀ hn).trans_le hnext
    · exact hlt
  · intro t₁ t₂ k₁ k₂ v₁ v₂ n hk₁ hk₂ hn₁ hn₂
    rcases htimer t₁ k₁ v₁ n hk₁ hn₁ with ⟨k₁, hk₁, hn₁⟩ | ⟨ht₁, hnew₁, -, -⟩
    · rcases htimer t₂ k₂ v₂ n hk₂ hn₂ with ⟨k₂, hk₂, hn₂⟩ | ⟨-, hnew₂, -, -⟩
      · exact h.inj t₁ t₂ k₁ k₂ v₁ v₂ n hk₁ hk₂ hn₁ hn₂
      · exact absurd hnew₂ (h.lt t₁ k₁ v₁ n hk₁ hn₁).ne
    · rcases htimer t₂ k₂ v₂ n hk₂ hn₂ with ⟨k₂, hk₂, hn₂⟩ | ⟨ht₂, -, -, -⟩
      · exact absurd hnew₁ (h.lt t₂ k₂ v₂ n hk₂ hn₂).ne
      · exact ht₁.trans ht₂.symm
  · intro t' n hwaits
    obtain ⟨⟨k', hk', hn⟩, hnot⟩ := waits_iff.1 hwaits
    rcases htimer t' k' u n hk' hn with ⟨k₀, hk₀, hn⟩ | ⟨-, -, -, hstored⟩
    · have hold : g.Waits u t' n :=
        waits_iff.2 ⟨⟨k₀, hk₀, hn⟩, fun hmem => hnot (op_notified k hmem)⟩
      rcases h.owned t' n hold with hstored | ⟨t₂, k₂, hk₂, huser, htaken⟩
      · have hkey : t' ∈ g.tasks.keys := DashMap.mem_keys_iff.2 ⟨k₀, hk₀⟩
        have hinsert : k ≠ .insertPending u := by
          rintro rfl
          exact hdrop ⟨.inl ht, n, hstored, t', hkey, hold⟩
        have hremove : k ≠ .removePending u := by
          rintro rfl
          exact hdrop ⟨.inr ht, n, hstored, t', hkey, hold⟩
        refine (op_pending hstored hinsert hremove).imp_right ?_
        intro htaken
        obtain ⟨k₂, hk₂, htaken⟩ := htaken
        exact ⟨t, k₂, by rw [DashMap.lookup_set, if_pos rfl, hk₂], htaken⟩
      · -- The call that has taken it has not moved, or the timer would be notified.
        have hne : t₂ ≠ t := by
          rintro rfl
          obtain rfl := Option.some.inj (hk₂.symm.trans ht)
          exact hnot (op_taken htaken)
        exact .inr ⟨t₂, k₂, by rw [DashMap.lookup_set, if_neg hne, hk₂], huser, htaken⟩
    · exact .inl hstored

theorem trackerStep_owned {a : TrackerAction} (h : g.Owned u) (hdrop : ¬g.DropsHandle u a)
    (hstep : trackerStep offlineDebounce g a = some g') : g'.Owned u := by
  obtain ⟨t, o, ho, hold, rfl⟩ | ⟨htasks, hpending, hnotified, hnext⟩ | ⟨t, k, rfl, ht, rfl⟩ :=
    trackerStep_cases hstep
  · exact h.set ho hold
  · refine ⟨?_, ?_, ?_⟩
    · rw [htasks, hnext]
      exact h.lt
    · rw [htasks]
      exact h.inj
    · simp only [Waits, htasks, hpending, hnotified]
      exact h.owned
  · exact h.run ht hdrop

theorem init_owned : init.Owned u where
  lt _ _ _ _ hk := nomatch hk
  inj _ _ _ _ _ _ _ hk := nomatch hk
  owned _ _ hwaits := nomatch hwaits.1

/-- **Live timers can be cancelled**, in every run that drops no live handle. -/
theorem live_timer_stored (as : List TrackerAction)
    (hrun : exec (trackerStep offlineDebounce) init as = some g)
    (hok : Along (trackerStep offlineDebounce) (fun g a => ¬g.DropsHandle u a) init as)
    (hquiet : g.Quiet u) (hwaits : g.Waits u t n) :
    g.presence.pendingOffline.lookup u = some n ∧ ∀ t' n', g.Waits u t' n' → t' = t := by
  have howned : g.Owned u := exec_invariant_along
    (fun _ _ _ h hdrop hstep => trackerStep_owned h hdrop hstep) init_owned hok hrun
  have hstored (t : ℕ) (n : NotifyId) (hwaits : g.Waits u t n) :
      g.presence.pendingOffline.lookup u = some n := by
    apply (howned.owned t n hwaits).resolve_right
    intro htaken
    obtain ⟨t', k, hk, huser, htaken⟩ := htaken
    have hcalling := hquiet k (DashMap.mem_values_iff.2 ⟨t', hk⟩) huser
    rw [Task.calling_of_taken htaken] at hcalling
    cases hcalling
  refine ⟨hstored t n hwaits, ?_⟩
  intro t' n' hwaits'
  obtain rfl := Option.some.inj ((hstored t n hwaits).symm.trans (hstored t' n' hwaits'))
  obtain ⟨⟨k, hk, hn⟩, -⟩ := waits_iff.1 hwaits
  obtain ⟨⟨k', hk', hn'⟩, -⟩ := waits_iff.1 hwaits'
  exact howned.inj t' t k' k u u n hk' hk hn' hn

/-- The user opens a session and closes it. -/
def closedRun : List Action :=
  [.connect 0 ⟨1, 7⟩] ++ List.replicate 5 (.run 0) ++ [.close 1 7 1] ++ List.replicate 7 (.run 1)

theorem live_timer_stored_closed :
    ∃ g, exec (trackerStep 5) init (closedRun.map .gateway) = some g ∧ g.Waits 7 1 0 ∧
      g.presence.pendingOffline.lookup 7 = some 0 ∧ ∀ t' n', g.Waits 7 t' n' → t' = 1 :=
  ⟨_, rfl, by decide,
    live_timer_stored (closedRun.map .gateway) rfl (by decide) (by decide) (by decide)⟩

/-- Two sessions of a user are closed at once: both connections find the user unregistered, and
both remove from `pending_offline` before they insert. -/
def twoClosersRun : List Action :=
  [.connect 0 ⟨1, 7⟩] ++ List.replicate 5 (Action.run 0) ++ [.connect 1 ⟨2, 7⟩] ++
    List.replicate 4 (Action.run 1) ++ [.close 2 7 1, .close 3 7 2] ++
    List.replicate 2 (Action.run 2) ++ List.replicate 5 (Action.run 3) ++
    List.replicate 4 (Action.run 2) ++ List.replicate 2 (Action.run 3)

/-- The `Notify` of the first is lost. -/
theorem two_closers :
    ∃ g, exec (trackerStep 5) init (twoClosersRun.map .gateway) = some g ∧ g.Quiet 7 ∧
      g.Waits 7 2 0 ∧ g.Waits 7 3 1 ∧ g.presence.pendingOffline.lookup 7 = some 1 := by
  refine ⟨_, rfl, ?_, ?_, ?_, ?_⟩ <;> decide

/-- A timer expires, and before it comes to `pending_offline` the user opens a session and closes
it again. -/
def expiryOvertakenRun : List Action :=
  [.connect 0 ⟨1, 7⟩] ++ List.replicate 5 (Action.run 0) ++ [.close 1 7 1] ++
    List.replicate 7 (Action.run 1) ++ [.tick 5, .expire 1, .connect 2 ⟨2, 7⟩] ++
    List.replicate 5 (Action.run 2) ++ [.close 3 7 2] ++ List.replicate 7 (Action.run 3) ++
    List.replicate 3 (Action.run 1)

/-- It removes the `Notify` of the new timer. -/
theorem expiry_overtaken :
    ∃ g, exec (trackerStep 5) init (expiryOvertakenRun.map .gateway) = some g ∧ g.Quiet 7 ∧
      g.Waits 7 3 1 ∧ g.presence.pendingOffline.lookup 7 = none := by
  refine ⟨_, rfl, ?_, ?_, ?_⟩ <;> decide

end Gateway

end RustRelay
