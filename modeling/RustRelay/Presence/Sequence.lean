import RustRelay.Presence.Operations
import RustRelay.Presence.UserView

/-!
# What a sequence still has to do

A sequence of operations is one step of `UserView`. Half way through, the node holds of the user
what the operations so far have made (`Sees`), and the rest of the sequence is a function of that
(`finish`).

**Theorem (`own_run`).** Every operation is the next part of its sequence: what the rest makes of
the node before it is what the rest after it makes of the node after it. This needs that no other
sequence of the user is in progress; its debounce tasks may wait.
-/

namespace RustRelay

namespace Gateway

variable {offlineDebounce : ℕ} {g g' : Gateway} {u : UserId} {t : ℕ} {k : Task} {o : Option Task}
  {n : NotifyId} {owner : NotifyId → UserId}

/-! ## What a node holds of a user -/

/-- The node holds of `u` what `v` says; a debounce task goes by the number of its task. -/
structure Sees (u : UserId) (g : Gateway) (v : UserView) : Prop where
  sessions : v.sessions = g.sessions.vec u
  presence : v.presence = g.presence.state.lookup u
  broadcasts : v.broadcasts = (g.presence.updatesOf u).map Prod.snd
  waiting : ∀ t, t ∈ v.waiting ↔ ∃ n d, g.tasks.lookup t = some (.sleeping u n d)
  notified : ∀ t, t ∈ v.notified ↔
    ∃ n d, g.tasks.lookup t = some (.sleeping u n d) ∧ g.Notified n
  pending : ∀ t, v.pending = some t ↔ ∃ k n, g.tasks.lookup t = some k ∧ k.userId = u ∧
    k.holds = some n ∧ g.presence.pendingOffline.lookup u = some n

variable {v w : UserView}

theorem Sees.getStatus (h : Sees u g w) : w.getStatus = g.presence.getStatus u := by
  rw [UserView.getStatus, h.presence, Tracker.getStatus]

/-- After a step that neither wakes a debounce task of `u` nor notifies one. -/
theorem Sees.update {w' : UserView} (h : Sees u g w)
    (htasks : ∀ t n d, g'.tasks.lookup t = some (.sleeping u n d) ↔
      g.tasks.lookup t = some (.sleeping u n d))
    (hnotified : ∀ t n d, g.tasks.lookup t = some (.sleeping u n d) →
      (g'.Notified n ↔ g.Notified n))
    (hsessions : w'.sessions = g'.sessions.vec u)
    (hpresence : w'.presence = g'.presence.state.lookup u)
    (hbroadcasts : w'.broadcasts = (g'.presence.updatesOf u).map Prod.snd)
    (hpending : ∀ t, w'.pending = some t ↔ ∃ k n, g'.tasks.lookup t = some k ∧ k.userId = u ∧
      k.holds = some n ∧ g'.presence.pendingOffline.lookup u = some n)
    (hsame : w'.waiting = w.waiting ∧ w'.notified = w.notified) : Sees u g' w' where
  sessions := hsessions
  presence := hpresence
  broadcasts := hbroadcasts
  pending := hpending
  waiting t := by simp only [hsame.1, h.waiting, htasks]
  notified t := by
    simp only [hsame.2, h.notified, htasks]
    exact exists_congr fun n => exists_congr fun d =>
      and_congr_right fun ht => (hnotified t n d ht).symm

/-- The holders of the pending `Notify` after a task was set that holds nothing. -/
theorem Sees.holders (h : Sees u g w) (htasks : g'.tasks = DashMap.set g.tasks t o)
    (hold : ∀ k, g.tasks.lookup t = some k → k.userId = u → k.holds = none)
    (hnew : ∀ k, o = some k → k.userId = u → k.holds = none)
    (hpending : g'.presence.pendingOffline.lookup u = g.presence.pendingOffline.lookup u) (t' : ℕ) :
    w.pending = some t' ↔ ∃ k n, g'.tasks.lookup t' = some k ∧ k.userId = u ∧
      k.holds = some n ∧ g'.presence.pendingOffline.lookup u = some n := by
  rw [h.pending, htasks, hpending]
  simp only [DashMap.lookup_set]
  refine exists_congr fun k => exists_congr fun n => ?_
  split_ifs with heq
  · subst heq
    constructor
    · rintro ⟨ht, hu, hk, -⟩
      rw [hold k ht hu] at hk
      cases hk
    · rintro ⟨ho, hu, hk, -⟩
      rw [hnew k ho hu] at hk
      cases hk
  · exact Iff.rfl

theorem sleeping_set_iff (htasks : g'.tasks = DashMap.set g.tasks t o)
    (hold : ∀ k, g.tasks.lookup t = some k → k.userId = u → k.isSleeping = false)
    (hnew : ∀ k, o = some k → k.userId = u → k.isSleeping = false) (t' : ℕ) (n : NotifyId)
    (d : ℕ) : g'.tasks.lookup t' = some (.sleeping u n d) ↔
      g.tasks.lookup t' = some (.sleeping u n d) := by
  rw [htasks, DashMap.lookup_set]
  split_ifs with heq
  · subst heq
    constructor
    · intro ho
      exact absurd (hnew _ ho rfl) (by simp [Task.isSleeping])
    · intro ht
      exact absurd (hold _ ht rfl) (by simp [Task.isSleeping])
  · exact Iff.rfl

/-! ## What a sequence still has to do -/

/-- The rest of the sequence of task `t`, in one go. -/
def finish (t : ℕ) : Task → UserView → UserView
  | .insert _ (.insert x), v => v.openSession x
  | .insert _ _, v | .takeOpen _, v => v.cancelPending.entry
  | .notifyOpen _ _, v | .entry _, v => v.entry
  | .remove _ (.remove _ sid), v => (v.retain sid).afterRemove t
  | .remove _ (.removeKey _ _ _), v => { v with sessions := [] }.afterRemove t
  | .remove _ _, v | .isConnected _, v => v.afterRemove t
  | .takeClose _, v => v.cancelPending.arm t
  | .notifyClose _ _, v | .insertPending _, v => v.arm t
  | .spawn _ _, v => { v with waiting := insert t v.waiting }
  | .sleeping _ _ _, v => v
  | .writeOffline _, v => v.debounced
  | .removePending _, v => v.removePending.broadcast .offline
  | .broadcast _ status, v => v.broadcast status

/-- The same for what task `t` is at, if it is at an operation of `u`. -/
def finishOf (u : UserId) (t : ℕ) (o : Option Task) (v : UserView) : UserView :=
  match o with
  | none => v
  | some k => if k.userId = u then finish t k v else v

theorem finishOf_some (hk : k.userId = u) : finishOf u t (some k) v = finish t k v := if_pos hk

theorem finishOf_of_ne (h : ∀ k, o = some k → k.userId ≠ u) : finishOf u t o v = v := by
  cases o with
  | none => rfl
  | some k => exact if_neg (h k rfl)

theorem finish_of_isSleeping (h : k.isSleeping = true) : finish t k v = v := by
  obtain ⟨n, d, hk⟩ := Task.eq_sleeping h
  rw [hk, finish]

/-! ## Operations of the user -/

theorem isSleeping_of_holds (h : k.holds = none) : k.isSleeping = false := by
  cases k with
  | sleeping => cases h
  | _ => rfl

theorem Sees.plain {w' : UserView} (h : Sees u g w) (ht : g.tasks.lookup t = some k)
    (hholds : k.holds = none) (htakes : k.takes = none)
    (hnext : ∀ k', (g.op offlineDebounce k).2 = some k' → k'.holds = none)
    (hpending : (g.op offlineDebounce k).1.presence.pendingOffline.lookup u =
      g.presence.pendingOffline.lookup u)
    (hsessions : w'.sessions = (g.op offlineDebounce k).1.sessions.vec u)
    (hpresence : w'.presence = (g.op offlineDebounce k).1.presence.state.lookup u)
    (hbroadcasts : w'.broadcasts =
      ((g.op offlineDebounce k).1.presence.updatesOf u).map Prod.snd)
    (hrest : w'.pending = w.pending ∧ w'.waiting = w.waiting ∧ w'.notified = w.notified) :
    Sees u (after offlineDebounce g t k) w' := by
  have hold : ∀ k', g.tasks.lookup t = some k' → k'.holds = none := fun k' hk' => by
    rw [← Option.some.inj (ht.symm.trans hk'), hholds]
  refine h.update (sleeping_set_iff after_tasks (fun k' hk' _ => isSleeping_of_holds (hold k' hk'))
    fun k' hk' _ => isSleeping_of_holds (hnext k' hk')) (fun t' n d _ => ?_) hsessions hpresence
    hbroadcasts (fun t' => ?_) hrest.2
  · rw [notified_after ht, htakes]
    simp
  · rw [hrest.1]
    exact h.holders after_tasks (fun k' hk' _ => hold k' hk') (fun k' hk' _ => hnext k' hk')
      hpending t'

theorem Sees.take (h : Sees u g w) (ht : g.tasks.lookup t = some k)
    (hholds : k.holds = none) (htakes : k.takes = some u)
    (honly : ∀ t' k', t' ≠ t → g.tasks.lookup t' = some k' → k'.userId = u →
      k'.isSleeping = true)
    (hnext : ∀ k', (g.op offlineDebounce k).2 = some k' → k'.holds = none)
    (hop : (g.op offlineDebounce k).1 =
      { g with presence := (g.presence.takePending u).2 }) :
    Sees u (after offlineDebounce g t k) w.cancelPending := by
  have hold : ∀ k', g.tasks.lookup t = some k' → k'.holds = none := fun k' hk' => by
    rw [← Option.some.inj (ht.symm.trans hk'), hholds]
  have htasks : (after offlineDebounce g t k).tasks = _ := after_tasks
  have hsleep := sleeping_set_iff htasks
    (fun k' hk' (_ : k'.userId = u) => isSleeping_of_holds (hold k' hk'))
    fun k' hk' _ => isSleeping_of_holds (hnext k' hk')
  constructor
  · rw [after_sessions, hop]
    exact h.sessions
  · rw [after_presence, hop]
    exact h.presence
  · rw [after_presence, hop]
    exact h.broadcasts
  · exact fun t' => (h.waiting t').trans <| exists_congr fun n => exists_congr fun d =>
      (hsleep t' n d).symm
  · intro t'
    have htaken (n : NotifyId) : (after offlineDebounce g t k).Notified n ↔ g.Notified n ∨
        g.presence.pendingOffline.lookup u = some n := by
      rw [notified_after ht, htakes]
      simp
    simp only [htaken, hsleep]
    -- the task that is pending sleeps, and is now notified
    have hpending : w.pending = some t' ↔ ∃ n d, g.tasks.lookup t' = some (.sleeping u n d) ∧
        g.presence.pendingOffline.lookup u = some n := by
      rw [h.pending]
      constructor
      · rintro ⟨k', n, ht', hu, hk', hlook⟩
        have hne : t' ≠ t := by
          rintro rfl
          rw [hold k' ht'] at hk'
          cases hk'
        obtain ⟨m, d, heq⟩ := Task.eq_sleeping (honly t' k' hne ht' hu)
        rw [heq] at hk'
        obtain rfl := Option.some.inj hk'
        exact ⟨m, d, by rw [ht', heq, hu], hlook⟩
      · rintro ⟨n, d, ht', hlook⟩
        exact ⟨_, n, ht', rfl, rfl, hlook⟩
    have hcancel : t' ∈ w.cancelPending.notified ↔ w.pending = some t' ∨ t' ∈ w.notified := by
      unfold UserView.cancelPending
      cases w.pending <;> simp [eq_comm]
    rw [hcancel, hpending, h.notified]
    constructor
    · rintro (⟨n, d, ht', hlook⟩ | ⟨n, d, ht', hn⟩)
      · exact ⟨n, d, ht', .inr hlook⟩
      · exact ⟨n, d, ht', .inl hn⟩
    · rintro ⟨n, d, ht', hn | hlook⟩
      · exact .inr ⟨n, d, ht', hn⟩
      · exact .inl ⟨n, d, ht', hlook⟩
  · intro t'
    have herased : (after offlineDebounce g t k).presence.pendingOffline.lookup u = none := by
      rw [after_presence, hop]
      exact AList.lookup_erase _ _
    simp only [herased, reduceCtorEq, and_false, exists_false, UserView.cancelPending]

/-- Task `t`, at `k`, takes an operation of `u` that is the next part of its sequence. -/
def Advances (offlineDebounce : ℕ) (u : UserId) (g : Gateway) (t : ℕ) (k : Task) (w : UserView) :
    Prop :=
  ∃ w', Sees u (after offlineDebounce g t k) w' ∧
    finish t k w = finishOf u t (g.op offlineDebounce k).2 w' ∧
    ∀ n, (g.op offlineDebounce k).2 = some (.spawn u n) →
      (g.op offlineDebounce k).1.presence.pendingOffline.lookup u = some n

section
variable {j : Task} {z : UserView}

theorem Sees.goesOn (hsees : Sees u (after offlineDebounce g t k) z)
    (hop : (g.op offlineDebounce k).2 = some j) (hj : j.userId = u)
    (hfinish : finish t k w = finish t j z)
    (hspawn : ∀ n, j = .spawn u n →
      (g.op offlineDebounce k).1.presence.pendingOffline.lookup u = some n) :
    Advances offlineDebounce u g t k w := by
  refine ⟨z, hsees, ?_, fun n hn => hspawn n (Option.some.inj (hop.symm.trans hn))⟩
  rw [hop, finishOf_some hj, hfinish]

theorem Sees.ends (hsees : Sees u (after offlineDebounce g t k) z)
    (hop : (g.op offlineDebounce k).2 = none) (hfinish : finish t k w = z) :
    Advances offlineDebounce u g t k w := by
  refine ⟨z, hsees, ?_, fun n hn => by rw [hop] at hn; cases hn⟩
  rw [hop, hfinish]
  rfl

theorem ne_spawn_of_holds (hj : j.holds = none) {n : NotifyId} (h : j = .spawn u n) : False := by
  rw [h] at hj
  cases hj

theorem Sees.next (h : Sees u g w) (ht : g.tasks.lookup t = some k)
    (hop : (g.op offlineDebounce k).2 = some j) (hk : k.holds = none ∧ k.takes = none)
    (hj : j.userId = u ∧ j.holds = none)
    (hpending : (g.op offlineDebounce k).1.presence.pendingOffline.lookup u =
      g.presence.pendingOffline.lookup u)
    (hsessions : z.sessions = (g.op offlineDebounce k).1.sessions.vec u)
    (hpresence : z.presence = (g.op offlineDebounce k).1.presence.state.lookup u)
    (hbroadcasts : z.broadcasts =
      ((g.op offlineDebounce k).1.presence.updatesOf u).map Prod.snd)
    (hrest : z.pending = w.pending ∧ z.waiting = w.waiting ∧ z.notified = w.notified)
    (hfinish : finish t k w = finish t j z) : Advances offlineDebounce u g t k w := by
  refine Sees.goesOn (h.plain ht hk.1 hk.2 (fun k' hk' => ?_) hpending hsessions hpresence
    hbroadcasts hrest) hop hj.1 hfinish fun n hn => (ne_spawn_of_holds hj.2 hn).elim
  rw [← Option.some.inj (hop.symm.trans hk'), hj.2]

theorem Sees.nextTake (h : Sees u g w) (ht : g.tasks.lookup t = some k)
    (hop : g.op offlineDebounce k =
      ({ g with presence := (g.presence.takePending u).2 }, some j))
    (hk : k.holds = none ∧ k.takes = some u) (hj : j.userId = u ∧ j.holds = none)
    (honly : ∀ t' k', t' ≠ t → g.tasks.lookup t' = some k' → k'.userId = u →
      k'.isSleeping = true)
    (hfinish : finish t k w = finish t j w.cancelPending) :
    Advances offlineDebounce u g t k w := by
  refine Sees.goesOn (h.take ht hk.1 hk.2 honly (fun k' hk' => ?_) (by rw [hop])) (by rw [hop])
    hj.1 hfinish fun n hn => (ne_spawn_of_holds hj.2 hn).elim
  rw [hop] at hk'
  rw [← Option.some.inj hk', hj.2]

end

theorem own_insert {x : Session} {c : Call} (h : Sees x.userId g w)
    (ht : g.tasks.lookup t = some (.insert x c)) (hown : c = .insert x ∨ c = .insertCount) :
    Advances offlineDebounce x.userId g t (.insert x c) w := by
  rcases hown with rfl | rfl
  · refine h.next (j := .insert x .insertCount) (z := w.push x) ht rfl ⟨rfl, rfl⟩ ⟨rfl, rfl⟩ rfl
      ?_ h.presence h.broadcasts ⟨rfl, rfl, rfl⟩ rfl
    rw [op, SessionStore.vec_insert, if_pos rfl, ← h.sessions]
    rfl
  · exact h.next (j := .takeOpen x) ht rfl ⟨rfl, rfl⟩ ⟨rfl, rfl⟩ rfl h.sessions h.presence
      h.broadcasts ⟨rfl, rfl, rfl⟩ rfl

theorem own_takeOpen {x : Session} (h : Sees x.userId g w)
    (ht : g.tasks.lookup t = some (.takeOpen x))
    (honly : ∀ t' k', t' ≠ t → g.tasks.lookup t' = some k' → k'.userId = x.userId →
      k'.isSleeping = true) : Advances offlineDebounce x.userId g t (.takeOpen x) w := by
  cases hlook : g.presence.pendingOffline.lookup x.userId with
  | none =>
    refine h.nextTake (j := .entry x) ht ?_ ⟨rfl, rfl⟩ ⟨rfl, rfl⟩ honly rfl
    simp only [op, Tracker.takePending, hlook, Option.elim_none]
  | some m =>
    refine h.nextTake (j := .notifyOpen x m) ht ?_ ⟨rfl, rfl⟩ ⟨rfl, rfl⟩ honly rfl
    simp only [op, Tracker.takePending, hlook, Option.elim_some]

theorem own_takeClose (h : Sees u g w) (ht : g.tasks.lookup t = some (.takeClose u))
    (honly : ∀ t' k', t' ≠ t → g.tasks.lookup t' = some k' → k'.userId = u →
      k'.isSleeping = true) : Advances offlineDebounce u g t (.takeClose u) w := by
  cases hlook : g.presence.pendingOffline.lookup u with
  | none =>
    refine h.nextTake (j := .insertPending u) ht ?_ ⟨rfl, rfl⟩ ⟨rfl, rfl⟩ honly rfl
    simp only [op, Tracker.takePending, hlook, Option.elim_none]
  | some m =>
    refine h.nextTake (j := .notifyClose u m) ht ?_ ⟨rfl, rfl⟩ ⟨rfl, rfl⟩ honly rfl
    simp only [op, Tracker.takePending, hlook, Option.elim_some]

theorem own_entry {x : Session} (h : Sees x.userId g w)
    (ht : g.tasks.lookup t = some (.entry x)) :
    Advances offlineDebounce x.userId g t (.entry x) w := by
  have hpresence : w.openState.presence =
      (g.op offlineDebounce (.entry x)).1.presence.state.lookup x.userId := by
    simp only [op, Tracker.openEntry_eq, AList.lookup_insert]
    rw [UserView.openState, h.getStatus, h.presence]
  have hbroadcasts : w.broadcasts =
      ((g.op offlineDebounce (.entry x)).1.presence.updatesOf x.userId).map Prod.snd := by
    simp only [op, Tracker.openEntry_eq]
    exact h.broadcasts
  have hpending : (g.op offlineDebounce (.entry x)).1.presence.pendingOffline.lookup x.userId =
      g.presence.pendingOffline.lookup x.userId := by
    simp only [op, Tracker.openEntry_eq]
  by_cases hs : g.presence.getStatus x.userId = .offline
  · have hop : (g.op offlineDebounce (.entry x)).2 = some (.broadcast x.userId .online) := by
      simp [op, Tracker.openEntry_eq, hs]
    refine h.next (z := w.openState) ht hop ⟨rfl, rfl⟩ ⟨rfl, rfl⟩ hpending h.sessions hpresence
      hbroadcasts ⟨rfl, rfl, rfl⟩ ?_
    rw [finish, UserView.entry, if_pos (h.getStatus.trans hs)]
    rfl
  · have hop : (g.op offlineDebounce (.entry x)).2 = none := by
      simp [op, Tracker.openEntry_eq, hs]
    refine Sees.ends (z := w.openState) (h.plain ht rfl rfl (fun k' hk' => ?_) hpending h.sessions
      hpresence hbroadcasts ⟨rfl, rfl, rfl⟩) hop ?_
    · rw [hop] at hk'
      cases hk'
    · rw [finish, UserView.entry, if_neg fun hw => hs (h.getStatus.symm.trans hw)]

/-- The `retain` of `remove`; the key is removed next if it is empty. -/
theorem own_retain {sid : SessionId} (h : Sees u g w)
    (ht : g.tasks.lookup t = some (.remove u (.remove u sid))) :
    Advances offlineDebounce u g t (.remove u (.remove u sid)) w := by
  have hvec : (w.retain sid).sessions =
      (g.op offlineDebounce (.remove u (.remove u sid))).1.sessions.vec u := by
    simp only [op, SessionStore.vec_remove, if_true, UserView.retain, h.sessions]
  have hnext {j : Task} (hop : (g.op offlineDebounce (.remove u (.remove u sid))).2 = some j)
      (hj : j.userId = u ∧ j.holds = none)
      (hfinish : (w.retain sid).afterRemove t = finish t j (w.retain sid)) :
      Advances offlineDebounce u g t (.remove u (.remove u sid)) w :=
    h.next ht hop ⟨rfl, rfl⟩ hj rfl hvec h.presence h.broadcasts ⟨rfl, rfl, rfl⟩ hfinish
  cases hlook : g.sessions.sessions.lookup u with
  | none =>
    refine hnext (j := .isConnected u) ?_ ⟨rfl, rfl⟩ rfl
    simp only [op, SessionStore.op, hlook, Option.elim_none]
  | some xs =>
    by_cases hempty : (xs.filter fun s => s.sessionId ≠ sid).isEmpty = true
    · have hop : (g.op offlineDebounce (.remove u (.remove u sid))).2 =
          some (.remove u (.removeKey u sid
            (decide ((xs.filter fun s => s.sessionId ≠ sid).length < xs.length)))) := by
        simp only [op, SessionStore.op, hlook, if_pos hempty, Option.elim_some]
      refine hnext hop ⟨rfl, rfl⟩ ?_
      have hnil : (w.retain sid).sessions = [] := by
        rw [UserView.retain, h.sessions, SessionStore.vec_of_lookup hlook]
        exact List.isEmpty_iff.1 hempty
      rw [finish, ← hnil]
    · by_cases hremoved : (xs.filter fun s => s.sessionId ≠ sid).length < xs.length
      · refine hnext (j := .remove u (.removeCount u sid)) ?_ ⟨rfl, rfl⟩ rfl
        simp only [op, SessionStore.op, hlook, if_neg hempty, decide_eq_true hremoved, if_true,
          Option.elim_some]
      · refine hnext (j := .isConnected u) ?_ ⟨rfl, rfl⟩ rfl
        simp only [op, SessionStore.op, hlook, if_neg hempty, decide_eq_false hremoved,
          Bool.false_eq_true, if_false, Option.elim_none]

theorem own_remove {c : Call} (h : Sees u g w) (ht : g.tasks.lookup t = some (.remove u c))
    (hown : (Task.remove u c).Own) : Advances offlineDebounce u g t (.remove u c) w := by
  rcases hown with ⟨sid, rfl⟩ | ⟨sid, removed, rfl⟩ | ⟨sid, rfl⟩
  · exact own_retain h ht
  · have hvec : ([] : List Session) =
        (g.op offlineDebounce (.remove u (.removeKey u sid removed))).1.sessions.vec u := by
      simp only [op, SessionStore.vec_removeKey, if_true]
    cases removed with
    | false =>
      exact h.next (j := .isConnected u) (z := { w with sessions := [] }) ht rfl ⟨rfl, rfl⟩
        ⟨rfl, rfl⟩ rfl hvec h.presence h.broadcasts ⟨rfl, rfl, rfl⟩ rfl
    | true =>
      exact h.next (j := .remove u (.removeCount u sid)) (z := { w with sessions := [] }) ht rfl
        ⟨rfl, rfl⟩ ⟨rfl, rfl⟩ rfl hvec h.presence h.broadcasts ⟨rfl, rfl, rfl⟩ rfl
  · exact h.next (j := .isConnected u) ht rfl ⟨rfl, rfl⟩ ⟨rfl, rfl⟩ rfl h.sessions h.presence
      h.broadcasts ⟨rfl, rfl, rfl⟩ rfl

theorem own_isConnected (h : Sees u g w) (ht : g.tasks.lookup t = some (.isConnected u)) :
    Advances offlineDebounce u g t (.isConnected u) w := by
  by_cases hconn : g.sessions.isConnected u = true
  · have hop : (g.op offlineDebounce (.isConnected u)).2 = none := if_pos hconn
    have hne : ¬w.sessions.isEmpty = true := by
      simpa [SessionStore.isConnected, h.sessions] using hconn
    refine Sees.ends (h.plain ht rfl rfl (fun k' hk' => ?_) rfl h.sessions h.presence h.broadcasts
      ⟨rfl, rfl, rfl⟩) hop (if_neg hne)
    rw [hop] at hk'
    cases hk'
  · have hempty : w.sessions.isEmpty = true := by
      simpa [SessionStore.isConnected, h.sessions] using hconn
    exact h.next (j := .takeClose u) ht (if_neg hconn) ⟨rfl, rfl⟩ ⟨rfl, rfl⟩ rfl h.sessions
      h.presence h.broadcasts ⟨rfl, rfl, rfl⟩ (if_pos hempty)

theorem own_writeOffline (h : Sees u g w) (ht : g.tasks.lookup t = some (.writeOffline u)) :
    Advances offlineDebounce u g t (.writeOffline u) w := by
  obtain ⟨state, heq, hstate⟩ := g.presence.writeOffline_eq u
  have hpresence : (g.op offlineDebounce (.writeOffline u)).1.presence =
      { g.presence with state } := heq
  refine h.next (j := .removePending u) (z := w.writeOffline) ht rfl ⟨rfl, rfl⟩ ⟨rfl, rfl⟩ ?_
    h.sessions ?_ ?_ ⟨rfl, rfl, rfl⟩ rfl
  · rw [hpresence]
  · rw [hpresence, hstate u, if_pos rfl, UserView.writeOffline, h.presence]
  · rw [hpresence]
    exact h.broadcasts

theorem own_broadcast {status : PresenceStatus} (h : Sees u g w)
    (ht : g.tasks.lookup t = some (.broadcast u status)) :
    Advances offlineDebounce u g t (.broadcast u status) w := by
  refine Sees.ends (z := w.broadcast status) (h.plain ht rfl rfl (fun k' hk' => by cases hk') rfl
    h.sessions h.presence ?_ ⟨rfl, rfl, rfl⟩) rfl rfl
  simp [UserView.broadcast, op, Tracker.updatesOf, Tracker.broadcast, h.broadcasts]

/-- The two operations that change `pending_offline` and notify nothing. -/
theorem Sees.repend {w' : UserView} (h : Sees u g w) (ht : g.tasks.lookup t = some k)
    (hk : k.holds = none ∧ k.takes = none)
    (hnext : ∀ k', (g.op offlineDebounce k).2 = some k' → k'.isSleeping = false)
    (hsessions : w'.sessions = (g.op offlineDebounce k).1.sessions.vec u)
    (hpresence : w'.presence = (g.op offlineDebounce k).1.presence.state.lookup u)
    (hbroadcasts : w'.broadcasts =
      ((g.op offlineDebounce k).1.presence.updatesOf u).map Prod.snd)
    (hpending : ∀ t', w'.pending = some t' ↔ ∃ k' n,
      (after offlineDebounce g t k).tasks.lookup t' = some k' ∧ k'.userId = u ∧
        k'.holds = some n ∧
        (after offlineDebounce g t k).presence.pendingOffline.lookup u = some n)
    (hsame : w'.waiting = w.waiting ∧ w'.notified = w.notified) :
    Sees u (after offlineDebounce g t k) w' := by
  refine h.update (sleeping_set_iff after_tasks (fun k' hk' _ => ?_) fun k' hk' _ => hnext k' hk')
    (fun t' n d _ => ?_) hsessions hpresence hbroadcasts hpending hsame
  · rw [← Option.some.inj (ht.symm.trans hk')]
    exact isSleeping_of_holds hk.1
  · rw [notified_after ht, hk.2]
    simp

theorem own_removePending (h : Sees u g w) (ht : g.tasks.lookup t = some (.removePending u)) :
    Advances offlineDebounce u g t (.removePending u) w := by
  have hnone : (after offlineDebounce g t (.removePending u)).presence.pendingOffline.lookup u =
      none := AList.lookup_erase _ _
  refine Sees.goesOn (j := .broadcast u .offline) (z := w.removePending)
    (h.repend ht ⟨rfl, rfl⟩ (fun k' hk' => ?_) h.sessions h.presence h.broadcasts (fun t' => ?_)
      ⟨rfl, rfl⟩) rfl rfl rfl fun n hn => by cases hn
  · rw [← Option.some.inj hk']
    rfl
  · simp only [hnone, reduceCtorEq, and_false, exists_false, UserView.removePending]

theorem own_insertPending (hg : Names g owner) (h : Sees u g w)
    (ht : g.tasks.lookup t = some (.insertPending u)) :
    Advances offlineDebounce u g t (.insertPending u) w := by
  have hinserted : (after offlineDebounce g t (.insertPending u)).presence.pendingOffline.lookup u =
      some g.presence.nextNotify := AList.lookup_insert _
  refine Sees.goesOn (j := .spawn u g.presence.nextNotify) (z := { w with pending := some t })
    (h.repend ht ⟨rfl, rfl⟩ (fun k' hk' => ?_) h.sessions h.presence h.broadcasts (fun t' => ?_)
      ⟨rfl, rfl⟩) rfl rfl rfl fun n hn => ?_
  · rw [← Option.some.inj hk']
    rfl
  · -- the new name is held by this task only
    rw [hinserted, after_tasks]
    simp only [DashMap.lookup_set, Option.some.injEq]
    constructor
    · rintro rfl
      exact ⟨.spawn u g.presence.nextNotify, _, if_pos rfl, rfl, rfl, rfl⟩
    · rintro ⟨k', n, ht', -, hk', rfl⟩
      by_contra hne
      rw [if_neg (Ne.symm hne)] at ht'
      exact lt_irrefl _ (hg.named t' k' _ ht' (.inl hk')).1
  · obtain rfl : g.presence.nextNotify = n := by injection hn
    exact hinserted

theorem own_spawn (hg : Names g owner) (h : Sees u g w)
    (ht : g.tasks.lookup t = some (.spawn u n))
    (hpending : g.presence.pendingOffline.lookup u = some n) :
    Advances offlineDebounce u g t (.spawn u n) w := by
  have hfresh : ¬g.Notified n := (hg.pending u n hpending).2.2
  have hlook (t' : ℕ) : (after offlineDebounce g t (.spawn u n)).tasks.lookup t' =
      if t' = t then some (.sleeping u n (g.now + offlineDebounce)) else g.tasks.lookup t' :=
    DashMap.lookup_set _ _ _ _
  have hnotified (m : NotifyId) :
      (after offlineDebounce g t (.spawn u n)).Notified m ↔ g.Notified m := by
    rw [notified_after ht]
    simp [Task.takes]
  refine Sees.goesOn (j := .sleeping u n (g.now + offlineDebounce))
    (z := { w with waiting := insert t w.waiting })
    ⟨h.sessions, h.presence, h.broadcasts, fun t' => ?_, fun t' => ?_, fun t' => ?_⟩
    rfl rfl rfl fun m hm => by cases hm
  · rw [Finset.mem_insert, hlook]
    split_ifs with heq
    · simp [heq]
    · rw [h.waiting]
      exact or_iff_right heq
  · rw [hlook]
    simp only [hnotified]
    split_ifs with heq
    · subst heq
      refine iff_of_false (fun hmem => ?_) fun hex => ?_
      · obtain ⟨m, d, ht', -⟩ := (h.notified t').1 hmem
        rw [ht] at ht'
        cases ht'
      · obtain ⟨m, d, heq, hm⟩ := hex
        cases heq
        exact hfresh hm
    · exact h.notified t'
  · rw [h.pending, hlook]
    split_ifs with heq
    · subst heq
      constructor
      · rintro ⟨k', m, ht', hu, hk', hp⟩
        obtain rfl := Option.some.inj (ht.symm.trans ht')
        exact ⟨_, m, rfl, rfl, hk', hp⟩
      · rintro ⟨k', m, ht', hu, hk', hp⟩
        obtain rfl := Option.some.inj ht'
        exact ⟨_, m, ht, rfl, hk', hp⟩
    · exact Iff.rfl

/-- **An operation is the next part of its sequence.** -/
theorem own_run (hg : Names g owner) (h : Sees u g w) (ht : g.tasks.lookup t = some k)
    (hk : k.userId = u)
    (honly : ∀ t' k', t' ≠ t → g.tasks.lookup t' = some k' → k'.userId = u → k'.isSleeping = true)
    (hspawned : ∀ n, k = .spawn u n → g.presence.pendingOffline.lookup u = some n)
    (hawake : k.isSleeping = false) : Advances offlineDebounce u g t k w := by
  subst hk
  cases k with
  | insert x c => exact own_insert h ht (hg.own t _ ht)
  | takeOpen x => exact own_takeOpen h ht honly
  | notifyOpen x n =>
    exact h.next (j := .entry x) ht rfl ⟨rfl, rfl⟩ ⟨rfl, rfl⟩ rfl h.sessions h.presence
      h.broadcasts ⟨rfl, rfl, rfl⟩ rfl
  | entry x => exact own_entry h ht
  | remove u c => exact own_remove h ht (hg.own t _ ht)
  | isConnected u => exact own_isConnected h ht
  | takeClose u => exact own_takeClose h ht honly
  | notifyClose u n =>
    exact h.next (j := .insertPending u) ht rfl ⟨rfl, rfl⟩ ⟨rfl, rfl⟩ rfl h.sessions h.presence
      h.broadcasts ⟨rfl, rfl, rfl⟩ rfl
  | insertPending u => exact own_insertPending hg h ht
  | spawn u n => exact own_spawn hg h ht (hspawned n rfl)
  | sleeping u n d => cases hawake
  | writeOffline u => exact own_writeOffline h ht
  | removePending u => exact own_removePending h ht
  | broadcast u status => exact own_broadcast h ht

theorem finish_drop {t' : ℕ} (hne : t ≠ t') (hp : w.pending ≠ some t') :
    finish t k (w.drop t') = (finish t k w).drop t' := by
  cases k with
  | insert x c =>
    cases c with
    | insert y =>
      have hpush : (w.push y).pending ≠ some t' := hp
      exact (congrArg UserView.entry (UserView.cancelPending_drop hpush)).trans UserView.entry_drop
    | _ =>
      exact (congrArg UserView.entry (UserView.cancelPending_drop hp)).trans UserView.entry_drop
  | takeOpen x =>
    exact (congrArg UserView.entry (UserView.cancelPending_drop hp)).trans UserView.entry_drop
  | notifyOpen x m => exact UserView.entry_drop
  | entry x => exact UserView.entry_drop
  | remove v c =>
    cases c with
    | remove v' sid =>
      have hretain : (w.retain sid).pending ≠ some t' := hp
      exact UserView.afterRemove_drop hne hretain
    | removeKey v' sid b =>
      have hclear : ({ w with sessions := [] } : UserView).pending ≠ some t' := hp
      exact UserView.afterRemove_drop hne hclear
    | _ => exact UserView.afterRemove_drop hne hp
  | isConnected v => exact UserView.afterRemove_drop hne hp
  | takeClose v =>
    rw [finish, UserView.cancelPending_drop hp, UserView.arm_drop hne]
    rfl
  | notifyClose v m => exact UserView.arm_drop hne
  | insertPending v => exact UserView.arm_drop hne
  | spawn v m => simp only [finish, UserView.drop, Finset.erase_insert_of_ne hne]
  | sleeping | writeOffline | removePending | broadcast => rfl

theorem notified_finish : w.notified ⊆ (finish t k w).notified := by
  have hentry {v : UserView} (h : w.notified ⊆ v.notified) : w.notified ⊆ v.entry.notified := by
    rw [UserView.notified_entry]
    exact h
  cases k with
  | insert x c =>
    cases c with
    | insert y => exact hentry (UserView.notified_cancelPending (v := w.push y))
    | _ => exact hentry UserView.notified_cancelPending
  | takeOpen x => exact hentry UserView.notified_cancelPending
  | notifyOpen x m => exact hentry (Finset.Subset.refl _)
  | entry x => exact hentry (Finset.Subset.refl _)
  | remove v c =>
    cases c with
    | remove v' sid => exact UserView.notified_afterRemove (v := w.retain sid)
    | removeKey v' sid b => exact UserView.notified_afterRemove (v := { w with sessions := [] })
    | _ => exact UserView.notified_afterRemove
  | isConnected v => exact UserView.notified_afterRemove
  | takeClose v => exact UserView.notified_cancelPending
  | notifyClose | insertPending | spawn | sleeping | writeOffline | removePending | broadcast =>
    exact Finset.Subset.refl _

end Gateway

end RustRelay
