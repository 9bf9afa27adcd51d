import RustRelay.Core.Simulation
import RustRelay.Presence.Publish
import RustRelay.Presence.Sequence

/-!
# Sequences that do not overlap

The open and close sequences of a node take their operations one by one, in between those of any
other task. If no two sequences of one user overlap (those of other users may, and debounce tasks
may wait and be cancelled at any time), then this user cannot tell: the run of the operations is a
run of `UserView`, where a whole sequence is one step.

**Theorem (`serial_refines`).** Take a run in which a sequence of `u` starts only while no other
one of `u` is in progress. The sequences of `u`, in the order of their starts, are a run of
`UserView`, and while none is in progress, the node holds of `u` what that run leads to.

A sequence counts as done when it starts. What it still has to do is `finish`, so that every
operation either does nothing to the outcome, or is the next part of it (`own_run`). The operations
of other users are on other entries (`op_frame`), and the `Notify` that they notify is one of their
own (`Names`).

**Theorem (`serial_presence`).** So what holds of the runs of `UserView` holds here: without a
sequence in progress, the last update about the user is its status; a registered user is not shown
as offline; and one who is shown is registered or has exactly one timer that was not notified.
-/

namespace RustRelay

open Machine

namespace Gateway

variable {offlineDebounce : ℕ} {g g' : Gateway} {u : UserId} {t : ℕ} {k : Task} {o : Option Task}
  {n : NotifyId} {owner : NotifyId → UserId}
  {v w : UserView}

/-! ## On the way -/

/-- The node is on the way to `v`: when task `t`, the only one of `u` that is not a sleeping
debounce task, has finished its sequence, the node holds `v` of `u`. -/
structure Follows (u : UserId) (g : Gateway) (v : UserView) (t : ℕ) (w : UserView) : Prop where
  sees : Sees u g w
  finish : v = finishOf u t (g.tasks.lookup t) w
  only : ∀ t' k, t' ≠ t → g.tasks.lookup t' = some k → k.userId = u → k.isSleeping = true
  spawned : ∀ n, g.tasks.lookup t = some (.spawn u n) →
    g.presence.pendingOffline.lookup u = some n

/-- No sequence of the user is in progress; debounce tasks may wait. -/
def AtRest (g : Gateway) (u : UserId) : Prop :=
  ∀ k ∈ DashMap.values g.tasks, k.userId = u → k.isSleeping = true

instance (g : Gateway) (u : UserId) : Decidable (g.AtRest u) :=
  inferInstanceAs (Decidable (∀ k ∈ DashMap.values g.tasks, k.userId = u → k.isSleeping = true))

theorem AtRest.isSleeping (h : g.AtRest u) (ht : g.tasks.lookup t = some k) (hk : k.userId = u) :
    k.isSleeping = true := h k (DashMap.mem_values_iff.2 ⟨t, ht⟩) hk

theorem Follows.sees_of_atRest (h : Follows u g v t w) (hrest : g.AtRest u) : Sees u g v := by
  have hv : v = w := by
    rw [h.finish]
    cases ht : g.tasks.lookup t with
    | none => rfl
    | some k =>
      by_cases hk : k.userId = u
      · rw [finishOf_some hk, finish_of_isSleeping (hrest.isSleeping ht hk)]
      · exact if_neg hk
  rw [hv]
  exact h.sees

/-! ## Runs without overlap -/

/-- The user of a debounce task that waits. -/
def sleeper (g : Gateway) (t : ℕ) : Option UserId :=
  match g.tasks.lookup t with
  | some (.sleeping u _ _) => some u
  | _ => none

theorem sleeper_eq_some_iff : g.sleeper t = some u ↔
    ∃ n d, g.tasks.lookup t = some (.sleeping u n d) := by
  unfold sleeper
  split
  · next v n d ht =>
    rw [ht]
    constructor
    · intro h
      exact ⟨n, d, by rw [Option.some.inj h]⟩
    · rintro ⟨m, e, heq⟩
      cases heq
      rfl
  · next hno =>
    refine iff_of_false (by simp) ?_
    rintro ⟨n, d, ht⟩
    exact hno u n d ht

/-- What an action means to the user `u`. -/
def label (u : UserId) (g : Gateway) : Action → Option UserEvent
  | .connect _ x => if x.userId = u then some (.openSession x) else none
  | .close t v sid => if v = u then some (.closeSession sid t) else none
  | .setStatus v status => if v = u then some (.setStatus status) else none
  | .expire t => if g.sleeper t = some u then some (.expire t) else none
  | .cancel t => if g.sleeper t = some u then some (.cancel t) else none
  | .tick _ | .run _ => none

/-- A sequence of `u` starts only while no other one of `u` is in progress. -/
def Serial (u : UserId) (g : Gateway) : Action → Prop
  | .cancel _ => True
  | a => (g.label u a).isSome → g.AtRest u

instance (u : UserId) (g : Gateway) : (a : Action) → Decidable (g.Serial u a)
  | .cancel _ => inferInstanceAs (Decidable True)
  | .connect _ _ | .close _ _ _ | .setStatus _ _ | .tick _ | .run _ | .expire _ =>
    inferInstanceAs (Decidable (_ → g.AtRest u))

theorem Follows.frame (h : Follows u g v t w) (hsame : SameEntries u g g')
    (htasks : ∀ t' k, k.userId = u → (g'.tasks.lookup t' = some k ↔ g.tasks.lookup t' = some k))
    (hnotified : ∀ t' n d, g.tasks.lookup t' = some (.sleeping u n d) →
      (g'.Notified n ↔ g.Notified n)) : Follows u g' v t w := by
  constructor
  · refine h.sees.update (fun t' n d => htasks t' _ rfl) hnotified
      (h.sees.sessions.trans hsame.sessions.symm) (h.sees.presence.trans hsame.state.symm)
      (h.sees.broadcasts.trans (by rw [hsame.updates])) (fun t' => ?_) ⟨rfl, rfl⟩
    rw [h.sees.pending, hsame.pending]
    refine exists_congr fun k => exists_congr fun n => ?_
    constructor
    · rintro ⟨ht', hu, hrest⟩
      exact ⟨(htasks t' k hu).2 ht', hu, hrest⟩
    · rintro ⟨ht', hu, hrest⟩
      exact ⟨(htasks t' k hu).1 ht', hu, hrest⟩
  · rw [h.finish]
    by_cases hex : ∃ k, k.userId = u ∧ g.tasks.lookup t = some k
    · obtain ⟨k, hk, ht⟩ := hex
      rw [ht, (htasks t k hk).2 ht]
    · rw [finishOf_of_ne fun k ht hk => hex ⟨k, hk, ht⟩,
        finishOf_of_ne fun k ht hk => hex ⟨k, hk, (htasks t k hk).1 ht⟩]
  · exact fun t' k hne ht' hk => h.only t' k hne ((htasks t' k hk).1 ht') hk
  · intro n ht
    rw [hsame.pending]
    exact h.spawned n ((htasks t _ rfl).1 ht)

/-- The tasks of `u` are the same when a task of nobody or of another user was set to another such
task. -/
theorem lookup_set_other (hold : ∀ k, g.tasks.lookup t = some k → k.userId ≠ u)
    (hnew : ∀ k, o = some k → k.userId ≠ u) (t' : ℕ) (k : Task) (hk : k.userId = u) :
    (DashMap.set g.tasks t o).lookup t' = some k ↔ g.tasks.lookup t' = some k := by
  rw [DashMap.lookup_set]
  split_ifs with heq
  · subst heq
    exact iff_of_false (fun ho => hnew k ho hk) fun ht => hold k ht hk
  · exact Iff.rfl

theorem Follows.run_other (hg : Names g owner) (h : Follows u g v t w) {t' : ℕ}
    (ht' : g.tasks.lookup t' = some k) (hk : k.userId ≠ u) :
    Follows u (after offlineDebounce g t' k) v t w := by
  have hown := hg.own t' k ht'
  have hframe : SameEntries u g (g.op offlineDebounce k).1 := op_frame hown (Ne.symm hk)
  refine h.frame ⟨hframe.sessions, hframe.state, hframe.pending, hframe.updates⟩
    (lookup_set_other (fun k' hk' => ?_) fun k' hk' => ?_) fun t'' n d ht'' => ?_
  · rw [← Option.some.inj (ht'.symm.trans hk')]
    exact hk
  · rw [(op_next hown hk').1]
    exact hk
  · rw [notified_after ht', or_iff_left]
    rintro ⟨z, hz, hpending⟩
    have hzk : z = k.userId := by
      cases k <;> simp_all [Task.takes, Task.userId]
    have hzu : z = u := (hg.pending z n hpending).2.1.symm.trans
      (hg.named t'' _ n ht'' (.inl rfl)).2
    exact hk (hzk.symm.trans hzu)

theorem Follows.run_own (hg : Names g owner) (h : Follows u g v t w) {t' : ℕ}
    (ht' : g.tasks.lookup t' = some k) (hk : k.userId = u) :
    ∃ w', Follows u (after offlineDebounce g t' k) v t w' := by
  have hown := hg.own t' k ht'
  by_cases hsleep : k.isSleeping = true
  · -- a debounce task that waits has nothing to do
    obtain ⟨n, d, hk'⟩ := Task.eq_sleeping hsleep
    rw [hk] at hk'
    subst hk'
    refine ⟨w, h.frame ⟨rfl, rfl, rfl, rfl⟩ (fun t'' k'' _ => ?_) fun t'' m e _ => ?_⟩
    · rw [after_tasks, DashMap.lookup_set]
      split_ifs with heq
      · rw [heq, ht']
        rfl
      · exact Iff.rfl
    · rw [notified_after ht']
      simp [Task.takes]
  · have htt : t' = t := by
      by_contra hne
      exact hsleep (h.only t' k hne ht' hk)
    subst htt
    have hadvances : Advances offlineDebounce u g t' k w :=
      own_run hg h.sees ht' hk h.only (fun n hn => h.spawned n (by rw [ht', hn]))
        (by simpa using hsleep)
    obtain ⟨w', hsees, hfinish, hspawned⟩ := hadvances
    refine ⟨w', hsees, ?_, ?_, ?_⟩
    · rw [h.finish, ht', finishOf_some hk, hfinish, after_tasks, DashMap.lookup_set, if_pos rfl]
    · intro t'' k'' hne ht'' hk''
      rw [after_tasks, DashMap.lookup_set, if_neg hne] at ht''
      exact h.only t'' k'' hne ht'' hk''
    · intro n hn
      rw [after_tasks, DashMap.lookup_set, if_pos rfl] at hn
      exact hspawned n hn

theorem Sees.start (h : Sees u g v) (hrest : g.AtRest u) {t' : ℕ} (ht' : g.tasks.lookup t' = none)
    (hk : k.holds = none ∧ k.taken = none) :
    Follows u { g with tasks := DashMap.set g.tasks t' (some k) }
      (finishOf u t' (some k) v) t' v := by
  have hlook (t'' : ℕ) : (DashMap.set g.tasks t' (some k)).lookup t'' =
      if t'' = t' then some k else g.tasks.lookup t'' := DashMap.lookup_set _ _ _ _
  have hold : ∀ k', g.tasks.lookup t' = some k' → False := fun k' hk' => by
    rw [ht'] at hk'
    cases hk'
  have hnew : ∀ k', some k = some k' → k'.holds = none ∧ k'.taken = none := fun k' hk' => by
    rw [← Option.some.inj hk']
    exact hk
  have htasks : ({ g with tasks := DashMap.set g.tasks t' (some k) } : Gateway).tasks =
      DashMap.set g.tasks t' (some k) := rfl
  constructor
  · refine h.update (sleeping_set_iff htasks (fun k' hk' _ => (hold k' hk').elim)
      fun k' hk' _ => isSleeping_of_holds (hnew k' hk').1) (fun t'' n d _ => ?_) h.sessions
      h.presence h.broadcasts (fun t'' => ?_) ⟨rfl, rfl⟩
    · exact notified_set htasks rfl (fun k' hk' => (hold k' hk').elim) fun k' hk' =>
        (hnew k' hk').2
    · exact h.holders htasks (fun k' hk' _ => (hold k' hk').elim) (fun k' hk' _ => (hnew k' hk').1)
        rfl t''
  · rw [hlook, if_pos rfl]
  · intro t'' k'' hne ht'' hk''
    rw [hlook, if_neg hne] at ht''
    exact hrest.isSleeping ht'' hk''
  · intro n hn
    rw [hlook, if_pos rfl] at hn
    have hholds := hk.1
    rw [Option.some.inj hn] at hholds
    cases hholds

theorem Sees.setStatus (h : Sees u g v) (status : PresenceStatus) :
    Sees u { g with presence := g.presence.setStatus u status } (v.setStatus status) := by
  obtain ⟨hpending, hnotified⟩ := g.presence.setStatus_timers u status
  have hkeep : (v.setStatus status).sessions = v.sessions ∧
      (v.setStatus status).pending = v.pending ∧ (v.setStatus status).waiting = v.waiting ∧
      (v.setStatus status).notified = v.notified := by
    rcases v.setStatus_cases status with heq | ⟨p, heq, -⟩ <;> rw [heq] <;>
      exact ⟨rfl, rfl, rfl, rfl⟩
  have hpresence := h.presence
  refine h.update (fun _ _ _ => Iff.rfl) (fun t n d _ => ?_) (hkeep.1.trans h.sessions) ?_ ?_
    (fun t => ?_) hkeep.2.2
  · rw [Notified, Notified, hnotified]
  · unfold UserView.setStatus Tracker.setStatus
    rw [hpresence]
    cases hlook : g.presence.state.lookup u with
    | none => exact hpresence
    | some p =>
      dsimp only
      split_ifs
      · simp [UserView.broadcast, Tracker.broadcast]
      · exact hpresence
  · unfold UserView.setStatus Tracker.setStatus
    rw [hpresence]
    cases hlook : g.presence.state.lookup u with
    | none => exact h.broadcasts
    | some p =>
      dsimp only
      split_ifs
      · simp [UserView.broadcast, Tracker.updatesOf, Tracker.broadcast, h.broadcasts]
      · exact h.broadcasts
  · rw [hkeep.2.1, h.pending]
    simp only [hpending]

/-- A debounce task of `u` leaves the `select!`: what it was is gone, and the view without it is
seen, whatever becomes of the pending entry. -/
theorem Sees.wake (h : Sees u g v) {t' : ℕ} {d : ℕ}
    (ht' : g.tasks.lookup t' = some (.sleeping u n d))
    (hnew : ∀ k, o = some k → k.holds = none ∧ k.taken = none) :
    Sees u { g with tasks := DashMap.set g.tasks t' o }
      { v.drop t' with pending := if v.pending = some t' then none else v.pending } := by
  have hlook (t'' : ℕ) : (DashMap.set g.tasks t' o).lookup t'' =
      if t'' = t' then o else g.tasks.lookup t'' := DashMap.lookup_set _ _ _ _
  have hnotified (m : NotifyId) :
      Notified { g with tasks := DashMap.set g.tasks t' o } m ↔ g.Notified m :=
    notified_set rfl rfl (fun k hk => by rw [← Option.some.inj (ht'.symm.trans hk)]; rfl)
      fun k hk => (hnew k hk).2
  have hsleep (t'' : ℕ) (m : NotifyId) (e : ℕ) :
      (DashMap.set g.tasks t' o).lookup t'' = some (.sleeping u m e) ↔
        t'' ≠ t' ∧ g.tasks.lookup t'' = some (.sleeping u m e) := by
    rw [hlook]
    split_ifs with heq
    · refine iff_of_false (fun ho => ?_) fun hne => hne.1 heq
      have hholds := (hnew _ ho).1
      cases hholds
    · exact (and_iff_right heq).symm
  refine ⟨h.sessions, h.presence, h.broadcasts, fun t'' => ?_, fun t'' => ?_, fun t'' => ?_⟩
  · simp only [UserView.drop, Finset.mem_erase, h.waiting, hsleep, exists_and_left]
  · simp only [UserView.drop, Finset.mem_erase, h.notified, hsleep, hnotified]
    constructor
    · rintro ⟨hne, m, e, hm, hn⟩
      exact ⟨m, e, ⟨hne, hm⟩, hn⟩
    · rintro ⟨m, e, ⟨hne, hm⟩, hn⟩
      exact ⟨hne, m, e, hm, hn⟩
  · have hiff : (if v.pending = some t' then none else v.pending) = some t'' ↔
        t'' ≠ t' ∧ v.pending = some t'' := by
      split_ifs with hp
      · refine iff_of_false (by simp) fun hboth => hboth.1 ?_
        exact (Option.some.inj (hp.symm.trans hboth.2)).symm
      · refine (and_iff_right_of_imp fun hp' heq => hp ?_).symm
        rw [hp', heq]
    refine hiff.trans ?_
    rw [h.pending]
    simp only [hlook]
    split_ifs with heq
    · refine iff_of_false (fun hboth => hboth.1 heq) ?_
      rintro ⟨k, m, ho, -, hk, -⟩
      rw [(hnew k ho).1] at hk
      cases hk
    · exact and_iff_right heq

theorem Sees.expire (h : Sees u g v) (hrest : g.AtRest u) {t' : ℕ} {d : ℕ}
    (ht' : g.tasks.lookup t' = some (.sleeping u n d)) :
    ∃ w', Follows u { g with tasks := DashMap.set g.tasks t' (some (.writeOffline u)) }
      (v.drop t').debounced t' w' := by
  have hlook (t'' : ℕ) : (DashMap.set g.tasks t' (some (Task.writeOffline u))).lookup t'' =
      if t'' = t' then some (.writeOffline u) else g.tasks.lookup t'' := DashMap.lookup_set _ _ _ _
  refine ⟨_, h.wake ht' fun k hk => ?_, ?_, ?_, ?_⟩
  · rw [← Option.some.inj hk]
    exact ⟨rfl, rfl⟩
  · have huser : (Task.writeOffline u).userId = u := rfl
    rw [hlook, if_pos rfl, finishOf_some huser]
    rfl
  · intro t'' k hne ht'' hk
    rw [hlook, if_neg hne] at ht''
    exact hrest.isSleeping ht'' hk
  · intro m hm
    rw [hlook, if_pos rfl] at hm
    cases hm

/-- A debounce task of `u` takes the branch of the notification, at any time. -/
theorem Follows.cancel (hg : Names g owner) (h : Follows u g v t w) {t' : ℕ} {d : ℕ}
    (ht' : g.tasks.lookup t' = some (.sleeping u n d)) (hn : n ∈ g.presence.notified) :
    t' ∈ v.notified ∧
      Follows u { g with tasks := DashMap.set g.tasks t' none } (v.drop t') t (w.drop t') := by
  have hlook (t'' : ℕ) : (DashMap.set g.tasks t' none).lookup t'' =
      if t'' = t' then none else g.tasks.lookup t'' := DashMap.lookup_set _ _ _ _
  have hmem : t' ∈ w.notified := (h.sees.notified t').2 ⟨n, d, ht', .inl hn⟩
  -- a notified task is not the pending one
  have hp : w.pending ≠ some t' := by
    intro hp
    obtain ⟨k, m, hk, -, hm, hlookup⟩ := (h.sees.pending t').1 hp
    obtain rfl := Option.some.inj (ht'.symm.trans hk)
    obtain rfl := Option.some.inj hm
    exact (hg.pending u n hlookup).2.2 (.inl hn)
  have hsees : Sees u { g with tasks := DashMap.set g.tasks t' none } (w.drop t') := by
    have hwake := h.sees.wake ht' (o := none) fun k hk => by cases hk
    rw [if_neg hp] at hwake
    exact hwake
  by_cases htt : t = t'
  · subst htt
    have hv : v = w := by
      have huser : (Task.sleeping u n d).userId = u := rfl
      rw [h.finish, ht', finishOf_some huser]
      rfl
    rw [hv]
    refine ⟨hmem, hsees, ?_, ?_, ?_⟩
    · rw [hlook, if_pos rfl]
      rfl
    · intro t'' k hne ht'' hk
      rw [hlook, if_neg hne] at ht''
      exact h.only t'' k hne ht'' hk
    · intro m hm
      rw [hlook, if_pos rfl] at hm
      cases hm
  · refine ⟨?_, hsees, ?_, ?_, ?_⟩
    · rw [h.finish]
      unfold finishOf
      split
      · exact hmem
      · split_ifs
        · exact notified_finish hmem
        · exact hmem
    · rw [hlook, if_neg htt, h.finish]
      unfold finishOf
      split
      · rfl
      · split_ifs
        · exact (finish_drop htt hp).symm
        · rfl
    · intro t'' k hne ht'' hk
      rw [hlook] at ht''
      split_ifs at ht''
      exact h.only t'' k hne ht'' hk
    · intro m hm
      rw [hlook, if_neg htt] at hm
      exact h.spawned m hm

/-! ## The simulation -/

def Rel (u : UserId) (g : Gateway) (v : UserView) : Prop :=
  (∃ owner, Names g owner) ∧ ∃ t w, Follows u g v t w

theorem Follows.set_other (h : Follows u g v t w) {t' : ℕ}
    (hold : ∀ k, g.tasks.lookup t' = some k → k.userId ≠ u ∧ k.taken = none)
    (hnew : ∀ k, o = some k → k.userId ≠ u ∧ k.taken = none) :
    Follows u { g with tasks := DashMap.set g.tasks t' o } v t w :=
  h.frame ⟨rfl, rfl, rfl, rfl⟩
    (lookup_set_other (fun k hk => (hold k hk).1) fun k hk => (hnew k hk).1)
    fun _ _ _ _ => notified_set rfl rfl (fun k hk => (hold k hk).2) fun k hk => (hnew k hk).2

theorem sameEntries_setStatus {z : UserId} (hz : z ≠ u) (status : PresenceStatus) :
    SameEntries u g { g with presence := g.presence.setStatus z status } := by
  refine ⟨rfl, ?_, ?_, (Tracker.sameFor_setStatus (Ne.symm hz) status).2⟩
  · simp only [Tracker.setStatus]
    cases g.presence.state.lookup z with
    | none => rfl
    | some p =>
      dsimp only
      split_ifs
      · exact AList.lookup_insert_ne (Ne.symm hz)
      · rfl
  · simp only [(g.presence.setStatus_timers z status).1]

/-- What another user does, and what the tasks of `u` do, changes nothing about the outcome. -/
theorem step_silent {a : Action} (h : Rel u g v) (hlabel : g.label u a = none)
    (hstep : g.step offlineDebounce a = some g') : Rel u g' v := by
  obtain ⟨⟨owner, hg⟩, t, w, hf⟩ := h
  refine ⟨names_step hg hstep, ?_⟩
  have hsleeping {t' n d : ℕ} {z : UserId} (hz : z ≠ u)
      (ht' : g.tasks.lookup t' = some (.sleeping z n d)) :
      ∀ k, g.tasks.lookup t' = some k → k.userId ≠ u ∧ k.taken = none := fun k hk => by
    rw [← Option.some.inj (ht'.symm.trans hk)]
    exact ⟨hz, rfl⟩
  cases a with
  | connect t' x =>
    simp only [step, Option.ite_none_right_eq_some, Option.some.injEq] at hstep
    obtain ⟨ht', rfl⟩ := hstep
    have hx : x.userId ≠ u := by simpa [label] using hlabel
    refine ⟨t, w, hf.set_other (fun k hk => ?_) fun k hk => ?_⟩
    · rw [ht'] at hk
      cases hk
    · rw [← Option.some.inj hk]
      exact ⟨hx, rfl⟩
  | close t' z sid =>
    simp only [step, Option.ite_none_right_eq_some, Option.some.injEq] at hstep
    obtain ⟨ht', rfl⟩ := hstep
    have hz : z ≠ u := by simpa [label] using hlabel
    refine ⟨t, w, hf.set_other (fun k hk => ?_) fun k hk => ?_⟩
    · rw [ht'] at hk
      cases hk
    · rw [← Option.some.inj hk]
      exact ⟨hz, rfl⟩
  | setStatus z status =>
    obtain rfl := Option.some.inj hstep
    have hz : z ≠ u := by simpa [label] using hlabel
    refine ⟨t, w, hf.frame (sameEntries_setStatus hz status) (fun _ _ _ => Iff.rfl) ?_⟩
    intro t' n d _
    rw [Notified, Notified, (g.presence.setStatus_timers z status).2]
  | tick d =>
    obtain rfl := Option.some.inj hstep
    exact ⟨t, w, hf.frame ⟨rfl, rfl, rfl, rfl⟩ (fun _ _ _ => Iff.rfl) fun _ _ _ _ => Iff.rfl⟩
  | run t' =>
    simp only [step, Option.map_eq_some_iff] at hstep
    obtain ⟨k, ht', rfl⟩ := hstep
    by_cases hk : k.userId = u
    · obtain ⟨w', hf'⟩ : ∃ w', Follows u (after offlineDebounce g t' k) v t w' :=
        hf.run_own hg ht' hk
      exact ⟨t, w', hf'⟩
    · exact ⟨t, w, hf.run_other hg ht' hk⟩
  | expire t' =>
    simp only [step] at hstep
    split at hstep
    · next z n d ht' =>
      simp only [Option.ite_none_right_eq_some, Option.some.injEq] at hstep
      obtain ⟨-, rfl⟩ := hstep
      have hz : z ≠ u := by
        rintro rfl
        simp [label, sleeper_eq_some_iff.2 ⟨n, d, ht'⟩] at hlabel
      refine ⟨t, w, hf.set_other (hsleeping hz ht') fun k hk => ?_⟩
      rw [← Option.some.inj hk]
      exact ⟨hz, rfl⟩
    · cases hstep
  | cancel t' =>
    simp only [step] at hstep
    split at hstep
    · next z n d ht' =>
      simp only [Option.ite_none_right_eq_some, Option.some.injEq] at hstep
      obtain ⟨-, rfl⟩ := hstep
      have hz : z ≠ u := by
        rintro rfl
        simp [label, sleeper_eq_some_iff.2 ⟨n, d, ht'⟩] at hlabel
      exact ⟨t, w, hf.set_other (hsleeping hz ht') fun k hk => by cases hk⟩
    · cases hstep

/-- A sequence of `u` that starts is a step of `UserView`, and so is a cancelled debounce task. -/
theorem step_labelled {a : Action} {e : UserEvent} (h : Rel u g v) (hserial : g.Serial u a)
    (hlabel : g.label u a = some e) (hstep : g.step offlineDebounce a = some g') :
    ∃ v', v.step e = some v' ∧ Rel u g' v' := by
  obtain ⟨⟨owner, hg⟩, t, w, hf⟩ := h
  have hnames := names_step hg hstep
  cases a with
  | connect t' x =>
    have hrest : g.AtRest u := hserial (by rw [hlabel]; rfl)
    simp only [step, Option.ite_none_right_eq_some, Option.some.injEq] at hstep
    obtain ⟨ht', rfl⟩ := hstep
    simp only [label, Option.ite_none_right_eq_some, Option.some.injEq] at hlabel
    obtain ⟨hx, rfl⟩ := hlabel
    have hsees := hf.sees_of_atRest hrest
    have hstart := hsees.start hrest ht' (k := .insert x (.insert x)) ⟨rfl, rfl⟩
    have huser : (Task.insert x (.insert x)).userId = u := hx
    rw [finishOf_some huser] at hstart
    exact ⟨_, rfl, hnames, t', _, hstart⟩
  | close t' z sid =>
    have hrest : g.AtRest u := hserial (by rw [hlabel]; rfl)
    simp only [step, Option.ite_none_right_eq_some, Option.some.injEq] at hstep
    obtain ⟨ht', rfl⟩ := hstep
    simp only [label, Option.ite_none_right_eq_some, Option.some.injEq] at hlabel
    obtain ⟨rfl, rfl⟩ := hlabel
    have hsees := hf.sees_of_atRest hrest
    have hstart := hsees.start hrest ht' (k := .remove z (.remove z sid)) ⟨rfl, rfl⟩
    have hfree : t' ∉ v.waiting := by
      rw [hsees.waiting, ht']
      simp
    have huser : (Task.remove z (.remove z sid)).userId = z := rfl
    rw [finishOf_some huser] at hstart
    exact ⟨_, if_neg hfree, hnames, t', _, hstart⟩
  | setStatus z status =>
    have hrest : g.AtRest u := hserial (by rw [hlabel]; rfl)
    obtain rfl := Option.some.inj hstep
    simp only [label, Option.ite_none_right_eq_some, Option.some.injEq] at hlabel
    obtain ⟨rfl, rfl⟩ := hlabel
    refine ⟨_, rfl, hnames, t, v.setStatus status,
      (hf.sees_of_atRest hrest).setStatus status, ?_, hf.only, fun n hn => ?_⟩
    · dsimp only
      cases ht : g.tasks.lookup t with
      | none => rfl
      | some k =>
        by_cases hk : k.userId = z
        · rw [finishOf_some hk, finish_of_isSleeping (hrest.isSleeping ht hk)]
        · exact (if_neg hk).symm
    · have hsleep := hrest.isSleeping hn rfl
      cases hsleep
  | expire t' =>
    have hrest : g.AtRest u := hserial (by rw [hlabel]; rfl)
    simp only [label, Option.ite_none_right_eq_some, Option.some.injEq] at hlabel
    obtain ⟨hsleeper, rfl⟩ := hlabel
    obtain ⟨n, d, ht'⟩ := sleeper_eq_some_iff.1 hsleeper
    simp only [step, ht', Option.ite_none_right_eq_some, Option.some.injEq] at hstep
    obtain ⟨-, rfl⟩ := hstep
    have hsees := hf.sees_of_atRest hrest
    obtain ⟨w', hf'⟩ := hsees.expire hrest ht'
    exact ⟨_, if_pos ((hsees.waiting t').2 ⟨n, d, ht'⟩), hnames, t', w', hf'⟩
  | cancel t' =>
    simp only [label, Option.ite_none_right_eq_some, Option.some.injEq] at hlabel
    obtain ⟨hsleeper, rfl⟩ := hlabel
    obtain ⟨n, d, ht'⟩ := sleeper_eq_some_iff.1 hsleeper
    simp only [step, ht', Option.ite_none_right_eq_some, Option.some.injEq] at hstep
    obtain ⟨hn, rfl⟩ := hstep
    obtain ⟨hmem, hf'⟩ := hf.cancel hg ht' hn
    exact ⟨_, if_pos hmem, hnames, t, _, hf'⟩
  | tick d => cases hlabel
  | run t' => cases hlabel

theorem simulation (u : UserId) :
    Simulation (step offlineDebounce) (Serial u) (label u) UserView.step (Rel u) where
  silent _ _ _ _ h _ hstep hlabel := step_silent h hlabel hstep
  labelled _ _ _ _ _ h hserial hstep hlabel := step_labelled h hserial hlabel hstep

theorem init_rel (u : UserId) : Rel u init UserView.init := by
  have hnone (t : ℕ) (k : Task) : init.tasks.lookup t ≠ some k := nofun
  have hnames : Names init fun _ => u := by
    constructor
    · exact fun t k ht => absurd ht (hnone t k)
    · exact fun t k n ht => absurd ht (hnone t k)
    · exact fun t _ k _ _ ht => absurd ht (hnone t k)
    · intro v n hn
      cases hn
    · exact fun n hn => absurd hn List.not_mem_nil
  refine ⟨⟨_, hnames⟩, 0, UserView.init, ?_, rfl, fun t k _ ht => absurd ht (hnone t k),
    fun n hn => absurd hn (hnone 0 _)⟩
  refine ⟨rfl, rfl, rfl, fun t => ?_, fun t => ?_, fun t => ?_⟩
  · refine iff_of_false (Finset.notMem_empty t) ?_
    rintro ⟨n, d, ht⟩
    exact hnone t _ ht
  · refine iff_of_false (Finset.notMem_empty t) ?_
    rintro ⟨n, d, ht, -⟩
    exact hnone t _ ht
  · refine iff_of_false (by simp [UserView.init]) ?_
    rintro ⟨k, n, ht, -⟩
    exact hnone t k ht

/-! ## Runs -/

/-- **The operations of a user that do not overlap are calls of a machine that makes each in one
step.** -/
theorem serial_refines (u : UserId) (as : List Action) (g : Gateway)
    (hserial : Along (step offlineDebounce) (Serial u) init as)
    (hrun : exec (step offlineDebounce) init as = some g) :
    ∃ v, exec UserView.step .init (trace (step offlineDebounce) (label u) init as) = some v ∧
      (g.AtRest u → Sees u g v) := by
  obtain ⟨v, hv, -, t, w, hf⟩ := (simulation u).exec (init_rel u) hserial hrun
  exact ⟨v, hv, hf.sees_of_atRest⟩

/-- A status is set while the user is registered, and is not `Offline`; no notified debounce task
takes the branch of the sleep. -/
def Regular (u : UserId) (g : Gateway) : Action → Prop
  | .setStatus v status => v = u → status ≠ .offline ∧ g.sessions.isConnected u
  | .expire t => ∀ k ∈ g.tasks.lookup t, ∀ n ∈ k.holds, n ∉ g.presence.notified
  | _ => True

instance (u : UserId) (g : Gateway) : (a : Action) → Decidable (g.Regular u a)
  | .setStatus _ _ => inferInstanceAs (Decidable (_ → _ ∧ _))
  | .expire t => inferInstanceAs (Decidable (∀ k ∈ g.tasks.lookup t, ∀ n ∈ k.holds,
      n ∉ g.presence.notified))
  | .connect _ _ | .close _ _ _ | .tick _ | .run _ | .cancel _ => inferInstanceAs (Decidable True)

/-- Nobody is about to notify a debounce task of a user without a sequence in progress. -/
theorem AtRest.notified_iff (hrest : g.AtRest u) (hg : Names g owner) {d : ℕ}
    (ht : g.tasks.lookup t = some (.sleeping u n d)) :
    g.Notified n ↔ n ∈ g.presence.notified := by
  refine ⟨fun hn => hn.resolve_right ?_, .inl⟩
  rintro ⟨t', k, ht', hk⟩
  have huser : k.userId = u := (hg.named t' k n ht' (.inr hk)).2.symm.trans
    (hg.named t _ n ht (.inl rfl)).2
  obtain ⟨m, e, heq⟩ := Task.eq_sleeping (hrest.isSleeping ht' huser)
  rw [heq] at hk
  cases hk

theorem Rel.regular {a : Action} {e : UserEvent} (h : Rel u g v) (hserial : g.Serial u a)
    (hok : g.Regular u a) (hlabel : g.label u a = some e) : v.Regular e := by
  obtain ⟨⟨owner, hg⟩, t, w, hf⟩ := h
  cases a with
  | connect t' x =>
    simp only [label, Option.ite_none_right_eq_some, Option.some.injEq] at hlabel
    obtain ⟨-, rfl⟩ := hlabel
    trivial
  | close t' z sid =>
    simp only [label, Option.ite_none_right_eq_some, Option.some.injEq] at hlabel
    obtain ⟨-, rfl⟩ := hlabel
    trivial
  | setStatus z status =>
    have hrest : g.AtRest u := hserial (by rw [hlabel]; rfl)
    simp only [label, Option.ite_none_right_eq_some, Option.some.injEq] at hlabel
    obtain ⟨hz, rfl⟩ := hlabel
    obtain ⟨hs, hconn⟩ := hok hz
    refine ⟨hs, ?_⟩
    rw [(hf.sees_of_atRest hrest).sessions]
    simpa [SessionStore.isConnected] using hconn
  | expire t' =>
    have hrest : g.AtRest u := hserial (by rw [hlabel]; rfl)
    simp only [label, Option.ite_none_right_eq_some, Option.some.injEq] at hlabel
    obtain ⟨-, rfl⟩ := hlabel
    intro hmem
    obtain ⟨n, d, ht', hn⟩ := ((hf.sees_of_atRest hrest).notified t').1 hmem
    exact hok _ ht' n rfl ((hrest.notified_iff hg ht').1 hn)
  | cancel t' =>
    simp only [label, Option.ite_none_right_eq_some, Option.some.injEq] at hlabel
    obtain ⟨-, rfl⟩ := hlabel
    trivial
  | tick d => cases hlabel
  | run t' => cases hlabel

theorem Sees.lastEnqueued (h : Sees u g v) : g.presence.lastEnqueued u = v.lastBroadcast := by
  rw [UserView.lastBroadcast, h.broadcasts, Tracker.lastEnqueued, Tracker.updatesOf, List.head?_map,
    List.head?_filter]

/-- Users 7 and 8 open a session each and close it again, operation by operation in turns; the
timer of user 7 expires while that of user 8 is cancelled by another session. -/
def inTurns : List Action :=
  [.connect 0 ⟨1, 7⟩, .connect 1 ⟨2, 8⟩, .run 0, .run 1, .run 1, .run 0, .run 0, .run 1, .run 1,
    .run 0, .run 0, .run 1, .close 2 7 1, .run 2, .close 3 8 2, .run 3, .run 2, .run 3, .run 3,
    .run 2, .run 2, .run 3, .run 3, .run 2, .run 3, .run 2, .run 3, .run 2, .tick 5,
    .connect 4 ⟨3, 8⟩, .expire 2, .run 4, .run 4, .run 2, .run 4, .run 4, .cancel 3, .run 2, .run 4,
    .run 2]

theorem serial_refines_inTurns :
    ∃ g v, exec (step 5) init inTurns = some g ∧
      exec UserView.step .init (trace (step 5) (label 7) init inTurns) = some v ∧
      (g.AtRest 7 → Sees 7 g v) := by
  obtain ⟨g, hg⟩ : ∃ g, exec (step 5) init inTurns = some g := ⟨_, rfl⟩
  obtain ⟨v, hv, hsees⟩ := serial_refines 7 inTurns g (by decide) hg
  exact ⟨g, v, hg, hv, hsees⟩

/-- **Presence settles.** When the sequences of a user do not overlap and none is in progress, the
last update about the user is its status. If besides the steps are regular, a registered user is
not shown as offline, and a user who is shown is registered, or has exactly one debounce task that
waits and was not notified. -/
theorem serial_presence (u : UserId) (as : List Action) (g : Gateway)
    (hserial : Along (step offlineDebounce) (Serial u) init as)
    (hrun : exec (step offlineDebounce) init as = some g) (hrest : g.AtRest u) :
    g.presence.lastEnqueued u = g.presence.getStatus u ∧
    (Along (step offlineDebounce) (Regular u) init as →
      (g.sessions.isConnected u → g.presence.getStatus u ≠ .offline) ∧
      (g.presence.getStatus u ≠ .offline → g.sessions.isConnected u ∨
        ∃! t, ∃ n d, g.tasks.lookup t = some (.sleeping u n d) ∧ n ∉ g.presence.notified)) := by
  obtain ⟨v, hv, ⟨owner, hg⟩, t, w, hf⟩ := (simulation u).exec (init_rel u) hserial hrun
  have hsees := hf.sees_of_atRest hrest
  have hconn : g.sessions.isConnected u = true ↔ v.sessions ≠ [] := by
    rw [hsees.sessions]
    simp [SessionStore.isConnected]
  rw [hsees.lastEnqueued, ← hsees.getStatus, hconn]
  refine ⟨UserView.run_announced hv, fun hregular => ?_⟩
  have hsettled : v.Settled := UserView.run_settled ((simulation u).along
    (fun _ _ _ _ h hserial hok hlabel => h.regular hserial hok hlabel) (init_rel u) hserial
    hregular) hv
  refine ⟨hsettled.shown, fun hs => ?_⟩
  by_cases hnil : v.sessions = []
  · right
    have hwaiting (t : ℕ) : (∃ n d, g.tasks.lookup t = some (.sleeping u n d) ∧
        n ∉ g.presence.notified) ↔ t ∈ v.waiting ∧ t ∉ v.notified := by
      rw [hsees.waiting, hsees.notified]
      constructor
      · rintro ⟨n, d, ht, hn⟩
        refine ⟨⟨n, d, ht⟩, ?_⟩
        rintro ⟨m, e, ht', hm⟩
        cases ht.symm.trans ht'
        exact hn ((hrest.notified_iff hg ht).1 hm)
      · rintro ⟨⟨n, d, ht⟩, hnot⟩
        exact ⟨n, d, ht, fun hn => hnot ⟨n, d, ht, .inl hn⟩⟩
    simp only [hwaiting]
    exact hsettled.existsUnique hs hnil
  · exact .inl hnil

theorem serial_presence_inTurns :
    ∃ g, exec (step 5) init inTurns = some g ∧ g.AtRest 8 ∧
      Along (step 5) (Regular 8) init inTurns ∧
      g.presence.lastEnqueued 8 = g.presence.getStatus 8 ∧
      (Along (step 5) (Regular 8) init inTurns →
        (g.sessions.isConnected 8 → g.presence.getStatus 8 ≠ .offline) ∧
        (g.presence.getStatus 8 ≠ .offline → g.sessions.isConnected 8 ∨
          ∃! t, ∃ n d, g.tasks.lookup t = some (.sleeping 8 n d) ∧ n ∉ g.presence.notified)) := by
  obtain ⟨g, hg, hrest⟩ : ∃ g, exec (step 5) init inTurns = some g ∧ g.AtRest 8 :=
    ⟨_, rfl, by decide⟩
  exact ⟨g, hg, hrest, by decide, serial_presence 8 inTurns g (by decide) hg hrest⟩

end Gateway

end RustRelay
