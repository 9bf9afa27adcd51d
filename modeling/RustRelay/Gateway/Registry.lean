import RustRelay.Core.Run
import RustRelay.Gateway.Session

/-!
# Concurrent inserts and removes

Any number of tasks call `SessionStore::insert` and `SessionStore::remove`; every atomic
operation of every call is a step of its own, so a run is one interleaving.

**The law** (`step_held`). Every inserted session is held exactly once: by the `insert` that has
not pushed it yet, by the map, by the `remove` that took it out and has not returned, or by the
record of the removes that returned true. One operation breaks the law: `remove` releases the
guard of an emptied `Vec` and then deletes the key, with whatever was pushed in between
(`SessionStore.deleted`).

**Theorem (`consistent_iff`).** When no call is in flight, the map holds exactly what was inserted
and not removed, no key has an empty `Vec` and the counter is the number of sessions, *if and
only if* no such deletion took a session with it (and fewer than `2 ^ 64` sessions are there to
be counted). `reconnect_lost` is an interleaving of a reconnect and a disconnect in which one did.
-/

namespace RustRelay

open Machine

/-! ## The machine -/

/-- The store, the calls in flight, and two records: the sessions that `insert` was called with,
and the arguments of every `remove` that returned true. -/
structure Registry where
  store : SessionStore
  calls : DashMap ℕ Call
  inserted : List Session
  removed : List (UserId × SessionId)

/-- The argument of a `remove` that returns true with this operation. -/
def Call.returned : Call → List (UserId × SessionId)
  | .removeCount userId sessionId => [(userId, sessionId)]
  | _ => []

/-- The sessions that an operation deletes together with their key. -/
def SessionStore.deleted (st : SessionStore) : Call → List Session
  | .removeKey userId _ _ => st.vec userId
  | _ => []

namespace Registry

def init : Registry := ⟨.new, ∅, [], []⟩

inductive Action
  /-- Task `t` calls `insert` with a new session. -/
  | callInsert (t : ℕ) (session : Session)
  /-- Task `t` calls `remove`. -/
  | callRemove (t : ℕ) (userId : UserId) (sessionId : SessionId)
  /-- The call of task `t` takes its next operation. -/
  | op (t : ℕ)
  deriving DecidableEq, Repr

def step (r : Registry) : Action → Option Registry
  | .callInsert t session =>
    if r.calls.lookup t = none ∧ session.sessionId ∉ r.inserted.map Session.sessionId then
      some { r with calls := r.calls.insert t (.insert session), inserted := session :: r.inserted }
    else none
  | .callRemove t userId sessionId =>
    if r.calls.lookup t = none then
      some { r with calls := r.calls.insert t (.remove userId sessionId) }
    else none
  | .op t => (r.calls.lookup t).map fun c =>
    { r with
      store := (r.store.op c).1
      calls := DashMap.set r.calls t (r.store.op c).2
      removed := c.returned ++ r.removed }

/-- The sessions that a step deletes without having been asked to. -/
def deleted (r : Registry) : Action → List Session
  | .op t => (r.calls.lookup t).elim [] r.store.deleted
  | _ => []

/-- The step deletes no session. -/
def KeepsSessions (r : Registry) (a : Action) : Prop := r.deleted a = []

instance (r : Registry) (a : Action) : Decidable (r.KeepsSessions a) :=
  inferInstanceAs (Decidable (r.deleted a = []))

/-- What is promised of the registry when no call is in flight. -/
structure Consistent (r : Registry) : Prop where
  sessions : ∀ x : Session, (∃ u, x ∈ r.store.vec u) ↔
    x ∈ r.inserted ∧ (x.userId, x.sessionId) ∉ r.removed
  keys : ∀ u, r.store.sessions.lookup u ≠ some []
  counter : r.store.totalConnections.toNat = r.store.size

/-! ## What a call does to one session -/

end Registry

/-- How often a call holds the session `x`: before pushing it, or after taking it out. -/
def Call.holds (x : Session) : Call → ℕ
  | .insert y => if y = x then 1 else 0
  | .removeKey userId sessionId removed =>
    if removed = true ∧ x = ⟨sessionId, userId⟩ then 1 else 0
  | .removeCount userId sessionId => if x = ⟨sessionId, userId⟩ then 1 else 0
  | _ => 0

/-- Every session is in the `Vec` of its user, once. -/
structure SessionStore.WF (st : SessionStore) : Prop where
  owner : ∀ u, ∀ x ∈ st.vec u, x.userId = u
  once : ∀ x, (st.vec x.userId).count x ≤ 1

namespace SessionStore

variable {st : SessionStore}

theorem retain_length {u : UserId} {xs : List Session} (howner : ∀ x ∈ xs, x.userId = u)
    (sid : SessionId) :
    (xs.filter fun s => s.sessionId ≠ sid).length + xs.count ⟨sid, u⟩ = xs.length := by
  induction xs with
  | nil => rfl
  | cons y ys ih =>
    have hy : y.userId = u := howner y List.mem_cons_self
    have ih := ih fun x hx => howner x (List.mem_cons_of_mem y hx)
    by_cases hsid : y.sessionId = sid
    · have heq : y = ⟨sid, u⟩ := by cases y; simp_all
      rw [List.filter_cons_of_neg (by simpa using hsid), heq, List.count_cons_self,
        List.length_cons]
      omega
    · have hne : y ≠ ⟨sid, u⟩ := fun h => hsid (by rw [h])
      rw [List.filter_cons_of_pos (by simpa using hsid), List.count_cons_of_ne hne,
        List.length_cons, List.length_cons]
      omega

theorem retain_count (xs : List Session) (sid : SessionId) (x : Session) :
    (xs.filter fun s => s.sessionId ≠ sid).count x =
      if x.sessionId = sid then 0 else xs.count x := by
  by_cases h : x.sessionId = sid
  · rw [if_pos h, List.count_eq_zero]
    intro hx
    simpa [h] using (List.mem_filter.1 hx).2
  · rw [if_neg h, List.count_filter (by simpa using h)]

theorem count_eq_ite (hst : st.WF) (x : Session) :
    (st.vec x.userId).count x = if x ∈ st.vec x.userId then 1 else 0 := by
  split_ifs with hx
  · have hpos := List.count_pos_iff.2 hx
    have honce := hst.once x
    omega
  · exact List.count_eq_zero.2 hx

/-- What a `remove` does next depends on the `Vec` alone. -/
theorem next_remove (hst : st.WF) (u : UserId) (sid : SessionId) :
    (st.op (.remove u sid)).2 = match st.sessions.lookup u with
      | none => none
      | some xs =>
        if (xs.filter fun s => s.sessionId ≠ sid).isEmpty then
          some (.removeKey u sid (⟨sid, u⟩ ∈ st.vec u))
        else if ⟨sid, u⟩ ∈ st.vec u then some (.removeCount u sid)
        else none := by
  cases hvec : st.sessions.lookup u with
  | none => simp only [op, hvec]
  | some xs =>
    have hxs : st.vec u = xs := vec_of_lookup hvec
    have hlen := retain_length (hxs ▸ hst.owner u) sid
    have hremoved : (xs.filter fun s => s.sessionId ≠ sid).length < xs.length ↔
        (⟨sid, u⟩ : Session) ∈ st.vec u := by
      rw [hxs, ← List.count_pos_iff]
      omega
    simp only [op, hvec, hremoved, decide_eq_true_eq]

/-- After the `retain`, the call holds the session it took out. -/
theorem next_remove_holds (hst : st.WF) (u : UserId) (sid : SessionId) (x : Session) :
    (st.op (.remove u sid)).2.elim 0 (Call.holds x) =
      if x = ⟨sid, u⟩ then (st.vec x.userId).count x else 0 := by
  rw [next_remove hst]
  by_cases hx : x = ⟨sid, u⟩
  · subst hx
    rw [if_pos rfl, count_eq_ite hst]
    cases hvec : st.sessions.lookup u with
    | none => simp [vec, hvec]
    | some xs =>
      dsimp only
      split_ifs <;> simp_all [Call.holds]
  · rw [if_neg hx]
    cases st.sessions.lookup u with
    | none => rfl
    | some xs =>
      dsimp only
      split_ifs <;> simp [Call.holds, hx]

/-- **Who holds a session changes, that one does not**, except for the deleted ones. -/
theorem op_holds (hst : st.WF) (c : Call) (x : Session) :
    (st.op c).2.elim 0 (Call.holds x) + ((st.op c).1.vec x.userId).count x +
        c.returned.count (x.userId, x.sessionId) + (st.deleted c).count x =
      c.holds x + (st.vec x.userId).count x := by
  cases c with
  | insert y =>
    rw [vec_insert]
    by_cases hyx : y = x
    · subst hyx
      simp [op, Call.holds, Call.returned, deleted, Nat.add_comm]
    · by_cases hu : x.userId = y.userId <;>
        simp [op, Call.holds, Call.returned, deleted, hyx, hu]
  | insertCount => simp [op, Call.holds, Call.returned, deleted, vec]
  | remove u sid =>
    have hnext := next_remove_holds hst u sid x
    have honce := hst.once x
    rw [vec_remove]
    by_cases hu : x.userId = u
    · rw [if_pos hu, retain_count]
      simp only [hnext, Call.returned, deleted, Call.holds, List.count_nil]
      by_cases hsid : x.sessionId = sid
      · have hx : x = ⟨sid, u⟩ := by cases x; simp_all
        rw [if_pos hsid, if_pos hx]
        omega
      · have hx : x ≠ ⟨sid, u⟩ := fun h => hsid (by rw [h])
        rw [if_neg hsid, if_neg hx]
        omega
    · have hx : x ≠ ⟨sid, u⟩ := fun h => hu (by rw [h])
      rw [if_neg hu, hnext, if_neg hx]
      simp [Call.returned, deleted, Call.holds]
  | removeKey u sid removed =>
    rw [vec_removeKey]
    by_cases hu : x.userId = u
    · cases removed <;> simp [op, Call.holds, Call.returned, deleted, hu]
    · have hnot : x ∉ st.vec u := fun hx => hu (hst.owner u x hx)
      cases removed <;>
        simp [op, Call.holds, Call.returned, deleted, hu, List.count_eq_zero.2 hnot]
  | removeCount u sid =>
    by_cases hx : x = ⟨sid, u⟩
    · subst hx
      simp [op, Call.holds, Call.returned, deleted, vec, Nat.add_comm]
    · have hne : ((u, sid) : UserId × SessionId) ≠ (x.userId, x.sessionId) := by
        rintro ⟨⟩
        exact hx rfl
      simp [op, Call.holds, Call.returned, deleted, vec, hx, List.count_cons_of_ne hne]

/-- An empty `Vec` was there before, or the call that emptied it deletes its key next. -/
theorem op_empty {u : UserId} {c : Call} (hu : (st.op c).1.sessions.lookup u = some []) :
    (∃ sid removed, (st.op c).2 = some (.removeKey u sid removed)) ∨
      (st.sessions.lookup u = some [] ∧ ∀ sid removed, c ≠ .removeKey u sid removed) := by
  cases c with
  | insert y =>
    simp only [op, DashMap.lookup_insert_ite] at hu
    split_ifs at hu
    · simp at hu
    · exact .inr ⟨hu, by simp⟩
  | insertCount | removeCount => exact .inr ⟨hu, by simp⟩
  | remove u' sid =>
    cases hvec : st.sessions.lookup u' with
    | none =>
      simp only [op, hvec] at hu
      exact .inr ⟨hu, by simp⟩
    | some xs =>
      simp only [op, hvec, DashMap.lookup_insert_ite] at hu ⊢
      split_ifs at hu with hu'
      · rw [Option.some.injEq] at hu
        rw [hu, hu']
        exact .inl ⟨sid, _, rfl⟩
      · exact .inr ⟨hu, by simp⟩
  | removeKey u' sid removed =>
    simp only [op, DashMap.lookup_erase_ite] at hu
    split_ifs at hu with hu'
    refine .inr ⟨hu, fun sid' removed' h => hu' ?_⟩
    exact (Call.removeKey.inj h).1.symm

end SessionStore

/-! ## What a call does to the counter -/

/-- The session a call has pushed and not counted. -/
def Call.adds : Call → ℕ
  | .insertCount => 1
  | _ => 0

/-- The session a call has taken out and still counts. -/
def Call.subs : Call → ℕ
  | .removeKey _ _ removed => if removed then 1 else 0
  | .removeCount _ _ => 1
  | _ => 0

namespace SessionStore

variable {st : SessionStore}

theorem valueAt_length (u : UserId) :
    DashMap.valueAt List.length st.sessions u = (st.vec u).length := by
  rw [DashMap.valueAt, vec]
  cases st.sessions.lookup u <;> rfl

theorem next_remove_subs (hst : st.WF) (u : UserId) (sid : SessionId) :
    (st.op (.remove u sid)).2.elim 0 Call.subs = (st.vec u).count ⟨sid, u⟩ := by
  have hcount := count_eq_ite hst ⟨sid, u⟩
  rw [next_remove hst, hcount]
  cases hvec : st.sessions.lookup u with
  | none => simp [vec, hvec]
  | some xs =>
    dsimp only
    split_ifs <;> simp_all [Call.subs]

theorem size_remove (hst : st.WF) (u : UserId) (sid : SessionId) :
    (st.op (.remove u sid)).1.size + (st.vec u).count ⟨sid, u⟩ = st.size := by
  cases hvec : st.sessions.lookup u with
  | none => simp [op, vec, hvec]
  | some xs =>
    have hxs : st.vec u = xs := vec_of_lookup hvec
    have hsum := DashMap.sum_insert List.length st.sessions u
      (xs.filter fun s => s.sessionId ≠ sid)
    have hlen := retain_length (hxs ▸ hst.owner u) sid
    rw [valueAt_length, hxs] at hsum
    rw [hxs]
    simp only [size, op, hvec]
    omega

/-- **The counter and the map drift apart only by what is deleted**, modulo the word size. -/
theorem op_counter (hst : st.WF) (c : Call) :
    ((st.op c).1.totalConnections.toNat + (st.op c).2.elim 0 Call.adds + st.size + c.subs) %
        2 ^ 64 =
      (st.totalConnections.toNat + c.adds + (st.op c).1.size + (st.op c).2.elim 0 Call.subs +
        (st.deleted c).length) % 2 ^ 64 := by
  cases c with
  | insert x =>
    have hsum := DashMap.sum_insert List.length st.sessions x.userId (st.vec x.userId ++ [x])
    rw [valueAt_length, List.length_append, List.length_singleton] at hsum
    simp only [op, size, deleted, Call.adds, Call.subs, Option.elim_some, List.length_nil]
    omega
  | insertCount =>
    simp only [op, size, deleted, Call.adds, Call.subs, Option.elim_none, List.length_nil,
      UInt64.toNat_add, UInt64.reduceToNat]
    omega
  | remove u sid =>
    have hsize := size_remove hst u sid
    have hadds : (st.op (.remove u sid)).2.elim 0 Call.adds = 0 := by
      rw [next_remove hst]
      cases st.sessions.lookup u with
      | none => rfl
      | some xs => dsimp only; split_ifs <;> rfl
    have htotal : (st.op (.remove u sid)).1.totalConnections = st.totalConnections := by
      simp only [op]
      cases st.sessions.lookup u <;> rfl
    rw [hadds, htotal, next_remove_subs hst, ← hsize]
    simp only [deleted, Call.adds, Call.subs, List.length_nil]
    omega
  | removeKey u sid removed =>
    have hsum := DashMap.sum_erase List.length st.sessions u
    rw [valueAt_length] at hsum
    cases removed <;>
      simp only [op, size, deleted, Call.adds, Call.subs, Option.elim_none, Option.elim_some,
        if_true, if_false, Bool.false_eq_true] <;> omega
  | removeCount u sid =>
    simp only [op, size, deleted, Call.adds, Call.subs, Option.elim_none, List.length_nil,
      UInt64.toNat_sub, UInt64.reduceToNat]
    omega

end SessionStore

/-! ## The invariant -/

namespace Registry

/-- How often the session `x` is held: by the calls, by the map, by the record of removes. -/
def held (r : Registry) (x : Session) : ℕ :=
  DashMap.sum (Call.holds x) r.calls + (r.store.vec x.userId).count x +
    r.removed.count (x.userId, x.sessionId)

structure Inv (r : Registry) : Prop where
  fresh : (r.inserted.map Session.sessionId).Nodup
  owner : ∀ u, ∀ x ∈ r.store.vec u, x.userId = u
  held : ∀ x, r.held x ≤ r.inserted.count x
  empty : ∀ u, r.store.sessions.lookup u = some [] →
    ∃ t sid removed, r.calls.lookup t = some (.removeKey u sid removed)

variable {r r' : Registry} {a : Action}

theorem Inv.count_le_one (h : r.Inv) (x : Session) : r.inserted.count x ≤ 1 :=
  List.nodup_iff_count_le_one.1 (List.Nodup.of_map _ h.fresh) x

theorem Inv.wf (h : r.Inv) : r.store.WF := by
  refine ⟨h.owner, ?_⟩
  intro x
  have hheld := h.held x
  have hone := h.count_le_one x
  rw [Registry.held] at hheld
  omega

theorem Inv.inserted_of_mem (h : r.Inv) {u : UserId} {x : Session} (hx : x ∈ r.store.vec u) :
    x ∈ r.inserted := by
  have hpos : 0 < (r.store.vec x.userId).count x := by
    rw [h.owner u x hx]
    exact List.count_pos_iff.2 hx
  have hheld := h.held x
  rw [Registry.held] at hheld
  exact List.count_pos_iff.1 (by omega)

theorem Inv.eq_of_sessionId (h : r.Inv) {x y : Session} (hx : x ∈ r.inserted)
    (hy : y ∈ r.inserted) (hid : x.sessionId = y.sessionId) : x = y :=
  List.inj_on_of_nodup_map h.fresh hx hy hid

theorem Inv.ids_nodup (h : r.Inv) (u : UserId) :
    ((r.store.vec u).map Session.sessionId).Nodup := by
  refine List.Nodup.map_on (fun x hx y hy hid =>
    h.eq_of_sessionId (h.inserted_of_mem hx) (h.inserted_of_mem hy) hid)
    (List.nodup_iff_count_le_one.2 fun x => ?_)
  by_cases hx : x ∈ r.store.vec u
  · rw [← h.owner u x hx]
    exact h.wf.once x
  · rw [List.count_eq_zero.2 hx]
    exact Nat.zero_le 1

theorem inv_init : init.Inv where
  fresh := List.nodup_nil
  owner _ _ hx := absurd hx List.not_mem_nil
  held _ := le_refl 0
  empty _ hu := absurd hu nofun

theorem step_cases (h : r.step a = some r') :
    (∃ t x, a = .callInsert t x ∧ r.calls.lookup t = none ∧
      x.sessionId ∉ r.inserted.map Session.sessionId ∧
      r' = { r with calls := r.calls.insert t (.insert x), inserted := x :: r.inserted }) ∨
    (∃ t u sid, a = .callRemove t u sid ∧ r.calls.lookup t = none ∧
      r' = { r with calls := r.calls.insert t (.remove u sid) }) ∨
    (∃ t c, a = .op t ∧ r.calls.lookup t = some c ∧
      r' = { r with
        store := (r.store.op c).1
        calls := DashMap.set r.calls t (r.store.op c).2
        removed := c.returned ++ r.removed }) := by
  cases a with
  | callInsert t x =>
    simp only [step, Option.ite_none_right_eq_some, Option.some.injEq] at h
    obtain ⟨⟨ht, hfresh⟩, rfl⟩ := h
    exact .inl ⟨t, x, rfl, ht, hfresh, rfl⟩
  | callRemove t u sid =>
    simp only [step, Option.ite_none_right_eq_some, Option.some.injEq] at h
    obtain ⟨ht, rfl⟩ := h
    exact .inr (.inl ⟨t, u, sid, rfl, ht, rfl⟩)
  | op t =>
    simp only [step, Option.map_eq_some_iff] at h
    obtain ⟨c, ht, rfl⟩ := h
    exact .inr (.inr ⟨t, c, rfl, ht, rfl⟩)

/-- **The law of conservation**: a step holds every session as often as before, and a newly
inserted one once, except for the deleted ones. -/
theorem step_held (h : r.Inv) (hstep : r.step a = some r') (x : Session) :
    r'.held x + (r.deleted a).count x + r.inserted.count x = r.held x + r'.inserted.count x := by
  obtain ⟨t, y, rfl, ht, -, rfl⟩ | ⟨t, u, sid, rfl, ht, rfl⟩ | ⟨t, c, rfl, ht, rfl⟩ :=
    step_cases hstep
  · have hsum := DashMap.sum_insert (Call.holds x) r.calls t (.insert y)
    rw [DashMap.valueAt_of_none _ ht] at hsum
    simp only [held, deleted, List.count_nil, List.count_cons, beq_iff_eq]
    simp only [Call.holds] at hsum
    omega
  · have hsum := DashMap.sum_insert (Call.holds x) r.calls t (.remove u sid)
    rw [DashMap.valueAt_of_none _ ht] at hsum
    simp only [held, deleted, List.count_nil]
    simp only [Call.holds] at hsum
    omega
  · have hop := SessionStore.op_holds h.wf c x
    have hsum := DashMap.sum_set (Call.holds x) r.calls t (r.store.op c).2
    rw [DashMap.valueAt_of_lookup _ ht] at hsum
    simp only [held, deleted, ht, Option.elim_some, List.count_append]
    omega

theorem step_empty (h : r.Inv) (hstep : r.step a = some r') {u : UserId}
    (hu : r'.store.sessions.lookup u = some []) :
    ∃ t sid removed, r'.calls.lookup t = some (.removeKey u sid removed) := by
  obtain ⟨t, y, -, ht, -, rfl⟩ | ⟨t, u', sid', -, ht, rfl⟩ | ⟨t, c, -, ht, rfl⟩ :=
    step_cases hstep
  · obtain ⟨t', sid, removed, ht'⟩ := h.empty u hu
    refine ⟨t', sid, removed, ?_⟩
    rw [DashMap.lookup_insert_ite, if_neg (by rintro rfl; simp [ht] at ht'), ht']
  · obtain ⟨t', sid, removed, ht'⟩ := h.empty u hu
    refine ⟨t', sid, removed, ?_⟩
    rw [DashMap.lookup_insert_ite, if_neg (by rintro rfl; simp [ht] at ht'), ht']
  · rcases SessionStore.op_empty hu with ⟨sid, removed, hnext⟩ | ⟨hold, hc⟩
    · refine ⟨t, sid, removed, ?_⟩
      rw [DashMap.lookup_set, if_pos rfl, hnext]
    · obtain ⟨t', sid, removed, ht'⟩ := h.empty u hold
      refine ⟨t', sid, removed, ?_⟩
      have hne : t' ≠ t := by
        rintro rfl
        exact hc sid removed (Option.some.inj (ht.symm.trans ht'))
      rw [DashMap.lookup_set, if_neg hne, ht']

theorem step_inv (h : r.Inv) (hstep : r.step a = some r') : r'.Inv where
  fresh := by
    obtain ⟨t, y, -, -, hfresh, rfl⟩ | ⟨t, u, sid, -, -, rfl⟩ | ⟨t, c, -, -, rfl⟩ :=
      step_cases hstep
    · exact List.nodup_cons.2 ⟨hfresh, h.fresh⟩
    · exact h.fresh
    · exact h.fresh
  owner := by
    obtain ⟨t, y, -, -, -, rfl⟩ | ⟨t, u, sid, -, -, rfl⟩ | ⟨t, c, -, -, rfl⟩ :=
      step_cases hstep
    · exact h.owner
    · exact h.owner
    · exact SessionStore.op_owner h.owner c
  held x := by
    have hlaw := step_held h hstep x
    have hheld := h.held x
    omega
  empty _ hu := step_empty h hstep hu

theorem step_inserted (hstep : r.step a = some r') {x : Session} (hx : x ∈ r.inserted) :
    x ∈ r'.inserted := by
  obtain ⟨t, y, -, -, -, rfl⟩ | ⟨t, u, sid, -, -, rfl⟩ | ⟨t, c, -, -, rfl⟩ := step_cases hstep
  · exact List.mem_cons_of_mem y hx
  · exact hx
  · exact hx

theorem step_store (hstep : r.step a = some r') (ha : ∀ t, a ≠ .op t) : r'.store = r.store := by
  obtain ⟨t, y, -, -, -, rfl⟩ | ⟨t, u, sid, -, -, rfl⟩ | ⟨t, c, rfl, -, -⟩ := step_cases hstep
  · rfl
  · rfl
  · exact absurd rfl (ha t)

theorem step_store_op {t : ℕ} (hstep : r.step (.op t) = some r') :
    ∃ c, r.calls.lookup t = some c ∧ r'.store = (r.store.op c).1 := by
  simp only [step, Option.map_eq_some_iff] at hstep
  obtain ⟨c, hc, rfl⟩ := hstep
  exact ⟨c, hc, rfl⟩

/-- A session that was inserted and is not in the map, nor about to be. -/
def Gone (r : Registry) (x : Session) : Prop :=
  x ∈ r.inserted ∧ x ∉ r.store.vec x.userId ∧ ∀ t, r.calls.lookup t ≠ some (.insert x)

theorem step_gone (hstep : r.step a = some r') {x : Session} (h : r.Gone x) : r'.Gone x := by
  obtain ⟨hins, hvec, hcalls⟩ := h
  refine ⟨step_inserted hstep hins, ?_, ?_⟩
  · obtain ⟨t, y, -, -, -, rfl⟩ | ⟨t, u, sid, -, -, rfl⟩ | ⟨t, c, -, ht, rfl⟩ := step_cases hstep
    · exact hvec
    · exact hvec
    · intro hx
      by_cases hc : ∀ y, c ≠ .insert y
      · exact hvec (SessionStore.mem_vec_op hc hx)
      · push Not at hc
        obtain ⟨y, rfl⟩ := hc
        rcases SessionStore.mem_vec_insert.1 hx with hx | ⟨rfl, -⟩
        · exact hvec hx
        · exact hcalls t ht
  · intro t' ht'
    obtain ⟨t, y, -, -, hfresh, rfl⟩ | ⟨t, u, sid, -, -, rfl⟩ | ⟨t, c, -, -, rfl⟩ :=
      step_cases hstep
    · rw [DashMap.lookup_insert_ite] at ht'
      split_ifs at ht'
      · obtain rfl := Call.insert.inj (Option.some.inj ht')
        exact hfresh (List.mem_map_of_mem hins)
      · exact hcalls t' ht'
    · rw [DashMap.lookup_insert_ite] at ht'
      split_ifs at ht'
      · cases ht'
      · exact hcalls t' ht'
    · rw [DashMap.lookup_set] at ht'
      split_ifs at ht'
      · exact SessionStore.op_next_ne_insert ht' x rfl
      · exact hcalls t' ht'

theorem Inv.inserted_of_call (h : r.Inv) {t : ℕ} {x : Session}
    (ht : r.calls.lookup t = some (.insert x)) : x ∈ r.inserted := by
  have hsum := DashMap.sum_erase (Call.holds x) r.calls t
  rw [DashMap.valueAt_of_lookup _ ht] at hsum
  have hone : Call.holds x (.insert x) = 1 := if_pos rfl
  have hheld := h.held x
  rw [Registry.held] at hheld
  exact List.count_pos_iff.1 (by omega)

theorem step_insert (hstep : r.step a = some r') (ha : ∀ t x, a ≠ .callInsert t x) {t : ℕ}
    {x : Session} (ht : r'.calls.lookup t = some (.insert x)) :
    r.calls.lookup t = some (.insert x) := by
  obtain ⟨t', y, rfl, -, -, -⟩ | ⟨t', u, sid, -, -, rfl⟩ | ⟨t', c, -, -, rfl⟩ := step_cases hstep
  · exact absurd rfl (ha t' y)
  · rw [DashMap.lookup_insert_ite] at ht
    split_ifs at ht
    · cases ht
    · exact ht
  · rw [DashMap.lookup_set] at ht
    split_ifs at ht
    · exact absurd rfl (SessionStore.op_next_ne_insert ht x)
    · exact ht

/-! ## What a whole run keeps -/

/-- Every inserted session is held, and the counter owes nothing beyond the calls in flight. -/
def Complete (r : Registry) : Prop := ∀ x, r.held x = r.inserted.count x

/-- The counter, up to the calls that have not counted yet, modulo the word size. -/
def Counted (r : Registry) : Prop :=
  (r.store.totalConnections.toNat + DashMap.sum Call.adds r.calls) % 2 ^ 64 =
    (r.store.size + DashMap.sum Call.subs r.calls) % 2 ^ 64

/-- A step keeps every session exactly if it deletes none. -/
theorem step_complete_iff (h : r.Inv) (hstep : r.step a = some r') :
    r'.Complete ↔ r.Complete ∧ r.KeepsSessions a := by
  constructor
  · intro hall
    refine ⟨fun x => ?_, List.eq_nil_iff_forall_not_mem.2 fun x hx => ?_⟩
    · have hlaw := step_held h hstep x
      have hheld := h.held x
      have hx := hall x
      omega
    · have hlaw := step_held h hstep x
      have hheld := h.held x
      have hpos := List.count_pos_iff.2 hx
      have hx := hall x
      omega
  · intro hboth x
    rcases hboth with ⟨hall, hkeeps⟩
    have hlaw := step_held h hstep x
    have hx := hall x
    rw [hkeeps, List.count_nil] at hlaw
    omega

theorem step_counted (h : r.Inv) (hkeeps : r.KeepsSessions a) (hcounted : r.Counted)
    (hstep : r.step a = some r') : r'.Counted := by
  obtain ⟨t, y, rfl, ht, -, rfl⟩ | ⟨t, u, sid, rfl, ht, rfl⟩ | ⟨t, c, rfl, ht, rfl⟩ :=
    step_cases hstep
  · have hadds := DashMap.sum_insert Call.adds r.calls t (.insert y)
    have hsubs := DashMap.sum_insert Call.subs r.calls t (.insert y)
    rw [DashMap.valueAt_of_none _ ht] at hadds hsubs
    simp only [Call.adds, Call.subs, add_zero] at hadds hsubs
    simpa only [Counted, hadds, hsubs] using hcounted
  · have hadds := DashMap.sum_insert Call.adds r.calls t (.remove u sid)
    have hsubs := DashMap.sum_insert Call.subs r.calls t (.remove u sid)
    rw [DashMap.valueAt_of_none _ ht] at hadds hsubs
    simp only [Call.adds, Call.subs, add_zero] at hadds hsubs
    simpa only [Counted, hadds, hsubs] using hcounted
  · have hop := SessionStore.op_counter h.wf c
    have hadds := DashMap.sum_set Call.adds r.calls t (r.store.op c).2
    have hsubs := DashMap.sum_set Call.subs r.calls t (r.store.op c).2
    rw [DashMap.valueAt_of_lookup _ ht] at hadds hsubs
    have hdel : (r.store.deleted c).length = 0 := by
      rw [KeepsSessions, deleted, ht, Option.elim_some] at hkeeps
      rw [hkeeps, List.length_nil]
    simp only [Counted] at hcounted ⊢
    omega

/-! ## Runs -/

theorem init_complete : init.Complete := fun _ => rfl

theorem init_counted : init.Counted := rfl

theorem held_of_quiescent (hq : r.calls = ∅) (x : Session) :
    r.held x = (r.store.vec x.userId).count x + r.removed.count (x.userId, x.sessionId) := by
  rw [held, hq, DashMap.sum_empty, zero_add]

/-- With no call in flight, nothing is lost exactly if the map holds what it should. -/
theorem complete_iff (h : r.Inv) (hq : r.calls = ∅) :
    r.Complete ↔ ∀ x : Session, (∃ u, x ∈ r.store.vec u) ↔
      x ∈ r.inserted ∧ (x.userId, x.sessionId) ∉ r.removed := by
  have hmem (x : Session) : (∃ u, x ∈ r.store.vec u) ↔ 0 < (r.store.vec x.userId).count x := by
    rw [List.count_pos_iff]
    refine ⟨fun ⟨u, hx⟩ => ?_, fun hx => ⟨_, hx⟩⟩
    rw [h.owner u x hx]
    exact hx
  apply forall_congr'
  intro x
  have hheld := h.held x
  have hone := h.count_le_one x
  rw [held_of_quiescent hq] at hheld ⊢
  rw [hmem, ← List.count_pos_iff, ← List.count_eq_zero]
  omega

/-- **The registry is consistent exactly after the runs that delete no session.** -/
theorem consistent_iff (as : List Action) (hrun : exec step init as = some r)
    (hq : r.calls = ∅) :
    r.Consistent ↔ Along step KeepsSessions init as ∧ r.store.size < 2 ^ 64 := by
  have hinv : r.Inv := exec_invariant (fun _ _ _ h hs => step_inv h hs) inv_init hrun
  have hrunIff : r.Complete ↔ Along step KeepsSessions init as := by
    rw [exec_iff_along (fun _ _ _ h hs => step_inv h hs)
      (fun _ _ _ h hs => step_complete_iff h hs) inv_init hrun]
    exact and_iff_right init_complete
  constructor
  · intro hcons
    refine ⟨hrunIff.1 ((complete_iff hinv hq).2 hcons.sessions), ?_⟩
    rw [← hcons.counter]
    exact r.store.totalConnections.toNat_lt
  · intro hboth
    rcases hboth with ⟨halong, hsize⟩
    refine ⟨(complete_iff hinv hq).1 (hrunIff.2 halong), ?_, ?_⟩
    · intro u hu
      obtain ⟨t, sid, removed, ht⟩ := hinv.empty u hu
      rw [hq] at ht
      exact absurd ht nofun
    · have hcounted : r.Inv ∧ r.Counted := exec_invariant_along (I := fun r => r.Inv ∧ r.Counted)
        (fun _ _ _ h hok hs => ⟨step_inv h.1 hs, step_counted h.1 hok h.2 hs⟩)
        ⟨inv_init, init_counted⟩ halong hrun
      have hmod := hcounted.2
      have hlt := r.store.totalConnections.toNat_lt
      rw [Counted, hq, DashMap.sum_empty, DashMap.sum_empty] at hmod
      omega

/-- A user connects twice and closes the first session; every step is taken. -/
def twoSessions : List Action :=
  [.callInsert 0 ⟨1, 7⟩, .op 0, .op 0, .callInsert 1 ⟨2, 7⟩, .op 1, .callRemove 2 7 1, .op 2,
    .op 1, .op 2]

theorem consistent_iff_twoSessions :
    ∃ r, exec step init twoSessions = some r ∧ r.calls = ∅ ∧ r.Consistent := by
  refine ⟨_, rfl, rfl, (consistent_iff twoSessions rfl rfl).2 ⟨?_, ?_⟩⟩
  · decide
  · decide

/-- The user closes one session and reconnects: the new session is pushed after `remove` has
released the guard of the emptied `Vec` and before it deletes the key. -/
def reconnect : List Action :=
  [.callInsert 0 ⟨1, 7⟩, .op 0, .op 0, .callRemove 1 7 1, .op 1,
    .callInsert 2 ⟨2, 7⟩, .op 2, .op 2, .op 1, .op 1]

/-- **The reconnected session is lost**: nobody removed it, the map is empty, and it is counted. -/
theorem reconnect_lost : ∃ r, exec step init reconnect = some r ∧ r.calls = ∅ ∧
    ⟨2, 7⟩ ∈ r.inserted ∧ (7, 2) ∉ r.removed ∧ r.store.sessions = ∅ ∧
    r.store.totalConnections = 1 ∧ ¬r.Consistent := by
  refine ⟨_, rfl, rfl, by decide, by decide, rfl, by decide, ?_⟩
  intro h
  exact absurd h.counter (by decide)

end Registry

end RustRelay
