import RustRelay.Core.Run
import RustRelay.Router.Fanout

/-!
# The member cache under concurrency

Any number of `get_channel_members` calls interleave with membership changes, invalidations and
the cleanup task. A call looks the channel up, and on a miss asks the database, reads the clock
and inserts the answer: four steps, between which everything else may happen.

**Theorem (`invalidation_takes_effect`).** A call that started after an invalidation returns a list
that the database has held since, in every run in which no call inserts a list that is still fresh
and that the database has not held since the latest invalidation. A miss that was in flight during
the invalidation can do just that (`stale_insert`), and any later call then returns the old list
(`stale_insert_observed`).

**Theorem (`members_provenance`).** Every list returned for a channel is the answer to a query for
that channel, the call's own or one inserted less than `cache_ttl` before its lookup; and the calls
of two runs that differ only in what the cleanup does are the same.

The clock is a natural number that ticks, and the database is kept with its past (`dbAt`). What the
first theorem needs of a cache entry and of a call is `Inv`, what the second needs is `Sourced`.
Undisturbed, the steps are the function of the source: `exec_getChannelMembers`.
-/

namespace RustRelay

open Machine

/-- The lookup at the top of `get_channel_members`, at time `now`. -/
def MessageRouter.cached (router : MessageRouter) (now : ℕ) (channelId : ChannelId) :
    Option (List UserId) :=
  match router.memberCache.lookup channelId with
  | none => none
  | some entry => if now - entry.fetchedAt < router.cacheTtl then some entry.members else none

/-- `spawn_cache_cleanup`: what a pass does when it comes to the entry of a channel. -/
def MessageRouter.expire (router : MessageRouter) (now : ℕ) (channelId : ChannelId) :
    MessageRouter :=
  { router with memberCache := match router.memberCache.lookup channelId with
      | none => router.memberCache
      | some entry =>
        if now - entry.fetchedAt < router.cacheTtl then router.memberCache
        else router.memberCache.erase channelId }

/-- A pass of `spawn_cache_cleanup`, if nothing happens meanwhile. -/
def MessageRouter.cleanup (router : MessageRouter) (now : ℕ) : MessageRouter :=
  { router with memberCache := DashMap.retain router.memberCache fun _ entry =>
      now - entry.fetchedAt < router.cacheTtl }

theorem cached_eq_some {router : MessageRouter} {now : ℕ} {channelId : ChannelId}
    {members : List UserId} :
    router.cached now channelId = some members ↔
      ∃ entry, router.memberCache.lookup channelId = some entry ∧
        now - entry.fetchedAt < router.cacheTtl ∧ entry.members = members := by
  unfold MessageRouter.cached
  cases router.memberCache.lookup channelId with
  | none => simp
  | some entry =>
    dsimp only
    split_ifs with hfresh
    · simp [hfresh]
    · simp [hfresh]

theorem getChannelMembers_eq (router : MessageRouter) (db : Database)
    (fetch : Except DbError Unit) (now : ℕ) (channelId : ChannelId) :
    router.getChannelMembers db fetch now channelId =
      (router.cached now channelId).elim (router.fetchMembers db fetch now channelId)
        fun members => (.ok members, router) := by
  unfold MessageRouter.getChannelMembers MessageRouter.cached
  cases router.memberCache.lookup channelId with
  | none => rfl
  | some entry =>
    dsimp only
    split_ifs
    · rfl
    · rfl

theorem lookup_expire {router : MessageRouter} {now : ℕ} {channelId c : ChannelId}
    {entry : CachedMembers} :
    (router.expire now channelId).memberCache.lookup c = some entry ↔
      router.memberCache.lookup c = some entry ∧
        (c = channelId → now - entry.fetchedAt < router.cacheTtl) := by
  unfold MessageRouter.expire
  cases hold : router.memberCache.lookup channelId with
  | none =>
    refine ⟨fun h => ⟨h, ?_⟩, And.left⟩
    rintro rfl
    rw [hold] at h
    cases h
  | some old =>
    dsimp only
    split_ifs with hfresh
    · refine ⟨fun h => ⟨h, ?_⟩, And.left⟩
      rintro rfl
      obtain rfl := Option.some.inj (hold.symm.trans h)
      exact hfresh
    · rw [DashMap.lookup_erase_ite]
      split_ifs with hc
      · refine ⟨fun h => (by cases h), ?_⟩
        rintro ⟨h, hentry⟩
        rw [hc] at h
        obtain rfl := Option.some.inj (hold.symm.trans h)
        exact absurd (hentry hc) hfresh
      · exact ⟨fun h => ⟨h, fun h' => absurd h' hc⟩, And.left⟩

/-! ## The machine -/

/-- Where a call is. -/
inductive MemberPc
  /-- It has been called. -/
  | lookup
  /-- It has missed, and waits for the database. -/
  | query
  /-- `Instant::now()` is next. -/
  | stamp (members : List UserId)
  /-- `member_cache.insert` is next. -/
  | insert (members : List UserId) (fetchedAt : ℕ)
  | returned (result : Except DbError (List UserId))

/-- The list that a call has. -/
def MemberPc.list : MemberPc → Option (List UserId)
  | .stamp members | .insert members _ | .returned (.ok members) => some members
  | .lookup | .query | .returned (.error _) => none

structure MemberCall where
  channelId : ChannelId
  pc : MemberPc
  /-- The version of the database at the latest invalidation before the call. -/
  since : ℕ
  /-- When it looked the channel up. -/
  lookedUpAt : ℕ

/-- The database has answered a query: whose, and from which version. -/
structure MemberAnswer where
  call : ℕ
  channelId : ChannelId
  members : List UserId
  version : ℕ

/-- A call has inserted a list. -/
structure MemberInsert where
  call : ℕ
  channelId : ChannelId
  members : List UserId
  time : ℕ

structure MemberCache where
  router : MessageRouter
  calls : DashMap ℕ MemberCall
  now : ℕ
  /-- The database at each of its versions so far. -/
  dbAt : ℕ → Database
  version : ℕ
  /-- The version at the latest invalidation of a channel. -/
  invalidatedAt : ChannelId → ℕ
  answers : List MemberAnswer
  inserts : List MemberInsert

namespace MemberCache

/-- `MessageRouter::new`, whose cache is empty. -/
def init (router : MessageRouter) (db : Database) : MemberCache where
  router := { router with memberCache := ∅ }
  calls := ∅
  now := 0
  dbAt _ := db
  version := 0
  invalidatedAt _ := 0
  answers := []
  inserts := []

inductive Action
  /-- `get_channel_members` is called. -/
  | call (t : ℕ) (channelId : ChannelId)
  | lookup (t : ℕ)
  /-- The database answers or fails. -/
  | query (t : ℕ) (answer : Except DbError Unit)
  | stamp (t : ℕ)
  | insert (t : ℕ)
  /-- Someone joins or leaves, or anything else is written. -/
  | change (db : Database)
  /-- `invalidate_channel_cache`. -/
  | invalidate (channelId : ChannelId)
  /-- A cleanup pass comes to the entry of a channel. -/
  | expire (channelId : ChannelId)
  /-- Time passes. -/
  | tick

def setCall (s : MemberCache) (t : ℕ) (call : MemberCall) : MemberCache :=
  { s with calls := s.calls.insert t call }

/-- The members of a channel, as the database has them now. -/
def members (s : MemberCache) (channelId : ChannelId) : List UserId :=
  getChannelMemberIds (s.dbAt s.version) channelId

/-- `member_cache.insert`. -/
def insertEntry (s : MemberCache) (channelId : ChannelId) (entry : CachedMembers) : MemberCache :=
  { s with router := { s.router with
      memberCache := s.router.memberCache.insert channelId entry } }

def step (s : MemberCache) : Action → Option MemberCache
  | .call t channelId => match s.calls.lookup t with
    | none => some (s.setCall t ⟨channelId, .lookup, s.invalidatedAt channelId, s.now⟩)
    | some _ => none
  | .lookup t => match s.calls.lookup t with
    | some ⟨channelId, .lookup, since, _⟩ => match s.router.cached s.now channelId with
      | some members => some (s.setCall t ⟨channelId, .returned (.ok members), since, s.now⟩)
      | none => some (s.setCall t ⟨channelId, .query, since, s.now⟩)
    | _ => none
  | .query t answer => match s.calls.lookup t with
    | some ⟨channelId, .query, since, lookedUpAt⟩ => match answer with
      | .error e => some (s.setCall t ⟨channelId, .returned (.error e), since, lookedUpAt⟩)
      | .ok () =>
        some { s.setCall t ⟨channelId, .stamp (s.members channelId), since, lookedUpAt⟩ with
          answers := ⟨t, channelId, s.members channelId, s.version⟩ :: s.answers }
    | _ => none
  | .stamp t => match s.calls.lookup t with
    | some ⟨channelId, .stamp members, since, lookedUpAt⟩ =>
      some (s.setCall t ⟨channelId, .insert members s.now, since, lookedUpAt⟩)
    | _ => none
  | .insert t => match s.calls.lookup t with
    | some ⟨channelId, .insert members fetchedAt, since, lookedUpAt⟩ =>
      some { (s.insertEntry channelId ⟨members, fetchedAt⟩).setCall t
          ⟨channelId, .returned (.ok members), since, lookedUpAt⟩ with
        inserts := ⟨t, channelId, members, s.now⟩ :: s.inserts }
    | _ => none
  | .change db => some { s with
      dbAt := Function.update s.dbAt (s.version + 1) db
      version := s.version + 1 }
  | .invalidate channelId => some { s with
      router := s.router.invalidateChannelCache channelId
      invalidatedAt := Function.update s.invalidatedAt channelId s.version }
  | .expire channelId => some { s with router := s.router.expire s.now channelId }
  | .tick => some { s with now := s.now + 1 }

/-! ### What the steps of a call need and do -/

variable {s s' : MemberCache} {t : ℕ}

theorem step_call {c : ChannelId} :
    step s (.call t c) = some s' ↔
      s.calls.lookup t = none ∧ s' = s.setCall t ⟨c, .lookup, s.invalidatedAt c, s.now⟩ := by
  simp only [step]
  cases s.calls.lookup t with
  | none => simp [eq_comm]
  | some call => simp

theorem step_lookup :
    step s (.lookup t) = some s' ↔
      ∃ c since lookedUpAt, s.calls.lookup t = some ⟨c, .lookup, since, lookedUpAt⟩ ∧
        ((∃ members, s.router.cached s.now c = some members ∧
          s' = s.setCall t ⟨c, .returned (.ok members), since, s.now⟩) ∨
        s.router.cached s.now c = none ∧ s' = s.setCall t ⟨c, .query, since, s.now⟩) := by
  constructor
  · intro h
    simp only [step] at h
    split at h
    · next c since lookedUpAt hcall =>
      refine ⟨c, since, lookedUpAt, hcall, ?_⟩
      cases hcached : s.router.cached s.now c with
      | none =>
        rw [hcached] at h
        exact .inr ⟨rfl, (Option.some.inj h).symm⟩
      | some members =>
        rw [hcached] at h
        exact .inl ⟨members, rfl, (Option.some.inj h).symm⟩
    · cases h
  · rintro ⟨c, since, lookedUpAt, hcall, ⟨members, hcached, rfl⟩ | ⟨hcached, rfl⟩⟩
    · simp only [step, hcall, hcached]
    · simp only [step, hcall, hcached]

theorem step_query {answer : Except DbError Unit} :
    step s (.query t answer) = some s' ↔
      ∃ c since lookedUpAt, s.calls.lookup t = some ⟨c, .query, since, lookedUpAt⟩ ∧
        ((∃ e, answer = .error e ∧
          s' = s.setCall t ⟨c, .returned (.error e), since, lookedUpAt⟩) ∨
        answer = .ok () ∧ s' = { s.setCall t ⟨c, .stamp (s.members c), since, lookedUpAt⟩ with
          answers := ⟨t, c, s.members c, s.version⟩ :: s.answers }) := by
  constructor
  · intro h
    simp only [step] at h
    split at h
    · next c since lookedUpAt hcall =>
      refine ⟨c, since, lookedUpAt, hcall, ?_⟩
      cases answer with
      | error e => exact .inl ⟨e, rfl, (Option.some.inj h).symm⟩
      | ok _ => exact .inr ⟨rfl, (Option.some.inj h).symm⟩
    · cases h
  · rintro ⟨c, since, lookedUpAt, hcall, ⟨e, rfl, rfl⟩ | ⟨rfl, rfl⟩⟩
    · simp only [step, hcall]
    · simp only [step, hcall]

theorem step_stamp :
    step s (.stamp t) = some s' ↔
      ∃ c members since lookedUpAt,
        s.calls.lookup t = some ⟨c, .stamp members, since, lookedUpAt⟩ ∧
        s' = s.setCall t ⟨c, .insert members s.now, since, lookedUpAt⟩ := by
  constructor
  · intro h
    simp only [step] at h
    split at h
    · next c members since lookedUpAt hcall =>
      exact ⟨c, members, since, lookedUpAt, hcall, (Option.some.inj h).symm⟩
    · cases h
  · rintro ⟨c, members, since, lookedUpAt, hcall, rfl⟩
    simp only [step, hcall]

theorem step_insert :
    step s (.insert t) = some s' ↔
      ∃ c members fetchedAt since lookedUpAt,
        s.calls.lookup t = some ⟨c, .insert members fetchedAt, since, lookedUpAt⟩ ∧
        s' = { (s.insertEntry c ⟨members, fetchedAt⟩).setCall t
            ⟨c, .returned (.ok members), since, lookedUpAt⟩ with
          inserts := ⟨t, c, members, s.now⟩ :: s.inserts } := by
  constructor
  · intro h
    simp only [step] at h
    split at h
    · next c members fetchedAt since lookedUpAt hcall =>
      exact ⟨c, members, fetchedAt, since, lookedUpAt, hcall, (Option.some.inj h).symm⟩
    · cases h
  · rintro ⟨c, members, fetchedAt, since, lookedUpAt, hcall, rfl⟩
    simp only [step, hcall]

theorem lookup_setCall {call call' : MemberCall} {t' : ℕ}
    (h : (s.setCall t call).calls.lookup t' = some call') :
    t' = t ∧ call' = call ∨ t' ≠ t ∧ s.calls.lookup t' = some call' := by
  rw [setCall, DashMap.lookup_insert_ite] at h
  split_ifs at h with ht
  · exact .inl ⟨ht, (Option.some.inj h).symm⟩
  · exact .inr ⟨ht, h⟩

theorem lookup_insertEntry {c c' : ChannelId} {entry entry' : CachedMembers}
    (h : (s.insertEntry c entry).router.memberCache.lookup c' = some entry') :
    c' = c ∧ entry' = entry ∨ s.router.memberCache.lookup c' = some entry' := by
  rw [insertEntry, DashMap.lookup_insert_ite] at h
  split_ifs at h with hc
  · exact .inl ⟨hc, (Option.some.inj h).symm⟩
  · exact .inr h

theorem lookup_invalidate {router : MessageRouter} {c c' : ChannelId} {entry : CachedMembers}
    (h : (router.invalidateChannelCache c).memberCache.lookup c' = some entry) :
    c' ≠ c ∧ router.memberCache.lookup c' = some entry := by
  rw [MessageRouter.invalidateChannelCache, DashMap.lookup_erase_ite] at h
  split_ifs at h with hc
  exact ⟨hc, h⟩

/-! ### Undisturbed runs -/

theorem exec_hit (hnew : s.calls.lookup t = none) {c : ChannelId} {members : List UserId}
    (hcached : s.router.cached s.now c = some members) :
    exec step s [.call t c, .lookup t] =
      some ((s.setCall t ⟨c, .lookup, s.invalidatedAt c, s.now⟩).setCall t
        ⟨c, .returned (.ok members), s.invalidatedAt c, s.now⟩) := by
  refine exec_cons.2 ⟨_, step_call.2 ⟨hnew, rfl⟩, exec_cons.2 ⟨_, ?_, rfl⟩⟩
  exact step_lookup.2 ⟨c, _, _, AList.lookup_insert _, .inl ⟨members, hcached, rfl⟩⟩

theorem exec_getChannelMembers (s : MemberCache) (c : ChannelId) (fetch : Except DbError Unit)
    (hnew : s.calls.lookup t = none) :
    let got := s.router.getChannelMembers (s.dbAt s.version) fetch s.now c
    ∃ as s' since, exec step s as = some s' ∧ s'.router = got.2 ∧
      s'.calls.lookup t = some ⟨c, .returned got.1, since, s.now⟩ := by
  intro got
  cases hcached : s.router.cached s.now c with
  | some members =>
    have hgot : got = (.ok members, s.router) := by
      rw [show got = _ from getChannelMembers_eq _ _ _ _ _, hcached]
      rfl
    rw [hgot]
    exact ⟨[.call t c, .lookup t], _, s.invalidatedAt c, exec_hit hnew hcached, rfl,
      AList.lookup_insert _⟩
  | none =>
    have hcall : s.step (.call t c) =
        some (s.setCall t ⟨c, .lookup, s.invalidatedAt c, s.now⟩) := step_call.2 ⟨hnew, rfl⟩
    have hgot : got = s.router.fetchMembers (s.dbAt s.version) fetch s.now c := by
      rw [show got = _ from getChannelMembers_eq _ _ _ _ _, hcached]
      rfl
    rw [hgot]
    have hlookup : step (s.setCall t ⟨c, .lookup, s.invalidatedAt c, s.now⟩) (.lookup t) =
        some ((s.setCall t ⟨c, .lookup, s.invalidatedAt c, s.now⟩).setCall t
          ⟨c, .query, s.invalidatedAt c, s.now⟩) :=
      step_lookup.2 ⟨c, _, _, AList.lookup_insert _, .inr ⟨hcached, rfl⟩⟩
    cases fetch with
    | error e =>
      refine ⟨[.call t c, .lookup t, .query t (.error e)], _, s.invalidatedAt c, exec_cons.2
        ⟨_, hcall, exec_cons.2 ⟨_, hlookup, exec_cons.2 ⟨_, step_query.2
          ⟨c, _, _, AList.lookup_insert _, .inl ⟨e, rfl, rfl⟩⟩, rfl⟩⟩⟩, ?_, ?_⟩
      · rfl
      · exact AList.lookup_insert _
    | ok _ =>
      refine ⟨[.call t c, .lookup t, .query t (.ok ()), .stamp t, .insert t], _,
        s.invalidatedAt c, exec_cons.2 ⟨_, hcall, exec_cons.2 ⟨_, hlookup, exec_cons.2
          ⟨_, step_query.2 ⟨c, _, _, AList.lookup_insert _, .inr ⟨rfl, rfl⟩⟩, exec_cons.2
          ⟨_, step_stamp.2 ⟨c, _, _, _, AList.lookup_insert _, rfl⟩, exec_cons.2
          ⟨_, step_insert.2 ⟨c, _, _, _, _, AList.lookup_insert _, rfl⟩, rfl⟩⟩⟩⟩⟩, ?_, ?_⟩
      · rfl
      · exact AList.lookup_insert _

theorem exec_expire (keys : List ChannelId) (s : MemberCache) :
    ∃ router, exec step s (keys.map .expire) = some { s with router := router } ∧
      router.cacheTtl = s.router.cacheTtl ∧
      ∀ c entry, router.memberCache.lookup c = some entry ↔
        s.router.memberCache.lookup c = some entry ∧
          (c ∈ keys → s.now - entry.fetchedAt < s.router.cacheTtl) := by
  induction keys generalizing s with
  | nil => exact ⟨s.router, rfl, rfl, fun c entry => by simp⟩
  | cons k keys ih =>
    obtain ⟨router, hexec, httl, hlook⟩ := ih { s with router := s.router.expire s.now k }
    refine ⟨router, exec_cons.2 ⟨_, rfl, hexec⟩, httl, ?_⟩
    intro c entry
    rw [hlook, lookup_expire, and_assoc, List.mem_cons]
    exact and_congr_right fun _ => or_imp.symm

/-- All of them in a row are the `retain` of the source. -/
theorem exec_cleanup (s : MemberCache) :
    ∃ s', exec step s (s.router.memberCache.keys.map .expire) = some s' ∧
      ∀ c, s'.router.memberCache.lookup c = (s.router.cleanup s.now).memberCache.lookup c := by
  obtain ⟨router, hexec, -, hlook⟩ := exec_expire s.router.memberCache.keys s
  refine ⟨_, hexec, ?_⟩
  intro c
  apply Option.ext
  intro entry
  rw [MessageRouter.cleanup, DashMap.lookup_retain, Option.filter_eq_some_iff, decide_eq_true_iff]
  refine (hlook c entry).trans (and_congr_right fun hentry => ?_)
  exact forall_prop_of_true (DashMap.mem_keys_iff.2 ⟨entry, hentry⟩)

/-! ## Invalidation -/

/-- The database has held this list for the channel at version `v` or later. -/
def Held (s : MemberCache) (channelId : ChannelId) (v : ℕ) (members : List UserId) : Prop :=
  ∃ i, v ≤ i ∧ i ≤ s.version ∧ getChannelMemberIds (s.dbAt i) channelId = members

instance (s : MemberCache) (c : ChannelId) (v : ℕ) (members : List UserId) :
    Decidable (s.Held c v members) :=
  decidable_of_iff (∃ i, i < s.version + 1 ∧ v ≤ i ∧ getChannelMemberIds (s.dbAt i) c = members)
    (exists_congr fun i => by rw [Nat.lt_succ_iff, and_left_comm])

theorem Held.mono {c : ChannelId} {v v' : ℕ} {members : List UserId} (h : s.Held c v members)
    (hv : v' ≤ v) : s.Held c v' members := by
  obtain ⟨i, hi, hlast, hmembers⟩ := h
  exact ⟨i, hv.trans hi, hlast, hmembers⟩

theorem Held.change {c : ChannelId} {v : ℕ} {members : List UserId} (h : s.Held c v members)
    (db : Database) : Held { s with
      dbAt := Function.update s.dbAt (s.version + 1) db
      version := s.version + 1 } c v members := by
  obtain ⟨i, hi, hlast, hmembers⟩ := h
  refine ⟨i, hi, Nat.le_succ_of_le hlast, ?_⟩
  show getChannelMemberIds (Function.update s.dbAt (s.version + 1) db i) c = members
  rw [Function.update_of_ne (by omega)]
  exact hmembers

structure Inv (s : MemberCache) : Prop where
  version : ∀ c, s.invalidatedAt c ≤ s.version
  /-- An entry that is fresh has been held since the latest invalidation. -/
  entries : ∀ c entry, s.router.memberCache.lookup c = some entry →
    s.now - entry.fetchedAt < s.router.cacheTtl → s.Held c (s.invalidatedAt c) entry.members
  /-- The list of a call has been held since the latest invalidation before the call. -/
  calls : ∀ t call, s.calls.lookup t = some call → call.since ≤ s.invalidatedAt call.channelId ∧
    ∀ members, call.pc.list = some members → s.Held call.channelId call.since members

theorem init_inv (router : MessageRouter) (db : Database) : (init router db).Inv where
  version _ := le_rfl
  entries c entry h := by
    rw [show (init router db).router.memberCache.lookup c = none from rfl] at h
    cases h
  calls t call h := by
    rw [show (init router db).calls.lookup t = none from rfl] at h
    cases h

theorem Inv.setCall (h : s.Inv) {c : ChannelId} {pc : MemberPc} {since lookedUpAt : ℕ}
    (hsince : since ≤ s.invalidatedAt c)
    (hlist : ∀ members, pc.list = some members → s.Held c since members) :
    (s.setCall t ⟨c, pc, since, lookedUpAt⟩).Inv where
  version := h.version
  entries := h.entries
  calls t' call' hlook := by
    rcases lookup_setCall hlook with ⟨-, rfl⟩ | ⟨-, hlook⟩
    · exact ⟨hsince, hlist⟩
    · exact h.calls t' call' hlook

theorem inv_lookup (h : s.Inv) (hstep : step s (.lookup t) = some s') : s'.Inv := by
  obtain ⟨c, since, lookedUpAt, hcall, hcases⟩ := step_lookup.1 hstep
  obtain ⟨hsince, -⟩ := h.calls t _ hcall
  rcases hcases with ⟨members, hcached, rfl⟩ | ⟨-, rfl⟩
  · -- A hit is a fresh entry.
    obtain ⟨entry, hentry, hfresh, rfl⟩ := cached_eq_some.1 hcached
    apply h.setCall hsince
    intro members hmembers
    obtain rfl := Option.some.inj hmembers
    exact (h.entries c entry hentry hfresh).mono hsince
  · exact h.setCall hsince fun members hmembers => by cases hmembers

theorem inv_query (h : s.Inv) {answer : Except DbError Unit}
    (hstep : step s (.query t answer) = some s') : s'.Inv := by
  obtain ⟨c, since, lookedUpAt, hcall, hcases⟩ := step_query.1 hstep
  obtain ⟨hsince, -⟩ := h.calls t _ hcall
  rcases hcases with ⟨e, -, rfl⟩ | ⟨-, rfl⟩
  · exact h.setCall hsince fun members hmembers => by cases hmembers
  · -- The database is asked after the call has started.
    have hset : (s.setCall t ⟨c, .stamp (s.members c), since, lookedUpAt⟩).Inv := by
      apply h.setCall hsince
      intro members hmembers
      obtain rfl := Option.some.inj hmembers
      exact ⟨s.version, hsince.trans (h.version c), le_rfl, rfl⟩
    exact ⟨hset.version, hset.entries, hset.calls⟩

theorem inv_stamp (h : s.Inv) (hstep : step s (.stamp t) = some s') : s'.Inv := by
  obtain ⟨c, members, since, lookedUpAt, hcall, rfl⟩ := step_stamp.1 hstep
  obtain ⟨hsince, hlist⟩ := h.calls t _ hcall
  exact h.setCall hsince hlist

/-- What a call is about to insert is not fresh any more, or the database has held it since the
latest invalidation. -/
def Current (s : MemberCache) (call : MemberCall) : Prop :=
  match call.pc with
  | .insert members fetchedAt => s.now - fetchedAt < s.router.cacheTtl →
    s.Held call.channelId (s.invalidatedAt call.channelId) members
  | _ => True

instance (s : MemberCache) : DecidablePred s.Current
  | ⟨_, .insert _ _, _, _⟩ => inferInstanceAs (Decidable (_ → _))
  | ⟨_, .lookup, _, _⟩ | ⟨_, .query, _, _⟩ | ⟨_, .stamp _, _, _⟩ | ⟨_, .returned _, _, _⟩ =>
    .isTrue trivial

/-- The step inserts no stale list. -/
def InsertsCurrent (s : MemberCache) : Action → Prop
  | .insert t => ∀ call ∈ s.calls.lookup t, s.Current call
  | _ => True

instance (s : MemberCache) : DecidablePred s.InsertsCurrent
  | .insert t => inferInstanceAs (Decidable (∀ call ∈ s.calls.lookup t, s.Current call))
  | .call _ _ | .lookup _ | .query _ _ | .stamp _ | .change _ | .invalidate _ | .expire _ | .tick =>
    .isTrue trivial

theorem inv_insert (h : s.Inv) (hcurrent : s.InsertsCurrent (.insert t))
    (hstep : step s (.insert t) = some s') :
    s'.Inv := by
  obtain ⟨c, members, fetchedAt, since, lookedUpAt, hcall, rfl⟩ := step_insert.1 hstep
  obtain ⟨hsince, hlist⟩ := h.calls t _ hcall
  have hset : (s.setCall t ⟨c, .returned (.ok members), since, lookedUpAt⟩).Inv :=
    h.setCall hsince hlist
  refine ⟨hset.version, ?_, hset.calls⟩
  intro c' entry hentry hfresh
  rcases lookup_insertEntry hentry with ⟨rfl, rfl⟩ | hentry
  · exact hcurrent _ hcall hfresh
  · exact h.entries c' entry hentry hfresh

theorem inv_invalidate (h : s.Inv) {c : ChannelId}
    (hstep : step s (.invalidate c) = some s') : s'.Inv := by
  obtain rfl := Option.some.inj hstep
  have hlater (c' : ChannelId) :
      s.invalidatedAt c' ≤ Function.update s.invalidatedAt c s.version c' := by
    by_cases hc : c' = c
    · rw [hc, Function.update_self]
      exact h.version c
    · rw [Function.update_of_ne hc]
  refine ⟨?_, ?_, ?_⟩
  · intro c'
    show Function.update s.invalidatedAt c s.version c' ≤ s.version
    by_cases hc : c' = c
    · rw [hc, Function.update_self]
    · rw [Function.update_of_ne hc]
      exact h.version c'
  · intro c' entry hentry hfresh
    obtain ⟨hc, hentry⟩ := lookup_invalidate hentry
    show s.Held c' (Function.update s.invalidatedAt c s.version c') entry.members
    rw [Function.update_of_ne hc]
    exact h.entries c' entry hentry hfresh
  · intro t call hcall
    obtain ⟨hsince, hlist⟩ := h.calls t call hcall
    exact ⟨hsince.trans (hlater _), hlist⟩

/-- **One step** keeps the invariant, if an insert is of a current list. -/
theorem step_inv {a : Action} (h : s.Inv) (hcurrent : s.InsertsCurrent a)
    (hstep : step s a = some s') : s'.Inv := by
  cases a with
  | call t c =>
    obtain ⟨-, rfl⟩ := step_call.1 hstep
    exact h.setCall le_rfl fun members hmembers => by cases hmembers
  | lookup t => exact inv_lookup h hstep
  | query t answer => exact inv_query h hstep
  | stamp t => exact inv_stamp h hstep
  | insert t => exact inv_insert h hcurrent hstep
  | invalidate c => exact inv_invalidate h hstep
  | change db =>
    obtain rfl := Option.some.inj hstep
    refine ⟨fun c => Nat.le_succ_of_le (h.version c), ?_, ?_⟩
    · intro c entry hentry hfresh
      exact (h.entries c entry hentry hfresh).change db
    · intro t call hcall
      obtain ⟨hsince, hlist⟩ := h.calls t call hcall
      exact ⟨hsince, fun members hmembers => (hlist members hmembers).change db⟩
  | expire c =>
    obtain rfl := Option.some.inj hstep
    refine ⟨h.version, ?_, h.calls⟩
    intro c' entry hentry hfresh
    exact h.entries c' entry (lookup_expire.1 hentry).1 hfresh
  | tick =>
    obtain rfl := Option.some.inj hstep
    refine ⟨h.version, ?_, h.calls⟩
    intro c entry hentry hfresh
    have hfresh : s.now + 1 - entry.fetchedAt < s.router.cacheTtl := hfresh
    exact h.entries c entry hentry (by omega)

/-- **Invalidation takes effect, unless a stale list is inserted after it.** -/
theorem invalidation_takes_effect (router : MessageRouter) (db : Database) (as : List Action)
    (s : MemberCache) (hs : exec step (init router db) as = some s)
    (hcurrent : Along step InsertsCurrent (init router db) as)
    (t : ℕ) (call : MemberCall) (members : List UserId) (hcall : s.calls.lookup t = some call)
    (hreturned : call.pc = .returned (.ok members)) :
    s.Held call.channelId call.since members := by
  have hinv : s.Inv := exec_invariant_along (fun s a s' h hok hstep => step_inv h hok hstep)
    (init_inv router db) hcurrent hs
  exact (hinv.calls t call hcall).2 members (by rw [hreturned]; rfl)

/-- **A stale insert can be seen**: the next call returns the list that the database has not held
since the latest invalidation. -/
theorem stale_insert_observed (hstep : step s (.insert t) = some s')
    (hstale : ¬ s.InsertsCurrent (.insert t)) {t' : ℕ} (hnew : s'.calls.lookup t' = none) :
    ∃ call members s'', s.calls.lookup t = some call ∧
      exec step s' [.call t' call.channelId, .lookup t'] = some s'' ∧
      s''.calls.lookup t' = some ⟨call.channelId, .returned (.ok members),
        s'.invalidatedAt call.channelId, s'.now⟩ ∧
      ¬ s''.Held call.channelId (s'.invalidatedAt call.channelId) members := by
  obtain ⟨c, members, fetchedAt, since, lookedUpAt, hcall, rfl⟩ := step_insert.1 hstep
  simp only [InsertsCurrent, not_forall] at hstale
  obtain ⟨call, hcall', hstale⟩ := hstale
  obtain rfl := Option.some.inj (hcall.symm.trans hcall')
  obtain ⟨hfresh, hnotHeld⟩ := Classical.not_imp.1 hstale
  generalize hs' : ({ (s.insertEntry c ⟨members, fetchedAt⟩).setCall t
    ⟨c, .returned (.ok members), since, lookedUpAt⟩ with
    inserts := ⟨t, c, members, s.now⟩ :: s.inserts } : MemberCache) = s' at hnew ⊢
  have hcached : s'.router.cached s'.now c = some members := by
    subst hs'
    exact cached_eq_some.2 ⟨_, AList.lookup_insert _, hfresh, rfl⟩
  refine ⟨_, members, _, hcall, exec_hit hnew hcached, AList.lookup_insert _, ?_⟩
  subst hs'
  exact hnotHeld

/-- User 2 has left the guild. -/
def afterLeave : Database :=
  { pair with guildMembers := [(10, 1)], guildMembers_nodup := by decide }

/-- The members of channel 20 are looked up, one leaves, the cache is invalidated, and they are
looked up again. -/
def leaveRun : List Action :=
  [.call 0 20, .lookup 0, .query 0 (.ok ()), .stamp 0, .insert 0, .change afterLeave,
    .invalidate 20, .call 1 20, .lookup 1, .query 1 (.ok ()), .stamp 1, .insert 1, .call 2 20,
    .lookup 2]

/-- A router with an empty cache, and a time to live of 300. -/
def freshRouter : MessageRouter := ⟨"node-1", ⟨"node-1", false⟩, ∅, 300⟩

/-- The last call hits the cache, with the list of after the invalidation. -/
theorem invalidation_takes_effect_leave :
    ∃ s, exec step (init freshRouter pair) leaveRun = some s ∧ s.Held 20 1 [1] :=
  ⟨_, rfl, invalidation_takes_effect freshRouter pair leaveRun _ rfl (by decide) 2
    ⟨20, .returned (.ok [1]), 1, 0⟩ [1] rfl rfl⟩

/-- The query is answered before the member leaves, and its list inserted after the
invalidation. -/
def staleRun : List Action :=
  [.call 0 20, .lookup 0, .query 0 (.ok ()), .change afterLeave, .invalidate 20, .stamp 0,
    .insert 0, .call 1 20, .lookup 1]

/-- **A miss in flight undoes an invalidation.** -/
theorem stale_insert :
    ¬ ∀ (router : MessageRouter) (db : Database) (as : List Action) (s : MemberCache),
      exec step (init router db) as = some s → ∀ (t : ℕ) (call : MemberCall)
      (members : List UserId), s.calls.lookup t = some call →
      call.pc = .returned (.ok members) → s.Held call.channelId call.since members := by
  intro h
  have hheld := h freshRouter pair staleRun _ rfl 1 ⟨20, .returned (.ok [1, 2]), 1, 0⟩ [1, 2] rfl
    rfl
  revert hheld
  decide

/-! ## Where lists come from -/

/-- The database has answered the call itself with this list. -/
def Asked (s : MemberCache) (t : ℕ) (c : ChannelId) (members : List UserId) : Prop :=
  ∃ a ∈ s.answers, a.call = t ∧ a.channelId = c ∧ a.members = members

/-- The list was inserted for the channel less than `cache_ttl` before `lookedUpAt`. -/
def Inserted (s : MemberCache) (c : ChannelId) (lookedUpAt : ℕ) (members : List UserId) : Prop :=
  ∃ i ∈ s.inserts, i.channelId = c ∧ i.members = members ∧ i.time ≤ lookedUpAt ∧
    lookedUpAt < i.time + s.router.cacheTtl

/-- What a call at this point knows about its list. -/
def Justified (s : MemberCache) (t : ℕ) (call : MemberCall) : Prop :=
  match call.pc with
  | .lookup | .query | .returned (.error _) => True
  | .stamp members => s.Asked t call.channelId members
  | .insert members fetchedAt => s.Asked t call.channelId members ∧ fetchedAt ≤ s.now
  | .returned (.ok members) =>
    s.Asked t call.channelId members ∨ s.Inserted call.channelId call.lookedUpAt members

structure Sourced (s : MemberCache) : Prop where
  /-- The answers are those of the database. -/
  answers : ∀ a ∈ s.answers, a.version ≤ s.version ∧
    getChannelMemberIds (s.dbAt a.version) a.channelId = a.members
  /-- Only an answer is inserted. -/
  inserts : ∀ i ∈ s.inserts, s.Asked i.call i.channelId i.members ∧ i.time ≤ s.now
  /-- An entry is no younger than its insertion. -/
  entries : ∀ c entry, s.router.memberCache.lookup c = some entry →
    ∃ i ∈ s.inserts, i.channelId = c ∧ i.members = entry.members ∧ entry.fetchedAt ≤ i.time
  calls : ∀ t call, s.calls.lookup t = some call → s.Justified t call

theorem init_sourced (router : MessageRouter) (db : Database) : (init router db).Sourced where
  answers a ha := absurd ha List.not_mem_nil
  inserts i hi := absurd hi List.not_mem_nil
  entries c entry h := by
    rw [show (init router db).router.memberCache.lookup c = none from rfl] at h
    cases h
  calls t call h := by
    rw [show (init router db).calls.lookup t = none from rfl] at h
    cases h

theorem Sourced.setCall (h : s.Sourced) {call : MemberCall} (hcall : s.Justified t call) :
    (s.setCall t call).Sourced where
  answers := h.answers
  inserts := h.inserts
  entries := h.entries
  calls t' call' hlook := by
    rcases lookup_setCall hlook with ⟨rfl, rfl⟩ | ⟨-, hlook⟩
    · exact hcall
    · exact h.calls t' call' hlook

/-- What is known stays known while answers and inserts are only added to and time passes. -/
theorem Justified.mono {call : MemberCall} (h : s.Justified t call)
    (hanswers : s.answers ⊆ s'.answers) (hinserts : s.inserts ⊆ s'.inserts)
    (hnow : s.now ≤ s'.now) (httl : s'.router.cacheTtl = s.router.cacheTtl) :
    s'.Justified t call := by
  have hasked {c : ChannelId} {members : List UserId} (hasked : s.Asked t c members) :
      s'.Asked t c members := by
    obtain ⟨a, ha, hrest⟩ := hasked
    exact ⟨a, hanswers ha, hrest⟩
  obtain ⟨c, pc, since, lookedUpAt⟩ := call
  cases pc with
  | lookup | query => trivial
  | stamp members => exact hasked h
  | insert members fetchedAt => exact ⟨hasked h.1, h.2.trans hnow⟩
  | returned result =>
    cases result with
    | error e => trivial
    | ok members =>
      rcases h with h | ⟨i, hi, hc, hmembers, htime, hfresh⟩
      · exact .inl (hasked h)
      · exact .inr ⟨i, hinserts hi, hc, hmembers, htime, httl ▸ hfresh⟩

theorem sourced_lookup (h : s.Sourced) (hstep : step s (.lookup t) = some s') : s'.Sourced := by
  obtain ⟨c, since, lookedUpAt, hcall, hcases⟩ := step_lookup.1 hstep
  rcases hcases with ⟨members, hcached, rfl⟩ | ⟨-, rfl⟩
  · obtain ⟨entry, hentry, hfresh, rfl⟩ := cached_eq_some.1 hcached
    obtain ⟨i, hi, hc, hmembers, hage⟩ := h.entries c entry hentry
    have htime := (h.inserts i hi).2
    apply h.setCall
    exact .inr ⟨i, hi, hc, hmembers, htime, show s.now < i.time + s.router.cacheTtl by omega⟩
  · exact h.setCall trivial

theorem sourced_query (h : s.Sourced) {answer : Except DbError Unit}
    (hstep : step s (.query t answer) = some s') : s'.Sourced := by
  obtain ⟨c, since, lookedUpAt, hcall, hcases⟩ := step_query.1 hstep
  rcases hcases with ⟨e, -, rfl⟩ | ⟨-, rfl⟩
  · exact h.setCall trivial
  · have hanswer : (⟨t, c, s.members c, s.version⟩ : MemberAnswer) ∈
        (⟨t, c, s.members c, s.version⟩ : MemberAnswer) :: s.answers := List.mem_cons_self
    refine ⟨?_, ?_, h.entries, ?_⟩
    · intro a ha
      rcases List.mem_cons.1 ha with rfl | ha
      · exact ⟨le_rfl, rfl⟩
      · exact h.answers a ha
    · intro i hi
      obtain ⟨⟨a, ha, hrest⟩, htime⟩ := h.inserts i hi
      exact ⟨⟨a, List.mem_cons_of_mem _ ha, hrest⟩, htime⟩
    · intro t' call' hlook
      rcases lookup_setCall hlook with ⟨rfl, rfl⟩ | ⟨-, hlook⟩
      · exact ⟨_, hanswer, rfl, rfl, rfl⟩
      · exact (h.calls t' call' hlook).mono (List.subset_cons_self _ _) (List.Subset.refl _) le_rfl
          rfl

theorem sourced_stamp (h : s.Sourced) (hstep : step s (.stamp t) = some s') : s'.Sourced := by
  obtain ⟨c, members, since, lookedUpAt, hcall, rfl⟩ := step_stamp.1 hstep
  have hasked : s.Asked t c members := h.calls t _ hcall
  exact h.setCall ⟨hasked, le_rfl⟩

theorem sourced_insert (h : s.Sourced) (hstep : step s (.insert t) = some s') : s'.Sourced := by
  obtain ⟨c, members, fetchedAt, since, lookedUpAt, hcall, rfl⟩ := step_insert.1 hstep
  obtain ⟨hasked, hage⟩ : s.Asked t c members ∧ fetchedAt ≤ s.now := h.calls t _ hcall
  refine ⟨h.answers, ?_, ?_, ?_⟩
  · intro i hi
    rcases List.mem_cons.1 hi with rfl | hi
    · exact ⟨hasked, le_rfl⟩
    · exact h.inserts i hi
  · intro c' entry hentry
    rcases lookup_insertEntry hentry with ⟨rfl, rfl⟩ | hentry
    · exact ⟨_, List.mem_cons_self, rfl, rfl, hage⟩
    · obtain ⟨i, hi, hrest⟩ := h.entries c' entry hentry
      exact ⟨i, List.mem_cons_of_mem _ hi, hrest⟩
  · intro t' call' hlook
    rcases lookup_setCall hlook with ⟨rfl, rfl⟩ | ⟨-, hlook⟩
    · exact .inl hasked
    · exact (h.calls t' call' hlook).mono (List.Subset.refl _) (List.subset_cons_self _ _) le_rfl
        rfl

/-- **One step** keeps the provenance. -/
theorem step_sourced {a : Action} (h : s.Sourced) (hstep : step s a = some s') :
    s'.Sourced := by
  cases a with
  | call t c =>
    obtain ⟨-, rfl⟩ := step_call.1 hstep
    exact h.setCall trivial
  | lookup t => exact sourced_lookup h hstep
  | query t answer => exact sourced_query h hstep
  | stamp t => exact sourced_stamp h hstep
  | insert t => exact sourced_insert h hstep
  | change db =>
    obtain rfl := Option.some.inj hstep
    refine ⟨?_, h.inserts, h.entries, h.calls⟩
    intro a ha
    obtain ⟨hversion, hmembers⟩ := h.answers a ha
    refine ⟨Nat.le_succ_of_le hversion, ?_⟩
    show getChannelMemberIds (Function.update s.dbAt (s.version + 1) db a.version) a.channelId = _
    rw [Function.update_of_ne (by omega)]
    exact hmembers
  | invalidate c =>
    obtain rfl := Option.some.inj hstep
    refine ⟨h.answers, h.inserts, ?_, h.calls⟩
    intro c' entry hentry
    exact h.entries c' entry (lookup_invalidate hentry).2
  | expire c =>
    obtain rfl := Option.some.inj hstep
    refine ⟨h.answers, h.inserts, ?_, h.calls⟩
    intro c' entry hentry
    exact h.entries c' entry (lookup_expire.1 hentry).1
  | tick =>
    obtain rfl := Option.some.inj hstep
    refine ⟨h.answers, ?_, h.entries, ?_⟩
    · intro i hi
      obtain ⟨hasked, htime⟩ := h.inserts i hi
      exact ⟨hasked, Nat.le_succ_of_le htime⟩
    · intro t call hcall
      exact (h.calls t call hcall).mono (List.Subset.refl _) (List.Subset.refl _)
        (Nat.le_succ s.now) rfl

/-! ## The cleanup cannot be seen -/

/-- The caches agree on the entries that are fresh. -/
def SameFresh (cacheTtl now : ℕ) (m m' : DashMap ChannelId CachedMembers) : Prop :=
  ∀ c entry, now - entry.fetchedAt < cacheTtl →
    (m.lookup c = some entry ↔ m'.lookup c = some entry)

def withCache (s : MemberCache) (m : DashMap ChannelId CachedMembers) : MemberCache :=
  { s with router := { s.router with memberCache := m } }

/-- The states differ in expired entries only. -/
def Alike (s s' : MemberCache) : Prop :=
  ∃ m, s' = s.withCache m ∧ SameFresh s.router.cacheTtl s.now s.router.memberCache m

theorem Alike.refl (s : MemberCache) : s.Alike s :=
  ⟨s.router.memberCache, rfl, fun _ _ _ => Iff.rfl⟩

theorem cached_congr {m : DashMap ChannelId CachedMembers}
    (h : SameFresh s.router.cacheTtl s.now s.router.memberCache m) (c : ChannelId) :
    (s.withCache m).router.cached s.now c = s.router.cached s.now c := by
  apply Option.ext
  intro members
  rw [cached_eq_some, cached_eq_some]
  apply exists_congr
  intro entry
  constructor
  · intro hentry
    obtain ⟨hlook, hfresh, hmembers⟩ := hentry
    exact ⟨(h c entry hfresh).2 hlook, hfresh, hmembers⟩
  · intro hentry
    obtain ⟨hlook, hfresh, hmembers⟩ := hentry
    exact ⟨(h c entry hfresh).1 hlook, hfresh, hmembers⟩

theorem SameFresh.insert {cacheTtl now : ℕ} {m m' : DashMap ChannelId CachedMembers}
    (h : SameFresh cacheTtl now m m') (c : ChannelId) (entry : CachedMembers) :
    SameFresh cacheTtl now (m.insert c entry) (m'.insert c entry) := by
  intro c' entry' hfresh
  rw [DashMap.lookup_insert_ite, DashMap.lookup_insert_ite]
  split_ifs
  · exact Iff.rfl
  · exact h c' entry' hfresh

theorem SameFresh.erase {cacheTtl now : ℕ} {m m' : DashMap ChannelId CachedMembers}
    (h : SameFresh cacheTtl now m m') (c : ChannelId) :
    SameFresh cacheTtl now (m.erase c) (m'.erase c) := by
  intro c' entry' hfresh
  rw [DashMap.lookup_erase_ite, DashMap.lookup_erase_ite]
  split_ifs
  · exact Iff.rfl
  · exact h c' entry' hfresh

theorem sameFresh_expire (router : MessageRouter) (now : ℕ) (c : ChannelId) :
    SameFresh router.cacheTtl now router.memberCache (router.expire now c).memberCache := by
  intro c' entry hfresh
  rw [lookup_expire]
  exact (and_iff_left fun _ => hfresh).symm

def Action.isExpire : Action → Bool
  | .expire _ => true
  | _ => false

theorem Alike.step {a : Action} (ha : a.isExpire = false) {u : MemberCache} (h : s.Alike u)
    (hstep : step s a = some s') : ∃ u', u.step a = some u' ∧ s'.Alike u' := by
  obtain ⟨m, rfl, hm⟩ := h
  cases a with
  | expire c => cases ha
  | call t c =>
    obtain ⟨hnone, rfl⟩ := step_call.1 hstep
    exact ⟨_, step_call.2 ⟨hnone, rfl⟩, m, rfl, hm⟩
  | lookup t =>
    obtain ⟨c, since, lookedUpAt, hcall, hcases⟩ := step_lookup.1 hstep
    have hcached := cached_congr hm c
    rcases hcases with ⟨members, hhit, rfl⟩ | ⟨hmiss, rfl⟩
    · exact ⟨_, step_lookup.2 ⟨c, since, lookedUpAt, hcall,
        .inl ⟨members, hcached.trans hhit, rfl⟩⟩, m, rfl, hm⟩
    · exact ⟨_, step_lookup.2 ⟨c, since, lookedUpAt, hcall,
        .inr ⟨hcached.trans hmiss, rfl⟩⟩, m, rfl, hm⟩
  | query t answer =>
    obtain ⟨c, since, lookedUpAt, hcall, hcases⟩ := step_query.1 hstep
    rcases hcases with ⟨e, hanswer, rfl⟩ | ⟨hanswer, rfl⟩
    · exact ⟨_, step_query.2 ⟨c, since, lookedUpAt, hcall, .inl ⟨e, hanswer, rfl⟩⟩, m, rfl, hm⟩
    · exact ⟨_, step_query.2 ⟨c, since, lookedUpAt, hcall, .inr ⟨hanswer, rfl⟩⟩, m, rfl, hm⟩
  | stamp t =>
    obtain ⟨c, members, since, lookedUpAt, hcall, rfl⟩ := step_stamp.1 hstep
    exact ⟨_, step_stamp.2 ⟨c, members, since, lookedUpAt, hcall, rfl⟩, m, rfl, hm⟩
  | insert t =>
    obtain ⟨c, members, fetchedAt, since, lookedUpAt, hcall, rfl⟩ := step_insert.1 hstep
    exact ⟨_, step_insert.2 ⟨c, members, fetchedAt, since, lookedUpAt, hcall, rfl⟩,
      m.insert c ⟨members, fetchedAt⟩, rfl, hm.insert c _⟩
  | change db =>
    obtain rfl := Option.some.inj hstep
    exact ⟨_, rfl, m, rfl, hm⟩
  | invalidate c =>
    obtain rfl := Option.some.inj hstep
    exact ⟨_, rfl, m.erase c, rfl, hm.erase c⟩
  | tick =>
    obtain rfl := Option.some.inj hstep
    refine ⟨_, rfl, m, rfl, ?_⟩
    intro c entry hfresh
    have hfresh : s.now + 1 - entry.fetchedAt < s.router.cacheTtl := hfresh
    exact hm c entry (by omega)

theorem silent_expire : Silent step Alike Action.isExpire where
  enabled t a ha := by
    cases a with
    | expire c => exact ⟨_, rfl⟩
    | _ => cases ha
  left s u a s' ha h hstep := by
    cases a with
    | expire c =>
      obtain rfl := Option.some.inj hstep
      obtain ⟨m, rfl, hm⟩ := h
      refine ⟨m, rfl, ?_⟩
      intro c' entry hfresh
      exact (sameFresh_expire s.router s.now c c' entry hfresh).symm.trans (hm c' entry hfresh)
    | _ => cases ha
  right s u a u' ha h hstep := by
    cases a with
    | expire c =>
      obtain rfl := Option.some.inj hstep
      obtain ⟨m, rfl, hm⟩ := h
      refine ⟨_, rfl, ?_⟩
      intro c' entry hfresh
      exact (hm c' entry hfresh).trans
        (sameFresh_expire (s.withCache m).router s.now c c' entry hfresh)
    | _ => cases ha
  visible s u a s' ha h hstep := h.step ha hstep

/-- **Every returned list is an answer of the database for its channel**, the call's own or one
inserted less than `cache_ttl` before its lookup; and what the cleanup does cannot be seen in the
calls. -/
theorem members_provenance (router : MessageRouter) (db : Database) (as : List Action)
    (s : MemberCache) (hs : exec step (init router db) as = some s) :
    (∀ t call members, s.calls.lookup t = some call → call.pc = .returned (.ok members) →
      s.Asked t call.channelId members ∨
        s.Inserted call.channelId call.lookedUpAt members) ∧
    (∀ i ∈ s.inserts, s.Asked i.call i.channelId i.members) ∧
    (∀ a ∈ s.answers, ∃ v ≤ s.version, getChannelMemberIds (s.dbAt v) a.channelId = a.members) ∧
    ∀ bs, (as.filter fun a => !a.isExpire) = bs.filter (fun a => !a.isExpire) →
      ∃ s', exec step (init router db) bs = some s' ∧ s'.calls = s.calls ∧
        s'.answers = s.answers ∧ s'.inserts = s.inserts := by
  have hsourced : s.Sourced :=
    exec_invariant (fun s a s' h hstep => step_sourced h hstep) (init_sourced router db) hs
  refine ⟨?_, ?_, ?_, ?_⟩
  · intro t call members hcall hreturned
    have hjustified := hsourced.calls t call hcall
    rw [Justified, hreturned] at hjustified
    exact hjustified
  · exact fun i hi => (hsourced.inserts i hi).1
  · exact fun a ha => ⟨a.version, hsourced.answers a ha⟩
  · intro bs hsame
    obtain ⟨s', hs', m, rfl, -⟩ := silent_expire.exec (Alike.refl (init router db)) hsame hs
    exact ⟨_, hs', rfl, rfl, rfl⟩

/-- The cleanup after the last call of `leaveRun` is not seen. -/
theorem members_provenance_leave :
    ∃ s s', exec step (init freshRouter pair) leaveRun = some s ∧
      exec step (init freshRouter pair) (leaveRun ++ [.expire 20]) = some s' ∧
      s'.calls = s.calls := by
  obtain ⟨-, -, -, hsilent⟩ := members_provenance freshRouter pair leaveRun _ rfl
  obtain ⟨s', hs', hcalls, -⟩ := hsilent (leaveRun ++ [.expire 20]) rfl
  exact ⟨_, s', rfl, hs', hcalls⟩

end MemberCache

end RustRelay
