import Mathlib.Algebra.Order.Ring.Rat
import RustRelay.Core.DashMap
import RustRelay.Core.Run
import RustRelay.Core.TokenBucket
import RustRelay.Models

/-!
# The rate limiter

Every user has a token bucket, which `try_acquire` creates full and refills when it is used. A
cleanup task drops the buckets that have not been used for 600 seconds; their users start again
with full ones. Arithmetic is exact here, and times are in seconds.

**Theorem (`token_bucket`).** Without cleanup the balance stays between nothing and the capacity,
no window of length `T` has more than `capacity + refill_rate * T` granted calls, a call is refused
only where the granted calls since some start come within one of that bound, and the calls of
other users make no difference.

**Theorem (`eviction_unobservable_iff`).** No cleanup pass of any run changes an answer, *if and
only if* a bucket refills within 600 seconds, `capacity ≤ 600 * refill_rate`. The window bound
survives cleanup under the same condition and no other. A pass is harmless in any case if the
buckets it drops have refilled by then (`Kept`), and only then (`dropped_observed`).
-/

namespace RustRelay

open Machine TokenBucket

structure RateLimiter where
  buckets : DashMap UserId (Bucket ℚ)
  capacity : ℕ
  refillRate : ℚ

/-- A call of `try_acquire`, with its readings of the clock: where it creates the bucket, and
where it refills it. -/
structure TryAcquire where
  userId : UserId
  created : ℚ
  now : ℚ
  deriving DecidableEq, Repr

namespace RateLimiter

/-- `RateLimiter::new`. -/
def new (capacity : ℕ) (refillRate : ℚ) : RateLimiter := ⟨∅, capacity, refillRate⟩

/-- `try_acquire`. -/
def tryAcquire (l : RateLimiter) (c : TryAcquire) : Bool × RateLimiter :=
  let bucket := (l.buckets.lookup c.userId).getD ⟨l.capacity, c.created⟩
  -- `duration_since` saturates.
  let elapsed := max (c.now - bucket.lastRefill) 0
  let tokens := min (bucket.tokens + elapsed * l.refillRate) l.capacity
  if 1 ≤ tokens then
    (true, { l with buckets := l.buckets.insert c.userId ⟨tokens - 1, c.now⟩ })
  else (false, { l with buckets := l.buckets.insert c.userId ⟨tokens, c.now⟩ })

/-- One pass of `spawn_cleanup`. -/
def cleanup (l : RateLimiter) (now : ℚ) : RateLimiter :=
  let threshold := now - 600
  { l with buckets := DashMap.retain l.buckets fun _ bucket => bucket.lastRefill > threshold }

inductive Action
  | tryAcquire (c : TryAcquire)
  | cleanup (now : ℚ)

def Action.now : Action → ℚ
  | .tryAcquire c => c.now
  | .cleanup now => now

def Action.isCall : Action → Bool
  | .tryAcquire _ => true
  | .cleanup _ => false

def step (l : RateLimiter) : Action → RateLimiter
  | .tryAcquire c => (l.tryAcquire c).2
  | .cleanup now => l.cleanup now

/-- The limiter after a run. -/
def after (l : RateLimiter) (as : List Action) : RateLimiter := as.foldl step l

/-- The calls of a run, with their answers. -/
def log (l : RateLimiter) : List Action → List (TryAcquire × Bool)
  | [] => []
  | .tryAcquire c :: as => (c, (l.tryAcquire c).1) :: (l.tryAcquire c).2.log as
  | .cleanup now :: as => (l.cleanup now).log as

/-- The clock never runs backwards. -/
def Timely (as : List Action) : Prop := (as.map Action.now).Pairwise (· ≤ ·)

instance (as : List Action) : Decidable (Timely as) :=
  inferInstanceAs (Decidable (List.Pairwise _ _))

/-- What one user has seen: when it called, and with which answer. -/
def historyOf (u : UserId) (log : List (TryAcquire × Bool)) : List (ℚ × Bool) :=
  (log.filter fun r => r.1.userId = u).map fun r => (r.1.now, r.2)

variable {l l' : RateLimiter} {c : TryAcquire} {u : UserId} {as bs : List Action}

/-! ## One call -/

/-- The bucket that a call finds or creates. -/
def bucketOf (l : RateLimiter) (c : TryAcquire) : Bucket ℚ :=
  (l.buckets.lookup c.userId).getD ⟨l.capacity, c.created⟩

theorem tryAcquire_eq (l : RateLimiter) (c : TryAcquire) :
    l.tryAcquire c =
      ((acquire (l.capacity : ℚ) l.refillRate (l.bucketOf c) c.now).1, { l with
        buckets := l.buckets.insert c.userId
          (acquire (l.capacity : ℚ) l.refillRate (l.bucketOf c) c.now).2 }) := by
  unfold tryAcquire acquire
  dsimp only
  split_ifs with hone htokens htokens
  · rfl
  · exact absurd hone htokens
  · exact absurd htokens hone
  · rfl

theorem tryAcquire_params (l : RateLimiter) (c : TryAcquire) :
    (l.tryAcquire c).2.capacity = l.capacity ∧ (l.tryAcquire c).2.refillRate = l.refillRate := by
  rw [tryAcquire_eq]
  exact ⟨rfl, rfl⟩

theorem lookup_tryAcquire (l : RateLimiter) (c : TryAcquire) (u : UserId) :
    (l.tryAcquire c).2.buckets.lookup u =
      if u = c.userId then
        some (acquire (l.capacity : ℚ) l.refillRate (l.bucketOf c) c.now).2
      else l.buckets.lookup u := by
  rw [tryAcquire_eq]
  exact DashMap.lookup_insert_ite _ _ _ _

theorem lookup_cleanup (l : RateLimiter) (now : ℚ) (u : UserId) :
    (l.cleanup now).buckets.lookup u =
      (l.buckets.lookup u).filter fun b => b.lastRefill > now - 600 :=
  DashMap.lookup_retain _ _ _

/-! ## Runs -/

theorem step_params (l : RateLimiter) (a : Action) :
    (l.step a).capacity = l.capacity ∧ (l.step a).refillRate = l.refillRate := by
  cases a with
  | tryAcquire c => exact l.tryAcquire_params c
  | cleanup now => exact ⟨rfl, rfl⟩

theorem after_params (l : RateLimiter) (as : List Action) :
    (l.after as).capacity = l.capacity ∧ (l.after as).refillRate = l.refillRate := by
  induction as generalizing l with
  | nil => exact ⟨rfl, rfl⟩
  | cons a as ih =>
    obtain ⟨hcapacity, hrate⟩ := l.step_params a
    obtain ⟨hcapacity', hrate'⟩ := ih (l.step a)
    exact ⟨hcapacity'.trans hcapacity, hrate'.trans hrate⟩

theorem log_append (l : RateLimiter) (as bs : List Action) :
    l.log (as ++ bs) = l.log as ++ (l.after as).log bs := by
  induction as generalizing l with
  | nil => rfl
  | cons a as ih =>
    cases a with
    | tryAcquire c => exact congrArg _ (ih (l.tryAcquire c).2)
    | cleanup now => exact ih (l.cleanup now)

theorem historyOf_append (u : UserId) (h h' : List (TryAcquire × Bool)) :
    historyOf u (h ++ h') = historyOf u h ++ historyOf u h' := by
  rw [historyOf, List.filter_append, List.map_append, historyOf, historyOf]

theorem exists_call_of_mem_historyOf {r : ℚ × Bool} {calls : List TryAcquire}
    (h : r ∈ historyOf u (l.log (calls.map .tryAcquire))) :
    ∃ c ∈ calls, c.userId = u ∧ c.now = r.1 := by
  induction calls generalizing l with
  | nil => exact absurd h List.not_mem_nil
  | cons c calls ih =>
    have hcons : historyOf u (l.log ((c :: calls).map .tryAcquire)) =
        historyOf u [(c, (l.tryAcquire c).1)] ++
          historyOf u ((l.tryAcquire c).2.log (calls.map .tryAcquire)) := historyOf_append u [_] _
    rw [hcons] at h
    rcases List.mem_append.1 h with h | h
    · obtain ⟨r', hr', rfl⟩ := List.mem_map.1 h
      obtain ⟨hmem, hu⟩ := List.mem_filter.1 hr'
      obtain rfl := List.mem_singleton.1 hmem
      exact ⟨c, List.mem_cons_self, by simpa using hu, rfl⟩
    · obtain ⟨c', hc', hboth⟩ := ih h
      exact ⟨c', List.mem_cons_of_mem c hc', hboth⟩

theorem historyOf_le {calls : List TryAcquire}
    (h : ∀ a ∈ (calls.map Action.tryAcquire).map Action.now, a ≤ c.now) :
    ∀ t ∈ (historyOf u (l.log (calls.map .tryAcquire))).map Prod.fst, t ≤ c.now := by
  intro t ht
  obtain ⟨r, hr, rfl⟩ := List.mem_map.1 ht
  obtain ⟨c', hc', -, hnow⟩ := exists_call_of_mem_historyOf hr
  rw [← hnow]
  exact h _ (List.mem_map_of_mem (List.mem_map_of_mem hc'))

/-! ## The books of a user -/

/-- The user's bucket has its books, and was last refilled at a call. -/
def Books (l : RateLimiter) (u : UserId) (h : List (ℚ × Bool)) : Prop :=
  match l.buckets.lookup u with
  | none => h = []
  | some b => Accounts (l.capacity : ℚ) l.refillRate (h.map Prod.fst) h b.tokens b.lastRefill ∧
      b.lastRefill ∈ h.map Prod.fst

theorem Books.accounts {h : List (ℚ × Bool)} (hbooks : l.Books c.userId h)
    (hrate : 0 ≤ l.refillRate) (hnow : ∀ t ∈ h.map Prod.fst, t ≤ c.now) :
    Accounts (l.capacity : ℚ) l.refillRate (h.map Prod.fst ++ [c.now]) h
      (refill (l.capacity : ℚ) l.refillRate (l.bucketOf c) c.now) c.now := by
  unfold Books at hbooks
  unfold bucketOf
  cases hlook : l.buckets.lookup c.userId with
  | none =>
    rw [hlook] at hbooks
    subst hbooks
    rw [Option.getD_none, refill_full hrate]
    exact accounts_full (Nat.cast_nonneg _) hrate c.now
  | some b =>
    rw [hlook] at hbooks
    exact hbooks.1.refill hrate (hnow _ hbooks.2)

theorem Books.tryAcquire {h : List (ℚ × Bool)} (hbooks : l.Books c.userId h)
    (hrate : 0 ≤ l.refillRate) (hnow : ∀ t ∈ h.map Prod.fst, t ≤ c.now) :
    (l.tryAcquire c).2.Books c.userId (h ++ [(c.now, (l.tryAcquire c).1)]) := by
  have hnext := (hbooks.accounts hrate hnow).acquire hrate
  unfold Books
  rw [lookup_tryAcquire, if_pos rfl, (l.tryAcquire_params c).1, (l.tryAcquire_params c).2,
    tryAcquire_eq, List.map_append]
  refine ⟨hnext, ?_⟩
  rw [acquire_lastRefill]
  exact List.mem_append_right _ (List.mem_singleton_self _)

/-- **Every user's bucket has its books after every run** without cleanup. -/
theorem books_after (capacity : ℕ) {refillRate : ℚ} (hrate : 0 ≤ refillRate)
    (calls : List TryAcquire) (htimely : Timely (calls.map .tryAcquire)) (u : UserId) :
    ((new capacity refillRate).after (calls.map .tryAcquire)).Books u
      (historyOf u ((new capacity refillRate).log (calls.map .tryAcquire))) := by
  induction calls using List.reverseRecOn with
  | nil => rfl
  | append_singleton calls c ih =>
    rw [List.map_append, Timely, List.map_append, List.pairwise_append] at htimely
    obtain ⟨htimely, -, hlast⟩ := htimely
    have hbooks := ih htimely
    rw [List.map_append, log_append, historyOf_append, after, List.foldl_append]
    have hparams := (new capacity refillRate).after_params (calls.map .tryAcquire)
    by_cases hu : c.userId = u
    · subst hu
      have hown : historyOf c.userId (((new capacity refillRate).after
          (calls.map .tryAcquire)).log [.tryAcquire c]) =
          [(c.now,
            (((new capacity refillRate).after (calls.map .tryAcquire)).tryAcquire c).1)] := by
        simp [log, historyOf]
      rw [List.map_singleton, hown]
      apply hbooks.tryAcquire
      · rw [hparams.2]
        exact hrate
      · exact historyOf_le fun t ht => hlast t ht _ (List.mem_singleton_self _)
    · have hother : historyOf u (((new capacity refillRate).after
          (calls.map .tryAcquire)).log [.tryAcquire c]) = [] := by
        simp [log, historyOf, hu]
      rw [List.map_singleton, hother, List.append_nil]
      unfold Books at hbooks ⊢
      simp only [List.foldl_cons, List.foldl_nil, step]
      rw [lookup_tryAcquire, if_neg (Ne.symm hu), (tryAcquire_params _ c).1,
        (tryAcquire_params _ c).2]
      exact hbooks

theorem log_filter (hparams : l'.capacity = l.capacity ∧ l'.refillRate = l.refillRate)
    (hlook : l'.buckets.lookup u = l.buckets.lookup u) (calls : List TryAcquire) :
    (l.log (calls.map .tryAcquire)).filter (fun r => r.1.userId = u) =
      l'.log ((calls.filter fun c => c.userId = u).map .tryAcquire) := by
  induction calls generalizing l l' with
  | nil => rfl
  | cons c calls ih =>
    rw [List.map_cons, log]
    by_cases hu : c.userId = u
    · subst hu
      have hbucket : l'.bucketOf c = l.bucketOf c := by
        rw [bucketOf, bucketOf, hlook, hparams.1]
      rw [List.filter_cons_of_pos (by simp), List.filter_cons_of_pos (by simp), List.map_cons, log]
      have hanswer : (l'.tryAcquire c).1 = (l.tryAcquire c).1 := by
        rw [tryAcquire_eq, tryAcquire_eq, hbucket, hparams.1, hparams.2]
      rw [hanswer]
      congr 1
      apply ih
      · rw [(tryAcquire_params _ c).1, (tryAcquire_params _ c).2, (tryAcquire_params _ c).1,
          (tryAcquire_params _ c).2]
        exact hparams
      · rw [lookup_tryAcquire, lookup_tryAcquire, if_pos rfl, if_pos rfl, hbucket, hparams.1,
          hparams.2]
    · rw [List.filter_cons_of_neg (by simpa using hu), List.filter_cons_of_neg (by simpa using hu)]
      apply ih
      · rw [(tryAcquire_params _ c).1, (tryAcquire_params _ c).2]
        exact hparams
      · rw [lookup_tryAcquire, if_neg (Ne.symm hu)]
        exact hlook

/-! ## The bound -/

/-- In a run without cleanup, no window has more granted calls of a user than the bound. -/
theorem window_le (capacity : ℕ) {refillRate : ℚ} (hrate : 0 ≤ refillRate)
    {calls : List TryAcquire} (htimely : Timely (calls.map .tryAcquire)) (u : UserId) (a : ℚ)
    {T : ℚ} (hT : 0 ≤ T) :
    (grantedIn a T (historyOf u ((new capacity refillRate).log (calls.map .tryAcquire))) : ℚ) ≤
      capacity + refillRate * T := by
  have hbooks := books_after capacity hrate calls htimely u
  have hparams := (new capacity refillRate).after_params (calls.map .tryAcquire)
  unfold Books at hbooks
  cases hlook : ((new capacity refillRate).after (calls.map .tryAcquire)).buckets.lookup u with
  | none =>
    rw [hlook] at hbooks
    rw [hbooks, show grantedIn a T [] = 0 from rfl, Nat.cast_zero]
    exact add_nonneg (Nat.cast_nonneg _) (mul_nonneg hrate hT)
  | some b =>
    rw [hlook, hparams.1, hparams.2] at hbooks
    exact hbooks.1.window a T hT

/-- **The token bucket bound, and its converse.** -/
theorem token_bucket (capacity : ℕ) (refillRate : ℚ) (hrate : 0 ≤ refillRate)
    (calls : List TryAcquire) (htimely : Timely (calls.map .tryAcquire)) (u : UserId) :
    let limiter := new capacity refillRate
    (∀ b, (limiter.after (calls.map .tryAcquire)).buckets.lookup u = some b →
      0 ≤ b.tokens ∧ b.tokens ≤ capacity) ∧
    (∀ a T, 0 ≤ T → (grantedIn a T (historyOf u (limiter.log (calls.map .tryAcquire))) : ℚ) ≤
      capacity + refillRate * T) ∧
    (∀ before c rest, calls = before ++ c :: rest → c.userId = u →
      ((limiter.after (before.map .tryAcquire)).tryAcquire c).1 = false →
      ∃ c' ∈ before ++ [c], c'.userId = u ∧ c'.now ≤ c.now ∧
        capacity + refillRate * (c.now - c'.now) - 1 <
          grantedSince c'.now (historyOf u (limiter.log (before.map .tryAcquire)))) ∧
    (limiter.log (calls.map .tryAcquire)).filter (fun r => r.1.userId = u) =
      limiter.log ((calls.filter fun c => c.userId = u).map .tryAcquire) := by
  refine ⟨?_, ?_, ?_, log_filter ⟨rfl, rfl⟩ rfl calls⟩
  · intro b hb
    have hbooks := books_after capacity hrate calls htimely u
    rw [Books, hb, ((new capacity refillRate).after_params _).1] at hbooks
    exact ⟨hbooks.1.nonneg, hbooks.1.le_capacity⟩
  · exact fun a T hT => window_le capacity hrate htimely u a hT
  · intro before c rest hsplit hu hrefused
    subst hu
    rw [hsplit, List.map_append, Timely, List.map_append, List.pairwise_append] at htimely
    obtain ⟨htimely, -, hlast⟩ := htimely
    have hparams := (new capacity refillRate).after_params (before.map .tryAcquire)
    -- What the call finds, by the books of the calls before it.
    have haccounts := (books_after capacity hrate before htimely c.userId).accounts
      (by rw [hparams.2]; exact hrate)
      (historyOf_le fun t ht => hlast t ht _ List.mem_cons_self)
    rw [tryAcquire_eq, acquire_fst, decide_eq_false_iff_not, not_le] at hrefused
    obtain ⟨s, hs, hle, hspent⟩ := haccounts.refused hrefused
    rw [hparams.1, hparams.2] at hspent
    rcases List.mem_append.1 hs with hs | hs
    · obtain ⟨r, hr, rfl⟩ := List.mem_map.1 hs
      obtain ⟨c', hc', hu, hnow⟩ := exists_call_of_mem_historyOf hr
      rw [← hnow] at hle hspent
      exact ⟨c', List.mem_append_left _ hc', hu, hle, hspent⟩
    · obtain rfl := List.mem_singleton.1 hs
      exact ⟨c, List.mem_append_right _ (List.mem_singleton_self c), rfl, hle, hspent⟩

/-- Two calls within a second, on a limiter for one call in ten seconds. -/
def twoCalls : List TryAcquire := [⟨7, 0, 0⟩, ⟨7, 1, 1⟩]

theorem token_bucket_twoCalls :
    (grantedIn 0 1 (historyOf 7 ((new 1 (1 / 10)).log (twoCalls.map .tryAcquire))) : ℚ) ≤
        (1 : ℕ) + 1 / 10 * 1 ∧
      ∃ c' ∈ twoCalls, c'.userId = 7 ∧ c'.now ≤ 1 ∧
        ((1 : ℕ) : ℚ) + 1 / 10 * (1 - c'.now) - 1 <
          grantedSince c'.now (historyOf 7 ((new 1 (1 / 10)).log [.tryAcquire ⟨7, 0, 0⟩])) := by
  obtain ⟨-, hwindow, hrefused, -⟩ :=
    token_bucket 1 (1 / 10) (by norm_num) twoCalls (by decide +kernel) 7
  exact ⟨hwindow 0 1 (by norm_num), hrefused [⟨7, 0, 0⟩] ⟨7, 1, 1⟩ [] rfl rfl (by decide +kernel)⟩

/-! ## Cleanup -/

/-- The calls of a run. -/
def calls (as : List Action) : List Action := as.filter Action.isCall

theorem exists_calls (as : List Action) :
    ∃ cs : List TryAcquire, calls as = cs.map .tryAcquire := by
  induction as with
  | nil => exact ⟨[], rfl⟩
  | cons a as ih =>
    obtain ⟨cs, hcs⟩ := ih
    cases a with
    | tryAcquire c => exact ⟨c :: cs, congrArg _ hcs⟩
    | cleanup now => exact ⟨cs, hcs⟩

/-- The bound for the calls of a run with cleanup, when they run without it. -/
theorem window_calls_le (capacity : ℕ) {refillRate : ℚ} (hrate : 0 ≤ refillRate)
    (htimely : Timely as) (u : UserId) (a : ℚ) {T : ℚ} (hT : 0 ≤ T) :
    (grantedIn a T (historyOf u ((new capacity refillRate).log (calls as))) : ℚ) ≤
      capacity + refillRate * T := by
  have hcalls : Timely (calls as) := htimely.sublist (List.filter_sublist.map _)
  obtain ⟨cs, hcs⟩ := exists_calls as
  rw [hcs] at hcalls ⊢
  exact window_le capacity hrate hcalls u a hT

/-- What a pass drops has refilled by then. -/
def DropsRefilled (l : RateLimiter) : Action → Prop
  | .tryAcquire _ => True
  | .cleanup now => ∀ u b, l.buckets.lookup u = some b → b.lastRefill ≤ now - 600 →
      l.capacity ≤ b.tokens + (now - b.lastRefill) * l.refillRate

/-- The second limiter still has the buckets that the first one has dropped, and they are full. -/
structure Kept (now : ℚ) (l l' : RateLimiter) : Prop where
  capacity : l'.capacity = l.capacity
  refillRate : l'.refillRate = l.refillRate
  buckets : ∀ u, l'.buckets.lookup u = l.buckets.lookup u ∨
    l.buckets.lookup u = none ∧ ∃ b, l'.buckets.lookup u = some b ∧ b.lastRefill ≤ now ∧
      l.capacity ≤ b.tokens + (now - b.lastRefill) * l.refillRate

theorem Kept.refl (now : ℚ) (l : RateLimiter) : Kept now l l := ⟨rfl, rfl, fun _ => .inl rfl⟩

theorem Kept.mono {now later : ℚ} (h : Kept now l l') (hrate : 0 ≤ l.refillRate)
    (hlater : now ≤ later) : Kept later l l' := by
  refine ⟨h.capacity, h.refillRate, ?_⟩
  intro u
  rcases h.buckets u with hsame | ⟨hnone, b, hb, hlast, hfull⟩
  · exact .inl hsame
  · refine .inr ⟨hnone, b, hb, hlast.trans hlater, hfull.trans ?_⟩
    have hgain : (now - b.lastRefill) * l.refillRate ≤ (later - b.lastRefill) * l.refillRate :=
      mul_le_mul_of_nonneg_right (sub_le_sub_right hlater _) hrate
    linarith

/-- A call finds the same balance in both. -/
theorem Kept.refill_eq (h : Kept c.now l l') (hrate : 0 ≤ l.refillRate) :
    refill (l.capacity : ℚ) l.refillRate (l'.bucketOf c) c.now =
      refill (l.capacity : ℚ) l.refillRate (l.bucketOf c) c.now := by
  unfold bucketOf
  rcases h.buckets c.userId with hsame | ⟨hnone, b, hb, hlast, hfull⟩
  · rw [hsame, h.capacity]
  · rw [hnone, hb, Option.getD_none, Option.getD_some, refill_full hrate, refill_of_le hlast]
    exact min_eq_right hfull

theorem Kept.tryAcquire (h : Kept c.now l l') (hrate : 0 ≤ l.refillRate) :
    (l'.tryAcquire c).1 = (l.tryAcquire c).1 ∧
      Kept c.now (l.tryAcquire c).2 (l'.tryAcquire c).2 := by
  have hsame : acquire (l'.capacity : ℚ) l'.refillRate (l'.bucketOf c) c.now =
      acquire (l.capacity : ℚ) l.refillRate (l.bucketOf c) c.now := by
    rw [h.capacity, h.refillRate, acquire, acquire, h.refill_eq hrate]
  refine ⟨?_, ?_, ?_, ?_⟩
  · rw [tryAcquire_eq, tryAcquire_eq, hsame]
  · rw [(tryAcquire_params _ c).1, (tryAcquire_params _ c).1, h.capacity]
  · rw [(tryAcquire_params _ c).2, (tryAcquire_params _ c).2, h.refillRate]
  · intro u
    rw [lookup_tryAcquire, lookup_tryAcquire, hsame, (tryAcquire_params _ c).1,
      (tryAcquire_params _ c).2]
    split_ifs with hu
    · exact .inl rfl
    · exact h.buckets u

theorem Kept.cleanup {now : ℚ} (h : Kept now l l') (hdrops : l.DropsRefilled (.cleanup now)) :
    Kept now (l.cleanup now) l' := by
  refine ⟨h.capacity, h.refillRate, ?_⟩
  intro u
  rw [lookup_cleanup]
  rcases h.buckets u with hsame | ⟨hnone, hfull⟩
  · cases hlook : l.buckets.lookup u with
    | none =>
      rw [hsame, hlook]
      exact .inl rfl
    | some b =>
      by_cases hold : b.lastRefill ≤ now - 600
      · refine .inr ⟨?_, b, hsame.trans hlook, ?_, hdrops u b hlook hold⟩
        · simp [hold]
        · linarith
      · rw [hsame, hlook, Option.filter_some_pos (by simpa using hold)]
        exact .inl rfl
  · rw [hnone]
    exact .inr ⟨rfl, hfull⟩

/-- **Cleanup is unobservable in runs that drop refilled buckets only.** -/
theorem Kept.log_eq {now : ℚ} (h : Kept now l l') (hrate : 0 ≤ l.refillRate)
    (hnow : ∀ a ∈ as, now ≤ a.now) (htimely : Timely as)
    (hdrops : Along (fun l a => some (l.step a)) DropsRefilled l as) :
    l.log as = l'.log (calls as) := by
  induction as generalizing l l' now with
  | nil => rfl
  | cons a as ih =>
    obtain ⟨hle, hrest⟩ := List.pairwise_cons.1 htimely
    obtain ⟨hdrop, hdrops⟩ := (along_cons rfl).1 hdrops
    have hnext : ∀ a' ∈ as, a.now ≤ a'.now := fun a' ha' => hle _ (List.mem_map_of_mem ha')
    have hmono := h.mono hrate (hnow a List.mem_cons_self)
    cases a with
    | tryAcquire c =>
      obtain ⟨hanswer, hkept⟩ := hmono.tryAcquire hrate
      rw [calls, List.filter_cons_of_pos rfl, log, log, hanswer]
      congr 1
      exact ih hkept (by rw [(l.tryAcquire_params c).2]; exact hrate) hnext hrest hdrops
    | cleanup now' =>
      rw [calls, List.filter_cons_of_neg (by simp [Action.isCall]), log]
      exact ih (hmono.cleanup hdrop) hrate hnext hrest hdrops

/-! ### When buckets refill in time -/

/-- Balances are never negative. -/
def Solvent (l : RateLimiter) : Prop := ∀ u b, l.buckets.lookup u = some b → 0 ≤ b.tokens

theorem Solvent.step (h : l.Solvent) (hrate : 0 ≤ l.refillRate) (a : Action) :
    (l.step a).Solvent := by
  intro u b hb
  cases a with
  | tryAcquire c =>
    rw [RateLimiter.step, lookup_tryAcquire] at hb
    split_ifs at hb with hu
    · obtain rfl := Option.some.inj hb
      have hbucket : 0 ≤ (l.bucketOf c).tokens := by
        unfold bucketOf
        cases hlook : l.buckets.lookup c.userId with
        | none => exact Nat.cast_nonneg _
        | some b => exact h _ b hlook
      exact acquire_tokens_nonneg (Nat.cast_nonneg _) hrate hbucket c.now
    · exact h u b hb
  | cleanup now =>
    rw [RateLimiter.step, lookup_cleanup, Option.filter_eq_some_iff] at hb
    exact h u b hb.1

/-- If every bucket refills within 600 seconds, every pass drops refilled buckets only. -/
theorem along_dropsRefilled (hrate : 0 ≤ l.refillRate) (hsolvent : l.Solvent)
    (hrefills : (l.capacity : ℚ) ≤ 600 * l.refillRate) (as : List Action) :
    Along (fun l a => some (l.step a)) DropsRefilled l as := by
  induction as generalizing l with
  | nil => trivial
  | cons a as ih =>
    refine (along_cons rfl).2 ⟨?_, ?_⟩
    · cases a with
      | tryAcquire c => trivial
      | cleanup now =>
        intro u b hb hold
        have htokens := hsolvent u b hb
        have hgain : 600 * l.refillRate ≤ (now - b.lastRefill) * l.refillRate :=
          mul_le_mul_of_nonneg_right (by linarith) hrate
        linarith
    · have hparams := l.step_params a
      apply ih
      · rw [hparams.2]
        exact hrate
      · exact hsolvent.step hrate a
      · rw [hparams.1, hparams.2]
        exact hrefills

/-! ### When they do not -/

/-- As many calls of a user at one time as the capacity allows. -/
def burst (capacity : ℕ) (u : UserId) (now : ℚ) : List Action :=
  List.replicate capacity (.tryAcquire ⟨u, now, now⟩)

theorem log_burst (l : RateLimiter) (c : TryAcquire) (n : ℕ) :
    l.log (List.replicate n (.tryAcquire c)) =
      (answers (l.capacity : ℚ) l.refillRate (l.bucketOf c) (List.replicate n c.now)).map
        fun ok => (c, ok) := by
  induction n generalizing l with
  | zero => rfl
  | succ n ih =>
    have hbucket : (l.tryAcquire c).2.bucketOf c =
        (acquire (l.capacity : ℚ) l.refillRate (l.bucketOf c) c.now).2 := by
      rw [bucketOf, lookup_tryAcquire, if_pos rfl, Option.getD_some]
    rw [List.replicate_succ, List.replicate_succ, log, ih, hbucket, answers, List.map_cons,
      (l.tryAcquire_params c).1, (l.tryAcquire_params c).2, tryAcquire_eq]

/-- A burst is granted as a whole exactly if the balance covers it. -/
theorem log_burst_iff {now : ℚ} (n : ℕ)
    (hnonneg : 0 ≤ refill (l.capacity : ℚ) l.refillRate (l.bucketOf ⟨u, now, now⟩) now) :
    l.log (burst n u now) = List.replicate n (⟨u, now, now⟩, true) ↔
      (n : ℚ) ≤ refill (l.capacity : ℚ) l.refillRate (l.bucketOf ⟨u, now, now⟩) now := by
  rw [burst, log_burst, ← answers_replicate_iff n hnonneg,
    ← List.map_replicate (f := fun ok => ((⟨u, now, now⟩ : TryAcquire), ok))]
  exact (List.map_injective_iff.2 fun _ _ h => (Prod.mk.inj h).2).eq_iff

theorem log_burst_of_none (hrate : 0 ≤ l.refillRate) {now : ℚ}
    (hnone : l.buckets.lookup u = none) :
    l.log (burst l.capacity u now) = List.replicate l.capacity (⟨u, now, now⟩, true) := by
  have hfull : refill (l.capacity : ℚ) l.refillRate (l.bucketOf ⟨u, now, now⟩) now =
      l.capacity := by
    rw [bucketOf, hnone, Option.getD_none, refill_full hrate]
  rw [log_burst_iff l.capacity (by rw [hfull]; exact Nat.cast_nonneg _), hfull]

/-- **A pass that drops a bucket before it has refilled is observed** by a burst of its user. -/
theorem dropped_observed (hrate : 0 ≤ l.refillRate) {now : ℚ} {b : Bucket ℚ}
    (hb : l.buckets.lookup u = some b) (hold : b.lastRefill ≤ now - 600) (htokens : 0 ≤ b.tokens)
    (hshort : b.tokens + (now - b.lastRefill) * l.refillRate < l.capacity) :
    (l.cleanup now).log (burst l.capacity u now) ≠ l.log (burst l.capacity u now) := by
  have hlast : b.lastRefill ≤ now := by linarith
  have hrefill : refill (l.capacity : ℚ) l.refillRate (l.bucketOf ⟨u, now, now⟩) now =
      b.tokens + (now - b.lastRefill) * l.refillRate := by
    rw [bucketOf, hb, Option.getD_some, refill_of_le hlast]
    exact min_eq_left hshort.le
  have hgain : 0 ≤ (now - b.lastRefill) * l.refillRate :=
    mul_nonneg (sub_nonneg.2 hlast) hrate
  have hdropped : (l.cleanup now).buckets.lookup u = none := by
    rw [lookup_cleanup, hb]
    simp [hold]
  have hall : (l.cleanup now).log (burst l.capacity u now) =
      List.replicate l.capacity (⟨u, now, now⟩, true) :=
    log_burst_of_none (l := l.cleanup now) hrate hdropped
  rw [hall]
  intro hsame
  have hcovered := (log_burst_iff l.capacity
    (by rw [hrefill]; exact add_nonneg htokens hgain)).1 hsame.symm
  rw [hrefill] at hcovered
  exact absurd hcovered (not_le.2 hshort)

/-- A burst, a pass 600 seconds later, and another burst. -/
def evictingRun (capacity : ℕ) : List Action :=
  burst capacity 7 0 ++ .cleanup 600 :: burst capacity 7 600

theorem evictingRun_timely (capacity : ℕ) : Timely (evictingRun capacity) := by
  have hburst (t : ℚ) : ((burst capacity 7 t).map Action.now) = List.replicate capacity t := by
    rw [burst, List.map_replicate]
    rfl
  rw [Timely, evictingRun, List.map_append, List.map_cons, hburst, hburst, List.pairwise_append,
    List.pairwise_cons]
  refine ⟨List.pairwise_replicate.2 (.inr le_rfl), ⟨?_, List.pairwise_replicate.2 (.inr le_rfl)⟩,
    ?_⟩
  · intro t ht
    rw [List.eq_of_mem_replicate ht]
    exact le_rfl
  · intro t ht t' ht'
    rw [List.eq_of_mem_replicate ht]
    rcases List.mem_cons.1 ht' with rfl | ht'
    · norm_num [Action.now]
    · rw [List.eq_of_mem_replicate ht']
      norm_num

theorem lookup_after_burst (l : RateLimiter) (u : UserId) (now : ℚ) {n : ℕ} (hn : n ≠ 0) :
    ∃ b, (l.after (burst n u now)).buckets.lookup u = some b ∧ b.lastRefill = now := by
  obtain ⟨n, rfl⟩ := Nat.exists_eq_succ_of_ne_zero hn
  rw [burst, List.replicate_succ', after, List.foldl_append, List.foldl_cons, List.foldl_nil, step,
    lookup_tryAcquire, if_pos rfl]
  exact ⟨_, rfl, acquire_lastRefill _ _ _ _⟩

theorem log_evictingRun (capacity : ℕ) {refillRate : ℚ} (hrate : 0 ≤ refillRate) :
    (new capacity refillRate).log (evictingRun capacity) =
      List.replicate capacity (⟨7, 0, 0⟩, true) ++
        List.replicate capacity (⟨7, 600, 600⟩, true) := by
  rw [evictingRun, log_append]
  congr 1
  · exact log_burst_of_none (l := new capacity refillRate) hrate rfl
  · rcases eq_or_ne capacity 0 with rfl | hne
    · rfl
    obtain ⟨b, hb, hlast⟩ := (new capacity refillRate).lookup_after_burst 7 0 hne
    have hparams := (new capacity refillRate).after_params (burst capacity 7 0)
    rw [log]
    have hdropped : (((new capacity refillRate).after (burst capacity 7 0)).cleanup
        600).buckets.lookup 7 = none := by
      rw [lookup_cleanup, hb]
      simp [hlast]
    generalize hl : ((new capacity refillRate).after (burst capacity 7 0)).cleanup 600 = l
      at hdropped
    have hcapacity : l.capacity = capacity := by rw [← hl]; exact hparams.1
    have hrefillRate : l.refillRate = refillRate := by rw [← hl]; exact hparams.2
    have hall : l.log (burst l.capacity 7 600) =
        List.replicate l.capacity (⟨7, 600, 600⟩, true) :=
      log_burst_of_none (by rw [hrefillRate]; exact hrate) hdropped
    rw [hcapacity] at hall
    rw [← hall, ← hl]

theorem granted_evictingRun (capacity : ℕ) {refillRate : ℚ} (hrate : 0 ≤ refillRate) :
    grantedIn 0 600 (historyOf 7 ((new capacity refillRate).log (evictingRun capacity))) =
      capacity + capacity := by
  rw [log_evictingRun capacity hrate, historyOf_append, grantedIn, List.countP_append]
  have hburst {t : ℚ} (ht : 0 ≤ t ∧ t ≤ 0 + 600) :
      (historyOf 7 (List.replicate capacity (⟨7, t, t⟩, true))).countP
        (fun r => decide (0 ≤ r.1 ∧ r.1 ≤ 0 + 600 ∧ r.2 = true)) = capacity := by
    rw [historyOf, List.filter_eq_self.2, List.map_replicate, List.countP_replicate, if_pos]
    · simpa using ht
    · intro r hr
      rw [List.eq_of_mem_replicate hr]
      rfl
  rw [hburst (by norm_num), hburst (by norm_num)]

/-- **Eviction is unobservable exactly if buckets refill within 600 seconds**, and exactly then
the window bound survives it; whatever the parameters, it is in runs that drop refilled buckets
only. -/
theorem eviction_unobservable_iff (capacity : ℕ) (refillRate : ℚ) (hrate : 0 ≤ refillRate) :
    ((∀ as, Timely as → (new capacity refillRate).log as =
        (new capacity refillRate).log (calls as)) ↔ (capacity : ℚ) ≤ 600 * refillRate) ∧
    ((∀ as, Timely as → ∀ u a T, 0 ≤ T →
        (grantedIn a T (historyOf u ((new capacity refillRate).log as)) : ℚ) ≤
          capacity + refillRate * T) ↔ (capacity : ℚ) ≤ 600 * refillRate) ∧
    ∀ as, Timely as →
      Along (fun l a => some (l.step a)) DropsRefilled (new capacity refillRate) as →
      (new capacity refillRate).log as = (new capacity refillRate).log (calls as) := by
  have hdropping {as : List Action} (htimely : Timely as)
      (hdrops : Along (fun l a => some (l.step a)) DropsRefilled (new capacity refillRate) as) :
      (new capacity refillRate).log as = (new capacity refillRate).log (calls as) := by
    cases as with
    | nil => rfl
    | cons a as =>
      refine (Kept.refl a.now (new capacity refillRate)).log_eq hrate ?_ htimely hdrops
      intro a' ha'
      rcases List.mem_cons.1 ha' with rfl | ha'
      · exact le_rfl
      · exact (List.pairwise_cons.1 htimely).1 _ (List.mem_map_of_mem ha')
  have hrefilling (hrefills : (capacity : ℚ) ≤ 600 * refillRate) (as : List Action) :
      Along (fun l a => some (l.step a)) DropsRefilled (new capacity refillRate) as := by
    apply along_dropsRefilled hrate _ hrefills as
    intro u b hb
    rw [show (new capacity refillRate).buckets.lookup u = none from rfl] at hb
    cases hb
  -- Two bursts within 600 seconds.
  have hbound (hwindow : (grantedIn 0 600 (historyOf 7 ((new capacity refillRate).log
      (evictingRun capacity))) : ℚ) ≤ capacity + refillRate * 600) :
      (capacity : ℚ) ≤ 600 * refillRate := by
    rw [granted_evictingRun capacity hrate, Nat.cast_add] at hwindow
    linarith
  refine ⟨⟨?_, ?_⟩, ⟨?_, ?_⟩, fun as htimely hdrops => hdropping htimely hdrops⟩
  · intro hsame
    apply hbound
    rw [hsame _ (evictingRun_timely capacity)]
    exact window_calls_le capacity hrate (evictingRun_timely capacity) 7 0 (by norm_num)
  · exact fun hrefills as htimely => hdropping htimely (hrefilling hrefills as)
  · exact fun hwindow => hbound (hwindow _ (evictingRun_timely capacity) 7 0 600 (by norm_num))
  · intro hrefills as htimely u a T hT
    rw [hdropping htimely (hrefilling hrefills as)]
    exact window_calls_le capacity hrate htimely u a hT

/-- A bucket of six that gains a token in 100 seconds is full again when it is dropped. -/
theorem eviction_unobservable_iff_slow :
    (new 6 (1 / 100)).log (evictingRun 6) = (new 6 (1 / 100)).log (calls (evictingRun 6)) :=
  (eviction_unobservable_iff 6 (1 / 100) (by norm_num)).1.2 (by norm_num) _ (evictingRun_timely 6)

/-- A bucket of one that gains a token in 1000 seconds is not: cleanup lets the second call
through. -/
theorem evicted_bucket_full :
    ¬ ∀ (capacity : ℕ) (refillRate : ℚ), 0 ≤ refillRate → ∀ as, Timely as →
      (new capacity refillRate).log as = (new capacity refillRate).log (calls as) := by
  intro h
  have hsame := h 1 (1 / 1000) (by norm_num) (evictingRun 1) (evictingRun_timely 1)
  have hdiffer : (new 1 (1 / 1000)).log (evictingRun 1) ≠
      (new 1 (1 / 1000)).log (calls (evictingRun 1)) := by decide +kernel
  exact hdiffer hsame

end RateLimiter

end RustRelay
