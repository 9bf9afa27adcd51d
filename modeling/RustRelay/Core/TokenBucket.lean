import Mathlib.Algebra.Order.Field.Basic
import Mathlib.Data.List.Count
import Mathlib.Tactic.Linarith
import Mathlib.Tactic.LinearCombination

/-!
# Token buckets

A bucket holds at most `capacity` tokens and gains `rate` of them in a unit of time; a request
takes a token, and is refused where there is none. The bucket only knows its balance. What an
observer sees are requests in windows of time, and the two are related by the requests granted
since each moment of the past.

* `acquire` — a request; `refill` is the balance it finds.
* `Accounts` — the books: for every start the granted requests and the balance together are
  bounded, and for one start the bound is reached. `Accounts.refill`, `Accounts.grant` and
  `Accounts.refuse` keep them.
* `Accounts.refused` — why a request is refused.
* `answers_replicate_iff` — a burst of requests is granted exactly if the balance covers it.

Nothing here names a program: capacity, rate and times are elements of any ordered field.
-/

namespace TokenBucket

structure Bucket (K : Type*) where
  tokens : K
  lastRefill : K
  deriving DecidableEq, Repr

variable {K : Type*} [Field K] [LinearOrder K]

section
variable (capacity rate : K)

/-- The balance at time `now`. A time before the last refill adds nothing. -/
def refill (b : Bucket K) (now : K) : K :=
  min (b.tokens + max (now - b.lastRefill) 0 * rate) capacity

/-- A request at time `now`. -/
def acquire (b : Bucket K) (now : K) : Bool × Bucket K :=
  if 1 ≤ refill capacity rate b now then (true, ⟨refill capacity rate b now - 1, now⟩)
  else (false, ⟨refill capacity rate b now, now⟩)

/-- The answers to requests at the given times. -/
def answers (b : Bucket K) : List K → List Bool
  | [] => []
  | now :: times =>
    (acquire capacity rate b now).1 :: answers (acquire capacity rate b now).2 times

end

/-- The requests granted at `a` or later, in a history of times and answers. -/
def grantedSince (a : K) (h : List (K × Bool)) : ℕ := h.countP fun r => a ≤ r.1 ∧ r.2

/-- The requests granted in the window of length `T` that starts at `a`. -/
def grantedIn (a T : K) (h : List (K × Bool)) : ℕ :=
  h.countP fun r => a ≤ r.1 ∧ r.1 ≤ a + T ∧ r.2

/-- The books of a bucket after the history `h`: its balance is `tokens` at time `now`, and the
requests so far were made at the times `starts`. -/
structure Accounts (capacity rate : K) (starts : List K) (h : List (K × Bool)) (tokens now : K) :
    Prop where
  nonneg : 0 ≤ tokens
  le_capacity : tokens ≤ capacity
  past : ∀ r ∈ h, r.1 ≤ now
  spent : ∀ a ≤ now, grantedSince a h + tokens ≤ capacity + rate * (now - a)
  earned : ∃ s ∈ starts, s ≤ now ∧ capacity + rate * (now - s) ≤ tokens + grantedSince s h
  window : ∀ a T, 0 ≤ T → grantedIn a T h ≤ capacity + rate * T

variable [IsStrictOrderedRing K] {capacity rate : K} {starts : List K} {h : List (K × Bool)}
  {tokens now later : K} {b : Bucket K}

/-! ## Histories -/

omit [Field K] [IsStrictOrderedRing K] in
theorem grantedSince_snoc (a : K) (h : List (K × Bool)) (r : K × Bool) :
    grantedSince a (h ++ [r]) = grantedSince a h + if a ≤ r.1 ∧ r.2 then 1 else 0 := by
  rw [grantedSince, List.countP_append, List.countP_singleton, grantedSince]
  simp only [decide_eq_true_eq]

omit [IsStrictOrderedRing K] in
theorem grantedIn_snoc (a T : K) (h : List (K × Bool)) (r : K × Bool) :
    grantedIn a T (h ++ [r]) =
      grantedIn a T h + if a ≤ r.1 ∧ r.1 ≤ a + T ∧ r.2 then 1 else 0 := by
  rw [grantedIn, List.countP_append, List.countP_singleton, grantedIn]
  simp only [decide_eq_true_eq]

omit [IsStrictOrderedRing K] in
/-- What was granted in a window was granted since its start. -/
theorem grantedIn_le_grantedSince (a T : K) (h : List (K × Bool)) :
    grantedIn a T h ≤ grantedSince a h := by
  apply List.countP_mono_left
  intro r _ hr
  simp only [decide_eq_true_eq] at hr ⊢
  exact ⟨hr.1, hr.2.2⟩

omit [Field K] [IsStrictOrderedRing K] in
/-- Nothing was granted after the last request. -/
theorem grantedSince_eq_zero {a : K} (hpast : ∀ r ∈ h, r.1 < a) : grantedSince a h = 0 := by
  rw [grantedSince, List.countP_eq_zero]
  intro r hr hgranted
  simp only [decide_eq_true_eq] at hgranted
  exact absurd hgranted.1 (not_le.2 (hpast r hr))

/-! ## The balance -/

omit [IsStrictOrderedRing K] in
theorem refill_le_capacity (capacity rate : K) (b : Bucket K) (now : K) :
    refill capacity rate b now ≤ capacity := min_le_right _ _

theorem refill_of_le (hnow : b.lastRefill ≤ now) :
    refill capacity rate b now = min (b.tokens + (now - b.lastRefill) * rate) capacity := by
  rw [refill, max_eq_left (sub_nonneg.2 hnow)]

/-- A full bucket stays full, whenever it was created. -/
theorem refill_full (hrate : 0 ≤ rate) (created now : K) :
    refill capacity rate ⟨capacity, created⟩ now = capacity := by
  have hgain : 0 ≤ max (now - created) 0 * rate := mul_nonneg (le_max_right _ _) hrate
  exact min_eq_right (le_add_of_nonneg_right hgain)

omit [IsStrictOrderedRing K] in
theorem acquire_fst (capacity rate : K) (b : Bucket K) (now : K) :
    (acquire capacity rate b now).1 = decide (1 ≤ refill capacity rate b now) := by
  unfold acquire
  split_ifs with hone <;> simp [hone]

omit [IsStrictOrderedRing K] in
theorem acquire_lastRefill (capacity rate : K) (b : Bucket K) (now : K) :
    (acquire capacity rate b now).2.lastRefill = now := by
  unfold acquire
  split_ifs <;> rfl

theorem acquire_tokens_nonneg (hcapacity : 0 ≤ capacity) (hrate : 0 ≤ rate)
    (htokens : 0 ≤ b.tokens) (now : K) : 0 ≤ (acquire capacity rate b now).2.tokens := by
  have hgain : 0 ≤ max (now - b.lastRefill) 0 * rate := mul_nonneg (le_max_right _ _) hrate
  have hrefill : 0 ≤ refill capacity rate b now := le_min (add_nonneg htokens hgain) hcapacity
  unfold acquire
  split_ifs with hone
  · exact sub_nonneg.2 hone
  · exact hrefill

/-! ## The books -/

/-- The books of a full bucket, at its first request. -/
theorem accounts_full (hcapacity : 0 ≤ capacity) (hrate : 0 ≤ rate) (now : K) :
    Accounts capacity rate [now] [] capacity now where
  nonneg := hcapacity
  le_capacity := le_rfl
  past _ hr := absurd hr List.not_mem_nil
  spent a ha := by
    have hgain : 0 ≤ rate * (now - a) := mul_nonneg hrate (sub_nonneg.2 ha)
    simpa [grantedSince] using hgain
  earned := ⟨now, List.mem_singleton_self now, le_rfl, by simp [grantedSince]⟩
  window a T hT := by
    have hgain : 0 ≤ rate * T := mul_nonneg hrate hT
    simpa [grantedIn] using add_nonneg hcapacity hgain

theorem Accounts.refill (hrate : 0 ≤ rate)
    (hb : Accounts capacity rate starts h b.tokens b.lastRefill) (hnow : b.lastRefill ≤ now) :
    Accounts capacity rate (starts ++ [now]) h (refill capacity rate b now) now := by
  have hgain : 0 ≤ (now - b.lastRefill) * rate := mul_nonneg (sub_nonneg.2 hnow) hrate
  rw [refill_of_le hnow]
  refine ⟨?_, min_le_right _ _, fun r hr => (hb.past r hr).trans hnow, ?_, ?_, hb.window⟩
  · exact le_min (add_nonneg hb.nonneg hgain) (hb.nonneg.trans hb.le_capacity)
  · intro a ha
    rcases le_or_gt a b.lastRefill with hle | hlt
    · have hspent := hb.spent a hle
      have hmin := min_le_left (b.tokens + (now - b.lastRefill) * rate) capacity
      linear_combination hspent + hmin
    · have hzero : grantedSince a h = 0 :=
        grantedSince_eq_zero fun r hr => (hb.past r hr).trans_lt hlt
      have hmin := min_le_right (b.tokens + (now - b.lastRefill) * rate) capacity
      have hrest : 0 ≤ rate * (now - a) := mul_nonneg hrate (sub_nonneg.2 ha)
      rw [hzero, Nat.cast_zero, zero_add]
      linarith
  · -- The cap is reached now, or the old start still does.
    rcases min_choice (b.tokens + (now - b.lastRefill) * rate) capacity with hmin | hmin
    · obtain ⟨s, hs, hle, hearned⟩ := hb.earned
      refine ⟨s, List.mem_append_left _ hs, hle.trans hnow, ?_⟩
      rw [hmin]
      linear_combination hearned
    · refine ⟨now, List.mem_append_right _ (List.mem_singleton_self now), le_rfl, ?_⟩
      rw [hmin, sub_self, mul_zero, add_zero]
      exact le_add_of_nonneg_right (Nat.cast_nonneg _)

theorem Accounts.grant (hrate : 0 ≤ rate) (hb : Accounts capacity rate starts h tokens now)
    (hone : 1 ≤ tokens) :
    Accounts capacity rate starts (h ++ [(now, true)]) (tokens - 1) now := by
  have hsince {a : K} (ha : a ≤ now) :
      (grantedSince a (h ++ [(now, true)]) : K) = grantedSince a h + 1 := by
    rw [grantedSince_snoc, if_pos ⟨ha, rfl⟩, Nat.cast_add, Nat.cast_one]
  refine ⟨sub_nonneg.2 hone, by linarith [hb.le_capacity], ?_, ?_, ?_, ?_⟩
  · intro r hr
    rcases List.mem_append.1 hr with hr | hr
    · exact hb.past r hr
    · rw [List.mem_singleton.1 hr]
  · intro a ha
    rw [hsince ha]
    linear_combination hb.spent a ha
  · obtain ⟨s, hs, hle, hearned⟩ := hb.earned
    refine ⟨s, hs, hle, ?_⟩
    rw [hsince hle]
    linear_combination hearned
  · intro a T hT
    rw [grantedIn_snoc]
    split_ifs with hin
    · -- All of the window that has passed lies between its start and this request.
      have hspent := hb.spent a hin.1
      have hle : (grantedIn a T h : K) ≤ grantedSince a h :=
        Nat.cast_le.2 (grantedIn_le_grantedSince a T h)
      have hwidth : rate * (now - a) ≤ rate * T :=
        mul_le_mul_of_nonneg_left (by linarith [hin.2.1]) hrate
      rw [Nat.cast_add, Nat.cast_one]
      linarith
    · exact hb.window a T hT

omit [IsStrictOrderedRing K] in
theorem Accounts.refuse (hb : Accounts capacity rate starts h tokens now) :
    Accounts capacity rate starts (h ++ [(now, false)]) tokens now := by
  have hsince (a : K) : grantedSince a (h ++ [(now, false)]) = grantedSince a h := by
    simp [grantedSince_snoc]
  refine ⟨hb.nonneg, hb.le_capacity, ?_, ?_, ?_, ?_⟩
  · intro r hr
    rcases List.mem_append.1 hr with hr | hr
    · exact hb.past r hr
    · rw [List.mem_singleton.1 hr]
  · intro a ha
    rw [hsince]
    exact hb.spent a ha
  · obtain ⟨s, hs, hle, hearned⟩ := hb.earned
    refine ⟨s, hs, hle, ?_⟩
    rw [hsince]
    exact hearned
  · intro a T hT
    rw [grantedIn_snoc, if_neg (by simp), add_zero]
    exact hb.window a T hT

/-- **A request keeps the books.** -/
theorem Accounts.acquire (hrate : 0 ≤ rate)
    (hb : Accounts capacity rate starts h (TokenBucket.refill capacity rate b now) now) :
    Accounts capacity rate starts (h ++ [(now, (TokenBucket.acquire capacity rate b now).1)])
      (TokenBucket.acquire capacity rate b now).2.tokens
      (TokenBucket.acquire capacity rate b now).2.lastRefill := by
  unfold TokenBucket.acquire
  split_ifs with hone
  · exact hb.grant hrate hone
  · exact hb.refuse

/-- **Why a request is refused**: since some earlier request more was granted than the bucket
allows with one token to spare. -/
theorem Accounts.refused (hb : Accounts capacity rate starts h tokens now) (hone : tokens < 1) :
    ∃ s ∈ starts, s ≤ now ∧ capacity + rate * (now - s) - 1 < grantedSince s h := by
  obtain ⟨s, hs, hle, hearned⟩ := hb.earned
  exact ⟨s, hs, hle, by linarith⟩

/-! ## Bursts -/

omit [IsStrictOrderedRing K] in
theorem refill_now (hle : tokens ≤ capacity) : refill capacity rate ⟨tokens, now⟩ now = tokens := by
  simp [refill, hle]

/-- **Bursts.** A burst of requests is granted as a whole exactly if the balance covers it. -/
theorem answers_replicate_iff (n : ℕ) (hnonneg : 0 ≤ refill capacity rate b now) :
    answers capacity rate b (List.replicate n now) = List.replicate n true ↔
      (n : K) ≤ refill capacity rate b now := by
  induction n generalizing b with
  | zero => simpa [answers] using hnonneg
  | succ n ih =>
    rw [List.replicate_succ, List.replicate_succ, answers, List.cons.injEq]
    unfold acquire
    split_ifs with hone
    · have hle : refill capacity rate b now - 1 ≤ capacity := by
        linarith [refill_le_capacity capacity rate b now]
      rw [ih (by rw [refill_now hle]; exact sub_nonneg.2 hone), refill_now hle, Nat.cast_add,
        Nat.cast_one, le_sub_iff_add_le]
      exact and_iff_right rfl
    · have hlt : ¬ ((n + 1 : ℕ) : K) ≤ refill capacity rate b now := by
        intro hle
        rw [Nat.cast_add, Nat.cast_one] at hle
        have hn : (0 : K) ≤ n := Nat.cast_nonneg n
        exact hone (by linarith)
      exact iff_of_false (by simp) hlt

end TokenBucket
