import Mathlib.Data.List.Basic
import Mathlib.Data.List.Perm.Subperm
import Mathlib.Data.List.Sort
import Mathlib.Order.Basic

/-!
# Pages of a sorted list

A store answers with the first `n` of its items, sorted by a key from the greatest down; the next
request asks for the items whose key is below the key of the last one received. Items with equal
keys come in any order, and in another one the next time.

* `OrdersBy` — what sorting by the key may do.
* `fetch` — the chain of requests, up to the first empty page.
* `NoSplit` — no multiple of `n` falls inside a group of items with equal keys.
* `noSplit_of_nodup` — as where no two keys are equal.
* `noSplit_iff` — the first page, and then the rest.
* `fetch_spec` — the chain ends, each item comes at most once, the greatest first; and all of them
  come exactly if no group is split.

Nothing here names a program: items and keys are of any types, and the keys linearly ordered.
-/

namespace Pagination

variable {α β : Type*} [LinearOrder β] (key : α → β)

/-- `ORDER BY key DESC`: ties come in some order. -/
structure OrdersBy (sort : List α → List α) : Prop where
  perm : ∀ l, (sort l).Perm l
  sorted : ∀ l, (sort l).Pairwise fun a b => key b ≤ key a

theorem ordersBy_insertionSort : OrdersBy key (List.insertionSort fun a b => key b ≤ key a) where
  perm l := List.perm_insertionSort _ l
  sorted l := by
    have htotal : Std.Total fun a b : α => key b ≤ key a := ⟨fun a b => le_total (key b) (key a)⟩
    have htrans : IsTrans α fun a b => key b ≤ key a := ⟨fun a b c hab hbc => hbc.trans hab⟩
    exact List.pairwise_insertionSort _ l

/-- The requests from the `i`th on, each answered with its own order of the ties; `none` if the
fuel runs out. -/
def fetch (n : ℕ) (sorts : ℕ → List α → List α) : ℕ → ℕ → List α → Option (List α)
  | 0, _, _ => none
  | fuel + 1, i, items =>
    let page := (sorts i items).take n
    match page.getLast? with
    | none => some []
    | some last =>
      (fetch n sorts fuel (i + 1) (items.filter fun a => key a < key last)).map (page ++ ·)

/-- How many items have a key above `t`. -/
def above (items : List α) (t : β) : ℕ := items.countP fun a => t < key a

/-- How many items have a key of at least `t`. -/
def atLeast (items : List α) (t : β) : ℕ := items.countP fun a => t ≤ key a

/-- No page of `n` ends between two items with equal keys. -/
def NoSplit (n : ℕ) (items : List α) : Prop :=
  ∀ x ∈ items, ∀ k, ¬(above key items (key x) < k * n ∧ k * n < atLeast key items (key x))

variable {key} {n : ℕ} {items l : List α} {last : α}

/-! ## Counting -/

theorem length_eq_atLeast_add (key : α → β) (items : List α) (t : β) :
    items.length = atLeast key items t + (items.filter fun a => key a < t).length := by
  rw [atLeast, List.length_eq_countP_add_countP (fun a => decide (t ≤ key a)),
    ← List.countP_eq_length_filter]
  congr 2
  funext a
  simp

/-- Items that meet a condition which all items from `t` up meet. -/
theorem countP_eq_atLeast_add {p : α → Bool} {t : β} (hp : ∀ a ∈ items, t ≤ key a → p a) :
    items.countP p = atLeast key items t + (items.filter fun a => key a < t).countP p := by
  rw [List.countP_eq_countP_filter_add items p fun a => decide (key a < t), Nat.add_comm]
  congr 1
  have hall : (items.filter fun a => !decide (key a < t)).countP p =
      (items.filter fun a => !decide (key a < t)).length := by
    apply List.countP_eq_length.2
    intro a ha
    obtain ⟨hmem, ht⟩ := List.mem_filter.1 ha
    exact hp a hmem (not_lt.1 (by simpa using ht))
  rw [hall, atLeast, List.countP_eq_length_filter]
  congr 2
  funext a
  simp [← not_le]

theorem above_eq_add {s t : β} (hst : s < t) :
    above key items s =
      atLeast key items t + above key (items.filter fun a => key a < t) s :=
  countP_eq_atLeast_add fun _ _ ht => decide_eq_true (hst.trans_le ht)

theorem atLeast_eq_add {s t : β} (hst : s < t) :
    atLeast key items s =
      atLeast key items t + atLeast key (items.filter fun a => key a < t) s :=
  countP_eq_atLeast_add fun _ _ ht => decide_eq_true (hst.le.trans ht)

theorem atLeast_mono {s t : β} (hst : s ≤ t) : atLeast key items t ≤ atLeast key items s := by
  apply List.countP_mono_left
  intro a _ ha
  exact decide_eq_true (hst.trans (of_decide_eq_true ha))

/-- A group is what its key has from itself up, less what is above it. -/
theorem atLeast_eq_above_add (key : α → β) (items : List α) (t : β) :
    atLeast key items t = above key items t + (items.map key).count t := by
  induction items with
  | nil => rfl
  | cons a items ih =>
    simp only [atLeast, above, List.countP_cons, List.map_cons, List.count_cons] at ih ⊢
    rw [ih]
    rcases lt_trichotomy t (key a) with hlt | heq | hgt
    · simp [hlt, hlt.le, hlt.ne']
      omega
    · simp [heq]
      omega
    · simp [hgt.not_ge, hgt.not_gt, hgt.ne]

theorem noSplit_of_nodup (hkeys : (items.map key).Nodup) (n : ℕ) : NoSplit key n items := by
  intro x _ k hk
  have hgroup := atLeast_eq_above_add key items (key x)
  have hone := List.nodup_iff_count_le_one.1 hkeys (key x)
  omega

/-! ## One page -/

/-- The first page of the list `l`, a sorted form of the items. -/
structure IsPage (key : α → β) (n : ℕ) (items : List α) (page : List α) (last : α) : Prop where
  length_eq : page.length = min n items.length
  subperm : page.Subperm items
  least : ∀ a ∈ page, key last ≤ key a
  sorted : page.Pairwise fun a b => key b ≤ key a
  mem : last ∈ page
  above_lt : above key items (key last) < page.length
  le_atLeast : page.length ≤ atLeast key items (key last)

/-- **What a page has and what it leaves.** -/
theorem isPage_take (hperm : l.Perm items) (hsorted : l.Pairwise fun a b => key b ≤ key a)
    (hlast : (l.take n).getLast? = some last) : IsPage key n items (l.take n) last := by
  have hsub := List.take_sublist n l
  obtain ⟨init, hinit⟩ := List.getLast?_eq_some_iff.1 hlast
  have hpage := hsorted.sublist hsub
  have hmem : last ∈ l.take n := hinit ▸ List.mem_append_right _ (List.mem_singleton_self last)
  have hleast : ∀ a ∈ l.take n, key last ≤ key a := by
    intro a ha
    rw [hinit] at ha hpage
    rcases List.mem_append.1 ha with ha | ha
    · exact (List.pairwise_append.1 hpage).2.2 a ha last (List.mem_singleton_self last)
    · rw [List.mem_singleton.1 ha]
  refine ⟨?_, ?_, hleast, hpage, hmem, ?_, ?_⟩
  · rw [List.length_take, hperm.length_eq]
  · exact hsub.subperm.trans hperm.subperm
  · -- What is above the last item comes before it.
    have hdrop : (l.drop n).countP (fun a => decide (key last < key a)) = 0 := by
      apply List.countP_eq_zero.2
      intro b hb
      have hsplit := hsorted
      rw [← List.take_append_drop n l] at hsplit
      simpa using (List.pairwise_append.1 hsplit).2.2 last hmem b hb
    rw [above, ← hperm.countP_eq, ← List.take_append_drop n l, List.countP_append, hdrop,
      List.take_append_drop, hinit, List.countP_append, List.length_append]
    have hinit_le : init.countP (fun a => decide (key last < key a)) ≤ init.length :=
      List.countP_le_length
    rw [List.countP_singleton, if_neg (by simp), List.length_singleton]
    omega
  · rw [atLeast, ← hperm.countP_eq]
    have hall : (l.take n).countP (fun a => decide (key last ≤ key a)) = (l.take n).length :=
      List.countP_eq_length.2 fun a ha => decide_eq_true (hleast a ha)
    rw [← hall]
    exact hsub.countP_le

/-- **No group is split exactly if the first page ends with its group, and none of the rest is.** -/
theorem noSplit_iff {page : List α} (hpage : IsPage key n items page last) :
    NoSplit key n items ↔ page.length = atLeast key items (key last) ∧
      NoSplit key n (items.filter fun a => key a < key last) := by
  have hlength := hpage.length_eq
  have hle := hpage.le_atLeast
  have htotal := length_eq_atLeast_add key items (key last)
  -- A page that is not full is the whole list.
  have hfull {x : α} (hx : x ∈ items.filter fun a => key a < key last) : page.length = n := by
    have hpos := List.length_pos_of_mem hx
    omega
  constructor
  · intro hsplit
    have hends : page.length = atLeast key items (key last) := by
      by_contra hne
      apply hsplit last (hpage.subperm.subset hpage.mem) 1
      have habove := hpage.above_lt
      omega
    refine ⟨hends, ?_⟩
    intro x hx k hk
    obtain ⟨hmem, hlt⟩ := List.mem_filter.1 hx
    have hlt := of_decide_eq_true hlt
    apply hsplit x hmem (k + 1)
    rw [above_eq_add hlt, atLeast_eq_add hlt, Nat.succ_mul]
    have := hfull hx
    omega
  · intro hrest x hx k hk
    obtain ⟨hends, hrest⟩ := hrest
    rcases lt_or_ge (key x) (key last) with hlt | hge
    · have hx' : x ∈ items.filter fun a => key a < key last :=
        List.mem_filter.2 ⟨hx, decide_eq_true hlt⟩
      have hn := hfull hx'
      rw [above_eq_add hlt, atLeast_eq_add hlt, ← hends, hn] at hk
      obtain ⟨k, rfl⟩ : ∃ j, k = j + 1 := by
        cases k with
        | zero => omega
        | succ j => exact ⟨j, rfl⟩
      apply hrest x hx' k
      rw [Nat.succ_mul] at hk
      omega
    · -- The first group cannot be split: it is within the page.
      have hmono : atLeast key items (key x) ≤ atLeast key items (key last) := atLeast_mono hge
      cases k with
      | zero => omega
      | succ j =>
        rw [Nat.succ_mul] at hk
        omega

/-! ## The chain -/

theorem fetch_spec (hn : 0 < n) {sorts : ℕ → List α → List α}
    (hsorts : ∀ i, OrdersBy key (sorts i)) {fuel : ℕ} (i : ℕ) (hfuel : items.length < fuel) :
    ∃ out, fetch key n sorts fuel i items = some out ∧
      out.Pairwise (fun a b => key b ≤ key a) ∧ out.Subperm items ∧
      (out.Perm items ↔ NoSplit key n items) := by
  induction fuel generalizing i items with
  | zero => exact absurd hfuel (Nat.not_lt_zero _)
  | succ fuel ih =>
    obtain ⟨hperm, hsorted⟩ : (sorts i items).Perm items ∧ _ :=
      ⟨(hsorts i).perm items, (hsorts i).sorted items⟩
    cases hlast : ((sorts i items).take n).getLast? with
    | none =>
      -- An empty page is the answer about no item.
      have hnil : items = [] := by
        rw [List.getLast?_eq_none_iff, List.take_eq_nil_iff] at hlast
        have hsort := hlast.resolve_left (Nat.ne_of_gt hn)
        rw [hsort] at hperm
        exact hperm.nil_eq.symm
      subst hnil
      refine ⟨[], by rw [fetch]; simp only [hlast], List.Pairwise.nil, List.Subperm.refl _, ?_⟩
      exact iff_of_true (List.Perm.refl _) fun x hx => absurd hx List.not_mem_nil
    | some last =>
      have hpage := isPage_take hperm hsorted hlast
      have htotal := length_eq_atLeast_add key items (key last)
      have hle := hpage.le_atLeast
      have hpos := List.length_pos_of_mem hpage.mem
      obtain ⟨out, hout, hnewest, hsub, hall⟩ := ih (i + 1)
        (show (items.filter fun a => key a < key last).length < fuel by omega)
      have hgroup : ((sorts i items).take n).Subperm
          (items.filter fun a => !decide (key a < key last)) := by
        have hkeep : ((sorts i items).take n).filter (fun a => !decide (key a < key last)) =
            (sorts i items).take n :=
          List.filter_eq_self.2 fun a ha => by simpa using hpage.least a ha
        rw [← hkeep]
        exact hpage.subperm.filter _
      have hboth : ((sorts i items).take n ++ out).Subperm items :=
        (hgroup.append hsub).trans
          (List.perm_append_comm.trans (List.filter_append_perm _ items)).subperm
      refine ⟨(sorts i items).take n ++ out, ?_, ?_, hboth, ?_⟩
      · rw [fetch]
        simp only [hlast, hout]
        rfl
      · refine List.pairwise_append.2 ⟨hpage.sorted, hnewest, ?_⟩
        intro a ha b hb
        have hb := of_decide_eq_true (List.mem_filter.1 (hsub.subset hb)).2
        exact hb.le.trans (hpage.least a ha)
      · have hout_le := hsub.length_le
        rw [noSplit_iff hpage, ← hall]
        constructor
        · intro hperm
          have hlength := hperm.length_eq
          rw [List.length_append] at hlength
          exact ⟨by omega, hsub.perm_of_length_le (by omega)⟩
        · intro hrest
          apply hboth.perm_of_length_le
          rw [List.length_append, hrest.2.length_eq]
          omega

end Pagination
