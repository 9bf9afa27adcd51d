import Mathlib.Order.WithBot
import RustRelay.Core.DashMap

/-!
# Max-merged tables

A table of optional values ordered by `⊥ ≤ v` is a join-semilattice, key by key, and a batch of
keyed values acts on it by joining each value into its key. What a table becomes then depends
only on the largest value the batch gives each key: order, grouping and repetition are lost.

* `maxAt` — the largest value a list of items gives to a key.
* `maxAt_append`, `maxAt_le_iff`, `le_maxAt_iff` — the calculus of `maxAt`.
* `rowAt` — a map read as a table of optional values.
-/

namespace MaxMerge

variable {κ ν : Type*} [DecidableEq κ]

section
variable [LinearOrder ν]

/-- The largest value that `items` give to `k`, or `⊥` if they give none. -/
def maxAt (items : List (κ × ν)) (k : κ) : WithBot ν :=
  items.foldr (fun i acc => (if i.1 = k then (i.2 : WithBot ν) else ⊥) ⊔ acc) ⊥

@[simp] theorem maxAt_nil (k : κ) : maxAt ([] : List (κ × ν)) k = ⊥ := rfl

theorem maxAt_cons (i : κ × ν) (items : List (κ × ν)) (k : κ) :
    maxAt (i :: items) k = (if i.1 = k then (i.2 : WithBot ν) else ⊥) ⊔ maxAt items k := rfl

theorem maxAt_singleton (i : κ × ν) (k : κ) :
    maxAt [i] k = if i.1 = k then (i.2 : WithBot ν) else ⊥ := by
  rw [maxAt_cons, maxAt_nil, sup_bot_eq]

theorem maxAt_append (xs ys : List (κ × ν)) (k : κ) :
    maxAt (xs ++ ys) k = maxAt xs k ⊔ maxAt ys k := by
  induction xs with
  | nil => simp
  | cons x xs ih => rw [List.cons_append, maxAt_cons, maxAt_cons, ih, sup_assoc]

theorem maxAt_le_iff {items : List (κ × ν)} {k : κ} {b : WithBot ν} :
    maxAt items k ≤ b ↔ ∀ v, (k, v) ∈ items → (v : WithBot ν) ≤ b := by
  induction items with
  | nil => simp
  | cons i items ih =>
    obtain ⟨k', v'⟩ := i
    rw [maxAt_cons, sup_le_iff, ih]
    by_cases h : k' = k
    · subst h; simp
    · simp [h, Ne.symm h]

theorem le_maxAt_iff {items : List (κ × ν)} {k : κ} {v : ν} :
    (v : WithBot ν) ≤ maxAt items k ↔ ∃ w, (k, w) ∈ items ∧ v ≤ w := by
  induction items with
  | nil => simp
  | cons i items ih =>
    obtain ⟨k', v'⟩ := i
    rw [maxAt_cons, le_sup_iff, ih]
    by_cases h : k' = k
    · subst h
      simp [or_and_right, exists_or]
    · simp [h, Ne.symm h]

theorem maxAt_eq_bot_iff {items : List (κ × ν)} {k : κ} :
    maxAt items k = ⊥ ↔ ∀ v, (k, v) ∉ items := by
  rw [← le_bot_iff, maxAt_le_iff]
  simp

end

/-! ## Maps as tables -/

/-- The value a map holds for a key, `⊥` if it has none. -/
def rowAt (m : DashMap κ ν) (k : κ) : WithBot ν := (m.lookup k).elim ⊥ fun v => (v : WithBot ν)

theorem rowAt_of_lookup {m : DashMap κ ν} {k : κ} {v : ν} (h : m.lookup k = some v) :
    rowAt m k = v := by rw [rowAt, h]; rfl

theorem rowAt_of_none {m : DashMap κ ν} {k : κ} (h : m.lookup k = none) : rowAt m k = ⊥ := by
  rw [rowAt, h]; rfl

theorem rowAt_insert (m : DashMap κ ν) (k k' : κ) (v : ν) :
    rowAt (m.insert k v) k' = if k' = k then (v : WithBot ν) else rowAt m k' := by
  rw [rowAt, DashMap.lookup_insert_ite]
  split_ifs <;> rfl

theorem rowAt_erase (m : DashMap κ ν) (k k' : κ) :
    rowAt (m.erase k) k' = if k' = k then ⊥ else rowAt m k' := by
  rw [rowAt, DashMap.lookup_erase_ite]
  split_ifs <;> rfl

end MaxMerge
