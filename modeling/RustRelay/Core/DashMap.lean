import Mathlib.Data.List.AList
import Mathlib.Algebra.Order.BigOperators.Group.List
import Mathlib.Algebra.Order.Group.Nat
import Mathlib.Tactic.Abel

/-!
# Concurrent maps

A `DashMap` is a finite map whose single operations are atomic. It is modelled by Mathlib's
association lists with distinct keys; the order of the list stands for the unspecified order
in which the map is iterated, and nothing may depend on it.

* `lookup_insert_ite`, `lookup_erase_ite` — one operation, read at any key.
* `set` — writing or removing an entry, in one operation.
* `retain` — removing every entry that fails a test.
* `values` — the values, and what is left of them after a write.
* `sum` — a value summed over the entries, with the laws of the writes.
-/

/-- A map from `κ` to `ν` with finitely many entries and one entry for each key. -/
abbrev DashMap (κ ν : Type*) := AList fun _ : κ => ν

namespace DashMap

variable {κ ν M : Type*} [DecidableEq κ]

theorem lookup_insert_ite (m : DashMap κ ν) (k k' : κ) (v : ν) :
    (m.insert k v).lookup k' = if k' = k then some v else m.lookup k' := by
  by_cases h : k' = k
  · subst h; rw [AList.lookup_insert, if_pos rfl]
  · rw [AList.lookup_insert_ne h, if_neg h]

theorem lookup_erase_ite (m : DashMap κ ν) (k k' : κ) :
    (m.erase k).lookup k' = if k' = k then none else m.lookup k' := by
  by_cases h : k' = k
  · subst h; rw [AList.lookup_erase, if_pos rfl]
  · rw [AList.lookup_erase_ne h, if_neg h]

theorem mem_keys_iff {m : DashMap κ ν} {k : κ} : k ∈ m.keys ↔ ∃ v, m.lookup k = some v := by
  rw [← AList.mem_keys, ← AList.lookup_isSome, Option.isSome_iff_exists]

omit [DecidableEq κ] in
theorem keys_eq_nil_iff {m : DashMap κ ν} : m.keys = [] ↔ m = ∅ := by
  constructor
  · intro h
    apply AList.ext
    exact List.map_eq_nil_iff.1 h
  · rintro rfl
    rfl

/-- The entry of an absent key is erased for nothing. -/
theorem erase_of_lookup_none {m : DashMap κ ν} {k : κ} (h : m.lookup k = none) : m.erase k = m := by
  apply AList.ext
  exact List.kerase_of_notMem_keys (AList.lookup_eq_none.1 h)

/-- An entry that is erased was written for nothing. -/
theorem erase_insert (m : DashMap κ ν) (k : κ) (v : ν) : (m.insert k v).erase k = m.erase k := by
  apply AList.ext
  show (List.kinsert k v m.entries).kerase k = m.entries.kerase k
  rw [List.kinsert_def]
  exact List.kerase_cons_eq rfl

/-- A write adds a key exactly if it is new. -/
theorem length_keys_insert_ite (m : DashMap κ ν) (k : κ) (v : ν) : (m.insert k v).keys.length =
    if k ∈ m.keys then m.keys.length else m.keys.length + 1 := by
  rw [AList.keys_insert, List.length_cons]
  split_ifs with h
  · rw [List.length_erase_of_mem h]
    exact Nat.succ_pred_eq_of_pos (List.length_pos_of_mem h)
  · rw [List.erase_of_not_mem h]

/-- The map with the entry of `k` set to `o`: written or removed. -/
def set (m : DashMap κ ν) (k : κ) : Option ν → DashMap κ ν
  | some v => m.insert k v
  | none => m.erase k

theorem lookup_set (m : DashMap κ ν) (k k' : κ) (o : Option ν) :
    (set m k o).lookup k' = if k' = k then o else m.lookup k' := by
  cases o with
  | none => exact lookup_erase_ite m k k'
  | some v => exact lookup_insert_ite m k k' v

theorem set_set (m : DashMap κ ν) (k : κ) (v : ν) (o : Option ν) :
    set (set m k (some v)) k o = set m k o := by
  cases o with
  | none => exact erase_insert m k v
  | some w => exact AList.insert_insert m

/-- `retain`: the entries that pass the test. -/
def retain (m : DashMap κ ν) (p : κ → ν → Bool) : DashMap κ ν where
  entries := m.entries.filter fun e => p e.1 e.2
  nodupKeys := List.NodupKeys.sublist List.filter_sublist m.nodupKeys

theorem lookup_retain (m : DashMap κ ν) (p : κ → ν → Bool) (k : κ) :
    (retain m p).lookup k = (m.lookup k).filter (p k) := by
  apply Option.ext
  intro v
  simp only [← Option.mem_def, AList.lookup, List.mem_dlookup_iff (retain m p).nodupKeys,
    Option.mem_filter_iff, List.mem_dlookup_iff m.nodupKeys]
  exact List.mem_filter

/-! ## The values -/

/-- The values of the map. -/
def values (m : DashMap κ ν) : List ν := m.entries.map Sigma.snd

theorem mem_values_iff {m : DashMap κ ν} {v : ν} : v ∈ values m ↔ ∃ k, m.lookup k = some v := by
  rw [values, List.mem_map]
  constructor
  · intro hentry
    rcases hentry with ⟨⟨k, v'⟩, he, rfl⟩
    exact ⟨k, (List.mem_dlookup_iff m.nodupKeys).2 he⟩
  · intro hlook
    rcases hlook with ⟨k, hv⟩
    exact ⟨⟨k, v⟩, List.of_mem_dlookup hv, rfl⟩

/-- The values after one entry was set: the new one, and those of the other keys. -/
theorem mem_values_set {m : DashMap κ ν} {k : κ} {o : Option ν} {v : ν} :
    v ∈ values (set m k o) ↔ o = some v ∨ ∃ k', k' ≠ k ∧ m.lookup k' = some v := by
  simp only [mem_values_iff, lookup_set]
  constructor
  · intro hlook
    rcases hlook with ⟨k', hv⟩
    split_ifs at hv with hk
    · exact .inl hv
    · exact .inr ⟨k', hk, hv⟩
  · intro hv
    rcases hv with ho | ⟨k', hk, hv⟩
    · exact ⟨k, by rw [if_pos rfl, ho]⟩
    · exact ⟨k', by rw [if_neg hk, hv]⟩

/-! ## Sums over the entries -/

section
variable [AddCommMonoid M] (f : ν → M)

/-- The sum of `f` over the values of the map. -/
def sum (m : DashMap κ ν) : M := (m.entries.map fun e => f e.2).sum

/-- What `f` gives for the value at a key, and `0` for no value. -/
def valueAt (m : DashMap κ ν) (k : κ) : M := (m.lookup k).elim 0 f

omit [DecidableEq κ] in
@[simp] theorem sum_empty : sum f (∅ : DashMap κ ν) = 0 := rfl

theorem valueAt_of_lookup {m : DashMap κ ν} {k : κ} {v : ν} (h : m.lookup k = some v) :
    valueAt f m k = f v := by rw [valueAt, h]; rfl

theorem valueAt_of_none {m : DashMap κ ν} {k : κ} (h : m.lookup k = none) :
    valueAt f m k = 0 := by rw [valueAt, h]; rfl

theorem sum_erase (m : DashMap κ ν) (k : κ) : sum f (m.erase k) + valueAt f m k = sum f m := by
  obtain h | ⟨v, h⟩ := Option.eq_none_or_eq_some (m.lookup k)
  · rw [erase_of_lookup_none h, valueAt_of_none f h, add_zero]
  · have hk : k ∈ m.entries.keys := List.dlookup_isSome.1 (Option.isSome_iff_exists.2 ⟨v, h⟩)
    obtain ⟨v', l₁, l₂, hnot, hm, he⟩ := List.exists_of_kerase hk
    have hv : v' = v := by
      have hmem : (⟨k, v'⟩ : Sigma fun _ : κ => ν) ∈ m.entries := by rw [hm]; simp
      have := (List.mem_dlookup_iff m.nodupKeys).2 hmem
      exact (Option.some.inj (h.symm.trans this)).symm
    subst hv
    have herase : (m.erase k).entries = l₁ ++ l₂ := he
    rw [valueAt_of_lookup f h, sum, sum, herase, hm]
    simp only [List.map_append, List.sum_append, List.map_cons, List.sum_cons]
    abel

theorem sum_insert (m : DashMap κ ν) (k : κ) (v : ν) :
    sum f (m.insert k v) + valueAt f m k = sum f m + f v := by
  have hins : sum f (m.insert k v) = f v + sum f (m.erase k) := by
    have hentries : (m.insert k v).entries = ⟨k, v⟩ :: (m.erase k).entries := rfl
    rw [sum, hentries, List.map_cons, List.sum_cons]
    rfl
  rw [hins, add_assoc, sum_erase, add_comm]

theorem sum_set (m : DashMap κ ν) (k : κ) (o : Option ν) :
    sum f (set m k o) + valueAt f m k = sum f m + o.elim 0 f := by
  cases o with
  | none => rw [Option.elim_none, add_zero]; exact sum_erase f m k
  | some v => exact sum_insert f m k v

theorem sum_eq_zero_iff {g : ν → ℕ} {m : DashMap κ ν} :
    sum g m = 0 ↔ ∀ k v, m.lookup k = some v → g v = 0 := by
  rw [sum, List.sum_eq_zero_iff]
  constructor
  · intro h k v hv
    exact h _ (List.mem_map.2 ⟨⟨k, v⟩, List.of_mem_dlookup hv, rfl⟩)
  · intro h x hx
    obtain ⟨⟨k, v⟩, he, rfl⟩ := List.mem_map.1 hx
    exact h k v ((List.mem_dlookup_iff m.nodupKeys).2 he)

end

end DashMap
