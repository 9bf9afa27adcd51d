import Mathlib.Data.List.AList
import RustRelay.Core.DashMap

/-!
# Bulk upserts of a relational database

`INSERT INTO t SELECT * FROM UNNEST(a, b, c, d) ON CONFLICT (key) DO UPDATE SET … WHERE …` as
PostgreSQL runs it: the arrays are zipped and padded with NULL, every tuple passes the column
constraints before the conflict clause is looked at, one statement never touches a row twice,
foreign keys are checked for the rows it inserted, and any violation undoes all of it.

* `unnest₄` — four arrays as the tuples of one `FROM` item.
* `Upsert`, `Upsert.execute` — a statement, and what it makes of a table.
* `Upsert.execute_ok` — with distinct accepted keys the statement succeeds, row by row.
* `Upsert.execute_error` — one unacceptable tuple is enough for it to fail.
-/

namespace Sql

/-- A table with its primary key. -/
abbrev Table (κ ρ : Type*) := AList fun _ : κ => ρ

/-- `UNNEST` of four arrays: as many tuples as the longest has elements, shorter ones padded
with NULL. -/
def unnest₄ {α β γ δ : Type*} (as : List α) (bs : List β) (cs : List γ) (ds : List δ) :
    List (Option α × Option β × Option γ × Option δ) :=
  (List.range (max (max as.length bs.length) (max cs.length ds.length))).map
    fun i => (as[i]?, bs[i]?, cs[i]?, ds[i]?)

/-- Tuple `i` of `UNNEST` holds element `i` of every array that has one. -/
theorem getElem?_unnest₄ {α β γ δ : Type*} (as : List α) (bs : List β) (cs : List γ) (ds : List δ)
    {i : ℕ} (hi : i < max (max as.length bs.length) (max cs.length ds.length)) :
    (unnest₄ as bs cs ds)[i]? = some (as[i]?, bs[i]?, cs[i]?, ds[i]?) := by
  rw [unnest₄, List.getElem?_map, List.getElem?_range hi]
  rfl

/-- An `INSERT … ON CONFLICT` into a table with key `κ`, row `ρ` and tuples `τ`. -/
structure Upsert (τ κ ρ ε : Type*) where
  /-- Column constraints: the key and row of a tuple, or the violation. -/
  constrain : τ → Except ε (κ × ρ)
  /-- `DO UPDATE SET … WHERE …`: the new row, if the condition holds of the old and excluded. -/
  update : ρ → ρ → Option ρ
  /-- Foreign keys of an inserted row. -/
  refer : κ → Except ε Unit
  /-- The error for a row that one statement would touch twice. -/
  twice : ε

namespace Upsert

variable {τ κ ρ ε : Type*} [DecidableEq κ]

/-- A statement half way: the table, the keys it wrote and, of these, the ones it inserted. -/
structure Progress (κ ρ : Type*) where
  table : Table κ ρ
  touched : List κ
  inserted : List κ

/-- One tuple of the statement. -/
def row (u : Upsert τ κ ρ ε) (p : Progress κ ρ) (t : τ) : Except ε (Progress κ ρ) :=
  match u.constrain t with
  | .error e => .error e
  | .ok (k, r) =>
    match p.table.lookup k with
    | none => .ok ⟨p.table.insert k r, k :: p.touched, k :: p.inserted⟩
    | some old =>
      if k ∈ p.touched then .error u.twice
      else match u.update old r with
        | none => .ok p
        | some new => .ok ⟨p.table.insert k new, k :: p.touched, p.inserted⟩

/-- All tuples, in order. -/
def rows (u : Upsert τ κ ρ ε) (p : Progress κ ρ) : List τ → Except ε (Progress κ ρ)
  | [] => .ok p
  | t :: ts => match u.row p t with
    | .error e => .error e
    | .ok q => u.rows q ts

/-- The foreign keys of the inserted rows. -/
def references (u : Upsert τ κ ρ ε) : List κ → Except ε Unit
  | [] => .ok ()
  | k :: ks => match u.refer k with
    | .error e => .error e
    | .ok () => u.references ks

/-- The statement: the new table, or the violation that undid it. -/
def execute (u : Upsert τ κ ρ ε) (table : Table κ ρ) (ts : List τ) : Except ε (Table κ ρ) :=
  match u.rows ⟨table, [], []⟩ ts with
  | .error e => .error e
  | .ok p => match u.references p.inserted with
    | .error e => .error e
    | .ok () => .ok p.table

/-- The row an accepted tuple leaves behind at its key. -/
def outcome (u : Upsert τ κ ρ ε) : Option ρ → ρ → ρ
  | none, r => r
  | some old, r => (u.update old r).getD old

/-! ## Statements that succeed -/

theorem row_ok (u : Upsert τ κ ρ ε) {p : Progress κ ρ} {t : τ} {k : κ} {r : ρ}
    (ha : u.constrain t = .ok (k, r)) (hk : k ∉ p.touched) :
    ∃ q, u.row p t = .ok q ∧
      (∀ k', q.table.lookup k' =
        if k' = k then some (u.outcome (p.table.lookup k) r) else p.table.lookup k') ∧
      (∀ k' ∈ q.touched, k' = k ∨ k' ∈ p.touched) ∧
      ∀ k' ∈ q.inserted, k' = k ∨ k' ∈ p.inserted := by
  cases hold : p.table.lookup k with
  | none =>
    refine ⟨_, by simp only [row, ha, hold]; rfl, ?_, ?_, ?_⟩
    · intro k'
      exact DashMap.lookup_insert_ite _ _ _ _
    · exact fun k' h => List.mem_cons.1 h
    · exact fun k' h => List.mem_cons.1 h
  | some old =>
    cases hu : u.update old r with
    | none =>
      refine ⟨p, by simp only [row, ha, hold, hu, if_neg hk], ?_, ?_, ?_⟩
      · intro k'
        split_ifs with h
        · subst h; rw [hold, outcome, hu]; rfl
        · rfl
      · exact fun k' h => Or.inr h
      · exact fun k' h => Or.inr h
    | some new =>
      refine ⟨_, by simp only [row, ha, hold, hu, if_neg hk]; rfl, ?_, ?_, ?_⟩
      · intro k'
        rw [outcome, hu]
        exact DashMap.lookup_insert_ite _ _ _ _
      · exact fun k' h => List.mem_cons.1 h
      · exact fun k' h => Or.inr h

theorem rows_ok (u : Upsert τ κ ρ ε) {items : List (κ × ρ)} :
    ∀ {ts : List τ} (p : Progress κ ρ), ts.map u.constrain = items.map .ok →
      (items.map Prod.fst).Nodup → (∀ i ∈ items, i.1 ∉ p.touched) →
      ∃ q, u.rows p ts = .ok q ∧
        (∀ k r, (k, r) ∈ items → q.table.lookup k = some (u.outcome (p.table.lookup k) r)) ∧
        (∀ k, k ∉ items.map Prod.fst → q.table.lookup k = p.table.lookup k) ∧
        ∀ k ∈ q.inserted, k ∈ p.inserted ∨ k ∈ items.map Prod.fst := by
  induction items with
  | nil =>
    intro ts p hts _ _
    obtain rfl : ts = [] := by simpa using hts
    exact ⟨p, rfl, by simp, by simp, fun k hk => Or.inl hk⟩
  | cons i items ih =>
    obtain ⟨k, r⟩ := i
    rintro (_ | ⟨t, ts⟩) p hts hnd htouched
    · simp at hts
    simp only [List.map_cons, List.cons.injEq] at hts
    obtain ⟨ha, hts⟩ := hts
    obtain ⟨hk, hnd⟩ := List.nodup_cons.1 hnd
    obtain ⟨q, hq, hlook, htou, hins⟩ := u.row_ok ha (htouched (k, r) List.mem_cons_self)
    -- The keys still to come were not touched by this tuple either.
    have hfresh : ∀ j ∈ items, j.1 ∉ q.touched := by
      intro j hj hmem
      have hjk : j.1 ∈ items.map Prod.fst := List.mem_map_of_mem hj
      rcases htou _ hmem with h | h
      · exact hk (h ▸ hjk)
      · exact htouched j (List.mem_cons_of_mem _ hj) h
    obtain ⟨q', hq', hval, hframe, hins'⟩ := ih q hts hnd hfresh
    refine ⟨q', by simp only [rows, hq, hq'], ?_, ?_, ?_⟩
    · intro k' r' hmem
      rcases List.mem_cons.1 hmem with heq | hmem
      · obtain ⟨rfl, rfl⟩ := Prod.mk.inj heq
        rw [hframe k' hk, hlook, if_pos rfl]
      · have hne : k' ≠ k := fun h => hk (h ▸ List.mem_map.2 ⟨_, hmem, rfl⟩)
        rw [hval k' r' hmem, hlook, if_neg hne]
    · intro k' hk'
      simp only [List.map_cons, List.mem_cons, not_or] at hk'
      rw [hframe k' hk'.2, hlook, if_neg hk'.1]
    · intro k' hk'
      rcases hins' k' hk' with h | h
      · rcases hins k' h with rfl | h
        · exact Or.inr List.mem_cons_self
        · exact Or.inl h
      · exact Or.inr (List.mem_cons_of_mem _ h)

omit [DecidableEq κ] in
theorem references_ok (u : Upsert τ κ ρ ε) {ks : List κ} (h : ∀ k ∈ ks, u.refer k = .ok ()) :
    u.references ks = .ok () := by
  induction ks with
  | nil => rfl
  | cons k ks ih =>
    rw [references, h k List.mem_cons_self]
    exact ih fun k' hk' => h k' (List.mem_cons_of_mem _ hk')

/-- **A clean statement succeeds.** If every tuple is accepted, no key occurs twice and every
key refers to existing rows, the statement gives each key its outcome and no other key changes. -/
theorem execute_ok (u : Upsert τ κ ρ ε) (table : Table κ ρ) {ts : List τ} {items : List (κ × ρ)}
    (hts : ts.map u.constrain = items.map .ok) (hnodup : (items.map Prod.fst).Nodup)
    (hrefer : ∀ i ∈ items, u.refer i.1 = .ok ()) :
    ∃ table', u.execute table ts = .ok table' ∧
      (∀ k r, (k, r) ∈ items → table'.lookup k = some (u.outcome (table.lookup k) r)) ∧
      ∀ k, k ∉ items.map Prod.fst → table'.lookup k = table.lookup k := by
  obtain ⟨p, hp, hval, hframe, hins⟩ :=
    u.rows_ok ⟨table, [], []⟩ hts hnodup (by simp)
  have href : u.references p.inserted = .ok () := by
    apply u.references_ok
    intro k hk
    obtain ⟨i, hi, rfl⟩ := List.mem_map.1 ((hins k hk).resolve_left (by simp))
    exact hrefer i hi
  exact ⟨p.table, by simp only [execute, hp, href], hval, hframe⟩

/-- What a statement that succeeded has done, if its keys are distinct. -/
theorem execute_lookup (u : Upsert τ κ ρ ε) {table table' : Table κ ρ} {ts : List τ}
    {items : List (κ × ρ)} (hts : ts.map u.constrain = items.map .ok)
    (hnodup : (items.map Prod.fst).Nodup) (h : u.execute table ts = .ok table') :
    (∀ k r, (k, r) ∈ items → table'.lookup k = some (u.outcome (table.lookup k) r)) ∧
      ∀ k, k ∉ items.map Prod.fst → table'.lookup k = table.lookup k := by
  obtain ⟨p, hp, hval, hframe, -⟩ := u.rows_ok ⟨table, [], []⟩ hts hnodup (by simp)
  simp only [execute, hp] at h
  cases href : u.references p.inserted with
  | error e =>
    rw [href] at h
    cases h
  | ok _ =>
    rw [href] at h
    obtain rfl := Except.ok.inj h
    exact ⟨hval, hframe⟩

/-! ## Statements that fail -/

theorem rows_error (u : Upsert τ κ ρ ε) {ts : List τ} {t : τ} {e : ε} (ht : t ∈ ts)
    (ha : u.constrain t = .error e) (p : Progress κ ρ) : ∃ e', u.rows p ts = .error e' := by
  induction ts generalizing p with
  | nil => simp at ht
  | cons s ts ih =>
    cases hs : u.row p s with
    | error e' => exact ⟨e', by simp only [rows, hs]⟩
    | ok q =>
      rcases List.mem_cons.1 ht with rfl | ht
      · simp [row, ha] at hs
      · obtain ⟨e', he'⟩ := ih ht q
        exact ⟨e', by simp only [rows, hs, he']⟩

/-- **One unacceptable tuple undoes the statement.** -/
theorem execute_error (u : Upsert τ κ ρ ε) (table : Table κ ρ) {ts : List τ} {t : τ} {e : ε}
    (ht : t ∈ ts) (ha : u.constrain t = .error e) : ∃ e', u.execute table ts = .error e' := by
  obtain ⟨e', he'⟩ := u.rows_error ht ha ⟨table, [], []⟩
  exact ⟨e', by simp only [execute, he']⟩

end Upsert

end Sql
