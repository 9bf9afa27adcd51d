import Mathlib.Algebra.Order.Group.Nat
import Mathlib.Data.List.Induction
import Mathlib.Data.List.Nodup
import Mathlib.Tactic.SplitIfs

/-!
# Coalescing batches

A worker collects keyed items in a batch, of each key only the latest, and hands the batch on when
it is full or when a timer ticks. What it handed on, together with what it still holds, tells an
observer who only looks at the last item of a key as much as the whole stream does.

* `push` — the batch with an item added and older ones of its key dropped.
* `Worker.step` — an item or a tick; `step_cases` says all it can do.
* `Inv` — what the batches and the output are, after any events (`run_inv`).
* `kept_or_superseded` — the fate of one item.
* `KeepsLast`, `Line.Moves` — what came out of a line of such workers and channels, and what is
  still in it, against what went in; moves compose.

Nothing here names a program: items, keys and the limit are arbitrary.
-/

namespace Coalesce

variable {α κ : Type*} [DecidableEq κ] (key : α → κ)

/-- The batch with an item added and the older ones of its key dropped. -/
def push (batch : List α) (x : α) : List α := batch.filter (fun y => key y ≠ key x) ++ [x]

/-- The items of one key. -/
def ofKey (k : κ) (xs : List α) : List α := xs.filter fun x => key x = k

inductive Event (α : Type*)
  | receive (x : α)
  | tick

/-- The items among the events. -/
def received (es : List (Event α)) : List α :=
  es.filterMap fun e => match e with
    | .receive x => some x
    | .tick => none

/-- The batch, and the batches that were handed on. -/
structure Worker (α : Type*) where
  batch : List α
  flushed : List (List α)

namespace Worker

/-- What was handed on, and then what is left. -/
def output (w : Worker α) : List α := w.flushed.flatten ++ w.batch

/-- The batch of a number; the one that is not handed on yet comes last. -/
def lot (w : Worker α) (n : ℕ) : List α := (w.flushed ++ [w.batch]).getD n []

/-- The batch after an event, if it is not handed on. -/
def next (w : Worker α) : Event α → List α
  | .receive x => push key w.batch x
  | .tick => w.batch

/-- The batch is handed on after an event: it is full, or the timer ticks and it is not empty. -/
def Flushes (limit : ℕ) (w : Worker α) : Event α → Prop
  | .receive x => limit ≤ (push key w.batch x).length
  | .tick => w.batch ≠ []

instance (limit : ℕ) (w : Worker α) : (e : Event α) → Decidable (w.Flushes key limit e)
  | .receive _ => inferInstanceAs (Decidable (_ ≤ _))
  | .tick => decidable_of_iff (w.batch.isEmpty = false) (by simp [Flushes])

def step (limit : ℕ) (w : Worker α) (e : Event α) : Worker α :=
  if w.Flushes key limit e then ⟨[], w.flushed ++ [w.next key e]⟩ else ⟨w.next key e, w.flushed⟩

def run (limit : ℕ) (es : List (Event α)) : Worker α := es.foldl (step key limit) ⟨[], []⟩

end Worker

variable {key} {limit : ℕ} {w : Worker α}

/-! ## One item -/

theorem ofKey_push (batch : List α) (x : α) (k : κ) :
    ofKey key k (push key batch x) = if key x = k then [x] else ofKey key k batch := by
  rw [ofKey, push, List.filter_append, List.filter_filter]
  split_ifs with h
  · rw [List.filter_eq_nil_iff.2 fun y _ => by simp [h]]
    simp [h]
  · rw [List.filter_cons_of_neg (by simpa using h)]
    simp only [List.filter_nil, List.append_nil, ofKey]
    apply List.filter_congr
    intro y _
    by_cases hy : key y = k
    · simp [hy, Ne.symm h]
    · simp [hy]

theorem length_push_le (batch : List α) (x : α) : (push key batch x).length ≤ batch.length + 1 := by
  rw [push, List.length_append, List.length_singleton]
  exact Nat.succ_le_succ (List.length_filter_le _ _)

theorem push_nodup {batch : List α} (h : (batch.map key).Nodup) (x : α) :
    ((push key batch x).map key).Nodup := by
  rw [push, List.map_append, List.map_singleton]
  apply List.Nodup.append (h.sublist (List.filter_sublist.map key)) (List.nodup_singleton _)
  rw [List.disjoint_singleton]
  intro hmem
  obtain ⟨y, hy, heq⟩ := List.mem_map.1 hmem
  simpa [heq] using (List.mem_filter.1 hy).2

variable (key) in
theorem push_sublist (batch : List α) (x : α) : (push key batch x).Sublist (batch ++ [x]) :=
  List.filter_sublist.append_right [x]

/-! ## One event -/

variable (key limit w) in
/-- All that an event does: the batch becomes the next one, and stays or is handed on. -/
theorem step_cases (e : Event α) :
    w.step key limit e = ⟨w.next key e, w.flushed⟩ ∧ ¬w.Flushes key limit e ∨
      w.step key limit e = ⟨[], w.flushed ++ [w.next key e]⟩ ∧ w.Flushes key limit e := by
  unfold Worker.step
  split_ifs with h
  · exact .inr ⟨rfl, h⟩
  · exact .inl ⟨rfl, h⟩

theorem output_step (e : Event α) :
    (w.step key limit e).output = w.flushed.flatten ++ w.next key e := by
  rcases step_cases key limit w e with ⟨h, -⟩ | ⟨h, -⟩
  · rw [h, Worker.output]
  · rw [h, Worker.output, List.flatten_append, List.append_nil]
    simp

theorem run_snoc (es : List (Event α)) (e : Event α) :
    Worker.run key limit (es ++ [e]) = (Worker.run key limit es).step key limit e := by
  rw [Worker.run, List.foldl_append]
  rfl

theorem received_snoc (es : List (Event α)) (e : Event α) :
    received (es ++ [e]) = received es ++ received [e] := List.filterMap_append

/-! ## What is handed on -/

/-- The worker after it received `xs`. -/
structure Inv (key : α → κ) (limit : ℕ) (w : Worker α) (xs : List α) : Prop where
  small : w.batch.length < limit
  distinct : (w.batch.map key).Nodup
  flushed : ∀ b ∈ w.flushed, b.length ≤ limit ∧ (b.map key).Nodup
  sublist : w.output.Sublist xs
  last : ∀ k, (ofKey key k w.output).getLast? = (ofKey key k xs).getLast?

theorem next_spec {xs : List α} (h : Inv key limit w xs) (e : Event α) :
    (w.next key e).length ≤ limit ∧ ((w.next key e).map key).Nodup := by
  cases e with
  | receive x => exact ⟨(length_push_le w.batch x).trans h.small, push_nodup h.distinct x⟩
  | tick => exact ⟨h.small.le, h.distinct⟩

/-- **One event.** -/
theorem step_inv (hlimit : 0 < limit) {xs : List α} (h : Inv key limit w xs) (e : Event α) :
    Inv key limit (w.step key limit e) (xs ++ received [e]) := by
  have hnext := next_spec h e
  have hsublist : (w.step key limit e).output.Sublist (xs ++ received [e]) := by
    rw [output_step]
    cases e with
    | receive x =>
      have hpush := (push_sublist key w.batch x).append_left w.flushed.flatten
      rw [← List.append_assoc] at hpush
      exact hpush.trans (h.sublist.append_right [x])
    | tick => exact h.sublist.trans (List.sublist_append_left xs _)
  have hlast (k : κ) : (ofKey key k (w.step key limit e).output).getLast? =
      (ofKey key k (xs ++ received [e])).getLast? := by
    rw [output_step]
    cases e with
    | receive x =>
      have hx : received [Event.receive x] = [x] := rfl
      rw [hx, Worker.next, ofKey, List.filter_append, ← ofKey, ← ofKey, ofKey_push, ofKey,
        ofKey, ofKey, List.filter_append]
      by_cases hk : key x = k
      · simp [hk]
      · rw [if_neg hk, List.filter_cons_of_neg (by simpa using hk), List.filter_nil,
          List.append_nil, ← List.filter_append]
        exact h.last k
    | tick =>
      rw [received, List.filterMap_cons_none rfl, List.filterMap_nil, List.append_nil]
      exact h.last k
  rcases step_cases key limit w e with ⟨hstep, hflush⟩ | ⟨hstep, -⟩ <;>
    rw [hstep] at hsublist hlast ⊢
  · refine ⟨?_, hnext.2, h.flushed, hsublist, hlast⟩
    cases e with
    | receive x => exact not_le.1 hflush
    | tick => exact h.small
  · refine ⟨hlimit, List.nodup_nil, ?_, hsublist, hlast⟩
    intro b hb
    rcases List.mem_append.1 hb with hb | hb
    · exact h.flushed b hb
    · rw [List.mem_singleton.1 hb]
      exact hnext

/-- **Any events.** -/
theorem run_inv (hlimit : 0 < limit) (es : List (Event α)) :
    Inv key limit (Worker.run key limit es) (received es) := by
  induction es using List.reverseRecOn with
  | nil =>
    exact ⟨hlimit, List.nodup_nil, fun b hb => absurd hb List.not_mem_nil, List.Sublist.refl [],
      fun _ => rfl⟩
  | append_singleton es e ih =>
    rw [run_snoc, received_snoc]
    exact step_inv hlimit ih e

/-! ## The fate of one item -/

theorem lot_step_self (e : Event α) :
    (w.step key limit e).lot w.flushed.length = w.next key e := by
  rcases step_cases key limit w e with ⟨h, -⟩ | ⟨h, -⟩ <;>
    simp [h, Worker.lot]

theorem mem_output_of_mem_lot {n : ℕ} {x : α} (h : x ∈ w.lot n) : x ∈ w.output := by
  have houtput : w.output = (w.flushed ++ [w.batch]).flatten := by simp [Worker.output]
  rw [houtput, List.mem_flatten]
  rw [Worker.lot, List.getD_eq_getElem?_getD] at h
  cases hget : (w.flushed ++ [w.batch])[n]? with
  | none =>
    rw [hget] at h
    exact absurd h List.not_mem_nil
  | some b =>
    rw [hget] at h
    exact ⟨b, List.mem_of_getElem? hget, h⟩

theorem lot_step_of_lt (e : Event α) {n : ℕ} (hn : n < w.flushed.length) :
    (w.step key limit e).lot n = w.lot n := by
  rcases step_cases key limit w e with ⟨h, -⟩ | ⟨h, -⟩ <;>
    simp [h, Worker.lot, List.getElem?_append, hn, Nat.lt_succ_of_lt hn]

variable (key limit w) in
theorem length_flushed_step (e : Event α) :
    (w.step key limit e).flushed = w.flushed ∨
      w.flushed.length < (w.step key limit e).flushed.length := by
  rcases step_cases key limit w e with ⟨h, -⟩ | ⟨h, -⟩ <;> simp [h]

/-- After `pre`, an item of the same key was received before a batch was handed on again. -/
def Superseded (key : α → κ) (limit : ℕ) (pre : List (Event α)) (x : α) (post : List (Event α)) :
    Prop :=
  ∃ mid y rest, post = mid ++ .receive y :: rest ∧ key y = key x ∧
    (Worker.run key limit (pre ++ .receive x :: mid)).flushed = (Worker.run key limit pre).flushed

theorem Superseded.snoc {pre post : List (Event α)} {x : α}
    (h : Superseded key limit pre x post) (e : Event α) :
    Superseded key limit pre x (post ++ [e]) := by
  obtain ⟨mid, y, rest, rfl, hkey, hflushed⟩ := h
  exact ⟨mid, y, rest ++ [e], by simp, hkey, hflushed⟩

theorem mem_next {x : α} (hx : x ∈ w.batch) {e : Event α}
    (he : ∀ y, e = .receive y → key y ≠ key x) : x ∈ w.next key e := by
  cases e with
  | receive y =>
    refine List.mem_append_left _ (List.mem_filter.2 ⟨hx, ?_⟩)
    exact decide_eq_true (he y rfl).symm
  | tick => exact hx

/-- **The fate of an item.** It is in the next batch that is handed on (the rest, if none is), or
it was superseded before that. -/
theorem kept_or_superseded (pre : List (Event α)) (x : α) (post : List (Event α)) :
    x ∈ (Worker.run key limit (pre ++ .receive x :: post)).lot
        (Worker.run key limit pre).flushed.length ∨
      Superseded key limit pre x post := by
  -- Until a batch is handed on, the item is in the batch; from then on, in the one handed on.
  suffices h : (x ∈ (Worker.run key limit (pre ++ .receive x :: post)).lot
        (Worker.run key limit pre).flushed.length ∧
      ((Worker.run key limit (pre ++ .receive x :: post)).flushed =
          (Worker.run key limit pre).flushed ∨
        (Worker.run key limit pre).flushed.length <
          (Worker.run key limit (pre ++ .receive x :: post)).flushed.length)) ∨
      Superseded key limit pre x post from h.imp_left And.left
  induction post using List.reverseRecOn with
  | nil =>
    left
    rw [run_snoc, lot_step_self]
    exact ⟨List.mem_append_right _ (List.mem_singleton_self x), length_flushed_step key limit _ _⟩
  | append_singleton post e ih =>
    rcases ih with ⟨hmem, hflushed⟩ | hsuperseded
    · have hrun : Worker.run key limit (pre ++ .receive x :: (post ++ [e])) =
          (Worker.run key limit (pre ++ .receive x :: post)).step key limit e := by
        rw [← run_snoc, List.append_assoc, List.cons_append]
      rw [hrun]
      rcases hflushed with hsame | hlt
      · by_cases he : ∃ y, e = .receive y ∧ key y = key x
        · obtain ⟨y, rfl, hkey⟩ := he
          exact .inr ⟨post, y, [], rfl, hkey, hsame⟩
        · left
          rw [← hsame, lot_step_self]
          refine ⟨mem_next ?_ fun y hy hkey => he ⟨y, hy, hkey⟩, length_flushed_step key limit _ e⟩
          rw [← hsame] at hmem
          simpa [Worker.lot] using hmem
      · left
        rw [lot_step_of_lt e hlt]
        refine ⟨hmem, .inr ?_⟩
        rcases length_flushed_step key limit
          (Worker.run key limit (pre ++ .receive x :: post)) e with h | h
        · rw [h]
          exact hlt
        · exact hlt.trans h
    · exact .inr (hsuperseded.snoc e)

/-! ## Lines of channels and workers -/

/-- `ys` are some of `xs`, in order and with the last one. -/
structure KeepsLast (xs ys : List α) : Prop where
  sublist : ys.Sublist xs
  last : ys.getLast? = xs.getLast?

namespace KeepsLast

variable {xs ys zs : List α}

theorem refl (xs : List α) : KeepsLast xs xs := ⟨List.Sublist.refl xs, rfl⟩

theorem trans (h : KeepsLast xs ys) (h' : KeepsLast ys zs) : KeepsLast xs zs :=
  ⟨h'.sublist.trans h.sublist, h'.last.trans h.last⟩

theorem append_right (h : KeepsLast xs ys) (zs : List α) : KeepsLast (xs ++ zs) (ys ++ zs) := by
  refine ⟨h.sublist.append_right zs, ?_⟩
  rw [List.getLast?_append, List.getLast?_append, h.last]

theorem append_left (h : KeepsLast xs ys) (zs : List α) : KeepsLast (zs ++ xs) (zs ++ ys) := by
  refine ⟨h.sublist.append_left zs, ?_⟩
  rw [List.getLast?_append, List.getLast?_append, h.last]

theorem map {β : Type*} (f : α → β) (h : KeepsLast xs ys) : KeepsLast (xs.map f) (ys.map f) := by
  refine ⟨h.sublist.map f, ?_⟩
  rw [List.getLast?_map, List.getLast?_map, h.last]

end KeepsLast

/-- An event at a worker, of the items of one key: those it had or received, against those it
handed on or has. -/
theorem keepsLast_step (e : Event α) (k : κ) :
    KeepsLast (ofKey key k (w.output ++ received [e]))
      (ofKey key k (w.step key limit e).output) := by
  rw [output_step, Worker.output, List.append_assoc]
  simp only [ofKey, List.filter_append]
  refine KeepsLast.append_left ?_ _
  rw [← List.filter_append]
  cases e with
  | receive x =>
    have hpush : ofKey key k (push key w.batch x) = _ := ofKey_push w.batch x k
    rw [ofKey] at hpush
    rw [Worker.next, hpush]
    have hx : received [Event.receive x] = [x] := rfl
    rw [hx, List.filter_append]
    by_cases hk : key x = k
    · rw [if_pos hk, List.filter_cons_of_pos (by simpa using hk), List.filter_nil]
      exact ⟨List.sublist_append_right _ _, by simp⟩
    · rw [if_neg hk, List.filter_cons_of_neg (by simpa using hk), List.filter_nil, List.append_nil]
      exact KeepsLast.refl _
  | tick =>
    rw [Worker.next, received, List.filterMap_cons_none rfl, List.filterMap_nil, List.append_nil]
    exact KeepsLast.refl _

/-- A line that items go through: all that went in so far, what is on the way, and all that came
out so far. -/
structure Line (α : Type*) where
  sent : List α
  way : List α
  got : List α

/-- Between two moments items went in and came out. Those that came out or are on the way are some
of those that were on the way or went in, up to the last. -/
def Line.Moves (l l' : Line α) : Prop :=
  ∃ sent got, l'.sent = l.sent ++ sent ∧ l'.got = l.got ++ got ∧
    KeepsLast (l.way ++ sent) (got ++ l'.way)

theorem Line.Moves.refl (l : Line α) : l.Moves l :=
  ⟨[], [], (List.append_nil _).symm, (List.append_nil _).symm, by
    rw [List.append_nil, List.nil_append]
    exact KeepsLast.refl _⟩

theorem Line.Moves.trans {l l' l'' : Line α} (h : l.Moves l') (h' : l'.Moves l'') :
    l.Moves l'' := by
  obtain ⟨sent, got, hsent, hgot, hkeeps⟩ := h
  obtain ⟨sent', got', hsent', hgot', hkeeps'⟩ := h'
  refine ⟨sent ++ sent', got ++ got', ?_, ?_, ?_⟩
  · rw [hsent', hsent, List.append_assoc]
  · rw [hgot', hgot, List.append_assoc]
  · rw [← List.append_assoc, List.append_assoc got]
    refine (hkeeps.append_right sent').trans ?_
    rw [List.append_assoc]
    exact hkeeps'.append_left got

end Coalesce
