import Mathlib.Algebra.Order.Group.Nat
import Mathlib.Data.List.Basic
import Mathlib.Tactic.SplitIfs

/-!
# Bounded broadcast receivers

A receiver of a broadcast channel keeps at most `capacity` values. A sender never waits: where
there is no room the oldest value is overwritten, and the next `recv` reports how many were missed
before it goes on with the oldest one that is left.

* `Receiver` — what is kept, with `send`, `recv` and `close`.
* `Channel` — a receiver with its past: what was sent, returned and overwritten.
* `Channel.WF`, `perm_sent` — every value sent is in exactly one of three places, and what is
  returned is returned in order.

Nothing here names a program: values and the capacity are arbitrary.
-/

namespace Overrun

variable {α : Type*}

structure Receiver (α : Type*) where
  /-- What was neither returned nor overwritten, the oldest first. -/
  queue : List α
  /-- How many values were overwritten since the last `recv`. -/
  missed : ℕ
  /-- All senders are gone. -/
  closed : Bool
  deriving DecidableEq, Repr

/-- What `recv` returns; `pending` while there is nothing to return. -/
inductive Received (α : Type*)
  | ok (x : α)
  | lagged (n : ℕ)
  | closed
  | pending
  deriving DecidableEq, Repr

namespace Receiver

def send (capacity : ℕ) (r : Receiver α) (x : α) : Receiver α :=
  if r.queue.length < capacity then { r with queue := r.queue ++ [x] }
  else { r with queue := r.queue.tail ++ [x], missed := r.missed + 1 }

def recv : Receiver α → Received α × Receiver α
  | ⟨queue, missed + 1, closed⟩ => (.lagged (missed + 1), ⟨queue, 0, closed⟩)
  | ⟨x :: queue, 0, closed⟩ => (.ok x, ⟨queue, 0, closed⟩)
  | ⟨[], 0, true⟩ => (.closed, ⟨[], 0, true⟩)
  | ⟨[], 0, false⟩ => (.pending, ⟨[], 0, false⟩)

theorem recv_eq_ok {r r' : Receiver α} {x : α} (h : r.recv = (.ok x, r')) :
    r.queue = x :: r'.queue := by
  obtain ⟨queue, missed, closed⟩ := r
  cases missed with
  | zero =>
    cases queue with
    | nil => cases closed <;> cases h
    | cons y queue =>
      cases h
      rfl
  | succ missed => cases h

theorem recv_queue {r : Receiver α} (h : ∀ x, r.recv.1 ≠ .ok x) : r.recv.2.queue = r.queue := by
  obtain ⟨queue, missed, closed⟩ := r
  cases missed with
  | zero =>
    cases queue with
    | nil => cases closed <;> rfl
    | cons y queue => exact absurd rfl (h y)
  | succ missed => rfl

/-- Nothing is left, and nothing will come. -/
def Done (r : Receiver α) : Prop := r.queue = [] ∧ r.missed = 0 ∧ r.closed = true

theorem done_of_closed {r : Receiver α} (h : r.recv.1 = .closed) : r.Done := by
  obtain ⟨queue, missed, closed⟩ := r
  cases missed with
  | zero =>
    cases queue with
    | nil =>
      cases closed with
      | true => exact ⟨rfl, rfl, rfl⟩
      | false => cases h
    | cons y queue => cases h
  | succ missed => cases h

theorem Done.recv {r : Receiver α} (h : r.Done) : r.recv = (.closed, r) := by
  obtain ⟨queue, missed, closed⟩ := r
  obtain ⟨rfl, rfl, rfl⟩ := h
  rfl

end Receiver

/-- A receiver and its past. -/
structure Channel (α : Type*) where
  receiver : Receiver α
  sent : List α
  returned : List α
  overwritten : List α

namespace Channel

def init : Channel α := ⟨⟨[], 0, false⟩, [], [], []⟩

def send (capacity : ℕ) (c : Channel α) (x : α) : Channel α where
  receiver := c.receiver.send capacity x
  sent := c.sent ++ [x]
  returned := c.returned
  overwritten := if c.receiver.queue.length < capacity then c.overwritten
    else c.overwritten ++ c.receiver.queue.take 1

def recv (c : Channel α) : Received α × Channel α :=
  (c.receiver.recv.1, { c with
    receiver := c.receiver.recv.2
    returned := match c.receiver.recv.1 with
      | .ok x => c.returned ++ [x]
      | _ => c.returned })

def close (c : Channel α) : Channel α := { c with receiver := { c.receiver with closed := true } }

/-- Every value sent was returned, overwritten or is kept, and the values returned and kept are in
the order of the sends. -/
structure WF (c : Channel α) : Prop where
  perm : (c.returned ++ c.overwritten ++ c.receiver.queue).Perm c.sent
  sublist : (c.returned ++ c.receiver.queue).Sublist c.sent

variable {c : Channel α}

theorem wf_init : (init : Channel α).WF := ⟨List.Perm.refl [], List.Sublist.refl []⟩

theorem wf_send (h : c.WF) (capacity : ℕ) (x : α) : (c.send capacity x).WF := by
  obtain ⟨⟨queue, missed, closed⟩, sent, returned, overwritten⟩ := c
  obtain ⟨hperm, hsublist⟩ := h
  unfold send Receiver.send
  dsimp only at hperm hsublist ⊢
  split_ifs with hroom
  · constructor
    · dsimp only
      rw [← List.append_assoc]
      exact hperm.append_right [x]
    · dsimp only
      rw [← List.append_assoc]
      exact hsublist.append_right [x]
  · constructor
    · dsimp only
      rw [← List.append_assoc, ← List.append_assoc returned,
        List.append_assoc (returned ++ overwritten), ← List.drop_one, List.take_append_drop]
      exact hperm.append_right [x]
    · dsimp only
      rw [← List.append_assoc]
      refine List.Sublist.append_right (List.Sublist.trans ?_ hsublist) [x]
      exact (List.tail_sublist queue).append_left returned

theorem wf_recv (h : c.WF) : c.recv.2.WF := by
  obtain ⟨hperm, hsublist⟩ := h
  unfold recv
  cases hrecv : c.receiver.recv with
  | mk o r' =>
    cases o with
    | ok x =>
      rw [Receiver.recv_eq_ok hrecv] at hperm hsublist
      constructor
      · refine List.Perm.trans ?_ hperm
        dsimp only
        rw [List.append_assoc, List.append_assoc, List.append_assoc]
        exact (@List.perm_middle _ x c.overwritten _).symm.append_left c.returned
      · dsimp only
        rw [List.append_assoc]
        exact hsublist
    | lagged | closed | pending =>
      have hqueue : r'.queue = c.receiver.queue := by
        have hno : ∀ x, c.receiver.recv.1 ≠ .ok x := by simp [hrecv]
        rw [← Receiver.recv_queue hno, hrecv]
      constructor
      · dsimp only
        rw [hqueue]
        exact hperm
      · dsimp only
        rw [hqueue]
        exact hsublist

theorem wf_close (h : c.WF) : c.close.WF := ⟨h.perm, h.sublist⟩

end Channel

end Overrun
