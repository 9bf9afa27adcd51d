import RustRelay.Core.Coalesce
import RustRelay.Models

/-!
# The presence broadcaster

`broadcast_worker` keeps a batch of updates, of each user only the latest, and gives it to
`flush_batch` when it holds 50 or when the interval ticks. It is a coalescing worker
(`step_eq`), whose results are used by name.

**Theorem (`broadcast_worker_coalesces`).** After any updates and ticks, no batch was longer than
50 or named a user twice; of each user the updates that went out or are left are some of those
received, in order and up to the last; and an update is left out only if a later one of its user
was received before the next flush.
-/

namespace RustRelay

open Coalesce

structure PendingUpdate where
  userId : UserId
  status : PresenceStatus
  deriving DecidableEq, Repr

/-- `broadcast_worker`: its batch, and what `flush_batch` was called with. -/
abbrev BroadcastWorker := Worker PendingUpdate

namespace BroadcastWorker

/-- `flush_batch` takes all of the batch, whatever becomes of the updates. -/
def flushBatch (w : BroadcastWorker) : BroadcastWorker := ⟨[], w.flushed ++ [w.batch]⟩

/-- The branch of `rx.recv()`. -/
def recv (w : BroadcastWorker) (update : PendingUpdate) : BroadcastWorker :=
  let batch := w.batch.filter (fun u => u.userId ≠ update.userId) ++ [update]
  if 50 ≤ batch.length then flushBatch ⟨batch, w.flushed⟩ else ⟨batch, w.flushed⟩

/-- The branch of `interval.tick()`. -/
def tick (w : BroadcastWorker) : BroadcastWorker :=
  if !w.batch.isEmpty then w.flushBatch else w

/-- One round of the loop. -/
def step (w : BroadcastWorker) : Event PendingUpdate → BroadcastWorker
  | .receive update => w.recv update
  | .tick => w.tick

/-- Any number of rounds, from the start. -/
def run (es : List (Event PendingUpdate)) : BroadcastWorker := es.foldl step ⟨[], []⟩

theorem step_eq : step = Worker.step PendingUpdate.userId 50 := by
  funext w e
  cases e with
  | receive update => rfl
  | tick =>
    obtain ⟨batch, flushed⟩ := w
    cases batch with
    | nil => rfl
    | cons update batch => rfl

theorem run_eq (es : List (Event PendingUpdate)) :
    run es = Worker.run PendingUpdate.userId 50 es := by
  rw [run, step_eq, Worker.run]

/-- The updates of a user. -/
def updatesOf (u : UserId) (xs : List PendingUpdate) : List PendingUpdate :=
  xs.filter fun x => x.userId = u

/-- **Presence batching is a faithful coalescing**, after any events `es`. Of an update that was
received with `pre` before it and `post` after it: it is in the next batch that is flushed (in
what is left, if none is), or another one of its user came before any flush. -/
theorem broadcast_worker_coalesces (es : List (Event PendingUpdate)) :
    (∀ b ∈ (run es).flushed, b.length ≤ 50 ∧ (b.map PendingUpdate.userId).Nodup) ∧
    (∀ u, (updatesOf u (run es).output).Sublist (updatesOf u (received es))) ∧
    (∀ u, (updatesOf u (run es).output).getLast? = (updatesOf u (received es)).getLast?) ∧
    ∀ pre x post, es = pre ++ .receive x :: post →
      (x ∈ (run es).lot (run pre).flushed.length ∧ x ∈ (run es).output) ∨
      ∃ mid y rest, post = mid ++ .receive y :: rest ∧ y.userId = x.userId ∧
        (run (pre ++ .receive x :: mid)).flushed = (run pre).flushed := by
  have hinv : Inv PendingUpdate.userId 50 (Worker.run PendingUpdate.userId 50 es) (received es) :=
    run_inv (by decide) es
  rw [← run_eq] at hinv
  refine ⟨hinv.flushed, fun u => hinv.sublist.filter _, hinv.last, ?_⟩
  intro pre x post hes
  subst hes
  simp only [run_eq]
  have hfate : _ ∨ Superseded PendingUpdate.userId 50 pre x post := kept_or_superseded pre x post
  rcases hfate with hkept | hsuperseded
  · exact .inl ⟨hkept, mem_output_of_mem_lot hkept⟩
  · exact .inr hsuperseded

/-- A status that came and went within one interval is not sent. -/
example : (run [.receive ⟨7, .online⟩, .receive ⟨8, .online⟩, .receive ⟨7, .idle⟩, .tick,
    .receive ⟨7, .dnd⟩]) = ⟨[⟨7, .dnd⟩], [[⟨8, .online⟩, ⟨7, .idle⟩]]⟩ := rfl

end BroadcastWorker

end RustRelay
