import Mathlib.Data.List.Basic
import PosixKernel.Lib.Runs

/-!
# Bounded Queues

A queue with room for a fixed number of items: what is offered is taken as far as there is room,
and what is asked for is handed out from the front.

## Main definitions

* `BoundedQueue` — the queue, with `step`, what it answers and becomes;
* `BoundedQueue.Flow` — an observer of what went in and what came out.

## Main results

* `BoundedQueue.flow_step` — nothing is reordered, lost or duplicated.
-/

/-- A queue that holds no more items than it has room for. -/
structure BoundedQueue (α : Type*) where
  capacity : ℕ
  items : List α
  length_le : items.length ≤ capacity

namespace BoundedQueue

variable {α : Type*}

def empty (capacity : ℕ) : BoundedQueue α := ⟨capacity, [], Nat.zero_le _⟩

/-- How many of the items offered there is room for. -/
def fits (q : BoundedQueue α) (data : List α) : ℕ :=
  min data.length (q.capacity - q.items.length)

/-- Append the longest prefix that fits. -/
def write (q : BoundedQueue α) (data : List α) : BoundedQueue α where
  capacity := q.capacity
  items := q.items ++ data.take (q.fits data)
  length_le := by
    have := q.length_le
    rw [List.length_append, List.length_take, fits]
    omega

/-- Remove the oldest items. -/
def read (q : BoundedQueue α) (n : ℕ) : BoundedQueue α where
  capacity := q.capacity
  items := q.items.drop n
  length_le := by
    have := q.length_le
    rw [List.length_drop]
    omega

/-- What can be asked of a queue. -/
inductive Op (α : Type*)
  | write (data : List α)
  | read (n : ℕ)
  | peek (n : ℕ)

/-- What a queue answers: how many items it has taken, or items. -/
inductive Answer (α : Type*)
  | taken (n : ℕ)
  | items (data : List α)
  deriving DecidableEq

/-- The answer and the queue after it: looking at the oldest items leaves them there. -/
def step (q : BoundedQueue α) : Op α → Answer α × BoundedQueue α
  | .write data => (.taken (q.fits data), q.write data)
  | .read n => (.items (q.items.take n), q.read n)
  | .peek n => (.items (q.items.take n), q)

/-! ### What went in and what came out -/

/-- The items taken so far, and those handed out for good. -/
structure Flow (α : Type*) where
  accepted : List α
  delivered : List α

/-- The observer after an answer. -/
def Flow.record (f : Flow α) : Op α → Answer α → Flow α
  | .write data, .taken n => { f with accepted := f.accepted ++ data.take n }
  | .read _, .items data => { f with delivered := f.delivered ++ data }
  | _, _ => f

/-- **Conservation.** What was taken is, in this order, what was handed out and what is there. -/
theorem flow_step {q : BoundedQueue α} {f : Flow α} (h : f.accepted = f.delivered ++ q.items)
    (op : Op α) : (f.record op (q.step op).1).accepted =
      (f.record op (q.step op).1).delivered ++ (q.step op).2.items := by
  cases op with
  | write =>
    show f.accepted ++ _ = f.delivered ++ (q.items ++ _)
    rw [h, List.append_assoc]
  | read n =>
    show f.accepted = f.delivered ++ q.items.take n ++ q.items.drop n
    rw [h, List.append_assoc, List.take_append_drop]
  | peek => exact h

end BoundedQueue
