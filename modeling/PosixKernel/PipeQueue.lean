import PosixKernel.Lib.BoundedQueue
import PosixKernel.PipeData

/-!
# A Pipe is a Bounded Queue

Whatever is written to a pipe, read from it and looked at, in whatever order and sizes, the ring
behaves as a queue of bytes with room for as many as the ring has cells.

## Main results

* `PipeRefines.step`, `PipeWithFlow.next` — one call on the ring and on the queue;
* `pipeBuffer_bounded_queue` — every sequence of calls.
-/

namespace PosixKernel

open BoundedQueue PipeBuffer

/-- A call on a pipe, with its answer. -/
def PipeBuffer.call (p : PipeBuffer) : Op UInt8 → Answer UInt8 × PipeBuffer
  | .write data => (.taken (p.write data).1, (p.write data).2)
  | .read n => (.items (p.read n).1, (p.read n).2)
  | .peek n => (.items (p.peek n), p)

/-- The ring holds what the queue holds. -/
structure PipeRefines (p : PipeBuffer) (q : BoundedQueue UInt8) : Prop where
  sound : p.Sound
  capacity_eq : p.capacity = q.capacity
  contents_eq : p.contents = q.items

variable {p : PipeBuffer} {q : BoundedQueue UInt8}

theorem PipeRefines.write_fst (h : PipeRefines p q) (data : Bytes) :
    (p.write data).1 = q.fits data := by
  rw [PipeBuffer.write_fst, fits, freeSpace, h.capacity_eq, ← h.contents_eq, length_contents]

/-- **One call.** -/
theorem PipeRefines.step (h : PipeRefines p q) (op : Op UInt8) :
    (p.call op).1 = (q.step op).1 ∧ PipeRefines (p.call op).2 (q.step op).2 := by
  cases op with
  | write data =>
    refine ⟨congrArg Answer.taken (h.write_fst data), h.sound.write data, ?_, ?_⟩
    · exact (h.sound.capacity_write data).trans h.capacity_eq
    · show (p.write data).2.contents = q.items ++ data.take (q.fits data)
      rw [contents_write h.sound, h.contents_eq, h.write_fst]
  | read n =>
    refine ⟨congrArg Answer.items ?_, h.sound.read n, ?_, ?_⟩
    · rw [read_fst, peek_eq h.sound, h.contents_eq]
    · exact (capacity_read p n).trans h.capacity_eq
    · exact (contents_read p n).trans (congrArg (List.drop n) h.contents_eq)
  | peek =>
    refine ⟨congrArg Answer.items ?_, h⟩
    rw [peek_eq h.sound, h.contents_eq]

theorem pipeRefines_new {capacity : ℕ} (hpos : 0 < capacity) :
    PipeRefines (.new capacity) (.empty capacity) where
  sound := sound_new hpos
  capacity_eq := List.length_replicate
  contents_eq := List.eq_nil_of_length_eq_zero (length_contents _)

/-- A call on a pipe, with an observer of what went in and what came out. -/
abbrev pipeNext : PipeBuffer × Flow UInt8 → Op UInt8 → PipeBuffer × Flow UInt8 :=
  Runs.observed PipeBuffer.call Flow.record

/-- The queue beside a pipe and its observer. -/
structure PipeWithFlow (s : PipeBuffer × Flow UInt8) (q : BoundedQueue UInt8) : Prop where
  refines : PipeRefines s.1 q
  flow : s.2.accepted = s.2.delivered ++ q.items

theorem PipeWithFlow.next {s : PipeBuffer × Flow UInt8} (h : PipeWithFlow s q) (op : Op UInt8) :
    PipeWithFlow (pipeNext s op) (q.step op).2 := by
  obtain ⟨hanswer, hnext⟩ := h.refines.step op
  have hrecord : (pipeNext s op).2 = s.2.record op (q.step op).1 :=
    congrArg (s.2.record op) hanswer
  refine ⟨hnext, ?_⟩
  rw [hrecord]
  exact flow_step h.flow op

/-- **A pipe is a bounded queue.** After every sequence of calls the pipe holds what the queue
holds and answers the next call as the queue does; the bytes taken are, in this order, the bytes
handed out and the bytes it holds. -/
theorem pipeBuffer_bounded_queue {capacity : ℕ} (hpos : 0 < capacity) (ops : List (Op UInt8))
    (op : Op UInt8) :
    let s := ops.foldl pipeNext (.new capacity, ⟨[], []⟩)
    let q := ops.foldl (fun q op => (q.step op).2) (BoundedQueue.empty capacity)
    s.1.contents = q.items ∧ (s.1.call op).1 = (q.step op).1 ∧
      s.2.accepted = s.2.delivered ++ s.1.contents := by
  intro s q
  obtain ⟨hrefines, hflow⟩ : PipeWithFlow s q :=
    Runs.simulates (.of_forall fun _ _ => trivial)
      ⟨pipeRefines_new hpos, rfl⟩ fun _ _ op h _ => h.next op
  rw [hrefines.contents_eq]
  exact ⟨rfl, (hrefines.step op).1, hflow⟩

theorem pipeBuffer_bounded_queue_wrapped :
    let ops : List (Op UInt8) := [.write [1, 2], .read 1, .write [3, 4, 5]]
    let s := ops.foldl pipeNext (.new 3, ⟨[], []⟩)
    s.1.contents = [2, 3, 4] ∧ (s.1.call (.peek 2)).1 = .items [2, 3] ∧
      s.2.accepted = s.2.delivered ++ s.1.contents :=
  pipeBuffer_bounded_queue (by decide) [.write [1, 2], .read 1, .write [3, 4, 5]] (.peek 2)

end PosixKernel
