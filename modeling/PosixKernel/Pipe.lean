import PosixKernel.Shared
import Mathlib.Data.List.Sort

/-!
# The Global Pipe Table

Pipe buffers with their end counts, and the table of buffers that all processes share
(`pipe.rs`). A slot is freed when both of its counts reach zero, and its number goes on
the free list from which later allocations are served.

## Main results

* `PipeTable.ends_dropEnd`, `PipeTable.ends_addEnd`, `PipeTable.ends_alloc` — the end counts after
  each operation;
* `PipeTable.Wf.alloc`, `PipeTable.Wf.dropEnd`, `PipeTable.allocPair_spec` — the free list names
  exactly the free slots, whatever is called;
* `PipeTable.pipeTable_run` — **every sequence of calls**.
-/

namespace PosixKernel

open SlotTable

/-- The two ends of a pipe. -/
inductive PipeEnd
  | read | write
  deriving DecidableEq

/-- A pipe buffer: a ring of bytes and the numbers of its readers and writers. -/
structure PipeBuffer where
  buf : Bytes
  head : ℕ
  tail : ℕ
  len : ℕ
  readCount : ℕ
  writeCount : ℕ
  pipeIdx : UInt32

def DEFAULT_PIPE_CAPACITY : ℕ := 65536

namespace PipeBuffer

/-- An empty pipe with one reader and one writer. -/
def new (capacity : ℕ) : PipeBuffer where
  buf := List.replicate capacity 0
  head := 0
  tail := 0
  len := 0
  readCount := 1
  writeCount := 1
  pipeIdx := 0

/-- The number of holders of an end. -/
def count (e : PipeEnd) (p : PipeBuffer) : ℕ :=
  match e with
  | .read => p.readCount
  | .write => p.writeCount

/-- Give one hold on an end up; the count stops at zero. -/
def closeEnd (e : PipeEnd) (p : PipeBuffer) : PipeBuffer :=
  match e with
  | .read => { p with readCount := p.readCount - 1 }
  | .write => { p with writeCount := p.writeCount - 1 }

/-- Take one more hold on an end. -/
def addEnd (e : PipeEnd) (p : PipeBuffer) : PipeBuffer :=
  match e with
  | .read => { p with readCount := p.readCount + 1 }
  | .write => { p with writeCount := p.writeCount + 1 }

def closeWriteEnd : PipeBuffer → PipeBuffer := closeEnd .write

/-- Neither end has a holder left. -/
def isFullyClosed (p : PipeBuffer) : Bool := p.readCount == 0 && p.writeCount == 0

/-- The counts after an end was closed. -/
theorem count_closeEnd (e e' : PipeEnd) (p : PipeBuffer) :
    (p.closeEnd e).count e' = if e' = e then p.count e - 1 else p.count e' := by
  cases e <;> cases e' <;> rfl

/-- The counts after an end was added. -/
theorem count_addEnd (e e' : PipeEnd) (p : PipeBuffer) :
    (p.addEnd e).count e' = if e' = e then p.count e + 1 else p.count e' := by
  cases e <;> cases e' <;> rfl

/-- A fully closed pipe counts no end. -/
theorem count_eq_zero_of_isFullyClosed (e : PipeEnd) {p : PipeBuffer}
    (h : p.isFullyClosed = true) : p.count e = 0 := by
  simp only [isFullyClosed, Bool.and_eq_true, beq_iff_eq] at h
  cases e with
  | read => exact h.1
  | write => exact h.2

end PipeBuffer

/-- The table of pipes shared by all processes. The free list is kept with the slot freed
last in front. -/
structure PipeTable where
  pipes : SlotTable PipeBuffer
  freeList : List ℕ

namespace PipeTable

def new : PipeTable := ⟨empty, []⟩

/-- The pipe in a slot. -/
def get (t : PipeTable) (idx : ℕ) : Option PipeBuffer := t.pipes.get idx

/-- Place a pipe in a slot, recording the slot number in it. -/
def place (t : PipeTable) (idx : ℕ) (p : PipeBuffer) : PipeTable :=
  { t with pipes := t.pipes.put idx (some { p with pipeIdx := UInt32.ofNat idx }) }

/-- Allocate a pipe, taking the slot freed last, or a new one. -/
def alloc (t : PipeTable) (p : PipeBuffer) : ℕ × PipeTable :=
  match t.freeList with
  | i :: rest => (i, { t with freeList := rest }.place i p)
  | [] => (t.pipes.slots.length, t.place t.pipes.slots.length p)

/-- Change the pipe in a slot, if there is one. -/
def modify (t : PipeTable) (idx : ℕ) (f : PipeBuffer → PipeBuffer) : PipeTable :=
  { t with pipes := t.pipes.modify idx f }

/-- Free the slot if neither end of its pipe has a holder. -/
def freeIfClosed (t : PipeTable) (idx : ℕ) : PipeTable :=
  match t.get idx with
  | none => t
  | some p =>
    if p.isFullyClosed then ⟨t.pipes.clear idx, idx :: t.freeList⟩ else t

/-- Give one hold on an end up and free the slot if that was the last one. -/
def dropEnd (t : PipeTable) (idx : ℕ) (e : PipeEnd) : PipeTable :=
  (t.modify idx (PipeBuffer.closeEnd e)).freeIfClosed idx

/-- Take one more hold on an end, if the slot is live. -/
def addEnd (t : PipeTable) (idx : ℕ) (e : PipeEnd) : PipeTable :=
  t.modify idx (PipeBuffer.addEnd e)

/-! ### End counts -/

/-- The number of holders the table records for an end; a free slot has none. -/
def ends (t : PipeTable) (idx : ℕ) (e : PipeEnd) : ℕ :=
  weight (PipeBuffer.count e) (t.get idx)

variable {t : PipeTable}

/-- The ends of a pipe in the table. -/
theorem ends_of_get {idx : ℕ} {p : PipeBuffer} (h : t.get idx = some p) (e : PipeEnd) :
    t.ends idx e = p.count e := by
  rw [ends, h]
  rfl

/-- A pipe with an end is in the table. -/
theorem isSome_get_of_ends_pos {idx : ℕ} {e : PipeEnd} (h : 0 < t.ends idx e) :
    ∃ p, t.get idx = some p := by
  rcases hp : t.get idx with _ | p
  · rw [ends, hp] at h
    cases h
  · exact ⟨p, rfl⟩

/-- Dropping an end releases the slot. -/
theorem get_dropEnd (t : PipeTable) (i : ℕ) (e : PipeEnd) (j : ℕ) : (t.dropEnd i e).get j =
      (t.pipes.release i (PipeBuffer.closeEnd e) PipeBuffer.isFullyClosed).get j := by
  rw [get_release]
  simp only [dropEnd, freeIfClosed, get, modify]
  rw [SlotTable.get_modify, if_pos rfl]
  rcases h : t.pipes.get i with _ | p
  · simp [SlotTable.get_modify, h]
  simp only [Option.map_some, Option.bind_some]
  by_cases hc : (p.closeEnd e).isFullyClosed = true
  · simp only [hc, if_true, get_clear, SlotTable.get_modify]
    split_ifs with hj
    · rfl
    · rfl
  · simp [hc, SlotTable.get_modify, h]

/-- **Giving a hold up** lowers that end's count, whether or not the slot is freed. -/
theorem ends_dropEnd (t : PipeTable) (i : ℕ) (e : PipeEnd) (j : ℕ) (e' : PipeEnd) :
    (t.dropEnd i e).ends j e' = if j = i ∧ e' = e then t.ends i e - 1 else t.ends j e' := by
  rw [ends, get_dropEnd, weight_get_release _ _ _ _
    fun p hp => PipeBuffer.count_eq_zero_of_isFullyClosed e' hp]
  by_cases hj : j = i
  · subst hj
    rw [if_pos rfl, ends, ends, get]
    rcases t.pipes.get j with _ | p
    · simp
    · simp [weight_some, PipeBuffer.count_closeEnd]
  · rw [if_neg hj, if_neg fun h => hj h.1, ends, get]

/-- Closing an end without giving the slot back lowers the count as well. -/
theorem ends_modify_closeEnd (t : PipeTable) (i : ℕ) (e : PipeEnd) (j : ℕ) (e' : PipeEnd) :
    (t.modify i (PipeBuffer.closeEnd e)).ends j e' =
      if j = i ∧ e' = e then t.ends i e - 1 else t.ends j e' := by
  have hget : (t.modify i (PipeBuffer.closeEnd e)).get j =
      if j = i then (t.get i).map (PipeBuffer.closeEnd e) else t.get j :=
    SlotTable.get_modify _ _ _ _
  rw [ends, hget]
  by_cases hj : j = i
  · subst hj
    rw [if_pos rfl, ends, ends]
    rcases t.get j with _ | p
    · simp
    · simp [weight_some, PipeBuffer.count_closeEnd]
  · rw [if_neg hj, if_neg fun h => hj h.1, ends]

/-- What stands where after an end was added. -/
theorem get_addEnd (t : PipeTable) (i : ℕ) (e : PipeEnd) (j : ℕ) :
    (t.addEnd i e).get j = if j = i then (t.get i).map (PipeBuffer.addEnd e) else t.get j :=
  SlotTable.get_modify _ _ _ _

/-- The counts after an end was added to a pipe. -/
theorem ends_addEnd {i : ℕ} {p : PipeBuffer} (hp : t.get i = some p) (e : PipeEnd) (j : ℕ)
    (e' : PipeEnd) : (t.addEnd i e).ends j e' =
      if j = i ∧ e' = e then t.ends i e + 1 else t.ends j e' := by
  rw [ends, get_addEnd]
  by_cases hj : j = i
  · subst hj
    simp [hp, weight_some, ends, PipeBuffer.count_addEnd]
  · rw [if_neg hj, if_neg fun h => hj h.1, ends]

/-- The other counts stay. -/
theorem ends_addEnd_of_ne (t : PipeTable) {i j : ℕ} {e e' : PipeEnd} (h : ¬ (j = i ∧ e' = e)) :
    (t.addEnd i e).ends j e' = t.ends j e' := by
  rcases hp : t.get i with _ | p
  · rw [ends, ends, get_addEnd, hp]
    split
    next hj => rw [hj, hp]; rfl
    · rfl
  · rw [ends_addEnd hp, if_neg h]

/-- What stands where after a pipe was placed. -/
theorem get_place (t : PipeTable) (i : ℕ) (p : PipeBuffer) (j : ℕ) :
    (t.place i p).get j =
      if j = i then some { p with pipeIdx := UInt32.ofNat i } else t.get j :=
  get_put _ _ _ _

/-! ### The free list -/

/-- The free list names every free slot, once. -/
structure Wf (t : PipeTable) : Prop where
  nodup : t.freeList.Nodup
  mem_iff : ∀ i, i ∈ t.freeList ↔ i < t.pipes.slots.length ∧ t.get i = none

/-- The empty table is well formed. -/
theorem wf_new : new.Wf where
  nodup := List.nodup_nil
  mem_iff i := by simp [new, empty]

/-- A slot that an allocation may take: one from the free list, or the next new one. -/
theorem get_of_mem_freeList (hwf : t.Wf) {i : ℕ} (h : i ∈ t.freeList) : t.get i = none :=
  ((hwf.mem_iff i).mp h).2

/-- What stands where after an allocation. -/
theorem get_alloc (p : PipeBuffer) (j : ℕ) :
    (t.alloc p).2.get j =
      if j = (t.alloc p).1 then some { p with pipeIdx := UInt32.ofNat (t.alloc p).1 }
      else t.get j := by
  rw [alloc]
  rcases hl : t.freeList with _ | ⟨i, rest⟩
  · exact get_place _ _ _ _
  · exact get_place _ _ _ _

/-- An allocation takes a free slot. -/
theorem get_alloc_fst (hwf : t.Wf) (p : PipeBuffer) : t.get (t.alloc p).1 = none := by
  rw [alloc]
  rcases hl : t.freeList with _ | ⟨i, rest⟩
  · exact get_eq_none_of_le le_rfl
  · exact get_of_mem_freeList hwf (by rw [hl]; exact List.mem_cons_self)

/-- An allocation adds the ends of the new pipe. -/
theorem ends_alloc (hwf : t.Wf) (p : PipeBuffer) (j : ℕ) (e : PipeEnd) : (t.alloc p).2.ends j e =
      t.ends j e + if j = (t.alloc p).1 then p.count e else 0 := by
  rw [ends, get_alloc]
  split_ifs with hj
  · rw [ends, hj, get_alloc_fst hwf]
    cases e <;> simp [PipeBuffer.count]
  · rw [ends, add_zero]

/-- Slots past the end of the vector are untouched by writing inside it. -/
theorem length_place (t : PipeTable) (i : ℕ) (p : PipeBuffer) :
    (t.place i p).pipes.slots.length = max t.pipes.slots.length (i + 1) := by
  simp only [place, put, List.length_set, List.length_append,
    List.length_replicate]
  omega

/-- Placing a pipe in a free slot, or in the next new one, when the slot leaves the free
list. -/
theorem Wf.place (hwf : t.Wf) {l : List ℕ} {i : ℕ} (p : PipeBuffer) (hnd : l.Nodup)
    (hi : i ≤ t.pipes.slots.length) (hmem : ∀ j, j ∈ l ↔ j ≠ i ∧ j ∈ t.freeList) :
    ({ t with freeList := l }.place i p).Wf := by
  refine ⟨hnd, fun j => ?_⟩
  have hlen := length_place { t with freeList := l } i p
  have hget := get_place { t with freeList := l } i p j
  have hfree : j ∈ l ↔ j ≠ i ∧ j < t.pipes.slots.length ∧ t.get j = none := by
    rw [hmem, hwf.mem_iff]
  rw [hlen, hget]
  refine hfree.trans ?_
  by_cases hj : j = i
  · simp [hj]
  rw [if_neg hj]
  simp only [ne_eq, hj, not_false_eq_true, true_and]
  exact and_congr_left fun _ => by omega

/-- It keeps the table well formed. -/
theorem Wf.alloc (hwf : t.Wf) (p : PipeBuffer) : (t.alloc p).2.Wf := by
  have hnd := hwf.nodup
  rw [PipeTable.alloc]
  rcases hl : t.freeList with _ | ⟨i, rest⟩
  · have h := hwf.place (l := t.freeList) p hnd le_rfl fun j => by simp [hl]
    exact h
  rw [hl, List.nodup_cons] at hnd
  have hi := (hwf.mem_iff i).mp (by rw [hl]; exact List.mem_cons_self)
  refine hwf.place p hnd.2 hi.1.le fun j => ?_
  rw [hl, List.mem_cons]
  constructor
  · intro hj
    exact ⟨fun h => hnd.1 (h ▸ hj), .inr hj⟩
  rintro ⟨hne, h | h⟩
  · exact absurd h hne
  · exact h

/-- So does a change of a pipe. -/
theorem Wf.modify (hwf : t.Wf) (i : ℕ) (f : PipeBuffer → PipeBuffer) : (t.modify i f).Wf := by
  refine ⟨hwf.nodup, fun j => ?_⟩
  rw [show (t.modify i f).freeList = t.freeList from rfl, hwf.mem_iff]
  simp only [PipeTable.modify, get, SlotTable.get_modify]
  simp only [SlotTable.modify, List.length_modify]
  split_ifs with hj
  · rw [hj, Option.map_eq_none_iff]
  · rfl

/-- So does freeing a closed one. -/
theorem Wf.freeIfClosed (hwf : t.Wf) (i : ℕ) : (t.freeIfClosed i).Wf := by
  rw [PipeTable.freeIfClosed]
  rcases hp : t.get i with _ | p
  · exact hwf
  simp only
  split
  · refine ⟨List.nodup_cons.mpr ⟨fun h => ?_, hwf.nodup⟩, fun j => ?_⟩
    · rw [get_of_mem_freeList hwf h] at hp
      cases hp
    rw [List.mem_cons, hwf.mem_iff, show (t.pipes.clear i).slots.length = t.pipes.slots.length from
      List.length_set ..]
    simp only [get, get_clear]
    by_cases hj : j = i
    · simp [hj, lt_of_get_eq_some hp]
    · simp [hj]
  · exact hwf

/-- So does dropping an end. -/
theorem Wf.dropEnd (hwf : t.Wf) (i : ℕ) (e : PipeEnd) : (t.dropEnd i e).Wf :=
  (hwf.modify i (PipeBuffer.closeEnd e)).freeIfClosed i

/-! ### Pairs -/

/-- The first two neighbours in a sorted list of slot numbers. -/
def adjacentPair : List ℕ → Option (ℕ × ℕ)
  | a :: b :: l => if b = a + 1 then some (a, b) else adjacentPair (b :: l)
  | _ => none

/-- Allocate two pipes in adjacent slots, from the free list if it has two neighbours. -/
def allocPair (t : PipeTable) (p q : PipeBuffer) : (ℕ × ℕ) × PipeTable :=
  match adjacentPair (t.freeList.insertionSort (· ≤ ·)) with
  | some (a, b) =>
    ((a, b),
      ({ t with freeList := t.freeList.filter fun x => x ≠ a ∧ x ≠ b }.place a p).place b q)
  | none =>
    ((t.pipes.slots.length, t.pipes.slots.length + 1),
      (t.place t.pipes.slots.length p).place (t.pipes.slots.length + 1) q)

/-- Two slots found are free and next to one another. -/
theorem adjacentPair_eq_some {l : List ℕ} {a b : ℕ} (h : adjacentPair l = some (a, b)) :
    a ∈ l ∧ b ∈ l ∧ b = a + 1 := by
  fun_induction adjacentPair l with
  | case1 c l =>
    cases h
    exact ⟨List.mem_cons_self, List.mem_cons_of_mem _ List.mem_cons_self, rfl⟩
  | case2 c d l _ ih =>
    obtain ⟨ha, hb, heq⟩ := ih h
    exact ⟨List.mem_cons_of_mem _ ha, List.mem_cons_of_mem _ hb, heq⟩
  | case3 => cases h

/-- **A pair** goes into two adjacent slots that were free, and the free list stays right. -/
theorem allocPair_spec (hwf : t.Wf) (p q : PipeBuffer) :
    ∃ i, (t.allocPair p q).1 = (i, i + 1) ∧ t.get i = none ∧ t.get (i + 1) = none ∧
      (t.allocPair p q).2.Wf ∧ ∀ j, (t.allocPair p q).2.get j =
        if j = i + 1 then some { q with pipeIdx := UInt32.ofNat (i + 1) }
        else if j = i then some { p with pipeIdx := UInt32.ofNat i } else t.get j := by
  rw [allocPair]
  rcases hpair : adjacentPair (t.freeList.insertionSort (· ≤ ·)) with _ | ⟨a, b⟩
  · refine ⟨_, rfl, get_eq_none_of_le le_rfl, get_eq_none_of_le (Nat.le_succ _),
      ?_, fun j => ?_⟩
    · have hfirst : (t.place t.pipes.slots.length p).Wf := hwf.place (l := t.freeList) p hwf.nodup
        le_rfl fun j => ⟨fun hj => ⟨((hwf.mem_iff j).mp hj).1.ne, hj⟩, And.right⟩
      refine hfirst.place (l := t.freeList) q hwf.nodup ?_ fun j =>
        ⟨fun hj => ⟨(Nat.lt_succ_of_lt ((hwf.mem_iff j).mp hj).1).ne, hj⟩, And.right⟩
      rw [length_place]
      exact le_max_right _ _
    · rw [get_place, get_place]
  obtain ⟨ha, hb, rfl⟩ := adjacentPair_eq_some hpair
  rw [List.mem_insertionSort] at ha hb
  have hfree := (hwf.mem_iff _).mp ha
  have hfree' := (hwf.mem_iff _).mp hb
  refine ⟨a, rfl, hfree.2, hfree'.2, ?_, fun j => ?_⟩
  · have hfirst := hwf.place (l := t.freeList.filter (· ≠ a)) p (hwf.nodup.filter _) hfree.1.le
      fun j => by simp [and_comm]
    refine hfirst.place (l := t.freeList.filter fun x => x ≠ a ∧ x ≠ a + 1) q (hwf.nodup.filter _)
      ?_ fun j => ?_
    · rw [length_place]
      exact le_max_of_le_left hfree'.1.le
    · show j ∈ _ ↔ j ≠ a + 1 ∧ j ∈ t.freeList.filter (· ≠ a)
      simp only [List.mem_filter, decide_eq_true_eq]
      tauto
  · rw [get_place, get_place]
    rfl

/-! ### Every sequence of calls -/

/-- The calls on the table, and what is done to a pipe in between, which leaves its number. -/
inductive Op
  | alloc (p : PipeBuffer)
  | allocPair (p q : PipeBuffer)
  | freeIfClosed (idx : ℕ)
  | edit (idx : ℕ) (f : PipeBuffer → PipeBuffer)

def apply (t : PipeTable) : Op → PipeTable
  | .alloc p => (t.alloc p).2
  | .allocPair p q => (t.allocPair p q).2
  | .freeIfClosed idx => t.freeIfClosed idx
  | .edit idx f => t.modify idx fun p => { f p with pipeIdx := p.pipeIdx }

/-- Every pipe carries the number of its slot, in 32 bits. -/
def Recorded (t : PipeTable) : Prop := ∀ i p, t.get i = some p → p.pipeIdx = UInt32.ofNat i

/-- Every operation keeps the table well formed and its indices recorded. -/
theorem sound_apply (hwf : t.Wf) (hrecorded : t.Recorded) (op : Op) :
    (t.apply op).Wf ∧ (t.apply op).Recorded := by
  cases op with
  | alloc p =>
    refine ⟨hwf.alloc p, fun j r hr => ?_⟩
    rw [apply, get_alloc] at hr
    split at hr
    next hj =>
      cases hr
      rw [hj]
    · exact hrecorded j r hr
  | allocPair p q =>
    obtain ⟨i, -, -, -, hwf', hget⟩ := allocPair_spec hwf p q
    refine ⟨hwf', fun j r hr => ?_⟩
    rw [apply, hget] at hr
    split_ifs at hr with hj hj
    · cases hr
      rw [hj]
    · cases hr
      rw [hj]
    · exact hrecorded j r hr
  | freeIfClosed i =>
    refine ⟨hwf.freeIfClosed i, fun j r hr => hrecorded j r ?_⟩
    rw [apply, PipeTable.freeIfClosed] at hr
    split at hr
    · exact hr
    split at hr
    · exact get_of_get_clear hr
    · exact hr
  | edit i f =>
    refine ⟨hwf.modify i _, fun j r hr => ?_⟩
    rw [apply, PipeTable.modify, get, SlotTable.get_modify] at hr
    split at hr
    next hj =>
      obtain ⟨p, hp, rfl⟩ := Option.map_eq_some_iff.mp hr
      exact hj ▸ hrecorded i p hp
    · exact hrecorded j r hr

/-- **The pipe table.** After every sequence of calls the free list names every free slot, once,
and every pipe carries the number of its slot. An allocation takes a slot that was free and leaves
the others alone; a pair takes two that are adjacent. -/
theorem pipeTable_run (ops : List Op) :
    let t := ops.foldl apply new
    t.Wf ∧ t.Recorded ∧
      (∀ p, t.get (t.alloc p).1 = none ∧
        ∀ j ≠ (t.alloc p).1, (t.alloc p).2.get j = t.get j) ∧
      ∀ p q, ∃ i, (t.allocPair p q).1 = (i, i + 1) ∧ t.get i = none ∧ t.get (i + 1) = none ∧
        ∀ j, j ≠ i → j ≠ i + 1 → (t.allocPair p q).2.get j = t.get j := by
  intro t
  obtain ⟨hwf, hrecorded⟩ : t.Wf ∧ t.Recorded := by
    refine List.foldlRecOn (motive := fun t => t.Wf ∧ t.Recorded) ops apply
      ⟨wf_new, fun i p hp => ?_⟩ fun t h op _ => sound_apply h.1 h.2 op
    cases hp
  refine ⟨hwf, hrecorded, fun p => ⟨get_alloc_fst hwf p, fun j hj => ?_⟩, fun p q => ?_⟩
  · rw [get_alloc, if_neg hj]
  · obtain ⟨i, heq, hi, hi', -, hget⟩ := allocPair_spec hwf p q
    exact ⟨i, heq, hi, hi', fun j hj hj' => by rw [hget, if_neg hj', if_neg hj]⟩

end PipeTable

end PosixKernel
