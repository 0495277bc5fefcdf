import PosixKernel.Lib.RingBuffer
import PosixKernel.Pipe

/-!
# The Bytes in a Pipe

Writing to a pipe, reading from it and looking into it (`pipe.rs`). The bytes lie in a ring from
the head on; seen from outside a pipe is a queue.

## Main results

* `PipeBuffer.contents_write` — what a write took is appended;
* `PipeBuffer.peek_eq`, `PipeBuffer.contents_read` — a read returns the front, and takes it out.
-/

namespace PosixKernel

namespace PipeBuffer

def capacity (p : PipeBuffer) : ℕ := p.buf.length

def freeSpace (p : PipeBuffer) : ℕ := p.capacity - p.len

def isReadEndOpen (p : PipeBuffer) : Bool := 0 < p.readCount

def isWriteEndOpen (p : PipeBuffer) : Bool := 0 < p.writeCount

/-- Write as much as there is room for. -/
def write (p : PipeBuffer) (data : Bytes) : ℕ × PipeBuffer :=
  let n := min data.length p.freeSpace
  if n = 0 then (0, p)
  else
    (n,
      { p with
        buf := RingBuffer.write p.buf p.tail (data.take n)
        tail := (p.tail + n) % p.capacity
        len := p.len + n })

/-- Look at the bytes that a read into a buffer of this length would return. -/
def peek (p : PipeBuffer) (bufLen : ℕ) : Bytes :=
  let n := min bufLen p.len
  if n = 0 then [] else RingBuffer.read p.buf p.head n

/-- Read into a buffer of this length. -/
def read (p : PipeBuffer) (bufLen : ℕ) : Bytes × PipeBuffer :=
  let n := min bufLen p.len
  if n = 0 then ([], p)
  else
    (RingBuffer.read p.buf p.head n,
      { p with head := (p.head + n) % p.capacity, len := p.len - n })

/-- The bytes in a pipe, the oldest first. -/
def contents (p : PipeBuffer) : Bytes := RingBuffer.contents p.buf p.head p.len

/-- The head is inside, and the tail lies as far behind it as there are bytes. -/
structure Sound (p : PipeBuffer) : Prop where
  head_lt : p.head < p.capacity
  len_le : p.len ≤ p.capacity
  tail_eq : p.tail = (p.head + p.len) % p.capacity

variable {p : PipeBuffer}

/-- A pipe holds as much as its length says. -/
@[simp] theorem length_contents (p : PipeBuffer) : p.contents.length = p.len :=
  RingBuffer.length_contents _ _ _

/-- A new pipe is sound. -/
theorem sound_new {capacity : ℕ} (h : 0 < capacity) : (new capacity).Sound where
  head_lt := by simpa [new, PipeBuffer.capacity] using h
  len_le := Nat.zero_le _
  tail_eq := by simp [new]

/-- It stays so when an end closes. -/
theorem Sound.closeEnd (h : p.Sound) (e : PipeEnd) : (p.closeEnd e).Sound := by
  cases e <;> exact ⟨h.head_lt, h.len_le, h.tail_eq⟩

/-! ### Writes -/

/-- A write takes what there is room for. -/
theorem write_fst (p : PipeBuffer) (data : Bytes) :
    (p.write data).1 = min data.length p.freeSpace := by
  simp only [write]
  split
  next hzero => exact hzero.symm
  next => rfl

variable (h : p.Sound)

include h

/-- The tail is within the buffer. -/
theorem Sound.tail_lt : p.tail < p.capacity := by
  rw [h.tail_eq]
  exact Nat.mod_lt _ (Nat.zero_lt_of_lt h.head_lt)

/-- A write leaves the capacity of the buffer. -/
theorem Sound.length_write {data : Bytes} (hroom : data.length ≤ p.freeSpace) :
    (RingBuffer.write p.buf p.tail data).length = p.capacity :=
  RingBuffer.length_write h.tail_lt (hroom.trans (Nat.sub_le _ _))

/-- A write keeps a pipe sound. -/
theorem Sound.write (data : Bytes) : (p.write data).2.Sound := by
  simp only [PipeBuffer.write]
  split
  · exact h
  next hpos =>
    have htaken : (data.take (min data.length p.freeSpace)).length ≤ p.freeSpace := by
      rw [List.length_take]
      omega
    have hcap := h.length_write htaken
    have hlen := h.len_le
    refine ⟨?_, ?_, ?_⟩
    · simpa only [capacity, hcap] using h.head_lt
    · simp only [capacity, freeSpace] at hcap htaken hlen ⊢
      omega
    · simp only [capacity] at hcap ⊢
      rw [hcap, h.tail_eq, capacity, Nat.mod_add_mod, Nat.add_assoc]

/-- It leaves the capacity. -/
theorem Sound.capacity_write (data : Bytes) : (p.write data).2.capacity = p.capacity := by
  simp only [PipeBuffer.write]
  split
  · rfl
  · exact h.length_write (by rw [List.length_take]; omega)

/-- **A write appends** what it has taken. -/
theorem contents_write (data : Bytes) :
    (p.write data).2.contents = p.contents ++ data.take (p.write data).1 := by
  simp only [write]
  split
  · rw [List.take_zero, List.append_nil]
  next hpos =>
    have hlen : (data.take (min data.length p.freeSpace)).length =
        min data.length p.freeSpace := by
      rw [List.length_take]
      omega
    have hroom : p.len + (data.take (min data.length p.freeSpace)).length ≤ p.buf.length := by
      have := h.len_le
      rw [hlen]
      simp only [freeSpace, capacity] at this ⊢
      omega
    have happend := RingBuffer.contents_write h.head_lt hroom
    rw [hlen] at happend
    simp only [contents, h.tail_eq]
    exact happend

/-! ### Reads -/

/-- **Looking into a pipe** shows the front. -/
theorem peek_eq (n : ℕ) : p.peek n = p.contents.take n := by
  have hread : RingBuffer.read p.buf p.head (min n p.len) = p.contents.take n := by
    rw [RingBuffer.read_eq h.head_lt ((Nat.min_le_right _ _).trans h.len_le), contents,
      ← RingBuffer.take_contents (Nat.min_le_right n p.len)]
    rw [List.take_eq_take_iff, RingBuffer.length_contents]
    omega
  simp only [peek]
  split
  next hzero => rw [← hread, hzero, RingBuffer.read_eq h.head_lt (Nat.zero_le _)]; rfl
  next => exact hread

omit h

/-- A read returns what a peek does. -/
theorem read_fst (p : PipeBuffer) (n : ℕ) : (p.read n).1 = p.peek n := by
  simp only [read, peek]
  split
  · rfl
  · rfl

/-- A read keeps a pipe sound. -/
theorem Sound.read (h : p.Sound) (n : ℕ) : (p.read n).2.Sound := by
  simp only [PipeBuffer.read]
  split
  · exact h
  next hpos =>
    refine ⟨Nat.mod_lt _ (Nat.zero_lt_of_lt h.head_lt), (Nat.sub_le _ _).trans h.len_le, ?_⟩
    show p.tail = ((p.head + min n p.len) % p.capacity + (p.len - min n p.len)) % p.capacity
    rw [h.tail_eq, Nat.mod_add_mod]
    congr 1
    omega

/-- It leaves the capacity. -/
theorem capacity_read (p : PipeBuffer) (n : ℕ) : (p.read n).2.capacity = p.capacity := by
  simp only [read]
  split <;> rfl

/-- **A read takes the front out.** -/
theorem contents_read (p : PipeBuffer) (n : ℕ) : (p.read n).2.contents = p.contents.drop n := by
  have hdrop : p.contents.drop n = p.contents.drop (min n p.len) := by
    rw [List.drop_eq_drop_iff, length_contents]
    omega
  simp only [read]
  split
  next hzero => rw [hdrop, hzero, List.drop_zero]
  next => rw [hdrop]; exact (RingBuffer.drop_contents _ _ _ _).symm

end PipeBuffer

end PosixKernel
