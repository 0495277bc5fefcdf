import Mathlib.Data.List.GetD
import Mathlib.Tactic.Ring

/-!
# Ring Buffers

A list of fixed length is written and read around its end. Seen from the head it is a queue: a
write appends, and a read takes from the front.

## Main results

* `RingBuffer.contents_write` — a write behind the contents appends;
* `RingBuffer.read_eq` — a read returns the front;
* `RingBuffer.drop_contents` — what is left once the head has moved on.
-/

namespace RingBuffer

variable {α : Type*}

/-- Overwrite the cells from an index on. -/
def blit (buf : List α) (i : ℕ) (data : List α) : List α :=
  buf.take i ++ data ++ buf.drop (i + data.length)

/-- Write around the end, in one piece or two. -/
def write (buf : List α) (tail : ℕ) (data : List α) : List α :=
  let first := buf.length - tail
  if data.length ≤ first then blit buf tail data
  else blit (blit buf tail (data.take first)) 0 (data.drop first)

/-- Read around the end, in one piece or two. -/
def read (buf : List α) (head n : ℕ) : List α :=
  let first := buf.length - head
  if n ≤ first then (buf.drop head).take n
  else (buf.drop head).take first ++ buf.take (n - first)

variable {buf data : List α} {head tail len n : ℕ}

/-- Copying keeps the length. -/
theorem length_blit {i : ℕ} (h : i + data.length ≤ buf.length) :
    (blit buf i data).length = buf.length := by
  simp only [blit, List.length_append, List.length_take, List.length_drop]
  omega

/-- So does writing. -/
theorem length_write (htail : tail < buf.length) (hdata : data.length ≤ buf.length) :
    (write buf tail data).length = buf.length := by
  rw [write]
  split
  next hfits => exact length_blit (by omega)
  next hwraps =>
    have hfirst : (blit buf tail (data.take (buf.length - tail))).length = buf.length :=
      length_blit (by rw [List.length_take]; omega)
    rw [length_blit (by rw [hfirst, List.length_drop]; omega), hfirst]

/-! ### The contents -/

variable [Inhabited α]

/-- The cell at an index, counted around the end. -/
def cell (buf : List α) (i : ℕ) : α := buf.getD (i % buf.length) default

/-- The `len` cells from the head on. -/
def contents (buf : List α) (head len : ℕ) : List α :=
  (List.range len).map fun i => cell buf (head + i)

/-- The contents have the length asked for. -/
@[simp] theorem length_contents (buf : List α) (head len : ℕ) :
    (contents buf head len).length = len := by
  rw [contents, List.length_map, List.length_range]

/-- They are read around the end. -/
theorem getElem_contents {i : ℕ} (h : i < (contents buf head len).length) :
    (contents buf head len)[i] = cell buf (head + i) := by
  simp [contents]

/-- Cells are counted around the end. -/
theorem cell_congr {i j : ℕ} (h : i % buf.length = j % buf.length) : cell buf i = cell buf j := by
  rw [cell, cell, h]

/-- Within the buffer they are its elements. -/
theorem cell_of_lt {i : ℕ} (h : i < buf.length) : cell buf i = buf[i] := by
  rw [cell, Nat.mod_eq_of_lt h, List.getD_eq_getElem _ _ h]

/-- Once around is the same cell. -/
theorem cell_add_length (buf : List α) (i : ℕ) : cell buf (i + buf.length) = cell buf i :=
  cell_congr (Nat.add_mod_right _ _)

/-! ### Writes -/

/-- The cells after copying. -/
theorem cell_blit {i j : ℕ} (h : i + data.length ≤ buf.length) (hj : j < buf.length) :
    cell (blit buf i data) j = if i ≤ j then data.getD (j - i) (cell buf j) else cell buf j := by
  have hj' : j < (blit buf i data).length := by rwa [length_blit h]
  have htake : (buf.take i).length = i := by
    rw [List.length_take]
    omega
  rw [cell_of_lt hj', cell_of_lt hj]
  simp only [blit, List.append_assoc, List.getElem_append, htake]
  by_cases hi : j < i
  · rw [dif_pos hi, if_neg (by omega), List.getElem_take]
  rw [dif_neg hi, if_pos (by omega)]
  by_cases hd : j - i < data.length
  · rw [dif_pos hd, List.getD_eq_getElem _ _ hd]
  rw [dif_neg hd, List.getD_eq_default _ _ (by omega), List.getElem_drop]
  congr 1
  omega

/-- The cells after writing. -/
theorem cell_write (htail : tail < buf.length) (hdata : data.length ≤ buf.length) {d : ℕ}
    (hd : d < buf.length) :
    cell (write buf tail data) (tail + d) = data.getD d (cell buf (tail + d)) := by
  -- an index beyond the end is one at the start
  obtain ⟨j, hj, hmod⟩ : ∃ j, j < buf.length ∧ (j = tail + d ∨ j + buf.length = tail + d) := by
    by_cases h : tail + d < buf.length
    · exact ⟨tail + d, h, .inl rfl⟩
    · exact ⟨tail + d - buf.length, by omega, .inr (by omega)⟩
  have hcell : ∀ b : List α, b.length = buf.length → cell b (tail + d) = cell b j := by
    intro b hb
    rcases hmod with rfl | hmod
    · rfl
    · rw [← hmod, ← hb, cell_add_length]
  rw [hcell _ (length_write htail hdata), hcell _ rfl, write]
  split
  next hfits =>
    rw [cell_blit (by omega) hj]
    rcases hmod with rfl | hmod
    · rw [if_pos (by omega), Nat.add_sub_cancel_left]
    · rw [if_neg (by omega), List.getD_eq_default _ _ (by omega)]
  next hwraps =>
    have hlen : (data.take (buf.length - tail)).length = buf.length - tail := by
      rw [List.length_take]
      omega
    have hfirst : (blit buf tail (data.take (buf.length - tail))).length = buf.length :=
      length_blit (by omega)
    rw [cell_blit (by rw [hfirst, List.length_drop]; omega) (by rwa [hfirst]),
      if_pos (Nat.zero_le j), Nat.sub_zero, cell_blit (by omega) hj]
    simp only [List.getD_eq_getElem?_getD, List.getElem?_drop, List.getElem?_take]
    rcases hmod with rfl | hmod
    · rw [if_pos (by omega), Nat.add_sub_cancel_left, if_pos (by omega),
        List.getElem?_eq_none (by omega), Option.getD_none]
    rw [if_neg (by omega)]
    congr 2
    omega

/-- **A write behind the contents appends.** -/
theorem contents_write (hhead : head < buf.length) (hroom : len + data.length ≤ buf.length) :
    contents (write buf ((head + len) % buf.length) data) head (len + data.length) =
      contents buf head len ++ data := by
  have hpos : 0 < buf.length := by omega
  have htail : (head + len) % buf.length < buf.length := Nat.mod_lt _ hpos
  refine List.ext_getElem (by simp) fun i hi hi' => ?_
  rw [getElem_contents]
  rw [length_contents] at hi
  by_cases hold : i < len
  · rw [List.getElem_append_left (by simpa using hold), getElem_contents]
    -- the old contents lie behind what was written, once around
    have hback : ∀ b : List α, b.length = buf.length → cell b (head + i) =
        cell b ((head + len) % buf.length + (buf.length - len + i)) := by
      intro b hb
      refine cell_congr ?_
      rw [hb, Nat.mod_add_mod,
        show head + len + (buf.length - len + i) = head + i + buf.length by omega,
        Nat.add_mod_right]
    rw [hback _ (length_write htail (by omega)), hback _ rfl,
      cell_write htail (by omega) (by omega), List.getD_eq_default _ _ (by omega)]
  obtain ⟨d, rfl⟩ := Nat.exists_eq_add_of_le (not_lt.mp hold)
  have hd : d < data.length := by omega
  have hnew : cell (write buf ((head + len) % buf.length) data) (head + (len + d)) =
      cell (write buf ((head + len) % buf.length) data) ((head + len) % buf.length + d) := by
    refine cell_congr ?_
    rw [length_write htail (by omega), Nat.mod_add_mod, Nat.add_assoc]
  rw [hnew, cell_write htail (by omega) (by omega), List.getD_eq_getElem _ _ hd,
    List.getElem_append_right (by simp)]
  simp

/-! ### Reads -/

/-- **A read returns the front.** -/
theorem read_eq (hhead : head < buf.length) (hn : n ≤ buf.length) :
    read buf head n = contents buf head n := by
  have hlen : (read buf head n).length = n := by
    simp only [read]
    split
    · rw [List.length_take, List.length_drop]
      omega
    · rw [List.length_append, List.length_take, List.length_drop, List.length_take]
      omega
  refine List.ext_getElem (by rw [hlen, length_contents]) fun i hi hi' => ?_
  rw [getElem_contents]
  rw [hlen] at hi
  by_cases hwrap : head + i < buf.length
  · rw [cell_of_lt hwrap]
    simp only [read]
    split
    · rw [List.getElem_take, List.getElem_drop]
    · rw [List.getElem_append_left (by rw [List.length_take, List.length_drop]; omega),
        List.getElem_take, List.getElem_drop]
  have hback : cell buf (head + i) = cell buf (head + i - buf.length) := by
    rw [← cell_add_length buf (head + i - buf.length)]
    congr 1
    omega
  rw [hback, cell_of_lt (by omega)]
  simp only [read]
  split
  · omega
  rw [List.getElem_append_right (by rw [List.length_take, List.length_drop]; omega),
    List.getElem_take]
  congr 1
  rw [List.length_take, List.length_drop]
  omega

/-- The first of the contents. -/
theorem take_contents (h : n ≤ len) : (contents buf head len).take n = contents buf head n := by
  rw [contents, ← List.map_take, List.take_range, Nat.min_eq_left h, contents]

/-- **What is left** once the head has moved on. -/
theorem drop_contents (buf : List α) (head len n : ℕ) :
    (contents buf head len).drop n = contents buf ((head + n) % buf.length) (len - n) := by
  refine List.ext_getElem (by simp) fun i hi hi' => ?_
  rw [List.getElem_drop, getElem_contents, getElem_contents]
  refine cell_congr ?_
  rw [Nat.mod_add_mod, Nat.add_assoc]

end RingBuffer
