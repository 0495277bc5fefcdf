import Mathlib.Data.List.GetD

/-!
# Blocks of a Memory

A memory is a function from addresses to cells. Blocks of it are loaded as lists and stored
from lists.

## Main results

* `ByteMemory.load_store` — a block that was just stored;
* `ByteMemory.load_store_of_disjoint` — a block elsewhere;
* `ByteMemory.load_eq_iff` — blocks are compared cell by cell.
-/

namespace ByteMemory

variable {α : Type*}

/-- The block of `n` cells at `a`. -/
def load (m : ℕ → α) (a n : ℕ) : List α := (List.range n).map fun i => m (a + i)

/-- A memory with a block stored at `a`. -/
def store (m : ℕ → α) (a : ℕ) (xs : List α) : ℕ → α := fun i =>
  if a ≤ i then xs.getD (i - a) (m i) else m i

variable {m m' : ℕ → α} {a b n : ℕ} {xs : List α}

@[simp] theorem length_load (m : ℕ → α) (a n : ℕ) : (load m a n).length = n := by
  rw [load, List.length_map, List.length_range]

theorem getElem_load (m : ℕ → α) (a n : ℕ) {i : ℕ} (h : i < (load m a n).length) :
    (load m a n)[i] = m (a + i) := by
  simp [load]

theorem load_eq_iff : load m a n = load m' b n ↔ ∀ i < n, m (a + i) = m' (b + i) := by
  constructor
  · intro h i hi
    have hi' : i < (load m a n).length := by rwa [length_load]
    rw [← getElem_load m a n hi', ← getElem_load m' b n (by rwa [length_load])]
    simp [h]
  · intro h
    refine List.map_congr_left fun i hi => h i (List.mem_range.mp hi)

theorem store_of_mem (m : ℕ → α) (a : ℕ) {xs : List α} {i : ℕ} (h : i < xs.length) :
    store m a xs (a + i) = xs[i] := by
  rw [store, if_pos (Nat.le_add_right a i), Nat.add_sub_cancel_left,
    List.getD_eq_getElem _ _ h]

theorem store_of_not_mem (h : b < a ∨ a + xs.length ≤ b) : store m a xs b = m b := by
  rw [store]
  split
  next hle => exact List.getD_eq_default _ _ (by omega)
  next => rfl

/-- **A block that was just stored.** -/
theorem load_store (m : ℕ → α) (a : ℕ) (xs : List α) : load (store m a xs) a xs.length = xs := by
  refine List.ext_getElem (length_load _ _ _) fun i hi hi' => ?_
  rw [getElem_load, store_of_mem m a hi']

/-- **A block elsewhere.** -/
theorem load_store_of_disjoint (h : b + n ≤ a ∨ a + xs.length ≤ b) :
    load (store m a xs) b n = load m b n :=
  load_eq_iff.mpr fun i hi => store_of_not_mem (by omega)

end ByteMemory
