import Mathlib.Data.List.Range
import Mathlib.Data.List.Count

/-!
# Sets of Numbers in a Machine Word

A 64-bit word as the set of the positions of its bits: membership under the bitwise
operations, the lowest member, and the number of members.

## Main results

* `BitSet.eq_zero_iff` — a word is zero when it has no member;
* `BitSet.trailingZeros_spec` — the number of trailing zeros is the lowest member;
* `BitSet.card_lt_card` — a proper subset has fewer members.
-/

namespace BitSet

/-- Whether bit `i` is set. -/
def mem (x : UInt64) (i : ℕ) : Bool := x.toBitVec.getLsbD i

/-- The number of trailing zeros of a word; 64 for zero. -/
def trailingZeros (x : UInt64) : ℕ := ((List.range 64).find? (mem x)).getD 64

/-- The number of bits that are set. -/
def card (x : UInt64) : ℕ := (List.range 64).countP (mem x)

variable {x y : UInt64} {i : ℕ}

@[simp] theorem mem_zero (i : ℕ) : mem 0 i = false := BitVec.getLsbD_zero

@[simp] theorem mem_and (x y : UInt64) (i : ℕ) : mem (x &&& y) i = (mem x i && mem y i) := by
  rw [mem, UInt64.toBitVec_and, BitVec.getLsbD_and]
  rfl

@[simp] theorem mem_or (x y : UInt64) (i : ℕ) : mem (x ||| y) i = (mem x i || mem y i) := by
  rw [mem, UInt64.toBitVec_or, BitVec.getLsbD_or]
  rfl

@[simp] theorem mem_not (x : UInt64) (i : ℕ) : mem (~~~x) i = (decide (i < 64) && !mem x i) := by
  rw [mem, UInt64.toBitVec_not, BitVec.getLsbD_not]
  rfl

theorem lt_of_mem (h : mem x i = true) : i < 64 := BitVec.lt_of_getLsbD h

theorem mem_one_shiftLeft (hi : i < 64) (j : ℕ) :
    mem (1 <<< UInt64.ofNat i) j = decide (j = i) := by
  have hshift : (UInt64.ofNat i).toBitVec % 64 = BitVec.ofNat 64 i := by
    apply BitVec.eq_of_toNat_eq
    rw [UInt64.toBitVec_ofNat', BitVec.toNat_umod, BitVec.toNat_ofNat,
      show (64 : BitVec 64).toNat = 64 from rfl]
    omega
  rw [mem, UInt64.toBitVec_shiftLeft, hshift, BitVec.shiftLeft_eq', BitVec.toNat_ofNat,
    Nat.mod_eq_of_lt (by omega), BitVec.getLsbD_shiftLeft]
  by_cases hj : j = i
  · subst hj
    simp [hi]
  have hbit : (1 : UInt64).toBitVec.getLsbD (j - i) = decide (j - i = 0) :=
    BitVec.getLsbD_one.trans (by simp)
  rw [hbit]
  simp only [hj, decide_false, Bool.and_eq_false_imp, Bool.and_eq_true, decide_eq_true_eq,
    Bool.not_eq_true', decide_eq_false_iff_not]
  omega

theorem ext (h : ∀ i < 64, mem x i = mem y i) : x = y :=
  UInt64.toBitVec_inj.mp (BitVec.eq_of_getLsbD_eq h)

theorem eq_zero_iff : x = 0 ↔ ∀ i, mem x i = false :=
  ⟨fun h i => by rw [h, mem_zero], fun h => ext fun i _ => by rw [h i, mem_zero]⟩

/-- **The lowest member**: the number of trailing zeros of a word that is not zero. -/
theorem trailingZeros_spec (hx : x ≠ 0) :
    mem x (trailingZeros x) = true ∧ ∀ j < trailingZeros x, mem x j = false := by
  have hsome : ((List.range 64).find? (mem x)).isSome = true := by
    rw [List.find?_isSome]
    by_contra hnone
    refine hx (eq_zero_iff.mpr fun i => Bool.eq_false_iff.mpr fun hi => hnone ⟨i, ?_, hi⟩)
    exact List.mem_range.mpr (lt_of_mem hi)
  obtain ⟨i, hi⟩ := Option.isSome_iff_exists.mp hsome
  have hzeros : trailingZeros x = i := by rw [trailingZeros, hi, Option.getD_some]
  obtain ⟨hmem, -, hlow⟩ := List.find?_range_eq_some.mp hi
  rw [hzeros]
  exact ⟨hmem, fun j hj => by simpa using hlow j hj⟩

theorem card_lt_card (hsub : ∀ i, mem x i = true → mem y i = true) (hy : mem y i = true)
    (hx : mem x i = false) : card x < card y := by
  have hi : i ∈ List.range 64 := List.mem_range.mpr (lt_of_mem hy)
  obtain ⟨as, bs, hsplit⟩ := List.append_of_mem hi
  have hmono : ∀ l : List ℕ, l.countP (mem x) ≤ l.countP (mem y) := fun l =>
    List.countP_mono_left fun j _ => hsub j
  rw [card, card, hsplit, List.countP_append, List.countP_append, List.countP_cons_of_pos hy,
    List.countP_cons_of_neg (by simp [hx])]
  have has := hmono as
  have hbs := hmono bs
  omega

end BitSet
