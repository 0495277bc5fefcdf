import Mathlib.Data.List.Nodup
import Mathlib.Data.List.Perm.Basic
import Mathlib.Data.List.Range
import Mathlib.Logic.Function.Basic

/-!
# Arrays with Swap Removal

An array of rows of which the first `count` are in use. A row is removed by putting the last
one in its place, so removal does not keep the order; a sweep that removes rows while it
scans looks again at the place it has just filled. What is left is a permutation of the rows
that the sweep keeps.

## Main results

* `SwapArray.toList_push` — appending a row;
* `SwapArray.sweep_perm` — a sweep is a filter, up to the order;
* `SwapRemove.perm_swapRemove`, `SwapRemove.find?_swapRemove` — the same removal on a list,
  and what is found by key afterwards.
-/

/-- Rows, of which the first `count` are in use. -/
structure SwapArray (α : Type*) where
  rows : ℕ → α
  count : ℕ

namespace SwapArray

variable {α : Type*}

/-- The rows in use. -/
def toList (t : SwapArray α) : List α := (List.range t.count).map t.rows

/-- Append a row. -/
def push (t : SwapArray α) (x : α) : SwapArray α :=
  ⟨Function.update t.rows t.count x, t.count + 1⟩

/-- Remove a row by putting the last one in its place. -/
def remove (t : SwapArray α) (i : ℕ) : SwapArray α :=
  if i < t.count - 1 then ⟨Function.update t.rows i (t.rows (t.count - 1)), t.count - 1⟩
  else { t with count := t.count - 1 }

/-- Remove the rows that satisfy `p`, from row `i` on, in at most that many rounds. -/
def sweepFrom (p : α → Bool) : ℕ → SwapArray α → ℕ → SwapArray α
  | 0, t, _ => t
  | n + 1, t, i =>
    if i < t.count then
      if p (t.rows i) then sweepFrom p n (t.remove i) i else sweepFrom p n t (i + 1)
    else t

/-- Remove the rows that satisfy `p`. -/
def sweep (p : α → Bool) (t : SwapArray α) : SwapArray α := sweepFrom p t.count t 0

variable {p : α → Bool} {t : SwapArray α} {i : ℕ}

/-- One row less. -/
@[simp] theorem count_remove (t : SwapArray α) (i : ℕ) : (t.remove i).count = t.count - 1 := by
  rw [remove]
  split <;> rfl

/-! ### The rows in use -/

/-- As many elements as rows. -/
@[simp] theorem length_toList (t : SwapArray α) : t.toList.length = t.count := by
  rw [toList, List.length_map, List.length_range]

/-- The elements are the rows in use. -/
theorem mem_toList {x : α} : x ∈ t.toList ↔ ∃ i < t.count, t.rows i = x := by
  simp [toList]

/-- A new row is the last. -/
theorem toList_push (t : SwapArray α) (x : α) : (t.push x).toList = t.toList ++ [x] := by
  rw [toList, push, List.range_succ, List.map_append, toList]
  have hold : (List.range t.count).map (Function.update t.rows t.count x) =
      (List.range t.count).map t.rows := by
    refine List.map_congr_left fun j hj => Function.update_of_ne ?_ _ _
    exact (List.mem_range.mp hj).ne
  have hnew : (List.map (Function.update t.rows t.count x) [t.count]) = [x] := by
    rw [List.map_singleton, Function.update_self]
  exact congrArg₂ (· ++ ·) hold hnew

/-- The rows from one on. -/
theorem drop_toList (t : SwapArray α) (i : ℕ) :
    t.toList.drop i = (List.range' i (t.count - i)).map t.rows := by
  rw [toList, ← List.map_drop, List.range_eq_range', List.drop_range', Nat.zero_add, Nat.mul_one]

/-- The rows before it. -/
theorem take_toList (h : i ≤ t.count) : t.toList.take i = (List.range i).map t.rows := by
  rw [toList, ← List.map_take, List.take_range, min_eq_left h]

/-- A removal leaves the rows before it. -/
theorem take_remove (h : i < t.count) : (t.remove i).toList.take i = t.toList.take i := by
  rw [take_toList (by rw [count_remove]; omega), take_toList h.le, remove]
  split
  · refine List.map_congr_left fun j hj => Function.update_of_ne ?_ _ _
    exact (List.mem_range.mp hj).ne
  · rfl

/-- And the rows after it, in another order. -/
theorem drop_remove (h : i < t.count) :
    ((t.remove i).toList.drop i).Perm (t.toList.drop (i + 1)) := by
  rw [drop_toList, drop_toList, count_remove, remove]
  split
  · rename_i hlt
    obtain ⟨n, hn⟩ : ∃ n, t.count = i + 2 + n := ⟨t.count - (i + 2), by omega⟩
    have hlen : t.count - 1 - i = n + 1 := by omega
    have hlen' : t.count - (i + 1) = n + 1 := by omega
    have hlast : i + 1 + 1 * n = t.count - 1 := by omega
    have hrest : (List.range' (i + 1) n).map
        (Function.update t.rows i (t.rows (t.count - 1))) = (List.range' (i + 1) n).map t.rows := by
      refine List.map_congr_left fun j hj => Function.update_of_ne ?_ _ _
      have := List.mem_range'_1.mp hj
      omega
    have hfirst : Function.update t.rows i (t.rows (t.count - 1)) i = t.rows (t.count - 1) :=
      Function.update_self _ _ _
    show ((List.range' i (t.count - 1 - i)).map
      (Function.update t.rows i (t.rows (t.count - 1)))).Perm _
    rw [hlen, hlen', List.range'_succ, List.map_cons, hfirst, hrest, List.range'_concat,
      List.map_append, List.map_singleton, hlast]
    exact (List.perm_append_singleton _ _).symm
  have hzero : t.count - 1 - i = 0 := by omega
  have hzero' : t.count - (i + 1) = 0 := by omega
  rw [hzero, hzero']
  rfl

/-- **A sweep is a filter**, up to the order. -/
theorem sweepFrom_perm {n : ℕ} (hi : i ≤ t.count) (hn : t.count - i ≤ n) :
    (sweepFrom p n t i).toList.Perm
      (t.toList.take i ++ (t.toList.drop i).filter fun x => !p x) := by
  induction n generalizing t i with
  | zero =>
    have hdone : t.toList.drop i = [] := by
      rw [List.drop_eq_nil_iff, length_toList]
      omega
    rw [hdone, List.filter_nil, List.append_nil, List.take_of_length_le]
    · rfl
    · rw [length_toList]
      omega
  | succ n ih =>
    rw [sweepFrom]
    by_cases hlt : i < t.count
    · have hcons : t.toList.drop i = t.rows i :: t.toList.drop (i + 1) := by
        rw [drop_toList, drop_toList]
        have hlen : t.count - i = (t.count - (i + 1)) + 1 := by omega
        rw [hlen, List.range'_succ, List.map_cons]
      rw [if_pos hlt, hcons, List.filter_cons]
      by_cases hp : p (t.rows i) = true
      · -- the last row has come to this place, which is scanned again
        rw [if_pos hp, if_neg (by rw [hp]; decide), ← take_remove hlt]
        refine (ih (by rw [count_remove]; omega) (by rw [count_remove]; omega)).trans ?_
        exact ((drop_remove hlt).filter _).append_left _
      rw [if_neg hp, if_pos (by simpa using hp)]
      refine (ih (by omega) (by omega)).trans ?_
      have htake : t.toList.take (i + 1) = t.toList.take i ++ [t.rows i] := by
        rw [take_toList (by omega), take_toList hlt.le, List.range_succ, List.map_append]
        rfl
      rw [htake, List.append_assoc]
      rfl
    have hdone : t.toList.drop i = [] := by
      rw [List.drop_eq_nil_iff, length_toList]
      omega
    rw [if_neg hlt, hdone, List.filter_nil, List.append_nil, List.take_of_length_le]
    · rw [length_toList]
      omega

/-- A sweep removes all that match. -/
theorem sweep_perm (p : α → Bool) (t : SwapArray α) :
    (t.sweep p).toList.Perm (t.toList.filter fun x => !p x) := by
  have hsweep := sweepFrom_perm (p := p) (Nat.zero_le t.count) (Nat.sub_le t.count 0)
  rwa [List.take_zero, List.drop_zero, List.nil_append] at hsweep

/-- It adds no row. -/
theorem count_sweep_le (p : α → Bool) (t : SwapArray α) : (t.sweep p).count ≤ t.count := by
  rw [← length_toList, ← length_toList, (sweep_perm p t).length_eq]
  exact List.length_filter_le _ _

end SwapArray

/-! ### Lists -/

namespace SwapRemove

variable {α κ : Type*} {l l' : List α} {i : ℕ} {x last : α}

/-- Putting the last element in the place of another leaves that one out. -/
theorem perm_swapRemove (hx : l[i]? = some x) (hlast : l.getLast? = some last) :
    (x :: (l.set i last).dropLast).Perm l := by
  obtain ⟨m, rfl⟩ := List.getLast?_eq_some_iff.mp hlast
  obtain ⟨hi, hget⟩ := List.getElem?_eq_some_iff.mp hx
  rw [List.length_append, List.length_singleton] at hi
  rcases Nat.lt_or_ge i m.length with hlt | hge
  · have hxm : m[i] = x := by rwa [List.getElem_append_left hlt] at hget
    have hsplit : m = m.take i ++ x :: m.drop (i + 1) := by
      rw [← hxm, List.getElem_cons_drop, List.take_append_drop]
    rw [List.set_append_left _ _ hlt, List.dropLast_concat, List.set_eq_take_append_cons_drop,
      if_pos hlt]
    calc List.Perm (x :: (m.take i ++ last :: m.drop (i + 1)))
          (x :: (m.take i ++ (m.drop (i + 1) ++ [last]))) :=
          .cons x (.append_left _ (List.perm_append_singleton last _).symm)
      List.Perm _ (m.take i ++ x :: (m.drop (i + 1) ++ [last])) := List.perm_middle.symm
      _ = m.take i ++ x :: m.drop (i + 1) ++ [last] := by simp
      _ = m ++ [last] := by rw [← hsplit]
  have heq : i = m.length := by omega
  subst heq
  rw [List.getElem_concat_length rfl] at hget
  subst hget
  rw [List.set_append_right _ _ le_rfl, Nat.sub_self, List.set_cons_zero, List.dropLast_concat]
  exact (List.perm_append_singleton _ m).symm

/-- What is found by key when no two elements have the same. -/
theorem find?_key_iff [DecidableEq κ] {key : α → κ} (h : (l.map key).Nodup) {k : κ} {y : α} :
    l.find? (fun z => key z = k) = some y ↔ y ∈ l ∧ key y = k := by
  constructor
  · intro hfind
    exact ⟨List.mem_of_find?_eq_some hfind, by simpa using List.find?_some hfind⟩
  rintro ⟨hy, rfl⟩
  have hsome : (l.find? fun z => key z = key y).isSome = true :=
    List.find?_isSome.mpr ⟨y, hy, decide_eq_true rfl⟩
  obtain ⟨z, hz⟩ := Option.isSome_iff_exists.mp hsome
  have hkey : key z = key y := by simpa using List.find?_some hz
  rw [hz, List.inj_on_of_nodup_map h (List.mem_of_find?_eq_some hz) hy hkey]

/-- Leaving an element out does not change what other keys find, whatever the order. -/
theorem find?_swapRemove [DecidableEq κ] {key : α → κ} (h : (l.map key).Nodup)
    (hperm : (x :: l').Perm l) {k : κ} (hk : k ≠ key x) :
    l'.find? (fun z => key z = k) = l.find? fun z => key z = k := by
  have hnodup : (l'.map key).Nodup := ((hperm.map key).nodup_iff.mpr h).of_cons
  refine Option.ext fun y => ?_
  rw [find?_key_iff hnodup, find?_key_iff h, ← hperm.mem_iff, List.mem_cons]
  refine ⟨fun hy => ⟨.inr hy.1, hy.2⟩, fun hy => ⟨hy.1.resolve_left ?_, hy.2⟩⟩
  rintro rfl
  exact hk hy.2.symm

end SwapRemove
