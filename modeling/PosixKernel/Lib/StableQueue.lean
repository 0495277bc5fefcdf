import Mathlib.Data.List.InsertIdx
import Mathlib.Data.List.Perm.Basic
import Mathlib.Order.Basic
import Mathlib.Tactic

/-!
# Stable Priority Queues

A queue that hands out elements of the highest priority first, and elements of one priority in
the order in which they came. The queue is a list: a new element goes before the first one of
a strictly lower priority, and the first element goes out. `Tracks` relates what has gone out
and what is stored to what came in.

## Main results

* `ofKey_insert` — a new element is the last one of its priority;
* `Tracks.push`, `Tracks.pop` — the two operations keep the books;
* `Tracks.perm` — what went out and what is stored is what came in.
-/

namespace StableQueue

variable {α κ : Type*} [LinearOrder κ] (key : α → κ)

/-- Insert an element before the first one of a strictly lower priority. -/
def insert (x : α) (l : List α) : List α :=
  match l.findIdx? fun y => key y < key x with
  | some i => l.insertIdx i x
  | none => l ++ [x]

/-- The elements of one priority, in their order. -/
def ofKey (k : κ) (l : List α) : List α := l.filter fun x => key x = k

/-- The priorities do not increase along the list. -/
def Sorted (l : List α) : Prop := l.Pairwise fun x y => key y ≤ key x

theorem insert_cons (x y : α) (l : List α) :
    insert key x (y :: l) = if key y < key x then x :: y :: l else y :: insert key x l := by
  rw [insert, List.findIdx?_cons]
  by_cases h : key y < key x
  · rw [if_pos (decide_eq_true h), if_pos h]
    rfl
  rw [if_neg (by simpa using h), if_neg h, insert]
  cases l.findIdx? fun y => key y < key x with
  | none => rfl
  | some => rfl

theorem ofKey_cons (k : κ) (x : α) (l : List α) :
    ofKey key k (x :: l) = if key x = k then x :: ofKey key k l else ofKey key k l := by
  rw [ofKey, List.filter_cons, ofKey]
  simp

theorem ofKey_append (k : κ) (l m : List α) :
    ofKey key k (l ++ m) = ofKey key k l ++ ofKey key k m := List.filter_append _ _

variable {key} {x : α} {l : List α}

theorem insert_perm (x : α) (l : List α) : (insert key x l).Perm (x :: l) := by
  induction l with
  | nil => exact .refl _
  | cons y l ih =>
    rw [insert_cons]
    split_ifs with h
    · rfl
    · exact (ih.cons y).trans (.swap x y l)

theorem length_insert (x : α) (l : List α) : (insert key x l).length = l.length + 1 :=
  (insert_perm x l).length_eq

theorem Sorted.insert (h : Sorted key l) (x : α) : Sorted key (insert key x l) := by
  induction l with
  | nil => exact List.pairwise_singleton _ _
  | cons y l ih =>
    obtain ⟨hy, hl⟩ := List.pairwise_cons.mp h
    rw [insert_cons]
    split_ifs with hlt
    · refine List.pairwise_cons.mpr ⟨fun z hz => ?_, h⟩
      rcases List.mem_cons.mp hz with rfl | hz
      · exact hlt.le
      · exact (hy z hz).trans hlt.le
    refine List.pairwise_cons.mpr ⟨fun z hz => ?_, ih hl⟩
    rcases List.mem_cons.mp ((insert_perm x l).mem_iff.mp hz) with rfl | hz
    · exact not_lt.mp hlt
    · exact hy z hz

/-- **Stability.** A new element comes after those of its own priority, and the order within
the other priorities is as it was. -/
theorem ofKey_insert (h : Sorted key l) (x : α) (k : κ) :
    ofKey key k (insert key x l) = ofKey key k l ++ if key x = k then [x] else [] := by
  induction l with
  | nil => exact ofKey_cons key k x []
  | cons y l ih =>
    obtain ⟨hy, hl⟩ := List.pairwise_cons.mp h
    rw [insert_cons]
    by_cases hlt : key y < key x
    · rw [if_pos hlt, ofKey_cons]
      by_cases hk : key x = k
      · -- everything behind has a lower priority
        have hnone : ofKey key k (y :: l) = [] := by
          rw [ofKey, List.filter_eq_nil_iff]
          intro z hz hkey
          have hle : key z ≤ key y := by
            rcases List.mem_cons.mp hz with rfl | hz
            · exact le_rfl
            · exact hy z hz
          rw [of_decide_eq_true hkey, ← hk] at hle
          exact absurd hlt (not_lt.mpr hle)
        rw [if_pos hk, if_pos hk, hnone]
        rfl
      · rw [if_neg hk, if_neg hk, List.append_nil]
    rw [if_neg hlt, ofKey_cons, ofKey_cons, ih hl]
    by_cases hk : key y = k
    · rw [if_pos hk, if_pos hk, List.cons_append]
    · rw [if_neg hk, if_neg hk]

/-! ### Books -/

variable (key) in
/-- What has gone out and what is stored is in order and, within each priority, what came in
one after the other. -/
structure Tracks (received stored accepted : List α) : Prop where
  sorted : Sorted key stored
  order : ∀ k, ofKey key k (received ++ stored) = ofKey key k accepted

namespace Tracks

variable {received stored accepted : List α}

theorem nil : Tracks key [] [] ([] : List α) := ⟨List.Pairwise.nil, fun _ => rfl⟩

/-- **An element comes in.** -/
theorem push (h : Tracks key received stored accepted) (x : α) :
    Tracks key received (insert key x stored) (accepted ++ [x]) := by
  refine ⟨h.sorted.insert x, fun k => ?_⟩
  calc ofKey key k (received ++ insert key x stored)
    _ = ofKey key k received ++ (ofKey key k stored ++ if key x = k then [x] else []) := by
        rw [ofKey_append, ofKey_insert h.sorted]
    _ = ofKey key k (received ++ stored) ++ ofKey key k [x] := by
        rw [ofKey_append, List.append_assoc, ofKey_cons]
        rfl
    _ = ofKey key k (accepted ++ [x]) := by rw [h.order k, ofKey_append]

/-- **The first element goes out.** -/
theorem pop (h : Tracks key received (x :: stored) accepted) :
    Tracks key (received ++ [x]) stored accepted := by
  refine ⟨(List.pairwise_cons.mp h.sorted).2, fun k => ?_⟩
  rw [List.append_assoc]
  exact h.order k

/-- What went out and what is stored is what came in. -/
theorem perm (h : Tracks key received stored accepted) : (received ++ stored).Perm accepted := by
  classical
  rw [List.perm_iff_count]
  intro x
  have hcount : ∀ l : List α, (ofKey key (key x) l).count x = l.count x :=
    fun l => List.count_filter (by simp)
  rw [← hcount, h.order, hcount]

end Tracks

end StableQueue
