import Mathlib.Order.Lattice
import Mathlib.Order.Defs.LinearOrder
import Mathlib.Data.List.Pairwise
import Mathlib.Data.List.TakeWhile

/-!
# Lists of Ranges

A record may stand for a half-open range of a linear order, with a value that it gives to
every point of the range. A list of such records is read point by point: `Holds l b a` says
that some record of `l` covers `b` and gives it the value `a`. What an operation on lists of
ranges does is then one statement about points, whatever pieces it cuts the ranges into.

## Main results

* `Layout.holds_flatMap`, `Layout.Sorted.flatMap` — replacing every range by pieces of it;
* `Layout.holds_filter` — dropping the ranges that overlap a given one;
* `Layout.Sorted.insert` — inserting a range between those before and after it;
* `Layout.exists_covers_of_meets` — the overlap test of two half-open ranges.
-/

/-- How records stand for ranges with values. -/
structure Layout (ρ β α : Type*) where
  lo : ρ → β
  hi : ρ → β
  val : ρ → α

namespace Layout

variable {ρ β α : Type*} [LinearOrder β] (L : Layout ρ β α)

/-- A point lies in the range of a record. -/
def Covers (r : ρ) (b : β) : Prop := L.lo r ≤ b ∧ b < L.hi r

/-- The list gives a point a value. -/
def Holds (l : List ρ) (b : β) (a : α) : Prop := ∃ r ∈ l, L.Covers r b ∧ L.val r = a

/-- The overlap test of a record with the range from `x` up to `y`. -/
def Meets (r : ρ) (x y : β) : Prop := L.lo r < y ∧ x < L.hi r

/-- Every range ends before the next one starts. -/
def Sorted (l : List ρ) : Prop := l.Pairwise fun r s => L.hi r ≤ L.lo s

/-- No range is empty. -/
def Solid (l : List ρ) : Prop := ∀ r ∈ l, L.lo r < L.hi r

instance (r : ρ) (b : β) : Decidable (L.Covers r b) := inferInstanceAs (Decidable (_ ∧ _))

instance (r : ρ) (x y : β) : Decidable (L.Meets r x y) := inferInstanceAs (Decidable (_ ∧ _))

variable {L} {r s : ρ} {l m : List ρ} {x y b : β} {a a' : α}

/-! ### One range -/

theorem Covers.meets (h : L.Covers r b) (hx : x ≤ b) (hy : b < y) : L.Meets r x y :=
  ⟨h.1.trans_lt hy, hx.trans_lt h.2⟩

theorem exists_covers_of_meets (h : L.Meets r x y) (hr : L.lo r < L.hi r) (hxy : x < y) :
    ∃ b, L.Covers r b ∧ x ≤ b ∧ b < y :=
  ⟨max (L.lo r) x, ⟨le_max_left _ _, max_lt hr h.2⟩, le_max_right _ _, max_lt h.1 hxy⟩

/-! ### Points of a list -/

theorem holds_nil : ¬ L.Holds [] b a := by
  rintro ⟨r, hr, -⟩
  cases hr

theorem holds_cons : L.Holds (r :: l) b a ↔ (L.Covers r b ∧ L.val r = a) ∨ L.Holds l b a := by
  constructor
  · rintro ⟨s, hs, hb⟩
    rcases List.mem_cons.mp hs with rfl | hs
    · exact .inl hb
    · exact .inr ⟨s, hs, hb⟩
  rintro (hb | ⟨s, hs, hb⟩)
  · exact ⟨r, List.mem_cons_self, hb⟩
  · exact ⟨s, List.mem_cons_of_mem _ hs, hb⟩

theorem holds_append : L.Holds (l ++ m) b a ↔ L.Holds l b a ∨ L.Holds m b a := by
  constructor
  · rintro ⟨s, hs, hb⟩
    rcases List.mem_append.mp hs with hs | hs
    · exact .inl ⟨s, hs, hb⟩
    · exact .inr ⟨s, hs, hb⟩
  rintro (⟨s, hs, hb⟩ | ⟨s, hs, hb⟩)
  · exact ⟨s, List.mem_append_left _ hs, hb⟩
  · exact ⟨s, List.mem_append_right _ hs, hb⟩

/-- **Replacing ranges by pieces.** If the pieces of every range hold its points that
satisfy a condition, so do the pieces of the list. -/
theorem holds_flatMap {f : ρ → List ρ} {P : β → Prop}
    (h : ∀ r ∈ l, ∀ b a, L.Holds (f r) b a ↔ (L.Covers r b ∧ L.val r = a) ∧ P b) :
    L.Holds (l.flatMap f) b a ↔ L.Holds l b a ∧ P b := by
  constructor
  · rintro ⟨s, hs, hb⟩
    obtain ⟨r, hr, hs⟩ := List.mem_flatMap.mp hs
    obtain ⟨hcov, hP⟩ := (h r hr b a).mp ⟨s, hs, hb⟩
    exact ⟨⟨r, hr, hcov⟩, hP⟩
  rintro ⟨⟨r, hr, hcov⟩, hP⟩
  obtain ⟨s, hs, hb⟩ := (h r hr b a).mpr ⟨hcov, hP⟩
  exact ⟨s, List.mem_flatMap.mpr ⟨r, hr, hs⟩, hb⟩

theorem holds_congr (h : ∀ r, r ∈ l ↔ r ∈ m) : L.Holds l b a ↔ L.Holds m b a :=
  ⟨fun ⟨r, hr, hb⟩ => ⟨r, (h r).mp hr, hb⟩, fun ⟨r, hr, hb⟩ => ⟨r, (h r).mpr hr, hb⟩⟩

/-- **Dropping overlapping ranges whole.** If the ranges that are dropped, of those with
certain values, lie inside the range they overlap, only points in that range are lost. -/
theorem holds_filter {keep : ρ → Bool} {P : α → Prop}
    (hkeep : ∀ r ∈ l, keep r = false ↔ P (L.val r) ∧ L.Meets r x y)
    (hin : ∀ r ∈ l, P (L.val r) → L.Meets r x y → x ≤ L.lo r ∧ L.hi r ≤ y) :
    L.Holds (l.filter keep) b a ↔ L.Holds l b a ∧ ¬ (P a ∧ x ≤ b ∧ b < y) := by
  constructor
  · rintro ⟨r, hr, hb, rfl⟩
    obtain ⟨hr, hkept⟩ := List.mem_filter.mp hr
    refine ⟨⟨r, hr, hb, rfl⟩, ?_⟩
    rintro ⟨hP, hx, hy⟩
    rw [(hkeep r hr).mpr ⟨hP, hb.meets hx hy⟩] at hkept
    cases hkept
  rintro ⟨⟨r, hr, hb, rfl⟩, hout⟩
  refine ⟨r, List.mem_filter.mpr ⟨hr, ?_⟩, hb, rfl⟩
  by_contra hdropped
  obtain ⟨hP, hmeets⟩ := (hkeep r hr).mp (eq_false_of_ne_true hdropped)
  obtain ⟨hlo, hhi⟩ := hin r hr hP hmeets
  exact hout ⟨hP, hlo.trans hb.1, hb.2.trans_le hhi⟩

/-! ### Sorted lists -/

/-- The ranges from some point on start there or later. -/
theorem Sorted.le_of_mem_dropWhile (h : L.Sorted l) (hsolid : L.Solid l)
    (hs : s ∈ l.dropWhile (fun s => L.lo s < x)) : x ≤ L.lo s := by
  induction l with
  | nil => cases hs
  | cons t l ih =>
    obtain ⟨hfirst, hrest⟩ := List.pairwise_cons.mp h
    rw [List.dropWhile_cons] at hs
    split at hs
    · exact ih hrest (fun r hr => hsolid r (List.mem_cons_of_mem _ hr)) hs
    rename_i hx
    have hx : x ≤ L.lo t := by simpa using hx
    rcases List.mem_cons.mp hs with rfl | hs
    · exact hx
    · exact hx.trans ((hsolid t List.mem_cons_self).le.trans (hfirst s hs))

/-- Pieces of the ranges of a sorted list are sorted. -/
theorem Sorted.flatMap (h : L.Sorted l) {f : ρ → List ρ}
    (hin : ∀ r ∈ l, ∀ s ∈ f r, L.lo r ≤ L.lo s ∧ L.hi s ≤ L.hi r)
    (hsorted : ∀ r ∈ l, L.Sorted (f r)) : L.Sorted (l.flatMap f) := by
  rw [Sorted, List.pairwise_flatMap]
  refine ⟨hsorted, ?_⟩
  refine List.Pairwise.imp_of_mem ?_ h
  intro r s hr hs hle u hu v hv
  exact ((hin r hr u hu).2.trans hle).trans (hin s hs v hv).1

/-- Where a range that overlaps none of a sorted list goes. -/
theorem Sorted.insert (h : L.Sorted l) (hsolid : L.Solid l) (hr : L.lo r < L.hi r)
    (hfree : ∀ s ∈ l, L.hi s ≤ L.lo r ∨ L.hi r ≤ L.lo s) :
    L.Sorted (l.takeWhile (fun s => L.lo s < L.lo r) ++
      r :: l.dropWhile (fun s => L.lo s < L.lo r)) := by
  have hbefore : ∀ s ∈ l.takeWhile (fun s => L.lo s < L.lo r), L.hi s ≤ L.lo r := by
    intro s hs
    have hlt : L.lo s < L.lo r := by simpa using List.mem_takeWhile_imp hs
    rcases hfree s ((List.takeWhile_sublist _).subset hs) with hle | hle
    · exact hle
    · exact absurd (hr.trans_le hle) hlt.not_gt
  have hafter : ∀ s ∈ l.dropWhile (fun s => L.lo s < L.lo r), L.hi r ≤ L.lo s := by
    intro s hs
    have hmem := (List.dropWhile_sublist _).subset hs
    rcases hfree s hmem with hle | hle
    · exact absurd ((hsolid s hmem).trans_le hle) (h.le_of_mem_dropWhile hsolid hs).not_gt
    · exact hle
  have hsplit : L.Sorted (l.takeWhile (fun s => L.lo s < L.lo r) ++
      l.dropWhile (fun s => L.lo s < L.lo r)) := by
    rwa [List.takeWhile_append_dropWhile]
  obtain ⟨htake, hdrop, hacross⟩ := List.pairwise_append.mp hsplit
  refine List.pairwise_append.mpr ⟨htake, List.pairwise_cons.mpr ⟨hafter, hdrop⟩, ?_⟩
  intro s hs t ht
  rcases List.mem_cons.mp ht with rfl | ht
  · exact hbefore s hs
  · exact hacross s hs t ht

end Layout
