import Mathlib.Data.List.Count

/-!
# Reference Ledgers

A state records how often each of its resources is held. Holders take and drop a
resource; the record follows, except that a drop stops at zero and that a take is ignored
where the resource does not exist. A `Meter` is a reading of such a record for one
resource.

What one holder does shows in two numbers: the record, and how often the holder holds the
resource. `HolderFlow` says that they move together, which is what every statement about counts
comes down to: the record stays the sum over all holders.

## Main results

* `Meter.foldl_drop`, `Meter.foldl_take` — the reading after a list of drops or takes;
* `HolderFlow.trans`, `HolderFlow.add`, `HolderFlow.sub` — flows compose;
* `OpenFlow.trans`, `OpenInTurn.flow`, `OpenInTurn.reopening` — resources that are opened and
  closed outside, again and again.
-/

/-- A reading of how often a state records one resource as held. A resource may have to
exist for a take to count. -/
structure Meter {σ ρ : Type*} (take drop : σ → ρ → σ) (r : ρ) (m : σ → ℕ) (live : σ → Prop) :
    Prop where
  take_ne : ∀ s r', r' ≠ r → m (take s r') = m s
  drop_ne : ∀ s r', r' ≠ r → m (drop s r') = m s
  take_self : ∀ s, live s → m (take s r) = m s + 1
  drop_self : ∀ s, m (drop s r) = m s - 1
  live_take : ∀ s r', live s → live (take s r')

/-! ### Flows -/

/-- The record of a resource moves from `n` to `n'` while one holder of it goes from
holding it `k` times to `k'` times: by the same difference if the record covered the
holder, and staying covered by the holder if it was. -/
structure HolderFlow (n k n' k' : ℕ) : Prop where
  exact : k ≤ n → n' + k = n + k'
  below : n ≤ k → n' ≤ k'

namespace HolderFlow

variable {n k n' k' n'' k'' d : ℕ}

/-- Nothing flows. -/
theorem refl (n k : ℕ) : HolderFlow n k n k := ⟨fun _ => rfl, fun h => h⟩

/-- Equal counts do not flow. -/
theorem of_eq (hn : n' = n) (hk : k' = k) : HolderFlow n k n' k' := by
  subst hn hk
  exact refl n' k'

/-- Flows add up. -/
theorem trans (h : HolderFlow n k n' k') (h' : HolderFlow n' k' n'' k'') :
    HolderFlow n k n'' k'' := by
  refine ⟨fun hle => ?_, fun hle => h'.below (h.below hle)⟩
  have h₁ := h.exact hle
  have h₂ := h'.exact (by omega)
  omega

/-- A resource that comes into being with its holder. -/
theorem add (hn : n' = n + d) (hk : k' = k + d) : HolderFlow n k n' k' :=
  ⟨fun _ => by omega, fun _ => by omega⟩

/-- What is dropped and given up flows out. -/
theorem sub (hn : n' = n - d) (hk : k = k' + d) : HolderFlow n k n' k' :=
  ⟨fun _ => by omega, fun _ => by omega⟩

end HolderFlow

/-! ### Openings and closings -/

/-- Like `HolderFlow`, for a resource that is obtained outside: the record counts its holders
beyond the first, `o` and `x` say how often it was opened and closed, and the holder that
is not recorded closes it. -/
structure OpenFlow (n k o x n' k' o' x' : ℕ) : Prop where
  balance : n' + o' + k + x = n + o + k' + x'
  record_le : n' ≤ n
  opened_le : o ≤ o'
  closed_le : x ≤ x'
  last : x < x' → n' = 0

namespace OpenFlow

variable {n k o x n' k' o' x' n'' k'' o'' x'' : ℕ}

/-- Equal counts do not flow. -/
theorem of_eq (hn : n' = n) (hk : k' = k) (ho : o' = o) (hx : x' = x) :
    OpenFlow n k o x n' k' o' x' := by
  subst hn hk ho hx
  exact ⟨rfl, Nat.le_refl _, Nat.le_refl _, Nat.le_refl _, fun h => absurd h (Nat.lt_irrefl _)⟩

/-- Flows add up. -/
theorem trans (h : OpenFlow n k o x n' k' o' x') (h' : OpenFlow n' k' o' x' n'' k'' o'' x'') :
    OpenFlow n k o x n'' k'' o'' x'' := by
  have hb := h.balance
  have hb' := h'.balance
  refine ⟨by omega, Nat.le_trans h'.record_le h.record_le, Nat.le_trans h.opened_le h'.opened_le,
    Nat.le_trans h.closed_le h'.closed_le, fun hlt => ?_⟩
  by_cases hmid : x < x'
  · have := h.last hmid
    have := h'.record_le
    omega
  · exact h'.last (by omega)

/-- The resource is opened by its holder. -/
theorem opening (hn : n' = n) (hk : k' = k + 1) (ho : o' = o + 1) (hx : x' = x) :
    OpenFlow n k o x n' k' o' x' :=
  ⟨by omega, by omega, by omega, by omega, fun h => by omega⟩

/-- A holder lets go: it is recorded, or it closes the resource. -/
theorem closing (hk : k = k' + 1) (ho : o' = o) (hn : n' = n - 1)
    (hx : x' = if n = 0 then x + 1 else x) : OpenFlow n k o x n' k' o' x' := by
  split_ifs at hx with hzero
  · exact ⟨by omega, by omega, by omega, by omega, fun _ => by omega⟩
  · exact ⟨by omega, by omega, by omega, by omega, fun h => by omega⟩

end OpenFlow

/-- A resource that is opened again only after it was closed: it is open exactly while it is
held, and its record counts the holders beyond the first. -/
structure OpenInTurn (n k o x : ℕ) : Prop where
  free : k = 0 → o = x ∧ n = 0
  held : 0 < k → o = x + 1 ∧ n + 1 = k

namespace OpenInTurn

variable {n k o x n' k' x' d : ℕ}

/-- What one holder does that does not open it, with others around. -/
theorem flow (h : OpenInTurn n k o x) (hflow : OpenFlow n d o x n' k' o x') (hle : d ≤ k) :
    OpenInTurn n' (k - d + k') o x' := by
  obtain ⟨hfree, hheld⟩ := h
  obtain ⟨hbalance, hrecord, -, hclosed, hlast⟩ := hflow
  rcases Nat.eq_zero_or_pos k with hk | hk
  · have := hfree hk
    exact ⟨fun _ => by omega, fun _ => by omega⟩
  have := hheld hk
  by_cases hx : x < x'
  · have := hlast hx
    exact ⟨fun _ => by omega, fun _ => by omega⟩
  · exact ⟨fun _ => by omega, fun _ => by omega⟩

/-- What one holder does that opens it where it was not open. -/
theorem reopening (h : OpenInTurn n k o x) (hflow : OpenFlow n d o x n' k' (o + 1) x')
    (hle : d ≤ k) (hclosed : o ≤ x) : OpenInTurn n' (k - d + k') (o + 1) x' := by
  obtain ⟨hfree, hheld⟩ := h
  obtain ⟨hbalance, hrecord, -, hmore, -⟩ := hflow
  have hzero : k = 0 := by
    by_contra hne
    have := hheld (Nat.pos_of_ne_zero hne)
    omega
  have := hfree hzero
  exact ⟨fun _ => by omega, fun _ => by omega⟩

/-- A new holder that is recorded, where there was one before. -/
theorem take (h : OpenInTurn n k o x) (hle : d ≤ k) : OpenInTurn (n + d) (k + d) o x := by
  obtain ⟨hfree, hheld⟩ := h
  rcases Nat.eq_zero_or_pos k with hk | hk
  · have := hfree hk
    exact ⟨fun _ => by omega, fun _ => by omega⟩
  · have := hheld hk
    exact ⟨fun _ => by omega, fun _ => by omega⟩

/-- Opening it while nobody holds it. -/
theorem opening (h : OpenInTurn n 0 o x) : OpenInTurn n 1 (o + 1) x := by
  have := h.free rfl
  exact ⟨fun h => absurd h (by omega), fun _ => by omega⟩

end OpenInTurn

/-! ### Lists of takes and drops -/

namespace Meter

variable {σ ρ : Type*} [DecidableEq ρ] {take drop : σ → ρ → σ} {r : ρ} {m : σ → ℕ}
  {live : σ → Prop}

private theorem count_cons_eq (rs : List ρ) (r' : ρ) :
    (r' :: rs).count r = [r'].count r + rs.count r := by
  rw [← List.singleton_append, List.count_append]

variable (hm : Meter take drop r m live)

include hm

/-- Dropping takes one if it is the resource. -/
theorem drop_apply (s : σ) (r' : ρ) : m (drop s r') = m s - [r'].count r := by
  by_cases h : r' = r
  · rw [h, hm.drop_self, List.count_singleton_self]
  · rw [hm.drop_ne s r' h, List.count_singleton, if_neg (by simpa using h), Nat.sub_zero]

/-- **A list of drops** lowers the reading by the number of times the resource is in it. -/
theorem foldl_drop (rs : List ρ) (s : σ) : m (rs.foldl drop s) = m s - rs.count r := by
  induction rs generalizing s with
  | nil => rfl
  | cons r' rs ih =>
    rw [List.foldl_cons, ih, hm.drop_apply, count_cons_eq rs, Nat.sub_sub]

/-- Taking adds one if it is. -/
theorem take_apply {s : σ} {r' : ρ} (h : r' = r → live s) : m (take s r') = m s + [r'].count r := by
  by_cases hr : r' = r
  · rw [hr, hm.take_self s (h hr), List.count_singleton_self]
  · rw [hm.take_ne s r' hr, List.count_singleton, if_neg (by simpa using hr), Nat.add_zero]

/-- **A list of takes** raises the reading by the number of times the resource is in it,
if the resource exists. -/
theorem foldl_take {rs : List ρ} {s : σ} (h : r ∈ rs → live s) :
    m (rs.foldl take s) = m s + rs.count r := by
  induction rs generalizing s with
  | nil => rfl
  | cons r' rs ih =>
    have hstep : m (take s r') = _ := hm.take_apply fun hr => h (by simp [hr])
    rw [List.foldl_cons, ih, hstep, count_cons_eq rs, Nat.add_assoc]
    exact fun hmem => hm.live_take s r' (h (List.mem_cons_of_mem _ hmem))

omit hm

end Meter
