import PosixKernel.Lib.SlotTable

/-!
# A Relation Kept at Both Ends

Every member of a group names its head in one table, and every head lists its members in
another. The two tables are changed one at a time; they tell the same story as long as every
change of the one is matched by the change of the other.

## Main results

* `TwoWay.link`, `TwoWay.unlink` — the matched changes.
-/

/-- Add to a set that is kept in the order of insertion. -/
def addOnce (l : List ℕ) (x : ℕ) : List ℕ := if x ∈ l then l else l ++ [x]

theorem mem_addOnce {l : List ℕ} {x y : ℕ} : y ∈ addOnce l x ↔ y ∈ l ∨ y = x := by
  rw [addOnce]
  split_ifs with hx
  · refine ⟨.inl, ?_⟩
    rintro (hy | rfl)
    · exact hy
    · exact hx
  · rw [List.mem_append, List.mem_singleton]

namespace SlotTable

/-- The members listed for a head. -/
def members (t : SlotTable (List ℕ)) (i : ℕ) : List ℕ := (t.get i).getD []

/-- List a member for a head, once. -/
def enlist (t : SlotTable (List ℕ)) (i j : ℕ) : SlotTable (List ℕ) :=
  t.put i (some (addOnce (t.members i) j))

/-- Strike a member from the list of a head. -/
def strike (t : SlotTable (List ℕ)) (i j : ℕ) : SlotTable (List ℕ) :=
  t.modify i fun l => l.filter (· ≠ j)

/-- Strike a member, and drop a list that is left empty. -/
def strikeOff (t : SlotTable (List ℕ)) (i j : ℕ) : SlotTable (List ℕ) :=
  if (t.strike i j).get i = some [] then (t.strike i j).clear i else t.strike i j

variable (t : SlotTable (List ℕ)) (i j : ℕ) {k m : ℕ}

theorem mem_members_enlist : m ∈ (t.enlist i j).members k ↔ m ∈ t.members k ∨ k = i ∧ m = j := by
  rw [enlist, members, get_put]
  split_ifs with hk
  · rw [Option.getD_some, hk, mem_addOnce]
    simp
  · simp [hk, members]

theorem mem_members_strike :
    m ∈ (t.strike i j).members k ↔ m ∈ t.members k ∧ ¬ (k = i ∧ m = j) := by
  rw [strike, members, get_modify]
  split_ifs with hk
  · rw [hk, members]
    rcases t.get i with _ | l
    · simp
    · simp
  · rw [members]
    simp [hk]

theorem members_strikeOff : (t.strikeOff i j).members k = (t.strike i j).members k := by
  rw [strikeOff]
  split
  next hempty =>
    rw [members, members, get_clear]
    split_ifs with hk
    · rw [hk, hempty]
      rfl
    · rfl
  next => rfl

end SlotTable

/-- The two tables tell the same story. -/
def TwoWay (up : SlotTable ℕ) (down : SlotTable (List ℕ)) : Prop :=
  ∀ c p, up.get c = some p ↔ c ∈ down.members p

namespace TwoWay

variable {up : SlotTable ℕ} {down : SlotTable (List ℕ)} {p c : ℕ}

theorem empty : TwoWay .empty .empty := by
  intro c p
  simp [SlotTable.members]

/-- A newcomer names its head and is listed by it. -/
theorem link (h : TwoWay up down) (hnew : up.get c = none) (p : ℕ) :
    TwoWay (up.put c (some p)) (down.enlist p c) := by
  intro m q
  rw [SlotTable.get_put, SlotTable.mem_members_enlist, ← h m q]
  split_ifs with hm
  · rw [hm, hnew]
    simp [eq_comm]
  · simp [hm]

/-- A member leaves its head, which strikes it from its list. -/
theorem unlink (h : TwoWay up down) (hhead : ∀ q, up.get c = some q → q = p) :
    TwoWay (up.clear c) (down.strike p c) := by
  intro m q
  rw [SlotTable.get_clear, SlotTable.mem_members_strike, ← h m q]
  by_cases hm : m = c
  · rw [if_pos hm, hm]
    refine ⟨fun hq => absurd hq (Option.some_ne_none q).symm, fun ⟨hq, hne⟩ => ?_⟩
    exact absurd ⟨hhead q hq, rfl⟩ hne
  · rw [if_neg hm]
    simp [hm]

theorem unlinkOff (h : TwoWay up down) (hhead : ∀ q, up.get c = some q → q = p) :
    TwoWay (up.clear c) (down.strikeOff p c) := by
  intro m q
  rw [SlotTable.members_strikeOff]
  exact h.unlink hhead m q

end TwoWay
