import Mathlib.Data.List.AList
import Mathlib.Data.PNat.Basic

/-!
# Implicit Reference Counts

A resource with one owner is not recorded anywhere; the first time it is shared it
enters a table with the number of its owners, and it leaves the table when the last of
them lets it go. Absence from the table therefore means a single owner, and the map
alone does not say whether there is one at all: `owners m n h` reads the count with `n`
standing for what absence means.

## Main results

* `SharedRefs.owners_forkRef`, `SharedRefs.owners_closeRef` — the counts after sharing
  and after letting go;
* `SharedRefs.closeRef_fst` — letting go reports the last owner.
-/

/-- The recorded owner counts of the shared resources. -/
abbrev SharedRefs (κ : Type) := AList fun _ : κ => ℕ+

namespace SharedRefs

variable {κ : Type} [DecidableEq κ]

/-- Share the resource once more; an unrecorded resource had one owner. -/
def forkRef (m : SharedRefs κ) (h : κ) : SharedRefs κ :=
  m.insert h ((m.lookup h).getD 1 + 1)

/-- Let the resource go; the flag says whether nobody else owns it. -/
def closeRef (m : SharedRefs κ) (h : κ) : Bool × SharedRefs κ :=
  match m.lookup h with
  | none => (true, m)
  | some c => if c = 1 then (true, m.erase h) else (false, m.insert h (c - 1))

/-- The number of owners of `h`, when an unrecorded resource has `n`. -/
def owners (m : SharedRefs κ) (n : ℕ) (h : κ) : ℕ := ((m.lookup h).map PNat.val).getD n

variable (m : SharedRefs κ)

theorem owners_one_pos (h : κ) : 0 < m.owners 1 h := by
  rw [owners]
  rcases m.lookup h with _ | c
  · exact Nat.one_pos
  · exact c.pos

theorem owners_forkRef (n : ℕ) (h k : κ) :
    (m.forkRef h).owners n k = if k = h then m.owners 1 h + 1 else m.owners n k := by
  by_cases hk : k = h
  · subst hk
    rw [if_pos rfl, owners, forkRef, AList.lookup_insert, owners]
    rcases m.lookup k with _ | c <;> rfl
  · rw [if_neg hk, owners, forkRef, AList.lookup_insert_ne hk, owners]

/-- Letting go reports the last owner. -/
theorem closeRef_fst (h : κ) : (m.closeRef h).1 = true ↔ m.owners 1 h = 1 := by
  rw [closeRef, owners]
  rcases m.lookup h with _ | c
  · simp
  simp only [Option.map_some, Option.getD_some, PNat.coe_eq_one_iff]
  split
  next hc => simp [hc]
  next hc => simp [hc]

/-- The last owner takes the record along; any other lowers the count by one. -/
theorem owners_closeRef (n : ℕ) (h k : κ) : (m.closeRef h).2.owners n k =
      if k = h then if m.owners 1 h = 1 then n else m.owners 1 h - 1 else m.owners n k := by
  by_cases hk : k = h
  · subst hk
    rw [if_pos rfl, closeRef, owners, owners]
    rcases hc : m.lookup k with _ | c
    · simp [hc]
    simp only [Option.map_some, Option.getD_some, PNat.coe_eq_one_iff]
    by_cases hone : c = 1
    · rw [if_pos hone, if_pos hone, AList.lookup_erase]
      rfl
    have hlt : 1 < c := lt_of_le_of_ne one_le (Ne.symm hone)
    rw [if_neg hone, if_neg hone, AList.lookup_insert]
    simp only [Option.map_some, Option.getD_some]
    rw [PNat.sub_coe, if_pos hlt]
    rfl
  rw [if_neg hk, closeRef, owners, owners]
  rcases hc : m.lookup h with _ | c
  · rfl
  simp only
  split
  · rw [AList.lookup_erase_ne hk]
  · rw [AList.lookup_insert_ne hk]

/-- The owners beyond the first after one of them lets go. -/
theorem shares_closeRef (h k : κ) : (m.closeRef h).2.owners 1 k - 1 =
      if k = h then m.owners 1 h - 1 - 1 else m.owners 1 k - 1 := by
  rw [owners_closeRef]
  by_cases hk : k = h
  · rw [if_pos hk, if_pos hk]
    split <;> omega
  · rw [if_neg hk, if_neg hk]

end SharedRefs
