import Mathlib.Data.List.AList
import Mathlib.Tactic

/-!
# Finite Maps

Finite maps as association lists, what insertion and removal do to a lookup, and how many of
the values have a property.

## Main results

* `KeyMap.lookup_insert_eq`, `KeyMap.lookup_erase_eq`, `KeyMap.lookup_mapValues` — the lookups
  after a change;
* `KeyMap.tally_insert_new`, `KeyMap.tally_insert_same`, `KeyMap.tally_erase` — the number of
  values after a change;
* `KeyMap.tally_pos_iff` — when there is one.
-/

/-- A finite map. -/
abbrev KeyMap (κ α : Type*) := AList fun _ : κ => α

namespace KeyMap

variable {κ α : Type*} [DecidableEq κ] {m : KeyMap κ α} {k : κ} {x : α} {p : α → Bool}

theorem lookup_insert_eq (m : KeyMap κ α) (k k' : κ) (x : α) :
    (m.insert k x).lookup k' = if k' = k then some x else m.lookup k' := by
  split_ifs with h
  · rw [h, AList.lookup_insert]
  · rw [AList.lookup_insert_ne h]

theorem lookup_erase_eq (m : KeyMap κ α) (k k' : κ) :
    (m.erase k).lookup k' = if k' = k then none else m.lookup k' := by
  split_ifs with h
  · rw [h, AList.lookup_erase]
  · rw [AList.lookup_erase_ne h]

omit [DecidableEq κ] in
/-- A map with every value changed. -/
def mapValues (f : α → α) (m : KeyMap κ α) : KeyMap κ α where
  entries := m.entries.map fun e => ⟨e.1, f e.2⟩
  nodupKeys := by
    rw [List.NodupKeys, List.keys, List.map_map]
    exact m.nodupKeys

theorem lookup_mapValues (f : α → α) (m : KeyMap κ α) (k : κ) :
    (m.mapValues f).lookup k = (m.lookup k).map f := by
  refine Option.ext fun y => ?_
  rw [← Option.mem_def, AList.mem_lookup_iff, Option.map_eq_some_iff, mapValues]
  constructor
  · intro h
    obtain ⟨⟨k', x⟩, hmem, heq⟩ := List.mem_map.mp h
    obtain ⟨rfl, hx⟩ := Sigma.mk.inj heq
    exact ⟨x, AList.mem_lookup_iff.mpr hmem, eq_of_heq hx⟩
  · rintro ⟨x, hx, rfl⟩
    exact List.mem_map.mpr ⟨⟨k, x⟩, AList.mem_lookup_iff.mp hx, rfl⟩

omit [DecidableEq κ] in
/-- How many of the values have a property. -/
def tally (p : α → Bool) (m : KeyMap κ α) : ℕ := m.entries.countP fun e => p e.2

theorem tally_insert (m : KeyMap κ α) (k : κ) (x : α) :
    tally p (m.insert k x) = tally p (m.erase k) + if p x then 1 else 0 := by
  rw [tally, AList.entries_insert, List.countP_cons, tally]
  rfl

theorem tally_insert_new (h : m.lookup k = none) :
    tally p (m.insert k x) = tally p m + if p x then 1 else 0 := by
  have hnew : k ∉ m.entries.keys := AList.lookup_eq_none.mp h
  rw [tally, AList.entries_insert_of_notMem hnew, List.countP_cons, tally]

theorem tally_erase (h : m.lookup k = some x) :
    tally p (m.erase k) + (if p x then 1 else 0) = tally p m := by
  have hmem : ⟨k, x⟩ ∈ m.entries := AList.mem_lookup_iff.mp h
  obtain ⟨y, before, after, hbefore, hentries, herased⟩ :=
    List.exists_of_kerase (List.mem_keys_of_mem hmem)
  have hy : m.lookup k = some y :=
    AList.mem_lookup_iff.mpr (hentries ▸ List.mem_append_right _ List.mem_cons_self)
  obtain rfl : x = y := Option.some.inj (h.symm.trans hy)
  have herase : (m.erase k).entries = before ++ after := herased
  simp only [tally, herase, hentries, List.countP_append, List.countP_cons]
  omega

theorem tally_insert_same {y : α} (h : m.lookup k = some y) (hp : p x = p y) :
    tally p (m.insert k x) = tally p m := by
  rw [tally_insert, hp, tally_erase h]

theorem tally_pos_iff : 0 < tally p m ↔ ∃ k x, m.lookup k = some x ∧ p x = true := by
  rw [tally, List.countP_pos_iff]
  constructor
  · rintro ⟨⟨k, x⟩, hmem, hx⟩
    exact ⟨k, x, AList.mem_lookup_iff.mpr hmem, hx⟩
  · rintro ⟨k, x, hlookup, hx⟩
    exact ⟨⟨k, x⟩, AList.mem_lookup_iff.mp hlookup, hx⟩

end KeyMap
