import Mathlib.Algebra.BigOperators.Group.List.Basic
import Mathlib.Algebra.BigOperators.Intervals
import Mathlib.Algebra.BigOperators.Ring.Finset
import Mathlib.Algebra.Order.BigOperators.Group.Finset

/-!
# Tables of Reusable Slots

A growable vector of optional entries, addressed by slot number. An operation that
creates an entry takes the lowest free slot and grows the vector only when every slot
is live; an operation that removes one leaves a hole. Two tables that answer every
lookup alike are the same table to every client, however many trailing holes they
have, so every statement below is about `SlotTable.get`.

## Main results

* `SlotTable.get_put`, `SlotTable.get_clear`, `SlotTable.get_modify` — lookups after
  each update;
* `SlotTable.total_update` — the weighted sum over live entries after a change of one
  slot, from which the sum after each operation follows;
* `SlotTable.total_join` — a sum over what the entries of one table refer to in another;
* `SlotTable.get_ofEntries`, `SlotTable.get_ofEntries_filter_map` — rebuilding a table from
  a list of entries.
-/

/-- A vector of slots, each free or holding an entry. -/
structure SlotTable (α : Type*) where
  slots : List (Option α)
  deriving DecidableEq

namespace SlotTable

variable {α β : Type*}

/-- The table without slots. -/
def empty : SlotTable α := ⟨[]⟩

/-- The entry in slot `i`; a free slot and a slot past the end both read `none`. -/
def get (t : SlotTable α) (i : ℕ) : Option α := t.slots.getD i none

/-- The lowest free slot, which is the next new slot when every slot is live. -/
def nextIdx (t : SlotTable α) : ℕ :=
  (t.slots.findIdx? Option.isNone).getD t.slots.length

/-- Write slot `i`, first padding the vector with free slots up to it. -/
def put (t : SlotTable α) (i : ℕ) (o : Option α) : SlotTable α :=
  ⟨(t.slots ++ List.replicate (i + 1 - t.slots.length) none).set i o⟩

/-- Fill the lowest free slot. -/
def alloc (t : SlotTable α) (x : α) : ℕ × SlotTable α :=
  (t.nextIdx, t.put t.nextIdx (some x))

/-- Free slot `i`. -/
def clear (t : SlotTable α) (i : ℕ) : SlotTable α := ⟨t.slots.set i none⟩

/-- Change the entry of slot `i`, if it is live. -/
def modify (t : SlotTable α) (i : ℕ) (f : α → α) : SlotTable α :=
  ⟨t.slots.modify i (Option.map f)⟩

/-- Change the entry of slot `i`, if it is live, and free the slot when the changed entry
is no longer needed. -/
def release (t : SlotTable α) (i : ℕ) (f : α → α) (dead : α → Bool) : SlotTable α :=
  match t.get i with
  | none => t
  | some x => if dead (f x) then t.clear i else t.put i (some (f x))

/-- The live entries with their slot numbers, in slot order. -/
def entries (t : SlotTable α) : List (ℕ × α) :=
  t.slots.zipIdx.filterMap fun e => e.1.map fun x => (e.2, x)

/-- The live entries in slot order. -/
def values (t : SlotTable α) : List α := t.slots.filterMap id

/-- The table holding the listed entries, written one after the other. -/
def ofEntries (es : List (ℕ × α)) : SlotTable α :=
  es.foldl (fun t e => t.put e.1 (some e.2)) empty

/-! ### Lookups -/

variable {t : SlotTable α} {i : ℕ}

/-- There is nothing beyond the slots. -/
theorem get_eq_none_of_le (h : t.slots.length ≤ i) : t.get i = none := by
  simp [get, List.getD_eq_getElem?_getD, List.getElem?_eq_none h]

/-- What is there is within the slots. -/
theorem lt_of_get_eq_some {x : α} (h : t.get i = some x) : i < t.slots.length := by
  by_contra hle
  rw [get_eq_none_of_le (not_lt.mp hle)] at h
  cases h

/-- The empty table has nothing. -/
@[simp] theorem get_empty (i : ℕ) : (empty : SlotTable α).get i = none := by
  simp [get, empty]

/-- What stands where after a slot was set. -/
theorem get_put (t : SlotTable α) (i j : ℕ) (o : Option α) :
    (t.put i o).get j = if j = i then o else t.get j := by
  unfold get put
  simp only [List.getD_eq_getElem?_getD, List.getElem?_set, List.length_append,
    List.length_replicate]
  by_cases hji : j = i
  · subst hji
    rw [if_pos rfl, if_pos rfl, if_pos (by omega)]
    rfl
  rw [if_neg hji, if_neg (fun h => hji h.symm)]
  by_cases hlt : j < t.slots.length
  · rw [List.getElem?_append_left hlt]
  rw [List.getElem?_append_right (not_lt.mp hlt), List.getElem?_replicate,
    List.getElem?_eq_none (not_lt.mp hlt)]
  split <;> rfl

/-- A slot that was set. -/
@[simp] theorem get_put_self (t : SlotTable α) (i : ℕ) (o : Option α) : (t.put i o).get i = o := by
  rw [get_put, if_pos rfl]

/-- The other slots. -/
theorem get_put_of_ne (t : SlotTable α) {j : ℕ} (o : Option α) (h : j ≠ i) :
    (t.put i o).get j = t.get j := by
  rw [get_put, if_neg h]

/-- What stands where after a slot was cleared. -/
theorem get_clear (t : SlotTable α) (i j : ℕ) :
    (t.clear i).get j = if j = i then none else t.get j := by
  unfold get clear
  simp only [List.getD_eq_getElem?_getD, List.getElem?_set]
  by_cases hji : j = i
  · subst hji
    rw [if_pos rfl, if_pos rfl]
    split <;> rfl
  · rw [if_neg hji, if_neg (fun h => hji h.symm)]

/-- What stands where after an entry was changed. -/
theorem get_modify (t : SlotTable α) (i j : ℕ) (f : α → α) :
    (t.modify i f).get j = if j = i then (t.get i).map f else t.get j := by
  unfold get modify
  simp only [List.getD_eq_getElem?_getD, List.getElem?_modify]
  by_cases hji : j = i
  · subst hji
    rw [if_pos rfl]
    rcases t.slots[j]? with _ | o
    · rfl
    · simp
  rw [if_neg hji]
  rcases t.slots[j]? with _ | o
  · rfl
  · have hij : i ≠ j := fun h => hji h.symm
    simp [hij]

/-- What stands where after an entry was released. -/
theorem get_release (t : SlotTable α) (i j : ℕ) (f : α → α) (dead : α → Bool) :
    (t.release i f dead).get j =
      if j = i then (t.get i).bind fun x => if dead (f x) then none else some (f x)
      else t.get j := by
  rcases h : t.get i with _ | x
  · rw [release, h]
    split_ifs with hj
    · rw [hj, h]
      rfl
    · rfl
  rw [release, h, Option.bind_some]
  by_cases hd : dead (f x) = true
  · simp [hd, get_clear]
  · simp [hd, get_put]

/-! What holds of every entry of a table. -/

/-- What is left after a slot was cleared was there. -/
theorem get_of_get_clear {x : α} (h : (t.clear i).get j = some x) : t.get j = some x := by
  rw [get_clear] at h
  split at h
  · cases h
  · exact h

/-- What holds of every entry and of a new one holds after it is put. -/
theorem forall_put {P : ℕ → α → Prop} {y : α} (hy : P i y) (h : ∀ j x, t.get j = some x → P j x) :
    ∀ j x, (t.put i (some y)).get j = some x → P j x := by
  intro j x hx
  rw [get_put] at hx
  split at hx
  next hj =>
    cases hx
    rwa [hj]
  · exact h j x hx

/-- What a change keeps holds of every entry after it. -/
theorem forall_modify {P : ℕ → α → Prop} {f : α → α} (hf : ∀ x, P i x → P i (f x))
    (h : ∀ j x, t.get j = some x → P j x) : ∀ j x, (t.modify i f).get j = some x → P j x := by
  intro j x hx
  rw [get_modify] at hx
  split at hx
  next hj =>
    obtain ⟨y, hy, rfl⟩ := Option.map_eq_some_iff.mp hx
    rw [hj]
    exact hf y (h i y hy)
  · exact h j x hx

/-- The next slot is free. -/
theorem get_nextIdx (t : SlotTable α) : t.get t.nextIdx = none := by
  unfold nextIdx
  rcases h : t.slots.findIdx? Option.isNone with _ | i
  · exact get_eq_none_of_le (by simp)
  obtain ⟨hlt, hnone, -⟩ := List.findIdx?_eq_some_iff_getElem.mp h
  simp only [Option.getD_some, get, List.getD_eq_getElem?_getD,
    List.getElem?_eq_getElem hlt]
  simpa using hnone

/-- What stands where after an allocation. -/
theorem get_alloc (t : SlotTable α) (x : α) (j : ℕ) :
    (t.alloc x).2.get j = if j = t.nextIdx then some x else t.get j :=
  get_put t _ j _

/-- Which slot is free next does not depend on what the last one was filled with. -/
theorem nextIdx_alloc (t : SlotTable α) (x y : α) :
    (t.alloc x).2.nextIdx = (t.alloc y).2.nextIdx := by
  have hfree : ∀ u : SlotTable α,
      u.nextIdx =
        ((u.slots.map Option.isNone).findIdx? id).getD (u.slots.map Option.isNone).length := by
    intro u
    rw [nextIdx, List.findIdx?_map, List.length_map]
    rfl
  rw [hfree, hfree]
  simp [alloc, put]

/-- A slot that is taken and given back. -/
theorem get_clear_alloc (t : SlotTable α) (x : α) (i : ℕ) :
    ((t.alloc x).2.clear t.nextIdx).get i = t.get i := by
  rw [get_clear, get_alloc]
  split_ifs with hi
  · rw [hi, get_nextIdx]
  · rfl

/-! ### Weighted sums over the live entries -/

/-- The weight of a slot: zero when it is free. -/
def weight (f : α → ℕ) (o : Option α) : ℕ := o.elim 0 f

/-- A free slot weighs nothing. -/
@[simp] theorem weight_none (f : α → ℕ) : weight f none = 0 := rfl

/-- A used slot weighs what its entry does. -/
@[simp] theorem weight_some (f : α → ℕ) (x : α) : weight f (some x) = f x := rfl

/-- The sum of a weight over the live entries. -/
def total (t : SlotTable α) (f : α → ℕ) : ℕ := (t.slots.map (weight f)).sum

/-- The sum can be taken over any range that covers the table. -/
theorem total_eq_sum_range (t : SlotTable α) (f : α → ℕ) {n : ℕ} (hn : t.slots.length ≤ n) :
    t.total f = ∑ i ∈ Finset.range n, weight f (t.get i) := by
  obtain ⟨slots⟩ := t
  induction slots generalizing n with
  | nil => simp [total, get]
  | cons o slots ih =>
    obtain ⟨m, rfl⟩ : ∃ m, n = m + 1 := ⟨n - 1, by simp at hn; omega⟩
    have hm : slots.length ≤ m := by simpa using hn
    rw [Finset.sum_range_succ']
    have hrest := ih hm
    simp only [total, get, List.map_cons, List.sum_cons, List.getD_cons_succ,
      List.getD_cons_zero] at hrest ⊢
    rw [hrest, add_comm]

variable {u : SlotTable β} {f : α → ℕ}

/-- Slots of equal weights have equal totals. -/
theorem total_congr {g : β → ℕ} (h : ∀ i, weight f (t.get i) = weight g (u.get i)) :
    t.total f = u.total g := by
  rw [total_eq_sum_range t f (le_max_left _ u.slots.length),
    total_eq_sum_range u g (le_max_right t.slots.length _)]
  exact Finset.sum_congr rfl fun i _ => h i

/-- **Change of one slot**: the sum moves by the difference of the weights of that slot. -/
theorem total_update {g : β → ℕ} (i : ℕ)
    (h : ∀ j, j ≠ i → weight g (u.get j) = weight f (t.get j)) :
    u.total g + weight f (t.get i) = t.total f + weight g (u.get i) := by
  set n := max (max t.slots.length u.slots.length) (i + 1) with hn
  have hi : i ∈ Finset.range n := Finset.mem_range.mpr (by omega)
  rw [total_eq_sum_range t f (n := n) (by omega), total_eq_sum_range u g (n := n) (by omega),
    ← Finset.add_sum_erase _ _ hi, ← Finset.add_sum_erase _ _ hi]
  have hrest : ∑ j ∈ (Finset.range n).erase i, weight g (u.get j) =
      ∑ j ∈ (Finset.range n).erase i, weight f (t.get j) :=
    Finset.sum_congr rfl fun j hj => h j (Finset.ne_of_mem_erase hj)
  omega

/-- The total of a sum of weights. -/
theorem total_add (t : SlotTable α) (f g : α → ℕ) :
    (t.total fun x => f x + g x) = t.total f + t.total g := by
  simp only [total_eq_sum_range t _ le_rfl, ← Finset.sum_add_distrib]
  refine Finset.sum_congr rfl fun i _ => ?_
  rcases t.get i with _ | x <;> rfl

/-- **Counting through references**: the weights that the entries of `t` refer to in `u`
are those of `u`, each as often as it is referred to. -/
theorem total_join (t : SlotTable α) (u : SlotTable β) (key : α → Option ℕ) (w : β → ℕ) :
    (t.total fun a => weight w ((key a).bind u.get)) = ∑ j ∈ Finset.range u.slots.length,
      (t.total fun a => if key a = some j then 1 else 0) * weight w (u.get j) := by
  have hkey : ∀ a, weight w ((key a).bind u.get) = ∑ j ∈ Finset.range u.slots.length,
      (if key a = some j then 1 else 0) * weight w (u.get j) := by
    intro a
    rcases hk : key a with _ | j
    · simp
    simp only [Option.bind_some, Option.some.injEq, ite_mul, one_mul, zero_mul,
      Finset.sum_ite_eq, Finset.mem_range]
    split
    · rfl
    next hj => rw [get_eq_none_of_le (not_lt.mp hj), weight_none]
  have hweight : ∀ i, weight (fun a => weight w ((key a).bind u.get)) (t.get i) =
      ∑ j ∈ Finset.range u.slots.length,
        weight (fun a => if key a = some j then 1 else 0) (t.get i) * weight w (u.get j) := by
    intro i
    rcases t.get i with _ | a
    · simp
    · exact hkey a
  rw [total_eq_sum_range t _ le_rfl, Finset.sum_congr rfl fun i _ => hweight i, Finset.sum_comm]
  refine Finset.sum_congr rfl fun j _ => ?_
  rw [← Finset.sum_mul, ← total_eq_sum_range t _ le_rfl]

/-- When every live entry of `u` is referred to by exactly one entry of `t`, the weights
add up to those of `u`. -/
theorem total_join_of_one (key : α → Option ℕ) (w : β → ℕ)
    (h : ∀ j x, u.get j = some x → (t.total fun a => if key a = some j then 1 else 0) = 1) :
    (t.total fun a => weight w ((key a).bind u.get)) = u.total w := by
  rw [total_join, total_eq_sum_range u w le_rfl]
  refine Finset.sum_congr rfl fun j _ => ?_
  rcases hj : u.get j with _ | x
  · simp
  · rw [h j x hj, one_mul]

/-- The total after a slot was set. -/
theorem total_put (t : SlotTable α) (f : α → ℕ) (i : ℕ) (o : Option α) :
    (t.put i o).total f + weight f (t.get i) = t.total f + weight f o := by
  have h := total_update (t := t) (u := t.put i o) (f := f) (g := f) i
    fun j hj => by rw [get_put_of_ne t o hj]
  rwa [get_put_self] at h

/-- The total after a free slot was set. -/
theorem total_put_of_free (f : α → ℕ) (x : α) (h : t.get i = none) :
    (t.put i (some x)).total f = t.total f + f x := by
  simpa [h] using total_put t f i (some x)

/-- The total after an allocation. -/
theorem total_alloc (t : SlotTable α) (f : α → ℕ) (x : α) :
    (t.alloc x).2.total f = t.total f + f x :=
  total_put_of_free f x (get_nextIdx t)

/-- The total after a slot was cleared. -/
theorem total_clear (t : SlotTable α) (f : α → ℕ) (i : ℕ) :
    (t.clear i).total f + weight f (t.get i) = t.total f := by
  have h := total_update (t := t) (u := t.clear i) (f := f) (g := f) i
    fun j hj => by rw [get_clear, if_neg hj]
  simpa [get_clear] using h

/-- The total after an entry was changed. -/
theorem total_modify (t : SlotTable α) (f : α → ℕ) (i : ℕ) (m : α → α) :
    (t.modify i m).total f + weight f (t.get i) = t.total f + weight f ((t.get i).map m) := by
  have h := total_update (t := t) (u := t.modify i m) (f := f) (g := f) i
    fun j hj => by rw [get_modify, if_neg hj]
  rwa [get_modify, if_pos rfl] at h

/-- A change of entries that keeps their weights keeps the sum. -/
theorem total_modify_of_eq (t : SlotTable α) (i : ℕ) {m : α → α} (h : ∀ x, f (m x) = f x) :
    (t.modify i m).total f = t.total f := by
  refine total_congr fun j => ?_
  rw [get_modify]
  split
  next hj =>
    subst hj
    rcases t.get j with _ | x
    · rfl
    · exact h x
  · rfl

/-- No entry weighs more than the table. -/
theorem le_total {x : α} (h : t.get i = some x) : f x ≤ t.total f := by
  have hsum := total_clear t f i
  rw [h, weight_some] at hsum
  omega

/-- Releasing a share of an entry: when a freed entry weighs nothing, the slot weighs
what the changed entry weighs, freed or not. -/
theorem weight_get_release (t : SlotTable α) {g : α → ℕ} (i j : ℕ) (f : α → α)
    {dead : α → Bool} (hdead : ∀ x, dead x = true → g x = 0) :
    weight g ((t.release i f dead).get j) =
      if j = i then weight (fun x => g (f x)) (t.get i) else weight g (t.get j) := by
  rw [get_release]
  split_ifs with hj
  · rcases t.get i with _ | x
    · rfl
    simp only [Option.bind_some, weight_some]
    split
    next hd => exact (hdead _ hd).symm
    · rfl
  · rfl

/-- A table weighs nothing when no entry does. -/
theorem total_eq_zero_iff : t.total f = 0 ↔ ∀ i x, t.get i = some x → f x = 0 := by
  constructor
  · intro h i x hx
    exact Nat.eq_zero_of_le_zero (h ▸ le_total hx)
  intro h
  rw [total_eq_sum_range t f le_rfl]
  refine Finset.sum_eq_zero fun i _ => ?_
  rcases hi : t.get i with _ | x
  · rfl
  · exact h i x hi

/-- A table weighs something when an entry does. -/
theorem total_pos_iff : 0 < t.total f ↔ ∃ i x, t.get i = some x ∧ 0 < f x := by
  rw [Nat.pos_iff_ne_zero, Ne, total_eq_zero_iff]
  push Not
  simp [Nat.pos_iff_ne_zero]

/-! ### Rebuilding a table from its live entries -/

/-- The entries are what stands in the slots. -/
theorem mem_entries {x : α} : (i, x) ∈ t.entries ↔ t.get i = some x := by
  unfold entries get
  simp only [List.mem_filterMap, Option.map_eq_some_iff, Prod.mk.injEq, Prod.exists,
    List.getD_eq_getElem?_getD]
  constructor
  · rintro ⟨o, n, hmem, y, rfl, rfl, rfl⟩
    rw [List.mem_zipIdx_iff_getElem?] at hmem
    simp [hmem]
  intro h
  refine ⟨some x, i, ?_, x, rfl, rfl, rfl⟩
  rw [List.mem_zipIdx_iff_getElem?]
  rcases hi : t.slots[i]? with _ | o
  · simp [hi] at h
  · simpa [hi] using h

/-- A table made of entries takes the last one last. -/
theorem ofEntries_concat (es : List (ℕ × α)) (e : ℕ × α) :
    ofEntries (es ++ [e]) = (ofEntries es).put e.1 (some e.2) := by
  rw [ofEntries, List.foldl_append]
  rfl

/-- Whatever a rebuilt table holds was listed. -/
theorem mem_of_get_ofEntries {es : List (ℕ × α)} {x : α} (h : (ofEntries es).get i = some x) :
    (i, x) ∈ es := by
  induction es using List.reverseRecOn with
  | nil => cases h
  | append_singleton es e ih =>
    rw [ofEntries_concat, get_put] at h
    split at h
    next hi =>
      cases h
      simp [hi]
    · exact List.mem_append_left _ (ih h)

/-- No slot is listed twice. -/
theorem pairwise_entries (t : SlotTable α) : t.entries.Pairwise fun a b => a.1 ≠ b.1 := by
  refine List.Pairwise.filterMap _ ?_ (R := fun a b : Option α × ℕ => a.2 ≠ b.2) ?_
  · rintro ⟨_ | x, i⟩ ⟨_ | y, j⟩ hne <;> simp_all
  · rw [← List.pairwise_map, List.zipIdx_map_snd]
    exact List.nodup_range'

/-- A table rebuilt from a list without conflicting entries holds exactly the list. -/
theorem get_ofEntries {es : List (ℕ × α)}
    (huniq : ∀ i x y, (i, x) ∈ es → (i, y) ∈ es → x = y) (i : ℕ) (x : α) :
    (ofEntries es).get i = some x ↔ (i, x) ∈ es := by
  refine ⟨mem_of_get_ofEntries, fun hmem => ?_⟩
  induction es using List.reverseRecOn with
  | nil => cases hmem
  | append_singleton es e ih =>
    rw [ofEntries_concat, get_put]
    split
    next hi =>
      have he : (i, e.2) ∈ es ++ [e] := by simp [hi]
      rw [huniq i e.2 x he hmem]
    next hi =>
      refine ih (fun j y z hy hz => huniq j y z (List.mem_append_left _ hy)
        (List.mem_append_left _ hz)) ?_
      rcases List.mem_append.mp hmem with h | h
      · exact h
      · rw [List.mem_singleton] at h
        exact absurd (congrArg Prod.fst h) hi

/-- Part of a table is rebuilt from a renumbered and translated list of its entries, when
no live slot is renumbered. -/
theorem get_ofEntries_filter_map (keep : ℕ × α → Bool) {num : ℕ → ℕ} (f : α → β)
    (hnum : ∀ i x, t.get i = some x → num i = i) (i : ℕ) :
    (ofEntries ((t.entries.filter keep).map fun e => (num e.1, f e.2))).get i =
      ((t.get i).filter fun x => keep (i, x)).map f := by
  have hmem : ∀ j y, (j, y) ∈ (t.entries.filter keep).map (fun e => (num e.1, f e.2)) ↔
      ∃ x, t.get j = some x ∧ keep (j, x) = true ∧ f x = y := by
    intro j y
    simp only [List.mem_map, List.mem_filter, Prod.mk.injEq, Prod.exists]
    constructor
    · rintro ⟨k, x, ⟨hx, hkeep⟩, rfl, rfl⟩
      rw [mem_entries] at hx
      rw [hnum k x hx]
      exact ⟨x, hx, hkeep, rfl⟩
    · rintro ⟨x, hx, hkeep, rfl⟩
      exact ⟨j, x, ⟨mem_entries.mpr hx, hkeep⟩, hnum j x hx, rfl⟩
  refine Option.ext fun y => ?_
  rw [get_ofEntries, hmem, Option.map_eq_some_iff]
  · simp [and_assoc]
  intro j x y hx hy
  obtain ⟨x', hx', -, rfl⟩ := (hmem j x).mp hx
  obtain ⟨y', hy', -, rfl⟩ := (hmem j y).mp hy
  rw [Option.some.inj (hx'.symm.trans hy')]

/-- A table is rebuilt from a renumbered and translated list of its entries, when no live
slot is renumbered. -/
theorem get_ofEntries_map {num : ℕ → ℕ} {f : α → β} (hnum : ∀ i x, t.get i = some x → num i = i)
    (i : ℕ) : (ofEntries (t.entries.map fun e => (num e.1, f e.2))).get i = (t.get i).map f := by
  have h := get_ofEntries_filter_map (fun _ => true) f hnum i
  have hall : (t.get i).filter (fun _ => true) = t.get i := by cases t.get i <;> rfl
  rwa [List.filter_true, hall] at h

end SlotTable
