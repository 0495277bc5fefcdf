import PosixKernel.SysvIpc

/-!
# Operations on Semaphore Sets

What a list of operations on a semaphore set is for: to perform the operations one after another,
or none of them. The code checks all operations against the values that the set has at the start
and then performs them. If a semaphore occurs twice, an operation is checked against a value that
it will not find. Nothing is checked against the greatest value.

## Main definitions

* `SemSet.sequential` — the operations performed one after another;
* `SemSet.AsSequential` — a call does what `SemSet.sequential` says.

## Main results

* `SemSet.sequential_isSome_iff` — when the operations can be performed;
* `semop_sequential_iff` — a call does what it is for exactly if the check at the start agrees with
  the checks in turn.
-/

namespace PosixKernel

namespace SemSet

/-! ### The operations one after another -/

/-- The value of each semaphore, and the process that operated on it last. -/
def view (values : List SemValue) : List (ℤ × ℕ) := values.map fun v => (v.cur, v.pid)

/-- A value after an operation that can be performed on it. -/
def afterOp (v op : ℤ) : Option ℤ :=
  if op = 0 then if v = 0 then some v else none
  else if 0 ≤ v + op ∧ v + op ≤ 32767 then some (v + op) else none

/-- Perform one operation. -/
def stepOp (pid : ℕ) (sems : List (ℤ × ℕ)) (op : SemOp) : Option (List (ℤ × ℕ)) :=
  (sems[op.num.toNat]?).bind fun sem =>
    (afterOp sem.1 op.op.toInt).map fun v => sems.set op.num.toNat (v, pid)

/-- Perform operations one after another. -/
def sequential (pid : ℕ) : List (ℤ × ℕ) → List SemOp → Option (List (ℤ × ℕ))
  | sems, [] => some sems
  | sems, op :: rest => (stepOp pid sems op).bind fun sems' => sequential pid sems' rest

/-- **A call is a sequential execution**: it succeeds exactly if the operations can be performed one
after another, with that effect, and otherwise it changes nothing. -/
def AsSequential (s : SemSet) (sops : List SemOp) (pid : ℕ) (now : ℤ) : Prop :=
  match sequential pid (view s.values) sops with
  | some sems =>
    (s.perform sops pid now).1 = .ok () ∧ view (s.perform sops pid now).2.values = sems
  | none => (∃ e, (s.perform sops pid now).1 = .error e) ∧ (s.perform sops pid now).2 = s

/-! ### When the operations are possible -/

/-- What operations add to a semaphore. -/
def change (sops : List SemOp) (num : UInt16) : ℤ :=
  ((sops.filter (·.num = num)).map (·.op.toInt)).sum

/-- Every operation is possible on what its semaphore holds at the start, the greatest value
apart. -/
def AtStart (sems : List (ℤ × ℕ)) (sops : List SemOp) : Prop :=
  ∀ op ∈ sops, ∃ sem, sems[op.num.toNat]? = some sem ∧
    if op.op = 0 then sem.1 = 0 else 0 ≤ sem.1 + op.op.toInt

/-- Every operation is possible on what its semaphore holds after the operations before it. -/
def InTurn (sems : List (ℤ × ℕ)) (sops : List SemOp) : Prop :=
  ∀ earlier op later, sops = earlier ++ op :: later →
    ∃ sem, sems[op.num.toNat]? = some sem ∧
      (afterOp (sem.1 + change earlier op.num) op.op.toInt).isSome

theorem change_cons (op : SemOp) (sops : List SemOp) (num : UInt16) :
    change (op :: sops) num = (if op.num = num then op.op.toInt else 0) + change sops num := by
  rw [change, List.filter_cons]
  by_cases h : op.num = num
  · simp [h, change]
  · simp [h, change]

theorem afterOp_eq_some {v op v' : ℤ} (h : afterOp v op = some v') : v' = v + op := by
  rw [afterOp] at h
  split at h
  next hop =>
    split at h
    · rw [hop, add_zero]
      exact (Option.some.inj h).symm
    · cases h
  next =>
    split at h
    · exact (Option.some.inj h).symm
    · cases h

variable {pid : ℕ} {sems : List (ℤ × ℕ)}

/-- A step, taken apart. -/
theorem stepOp_eq_some {sems' : List (ℤ × ℕ)} {op : SemOp} : stepOp pid sems op = some sems' ↔
      ∃ sem v, sems[op.num.toNat]? = some sem ∧ afterOp sem.1 op.op.toInt = some v ∧
        sems.set op.num.toNat (v, pid) = sems' := by
  simp only [stepOp, Option.bind_eq_some_iff, Option.map_eq_some_iff]
  exact ⟨fun ⟨sem, hsem, v, hv⟩ => ⟨sem, v, hsem, hv⟩, fun ⟨sem, v, hsem, hv⟩ => ⟨sem, hsem, v, hv⟩⟩

/-- After one operation the others find its effect. -/
theorem inTurn_cons {sems' : List (ℤ × ℕ)} {op : SemOp} {sops : List SemOp}
    (h : stepOp pid sems op = some sems') : InTurn sems (op :: sops) ↔ InTurn sems' sops := by
  obtain ⟨sem, v, hsem, hv, rfl⟩ := stepOp_eq_some.mp h
  obtain rfl := afterOp_eq_some hv
  have hlt : op.num.toNat < sems.length := (List.getElem?_eq_some_iff.mp hsem).1
  -- What a later operation finds is the same, counted from before or from after this one.
  have hfinds : ∀ (earlier : List SemOp) (next : SemOp),
      (∃ x, sems[next.num.toNat]? = some x ∧
          (afterOp (x.1 + change (op :: earlier) next.num) next.op.toInt).isSome) ↔
        ∃ x, (sems.set op.num.toNat (sem.1 + op.op.toInt, pid))[next.num.toNat]? = some x ∧
          (afterOp (x.1 + change earlier next.num) next.op.toInt).isSome := by
    intro earlier next
    rw [change_cons, List.getElem?_set]
    by_cases hnum : op.num = next.num
    · rw [← hnum, if_pos rfl, if_pos rfl, if_pos hlt, hsem]
      simp [Option.some.injEq, add_assoc]
    · rw [if_neg hnum, if_neg fun hnat => hnum (UInt16.toNat.inj hnat), zero_add]
  constructor
  · intro hturn earlier next later hsplit
    exact (hfinds earlier next).mp (hturn (op :: earlier) next later (by rw [hsplit]; rfl))
  intro hturn earlier next later hsplit
  cases earlier with
  | nil =>
    obtain ⟨rfl, -⟩ := List.cons.inj hsplit
    refine ⟨sem, hsem, ?_⟩
    rw [show change [] op.num = 0 from rfl, add_zero, hv]
    rfl
  | cons first earlier =>
    obtain ⟨rfl, hrest⟩ := List.cons.inj hsplit
    exact (hfinds earlier next).mpr (hturn earlier next later hrest)

/-- **The operations can be performed** one after another exactly if each is possible in turn. -/
theorem sequential_isSome_iff (pid : ℕ) (sems : List (ℤ × ℕ)) (sops : List SemOp) :
    (sequential pid sems sops).isSome ↔ InTurn sems sops := by
  induction sops generalizing sems with
  | nil =>
    refine iff_of_true rfl fun earlier op later hsplit => ?_
    simp at hsplit
  | cons op sops ih =>
    rw [sequential]
    rcases hstep : stepOp pid sems op with _ | sems'
    · refine iff_of_false (by simp) fun hturn => ?_
      obtain ⟨sem, hsem, hpossible⟩ := hturn [] op sops rfl
      rw [show change [] op.num = 0 from rfl, add_zero] at hpossible
      obtain ⟨v, hv⟩ := Option.isSome_iff_exists.mp hpossible
      rw [stepOp_eq_some.mpr ⟨sem, v, hsem, hv, rfl⟩] at hstep
      cases hstep
    · rw [Option.bind_some, ih, inTurn_cons hstep]

/-! ### What the code does -/

theorem getElem?_view (values : List SemValue) (i : ℕ) :
    (view values)[i]? = (values[i]?).map fun v => (v.cur, v.pid) := List.getElem?_map ..

theorem refusal_eq_none (values : List SemValue) (op : SemOp) :
    refusal values op = none ↔ ∃ sem, (view values)[op.num.toNat]? = some sem ∧
      if op.op = 0 then sem.1 = 0 else 0 ≤ sem.1 + op.op.toInt := by
  rw [refusal, getElem?_view]
  rcases values[op.num.toNat]? with _ | v
  · simp
  simp only [Option.map_some, Option.some.injEq, exists_eq_left']
  have hcur : 0 ≤ v.cur := Int.natCast_nonneg _
  by_cases hzero : op.op = 0
  · rw [if_pos hzero, if_pos hzero, hzero, if_neg (by decide)]
    simp
  rw [if_neg hzero, if_neg hzero]
  by_cases hneg : op.op < 0
  · rw [if_pos hneg]
    simp
  rw [if_neg hneg]
  have hpos : (0 : Int16).toInt ≤ op.op.toInt := Int16.le_iff_toInt_le.mp (Int16.not_lt.mp hneg)
  exact iff_of_true rfl (by rw [Int16.toInt_zero] at hpos; omega)

/-- **When a call succeeds**, and what it does. -/
theorem perform_eq (s : SemSet) (sops : List SemOp) (pid : ℕ) (now : ℤ) :
    (AtStart (view s.values) sops ∧ s.perform sops pid now =
        (.ok (), { s with values := sops.foldl (applyOp pid) s.values, otime := now })) ∨
      (¬ AtStart (view s.values) sops ∧ ∃ e, s.perform sops pid now = (.error e, s)) := by
  have hstart : sops.findSome? (refusal s.values) = none ↔ AtStart (view s.values) sops := by
    rw [List.findSome?_eq_none_iff, AtStart]
    exact forall₂_congr fun op _ => refusal_eq_none s.values op
  rw [perform]
  rcases hrefused : sops.findSome? (refusal s.values) with _ | e
  · exact .inl ⟨hstart.mp hrefused, rfl⟩
  refine .inr ⟨fun h => ?_, e, rfl⟩
  rw [hstart.mpr h] at hrefused
  cases hrefused

/-- The new value fits into 16 bits. -/
theorem cur_applied {v : SemValue} {op : Int16} {n : ℤ} (pid : ℕ)
    (h : afterOp v.cur op.toInt = some n) :
    SemValue.cur { v with
      val := if op = 0 then v.val else UInt16.ofInt (v.cur + op.toInt), pid := pid } = n := by
  have hn := afterOp_eq_some h
  rw [SemValue.cur]
  by_cases hzero : op = 0
  · rw [if_pos hzero, hn, hzero, Int16.toInt_zero, add_zero]
    rfl
  have hop : op.toInt ≠ 0 := fun heq => hzero (Int16.toInt_inj.mp heq)
  rw [afterOp, if_neg hop] at h
  split at h
  next hrange =>
    rw [if_neg hzero, UInt16.ofInt, UInt16.toNat_ofNat']
    omega
  next => cases h

/-- Where an operation can be performed the code performs it. -/
theorem view_applyOp {values : List SemValue} {op : SemOp}
    (h : stepOp pid (view values) op = some sems) : view (applyOp pid values op) = sems := by
  obtain ⟨sem, v, hsem, hv, rfl⟩ := stepOp_eq_some.mp h
  rw [getElem?_view, Option.map_eq_some_iff] at hsem
  obtain ⟨sv, hsv, rfl⟩ := hsem
  obtain ⟨hi, rfl⟩ := List.getElem?_eq_some_iff.mp hsv
  refine List.ext_getElem? fun j => ?_
  rw [getElem?_view, applyOp, List.getElem?_modify, List.getElem?_set, getElem?_view]
  have hlen : (view values).length = values.length := List.length_map _
  by_cases hj : op.num.toNat = j
  · subst hj
    rw [if_pos rfl, if_pos (by omega), hsv]
    simp only [if_true, Option.map_eq_map, Option.map_some, Option.some.injEq, Prod.mk.injEq,
      and_true]
    exact cur_applied pid hv
  · rw [if_neg hj]
    simp [hj]

theorem view_foldl_applyOp {values : List SemValue} {sops : List SemOp}
    (h : sequential pid (view values) sops = some sems) :
    view (sops.foldl (applyOp pid) values) = sems := by
  induction sops generalizing values with
  | nil => exact Option.some.inj h
  | cons op sops ih =>
    obtain ⟨sems', hstep, hrest⟩ := Option.bind_eq_some_iff.mp h
    refine ih ?_
    rwa [view_applyOp hstep]

end SemSet

/-- **A call on a semaphore set** does what performing its operations one after another does exactly
if the operations are possible on the values at the start just when each is possible in turn. -/
theorem semop_sequential_iff (s : SemSet) (sops : List SemOp) (pid : ℕ) (now : ℤ) :
    s.AsSequential sops pid now ↔
      (SemSet.AtStart (SemSet.view s.values) sops ↔ SemSet.InTurn (SemSet.view s.values) sops) := by
  rw [SemSet.AsSequential]
  rcases hseq : SemSet.sequential pid (SemSet.view s.values) sops with _ | sems
  · have hturn : ¬ SemSet.InTurn (SemSet.view s.values) sops := by
      rw [← SemSet.sequential_isSome_iff pid, hseq]
      simp
    rcases s.perform_eq sops pid now with ⟨hstart, hres⟩ | ⟨hstart, e, hres⟩ <;>
      simp [hres, hstart, hturn]
  have hturn : SemSet.InTurn (SemSet.view s.values) sops := by
    rw [← SemSet.sequential_isSome_iff pid, hseq]
    rfl
  rcases s.perform_eq sops pid now with ⟨hstart, hres⟩ | ⟨hstart, e, hres⟩
  · simp [hres, hstart, hturn, SemSet.view_foldl_applyOp hseq]
  · simp [hres, hstart, hturn]

/-- A set of one semaphore that holds one: what is taken from it twice is checked once, and adding
one before taking two is refused. -/
theorem semop_not_sequential :
    let t := ((IpcTable.new.semget 0 1 0 0 0 0).2.semctl 0 0 SETVAL 1 0).2
    (((t.semop 0 [⟨0, -1, 0⟩, ⟨0, -1, 0⟩] 1 0).2.semSets.lookup 0).map fun s =>
        s.values.map (·.val)) = some [65535] ∧
      (t.semop 0 [⟨0, 1, 0⟩, ⟨0, -2, 0⟩] 1 0).1 = .error .EAGAIN := by
  decide

end PosixKernel
