import Mathlib.Data.List.Basic

/-!
# Queues That Drop From the Front

A bounded queue whose writer makes room by dropping units of a fixed size from the front, and a
reader that takes what is left in pieces.

## Main definitions

* `LossyQueue.makeRoom` — the loop that drops;
* `LossyQueue.CutOut` — blocks cut out of a stream in whole units, in order and without overlap.

## Main results

* `LossyQueue.exists_makeRoom` — whole units go, and there is room afterwards.
-/

namespace LossyQueue

variable {α : Type*}

/-- Drop units from the front until `need` more items fit, or nothing is left. -/
def makeRoom (capacity unit need : ℕ) (q : List α) : List α :=
  if capacity < q.length + need ∧ 0 < min unit q.length then
    makeRoom capacity unit need (q.drop unit)
  else q
termination_by q.length
decreasing_by
  rw [List.length_drop]
  omega

theorem makeRoom_of_le {capacity unit need : ℕ} {q : List α} (h : q.length + need ≤ capacity) :
    makeRoom capacity unit need q = q := by
  rw [makeRoom, if_neg (by omega)]

/-- **Making room.** As long as a unit is left whenever there is no room, whole units are
dropped until there is. -/
theorem exists_makeRoom {capacity unit need : ℕ} (hunit : 0 < unit)
    (hneed : need + unit ≤ capacity + 1) (q : List α) :
    ∃ k, makeRoom capacity unit need q = q.drop (k * unit) ∧ k * unit ≤ q.length ∧
      (makeRoom capacity unit need q).length + need ≤ capacity := by
  fun_induction makeRoom capacity unit need q with
  | case1 q hfull ih =>
    obtain ⟨k, heq, hk, hroom⟩ := ih
    rw [List.length_drop] at hk
    rw [heq, List.drop_drop] at hroom ⊢
    have hmul : (k + 1) * unit = unit + k * unit := by rw [Nat.add_mul, Nat.one_mul, Nat.add_comm]
    exact ⟨k + 1, by rw [hmul], by omega, hroom⟩
  | case2 q hroom => exact ⟨0, by simp, by simp, by omega⟩

/-- Blocks cut out of a stream, the last one ending at a position: each of whole units, from a
boundary of units, and none before the end of another. -/
inductive CutOut (unit : ℕ) (stream : List α) : List (List α) → ℕ → Prop
  | none : CutOut unit stream [] 0
  | block {blocks : List (List α)} {stop start : ℕ} {b : List α} : CutOut unit stream blocks stop →
      stop ≤ start → unit ∣ start → unit ∣ b.length → b <+: stream.drop start →
      CutOut unit stream (blocks ++ [b]) (start + b.length)

theorem CutOut.append {unit stop : ℕ} {stream : List α} {blocks : List (List α)}
    (h : CutOut unit stream blocks stop) (more : List α) :
    CutOut unit (stream ++ more) blocks stop := by
  induction h with
  | none => exact .none
  | block _ hle hstart hlen hcut ih =>
    refine ih.block hle hstart hlen (hcut.trans ?_)
    rw [List.drop_append]
    exact List.prefix_append _ _

section Uniform

variable {unit : ℕ} {blocks : List (List α)}

theorem take_flatten (h : ∀ b ∈ blocks, b.length = unit) (i : ℕ) :
    blocks.flatten.take (i * unit) = (blocks.take i).flatten := by
  induction blocks generalizing i with
  | nil => simp
  | cons b blocks ih =>
    obtain ⟨hb, hblocks⟩ := List.forall_mem_cons.mp h
    cases i with
    | zero => simp
    | succ i =>
      rw [List.flatten_cons, Nat.succ_mul, Nat.add_comm, ← hb, List.take_length_add_append, hb,
        ih hblocks]
      rfl

theorem drop_flatten (h : ∀ b ∈ blocks, b.length = unit) (i : ℕ) :
    blocks.flatten.drop (i * unit) = (blocks.drop i).flatten := by
  have hsplit := blocks.flatten.take_append_drop (i * unit)
  rw [take_flatten h] at hsplit
  have hboth := congrArg List.flatten (blocks.take_append_drop i)
  rw [List.flatten_append] at hboth
  exact List.append_cancel_left (hsplit.trans hboth.symm)

theorem length_flatten (h : ∀ b ∈ blocks, b.length = unit) :
    blocks.flatten.length = blocks.length * unit := by
  rw [List.length_flatten, List.map_congr_left h]
  simp

end Uniform

end LossyQueue
