import Mathlib.Tactic
import PosixKernel.Lib.Ranges

/-!
# Range Locks and the Bytes They Stand For

What advisory locks mean: for every file and owner, which bytes are locked and how. A
request changes the caller's bytes in its range and no others. A table of ranges can only
follow this if it cuts ranges; one that drops the ranges a request overlaps follows it as
long as none of them sticks out.

## Main results

* `represents_drop`, `represents_replace` — dropping ranges that lie inside the request.
-/

/-- Which bytes are locked: by file, owner, byte and lock type. -/
def HeldBytes (κ ο τ : Type) : Type := κ → ο → ℤ → τ → Prop

/-- Nothing is locked. -/
def HeldBytes.none {κ ο τ : Type} : HeldBytes κ ο τ := fun _ _ _ _ => False

/-- A request by one owner on the bytes from `lo` up to `hi` of a file: they get the type
asked for, or are unlocked. -/
def HeldBytes.request {κ ο τ : Type} (held : HeldBytes κ ο τ) (file : κ) (owner : ο) (lo hi : ℤ)
    (lockType : Option τ) : HeldBytes κ ο τ := fun file' owner' b lockType' =>
  (file' = file ∧ owner' = owner ∧ lo ≤ b ∧ b < hi ∧ lockType = some lockType') ∨
    (¬ (file' = file ∧ owner' = owner ∧ lo ≤ b ∧ b < hi) ∧ held file' owner' b lockType')

/-- All locks of an owner are released. -/
def HeldBytes.release {κ ο τ : Type} (held : HeldBytes κ ο τ) (owner : ο) : HeldBytes κ ο τ :=
  fun file' owner' b lockType' => owner' ≠ owner ∧ held file' owner' b lockType'

variable {κ ο τ ρ : Type} {L : Layout ρ ℤ (κ × ο × τ)} {l l' : List ρ} {held : HeldBytes κ ο τ}
  {file : κ} {owner : ο} {lo hi : ℤ}

/-- A list of ranges stands for locked bytes. -/
def Represents (L : Layout ρ ℤ (κ × ο × τ)) (l : List ρ) (held : HeldBytes κ ο τ) : Prop :=
  ∀ file owner b lockType, L.Holds l b (file, owner, lockType) ↔ held file owner b lockType

/-- The caller's ranges that a request overlaps lie inside it. -/
def CutsNone (L : Layout ρ ℤ (κ × ο × τ)) (l : List ρ) (file : κ) (owner : ο) (lo hi : ℤ) : Prop :=
  ∀ r ∈ l, (L.val r).1 = file → (L.val r).2.1 = owner → L.Meets r lo hi →
    lo ≤ L.lo r ∧ L.hi r ≤ hi

instance [DecidableEq κ] [DecidableEq ο] : Decidable (CutsNone L l file owner lo hi) :=
  inferInstanceAs (Decidable (∀ r ∈ l, _))

/-- Dropping the caller's ranges that an unlocking request overlaps. -/
theorem represents_drop {keep : ρ → Bool} (h : Represents L l held)
    (hkeep : ∀ r ∈ l, keep r = false ↔
      ((L.val r).1 = file ∧ (L.val r).2.1 = owner) ∧ L.Meets r lo hi)
    (hcuts : CutsNone L l file owner lo hi) (hl' : ∀ r, r ∈ l' ↔ r ∈ l.filter keep) :
    Represents L l' (held.request file owner lo hi none) := by
  intro file' owner' b lockType
  rw [Layout.holds_congr hl', Layout.holds_filter (P := fun v => v.1 = file ∧ v.2.1 = owner) hkeep
    fun r hr hP => hcuts r hr hP.1 hP.2, h]
  simp only [HeldBytes.request, reduceCtorEq, and_false, false_or]
  tauto

/-- **Replacing ranges.** Dropping the caller's ranges that a request overlaps, and adding
the range it asks for, is what the bytes ask for, if no range is cut. -/
theorem represents_replace {keep : ρ → Bool} {new : ρ} {lockType : τ} (h : Represents L l held)
    (hkeep : ∀ r ∈ l, keep r = false ↔
      ((L.val r).1 = file ∧ (L.val r).2.1 = owner) ∧ L.Meets r lo hi)
    (hcuts : CutsNone L l file owner lo hi) (hl' : ∀ r, r ∈ l' ↔ r ∈ l.filter keep ++ [new])
    (hlo : L.lo new = lo) (hhi : L.hi new = hi) (hval : L.val new = (file, owner, lockType)) :
    Represents L l' (held.request file owner lo hi (some lockType)) := by
  have hdrop := represents_drop h hkeep hcuts fun _ => Iff.rfl
  intro file' owner' b lockType'
  rw [Layout.holds_congr hl', Layout.holds_append, hdrop, Layout.holds_cons,
    or_iff_left Layout.holds_nil, Layout.Covers, hlo, hhi, hval]
  simp only [HeldBytes.request, reduceCtorEq, and_false, false_or, Option.some.injEq,
    Prod.mk.injEq]
  constructor
  · rintro (hold | ⟨⟨hlo, hhi⟩, rfl, rfl, rfl⟩)
    · exact .inr hold
    · exact .inl ⟨rfl, rfl, hlo, hhi, rfl⟩
  rintro (⟨rfl, rfl, hlo, hhi, rfl⟩ | hold)
  · exact .inr ⟨⟨hlo, hhi⟩, rfl, rfl, rfl⟩
  · exact .inl hold
