import Mathlib.Data.List.Basic

/-!
# Labelled Traces

A transition relation with labels, its finite traces, and a rule for properties of the order of
labels: in a state that only one kind of label leads out of, and in which some labels cannot
occur, none of these occurs before one of that kind.

## Main results

* `Trace.append`, `Trace.split` — traces are put together and taken apart;
* `Trace.renewed` — the rule for the order of labels.
-/

variable {σ L : Type*}

/-- The labels on a way from one state to another. -/
inductive Trace (step : σ → L → σ → Prop) : σ → List L → σ → Prop
  | nil (s : σ) : Trace step s [] s
  | cons {s t u : σ} {l : L} {labels : List L} (head : step s l t)
      (tail : Trace step t labels u) : Trace step s (l :: labels) u

namespace Trace

variable {step : σ → L → σ → Prop} {s t u : σ} {l : L} {labels labels' : List L}

theorem single (h : step s l t) : Trace step s [l] t := .cons h (.nil t)

theorem append (h : Trace step s labels t) (h' : Trace step t labels' u) :
    Trace step s (labels ++ labels') u := by
  induction h with
  | nil => exact h'
  | cons head _ ih => exact .cons head (ih h')

/-- A trace passes through a state at every label. -/
theorem split {before after : List L} (h : Trace step s (before ++ l :: after) u) :
    ∃ t t', Trace step s before t ∧ step t l t' ∧ Trace step t' after u := by
  induction before generalizing s with
  | nil =>
    cases h with
    | cons head tail => exact ⟨s, _, .nil s, head, tail⟩
  | cons b before ih =>
    cases h with
    | cons head tail =>
      obtain ⟨t, t', hbefore, hstep, hafter⟩ := ih tail
      exact ⟨t, t', .cons head hbefore, hstep, hafter⟩

/-- **The order of labels.** Where `Q` holds, a step that does not renew keeps `Q` and is of no
concern; so a label of concern comes after one that renews. -/
theorem renewed {Q : σ → Prop} {renews concerns : L → Prop} {before after : List L}
    (h : Trace step s (before ++ l :: after) u) (hQ : Q s)
    (hstep : ∀ s l t, step s l t → Q s → renews l ∨ Q t ∧ ¬ concerns l)
    (hapart : ∀ l, renews l → ¬ concerns l) (hl : concerns l) : ∃ m ∈ before, renews m := by
  induction before generalizing s with
  | nil =>
    cases h with
    | cons head =>
      rcases hstep _ _ _ head hQ with hrenews | ⟨-, hsilent⟩
      · exact absurd hl (hapart l hrenews)
      · exact absurd hl hsilent
  | cons b before ih =>
    cases h with
    | cons head tail =>
      rcases hstep _ _ _ head hQ with hrenews | ⟨hQ', -⟩
      · exact ⟨b, List.mem_cons_self, hrenews⟩
      · obtain ⟨m, hm, hrenews⟩ := ih tail hQ'
        exact ⟨m, List.mem_cons_of_mem b hm, hrenews⟩

end Trace
