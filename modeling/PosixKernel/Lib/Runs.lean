import Mathlib.Logic.Basic

/-!
# Runs of a Step Function

A system that answers every request with a next state runs through a list of requests. A
condition on requests may depend on the state in which each is made; what every such request
preserves holds at the end of every run.

## Main results

* `Runs.invariant` — the induction rule of runs;
* `Runs.forall_take_iff` — a property that exactly the admitted requests preserve;
* `Runs.simulates` — the same for two systems that take the requests side by side;
* `Runs.unwinding` — the same for two runs that differ in the hidden requests only;
* `Runs.foldl_filter` — requests without effect can be left out;
* `Runs.observed` — runs with an observer.
-/

variable {σ α : Type*}

/-- Every request of a run meets the condition in the state in which it is made. -/
def Runs (next : σ → α → σ) (admitted : σ → α → Prop) : σ → List α → Prop
  | _, [] => True
  | s, a :: rest => admitted s a ∧ Runs next admitted (next s a) rest

namespace Runs

variable {next : σ → α → σ} {admitted : σ → α → Prop} {I : σ → Prop} {s : σ} {actions : List α}

instance decidableRuns [∀ s a, Decidable (admitted s a)] :
    ∀ (s : σ) (actions : List α), Decidable (Runs next admitted s actions)
  | _, [] => .isTrue trivial
  | s, a :: rest =>
    have := decidableRuns (next s a) rest
    inferInstanceAs (Decidable (admitted s a ∧ Runs next admitted (next s a) rest))

/-- **Invariants of runs.** -/
theorem invariant (hrun : Runs next admitted s actions) (hI : I s)
    (hstep : ∀ s a, I s → admitted s a → I (next s a)) : I (actions.foldl next s) := by
  induction actions generalizing s with
  | nil => exact hI
  | cons a rest ih => exact ih hrun.2 (hstep s a hI hrun.1)

/-- In the middle of a run the invariant holds, and the next request meets the condition. -/
theorem invariant_at {a : α} {earlier later : List α}
    (hrun : Runs next admitted s (earlier ++ a :: later)) (hI : I s)
    (hstep : ∀ s a, I s → admitted s a → I (next s a)) :
    I (earlier.foldl next s) ∧ admitted (earlier.foldl next s) a := by
  induction earlier generalizing s with
  | nil => exact ⟨hI, hrun.1⟩
  | cons b earlier ih => exact ih hrun.2 (hstep s b hI hrun.1)

/-- **Exact conditions.** Where the admitted requests keep an invariant from which a property
follows, and only they lead to a state with the property, the property holds all along a run exactly
if every request is admitted. -/
theorem forall_take_iff {legal : σ → α → Prop} {P : σ → Prop} (hlegal : Runs next legal s actions)
    (hI : I s) (hP : ∀ s, I s → P s) (hkeeps : ∀ s a, I s → legal s a → admitted s a → I (next s a))
    (honly : ∀ s a, I s → legal s a → P (next s a) → admitted s a) :
    (∀ n, P ((actions.take n).foldl next s)) ↔ Runs next admitted s actions := by
  induction actions generalizing s with
  | nil => exact ⟨fun _ => trivial, fun _ _ => by simpa using hP s hI⟩
  | cons a rest ih =>
    constructor
    · intro h
      have ha := honly s a hI hlegal.1 (by simpa using h 1)
      refine ⟨ha, (ih hlegal.2 (hkeeps s a hI hlegal.1 ha)).mp fun n => ?_⟩
      simpa using h (n + 1)
    rintro ⟨ha, hrest⟩ n
    cases n with
    | zero => exact hP s hI
    | succ n => exact (ih hlegal.2 (hkeeps s a hI hlegal.1 ha)).mpr hrest n

/-- **Simulation.** If every admitted request keeps two systems related, so does a run. -/
theorem simulates {τ : Type*} {next' : τ → α → τ} {R : σ → τ → Prop} {u : τ}
    (hrun : Runs next admitted s actions) (hR : R s u)
    (hstep : ∀ s u a, R s u → admitted s a → R (next s a) (next' u a)) :
    R (actions.foldl next s) (actions.foldl next' u) := by
  induction actions generalizing s u with
  | nil => exact hR
  | cons a rest ih => exact ih hrun.2 (hstep s u a hR hrun.1)

theorem concat_iff {a : α} : Runs next admitted s (actions ++ [a]) ↔
      Runs next admitted s actions ∧ admitted (actions.foldl next s) a := by
  induction actions generalizing s with
  | nil => exact and_comm
  | cons b rest ih =>
    show admitted s b ∧ Runs next admitted (next s b) (rest ++ [a]) ↔
      (admitted s b ∧ Runs next admitted (next s b) rest) ∧ _
    rw [ih, and_assoc]
    rfl

variable (hrun : Runs next admitted s actions)

include hrun

/-- Hidden requests alone do not lead out of a relation that each of them keeps. -/
theorem hidden {R : σ → Prop} {visible : α → Bool} (hnone : actions.filter visible = [])
    (hR : R s) (hstep : ∀ s a, visible a = false → R s → admitted s a → R (next s a)) :
    R (actions.foldl next s) := by
  induction actions generalizing s with
  | nil => exact hR
  | cons a rest ih =>
    rw [List.filter_eq_nil_iff] at hnone
    have ha : visible a = false := eq_false_of_ne_true (hnone a List.mem_cons_self)
    refine ih hrun.2 ?_ (hstep s a ha hR hrun.1)
    exact List.filter_eq_nil_iff.mpr fun b hb => hnone b (List.mem_cons_of_mem a hb)

/-- **Unwinding.** Two runs that make the same visible requests end in related states, if a
hidden request of either keeps the relation and so does a visible request of both. -/
theorem unwinding {R : σ → σ → Prop} {visible : α → Bool} {actions' : List α} {u : σ}
    (hrun' : Runs next admitted u actions')
    (hsame : actions.filter visible = actions'.filter visible) (hR : R s u)
    (hleft : ∀ s u a, visible a = false → R s u → admitted s a → R (next s a) u)
    (hright : ∀ s u a, visible a = false → R s u → admitted u a → R s (next u a))
    (hboth : ∀ s u a, visible a = true → R s u → admitted s a → admitted u a →
      R (next s a) (next u a)) : R (actions.foldl next s) (actions'.foldl next u) := by
  induction actions generalizing s u actions' with
  | nil => exact hrun'.hidden hsame.symm hR fun u a => hright s u a
  | cons a rest ih =>
    cases hvisible : visible a with
    | false =>
      rw [List.filter_cons_of_neg (ne_true_of_eq_false hvisible)] at hsame
      exact ih hrun.2 hrun' hsame (hleft s u a hvisible hR hrun.1)
    | true =>
      rw [List.filter_cons_of_pos hvisible] at hsame
      -- the other run reaches the same request after some hidden ones
      induction actions' generalizing u with
      | nil => exact absurd hsame (List.cons_ne_nil _ _)
      | cons b rest' ih' =>
        cases hb : visible b with
        | false =>
          rw [List.filter_cons_of_neg (ne_true_of_eq_false hb)] at hsame
          exact ih' hrun'.2 hsame (hright s u b hb hR hrun'.1)
        | true =>
          rw [List.filter_cons_of_pos hb] at hsame
          obtain ⟨rfl, hrest⟩ := List.cons.inj hsame
          show R (rest.foldl next (next s a)) (rest'.foldl next (next u a))
          exact ih hrun.2 hrun'.2 hrest (hboth s u a hvisible hR hrun.1 hrun'.1)

/-- **Requests without effect** can be left out of a run. -/
theorem foldl_filter {visible : α → Bool}
    (hskip : ∀ s a, admitted s a → visible a = false → next s a = s) :
    (actions.filter visible).foldl next s = actions.foldl next s := by
  induction actions generalizing s with
  | nil => rfl
  | cons a rest ih =>
    cases hvisible : visible a with
    | false =>
      rw [List.filter_cons_of_neg (ne_true_of_eq_false hvisible), List.foldl_cons,
        ← ih hrun.2, hskip s a hrun.1 hvisible]
    | true =>
      rw [List.filter_cons_of_pos hvisible, List.foldl_cons, List.foldl_cons]
      exact ih hrun.2

omit hrun

theorem and {admitted' : σ → α → Prop} (h : Runs next admitted s actions)
    (h' : Runs next admitted' s actions) :
    Runs next (fun s a => admitted s a ∧ admitted' s a) s actions := by
  induction actions generalizing s with
  | nil => trivial
  | cons a rest ih => exact ⟨⟨h.1, h'.1⟩, ih h.2 h'.2⟩

theorem of_forall_mem {legal : α → Prop} (h : ∀ a ∈ actions, legal a) :
    Runs next (fun _ => legal) s actions := by
  induction actions generalizing s with
  | nil => trivial
  | cons a rest ih =>
    exact ⟨h a List.mem_cons_self, ih fun b hb => h b (List.mem_cons_of_mem a hb)⟩

theorem of_forall (h : ∀ s a, admitted s a) : Runs next admitted s actions := by
  induction actions generalizing s with
  | nil => trivial
  | cons a rest ih => exact ⟨h s a, ih⟩

/-- A system beside which an observer takes down every request and its answer. -/
def observed {γ ρ : Type*} (step : σ → α → ρ × σ) (record : γ → α → ρ → γ) (s : σ × γ) (a : α) :
    σ × γ :=
  ((step s.1 a).2, record s.2 a (step s.1 a).1)

end Runs
