import Mathlib.Data.List.Basic
import Mathlib.Logic.Function.Basic

/-!
# First-In First-Out Mailboxes

A family of mailboxes, and histories of what happens to them: an entry is put in at the
end, the oldest entry is taken, or whole mailboxes are emptied. A history that asks for
anything but the oldest entry is not possible. In a possible history every entry of a
mailbox that is never emptied leaves at most once, and the entries leave in the order in
which they came.

## Main results

* `Mailbox.replay_append` — histories compose;
* `Mailbox.put_eq_taken_append` — **conservation**: what was put in is what was taken,
  followed by what is still there.
-/

namespace Mailbox

/-- What can happen to mailboxes; `how` says what becomes of an entry that is taken. -/
inductive Event (κ α τ : Type*)
  | put (k : κ) (a : α)
  | take (k : κ) (a : α) (how : τ)
  | drop (gone : κ → Bool)

variable {κ α τ : Type*} [DecidableEq κ] [DecidableEq α]

/-- The mailboxes after an event; none when the event is not possible. -/
def apply (m : κ → List α) : Event κ α τ → Option (κ → List α)
  | .put k a => some (Function.update m k (m k ++ [a]))
  | .take k a _ => if (m k).head? = some a then some (Function.update m k (m k).tail) else none
  | .drop gone => some fun k => if gone k then [] else m k

/-- The mailboxes after a history; none when the history is not possible. -/
def replay (m : κ → List α) : List (Event κ α τ) → Option (κ → List α)
  | [] => some m
  | e :: history => (apply m e).bind fun m' => replay m' history

/-- What a history puts into a mailbox. -/
def putInto (k : κ) : List (Event κ α τ) → List α
  | [] => []
  | .put k' a :: history => if k' = k then a :: putInto k history else putInto k history
  | .take _ _ _ :: history => putInto k history
  | .drop _ :: history => putInto k history

/-- What a history takes from a mailbox. -/
def takenFrom (k : κ) : List (Event κ α τ) → List α
  | [] => []
  | .put _ _ :: history => takenFrom k history
  | .take k' a _ :: history => if k' = k then a :: takenFrom k history else takenFrom k history
  | .drop _ :: history => takenFrom k history

/-- Whether a history never empties a mailbox. -/
def spares (k : κ) : List (Event κ α τ) → Bool
  | [] => true
  | .put _ _ :: history => spares k history
  | .take _ _ _ :: history => spares k history
  | .drop gone :: history => !gone k && spares k history

variable {m m' m'' : κ → List α} {e : Event κ α τ} {history history' : List (Event κ α τ)}

theorem replay_append :
    replay m (history ++ history') = (replay m history).bind fun m' => replay m' history' := by
  induction history generalizing m with
  | nil => rfl
  | cons e history ih =>
    rw [List.cons_append, replay, replay, Option.bind_assoc]
    exact congrArg _ (funext fun _ => ih)

theorem replay_singleton (m : κ → List α) (e : Event κ α τ) : replay m [e] = apply m e :=
  Option.bind_fun_some _

/-- **Conservation.** In a possible history that never empties a mailbox, what was there
and what was put in is what was taken, in that order, followed by what is there at the
end. -/
theorem put_eq_taken_append {k : κ} (h : replay m history = some m')
    (hspares : spares k history = true) :
    m k ++ putInto k history = takenFrom k history ++ m' k := by
  induction history generalizing m with
  | nil =>
    cases h
    exact List.append_nil _
  | cons e history ih =>
    rw [replay] at h
    obtain ⟨m₁, he, hrest⟩ := Option.bind_eq_some_iff.mp h
    cases e with
    | put =>
      cases he
      have hstep := ih hrest hspares
      rw [putInto, takenFrom]
      split
      next heq =>
        subst heq
        rwa [Function.update_self, List.append_assoc] at hstep
      next hne =>
        rwa [Function.update_of_ne (Ne.symm hne)] at hstep
    | take =>
      rw [apply] at he
      split at he
      next hhead =>
        cases he
        have hstep := ih hrest hspares
        rw [putInto, takenFrom]
        split
        next heq =>
          subst heq
          rw [Function.update_self] at hstep
          rw [List.cons_append, ← hstep, ← List.cons_append, List.cons_head?_tail hhead]
        next hne =>
          rwa [Function.update_of_ne (Ne.symm hne)] at hstep
      · cases he
    | drop =>
      cases he
      rw [spares, Bool.and_eq_true, Bool.not_eq_true'] at hspares
      have hstep := ih hrest hspares.2
      rwa [if_neg (by simp [hspares.1])] at hstep

end Mailbox
