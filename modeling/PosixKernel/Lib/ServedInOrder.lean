import Mathlib.Data.List.Basic
import Mathlib.Logic.Function.Basic

/-!
# Service in Order of Arrival

Customers arrive at several queues of one service, each at its own. They are served in the order of
arrival if those served so far are the first that arrived and the others stand in the queues.

## Main results

* `InOrder.arrives` — one more customer;
* `InOrder.serve_iff` — serving the front of a queue keeps the order exactly if nobody has waited
  longer;
* `InOrder.not_lost` — a front that leaves without being served breaks it.
-/

variable {α κ : Type*} [DecidableEq κ]

/-- Who arrived and who was served, in this order. -/
structure ServiceLog (α : Type*) where
  arrived : List α
  served : List α

/-- **Service in order**: those served are the first that arrived, and the others wait, each in the
queue `home` says. -/
def InOrder (home : α → κ) (queue : κ → List α) (log : ServiceLog α) : Prop :=
  ∃ waiting, log.arrived = log.served ++ waiting ∧ ∀ k, waiting.filter (home · = k) = queue k

namespace InOrder

variable {home : α → κ} {queue : κ → List α} {log : ServiceLog α} {c : α} {rest : List α}

theorem arrives (h : InOrder home queue log) (c : α) :
    InOrder home (Function.update queue (home c) (queue (home c) ++ [c]))
      { log with arrived := log.arrived ++ [c] } := by
  obtain ⟨waiting, hlog, hqueue⟩ := h
  refine ⟨waiting ++ [c], by simp [hlog], fun k => ?_⟩
  rw [List.filter_append, hqueue, Function.update_apply]
  by_cases hk : k = home c
  · subst hk
    simp
  · rw [if_neg hk, List.filter_singleton, decide_eq_false (Ne.symm hk)]
    exact List.append_nil _

theorem serve_iff (h : InOrder home queue log) (hfront : queue (home c) = c :: rest) :
    InOrder home (Function.update queue (home c) rest) { log with served := log.served ++ [c] } ↔
      log.arrived[log.served.length]? = some c := by
  obtain ⟨waiting, hlog, hqueue⟩ := h
  have hget : log.arrived[log.served.length]? = waiting[0]? := by
    rw [hlog, List.getElem?_append_right (Nat.le_refl _), Nat.sub_self]
  rw [hget]
  constructor
  · rintro ⟨waiting', hlog', -⟩
    have hcancel : waiting = c :: waiting' := by
      simpa [hlog] using hlog'
    rw [hcancel]
    rfl
  intro hfirst
  obtain ⟨waiting', rfl⟩ : ∃ waiting', waiting = c :: waiting' := by
    rcases waiting with _ | ⟨d, waiting'⟩
    · cases hfirst
    · obtain rfl : d = c := by simpa using hfirst
      exact ⟨waiting', rfl⟩
  refine ⟨waiting', by simp [hlog], fun k => ?_⟩
  have hk := hqueue k
  rw [Function.update_apply]
  by_cases hkc : k = home c
  · subst hkc
    rw [List.filter_cons_of_pos (by simp), hfront] at hk
    rw [if_pos rfl]
    exact (List.cons.inj hk).2
  · rw [List.filter_cons_of_neg (by simpa using Ne.symm hkc)] at hk
    rw [if_neg hkc, hk]

theorem not_lost (h : InOrder home queue log) (hfront : queue (home c) = c :: rest) :
    ¬ InOrder home (Function.update queue (home c) rest) log := by
  obtain ⟨waiting, hlog, hqueue⟩ := h
  rintro ⟨waiting', hlog', hqueue'⟩
  obtain rfl := List.append_cancel_left (hlog.symm.trans hlog')
  have hsame := (hqueue (home c)).symm.trans (hqueue' (home c))
  rw [Function.update_self, hfront] at hsame
  exact absurd (congrArg List.length hsame) (by simp)

end InOrder
