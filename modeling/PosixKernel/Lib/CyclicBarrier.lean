import Mathlib.Tactic

/-!
# Cyclic Barriers

A barrier at which a number of agents meet, again and again. The agents that have arrived in the
round wait; the one that completes the round passes at once and frees the others, which pass when
they ask again, while agents may be arriving for the next round.

An observer that sees who asks and what the answers are takes down the arrivals, which fall into
rounds by their order, and the passes. For the barrier defined here these are as they should be:
nobody passes a round before it is complete, the arrivals of a round are of different agents, every
arrival passes once, and one of each round is told so.

## Main definitions

* `CyclicBarrier.wait`, `CyclicBarrier.remove` — the barrier;
* `CyclicBarrier.Log` — the observer;
* `CyclicBarrier.Log.Rounds` — what it should see.

## Main results

* `CyclicBarrier.Sound.wait` — the invariant of the barrier and its observer;
* `CyclicBarrier.Sound.rounds` — the observer sees what it should;
* `CyclicBarrier.Sound.mem_freed` — an agent whose round is complete passes when it asks.
-/

/-- The agents that have arrived in the round, and those of earlier rounds that have not asked
again. -/
structure CyclicBarrier (α : Type*) where
  waiting : List α
  freed : List α

namespace CyclicBarrier

variable {α : Type*}

/-- What an agent is told: to wait, or to pass, and whether it completed the round. -/
inductive Answer
  | waits
  | passes (serial : Bool)
  deriving DecidableEq

def empty : CyclicBarrier α := ⟨[], []⟩

/-- An agent asks, at a barrier for `n` agents. -/
def wait [DecidableEq α] (n : ℕ) (b : CyclicBarrier α) (a : α) : Answer × CyclicBarrier α :=
  if a ∈ b.freed then (.passes false, { b with freed := b.freed.filter (· ≠ a) })
  else if a ∈ b.waiting then (.waits, b)
  else if b.waiting.length + 1 = n then (.passes true, ⟨[], b.freed ++ b.waiting⟩)
  else (.waits, { b with waiting := b.waiting ++ [a] })

/-- Some agents are no longer there. -/
def remove (b : CyclicBarrier α) (gone : α → Bool) : CyclicBarrier α :=
  ⟨b.waiting.filter (!gone ·), b.freed.filter (!gone ·)⟩

/-! ### The observer -/

/-- A pass: of which arrival, when there were how many, and whether it was told to have completed
the round. -/
structure Pass where
  index : ℕ
  arrived : ℕ
  serial : Bool

/-- The arrivals in their order, the arrival with which each agent is at the barrier, and the
passes. -/
structure Log (α : Type*) where
  arrivals : List α
  pending : α → Option ℕ
  passes : List Pass

namespace Log

def empty : Log α := ⟨[], fun _ => none, []⟩

/-- **What should be seen** at a barrier for `n` agents. The arrivals fall into rounds of `n`: a
pass is made when its round is complete, the arrivals of a round are of different agents, every
arrival has passed exactly once unless its agent is still at the barrier with it, and exactly one
pass of each complete round is told to have completed it. -/
structure Rounds (n : ℕ) (log : Log α) : Prop where
  together : ∀ p ∈ log.passes, (p.index / n + 1) * n ≤ p.arrived
  distinct : ∀ r, ((log.arrivals.drop (r * n)).take n).Nodup
  once : ∀ k a, log.arrivals[k]? = some a →
    log.passes.countP (·.index = k) = if log.pending a = some k then 0 else 1
  serial : ∀ r, log.passes.countP (fun p => p.index / n = r && p.serial) =
    if (r + 1) * n ≤ log.arrivals.length then 1 else 0

variable [DecidableEq α]

/-- An agent asks and is answered. It arrives, unless it is at the barrier. -/
def record (log : Log α) (a : α) (answer : Answer) : Log α :=
  let arrivals := if (log.pending a).isSome then log.arrivals else log.arrivals ++ [a]
  let index := (log.pending a).getD log.arrivals.length
  match answer with
  | .waits => ⟨arrivals, Function.update log.pending a (some index), log.passes⟩
  | .passes serial =>
    ⟨arrivals, Function.update log.pending a none,
      log.passes ++ [⟨index, arrivals.length, serial⟩]⟩

variable {log : Log α} {a : α}

/-- A party that is not pending arrives. -/
theorem record_arrivals (answer : Answer) : (log.record a answer).arrivals =
    if (log.pending a).isSome then log.arrivals else log.arrivals ++ [a] := by
  cases answer <;> rfl

/-- The others stay as they were. -/
theorem record_pending_of_ne {x : α} (hx : x ≠ a) (answer : Answer) :
    (log.record a answer).pending x = log.pending x := by
  cases answer <;> exact Function.update_of_ne hx ..

/-- A party that waits is pending. -/
theorem record_waits_pending : (log.record a .waits).pending a =
    some ((log.pending a).getD log.arrivals.length) := Function.update_self ..

/-- One that passes is not. -/
theorem record_passes_pending (serial : Bool) : (log.record a (.passes serial)).pending a = none :=
  Function.update_self ..

/-- Waiting passes nobody. -/
theorem record_waits_passes : (log.record a .waits).passes = log.passes := rfl

/-- A pass is recorded with its arrival. -/
theorem record_passes_passes (serial : Bool) : (log.record a (.passes serial)).passes =
    log.passes ++ [⟨(log.pending a).getD log.arrivals.length,
      (log.record a (.passes serial)).arrivals.length, serial⟩] := rfl

end Log

/-- **The invariant** of a barrier and its observer, after `R` complete rounds with the arrivals
`past`. -/
structure Sound (n : ℕ) (b : CyclicBarrier α) (log : Log α) (R : ℕ) (past : List α) : Prop where
  arrivals_eq : log.arrivals = past ++ b.waiting
  past_length : past.length = R * n
  waiting_lt : b.waiting.length < n
  waiting_nodup : b.waiting.Nodup
  pending_waiting : ∀ a ∈ b.waiting, ∃ k, past.length ≤ k ∧ log.pending a = some k
  pending_freed : ∀ a ∈ b.freed, ∃ k < past.length, log.pending a = some k
  pending_some : ∀ a k, log.pending a = some k →
    log.arrivals[k]? = some a ∧ (k < past.length → a ∈ b.freed)
  distinct : ∀ r, ((past.drop (r * n)).take n).Nodup
  together : ∀ p ∈ log.passes, (p.index / n + 1) * n ≤ p.arrived
  index_lt : ∀ p ∈ log.passes, p.index < past.length
  once : ∀ k a, log.arrivals[k]? = some a →
    log.passes.countP (·.index = k) = if log.pending a = some k then 0 else 1
  serial : ∀ r, log.passes.countP (fun p => p.index / n = r && p.serial) = if r < R then 1 else 0

/-- The empty barrier is sound. -/
theorem sound_empty {n : ℕ} (hn : 0 < n) : Sound n (empty : CyclicBarrier α) Log.empty 0 [] := by
  refine ⟨rfl, (Nat.zero_mul n).symm, hn, List.nodup_nil, ?_, ?_, ?_, ?_, ?_, ?_, ?_, ?_⟩
  · exact fun a ha => absurd ha List.not_mem_nil
  · exact fun a ha => absurd ha List.not_mem_nil
  · exact fun a k hk => absurd hk (by simp [Log.empty])
  · intro r
    simp
  · exact fun p hp => absurd hp List.not_mem_nil
  · exact fun p hp => absurd hp List.not_mem_nil
  · exact fun k a hk => absurd hk (by simp [Log.empty])
  · intro r
    simp [Log.empty]

namespace Sound

variable {n R : ℕ} {b : CyclicBarrier α} {log : Log α} {past : List α} {a : α}

/-- The arrivals fill rounds, and one that is open. -/
theorem length_arrivals (h : Sound n b log R past) :
    log.arrivals.length = R * n + b.waiting.length := by
  rw [h.arrivals_eq, List.length_append, h.past_length]

/-- An arrival that is pending and not of an earlier round is of this one. -/
theorem mem_waiting (h : Sound n b log R past) {k : ℕ} (hk : log.pending a = some k)
    (hle : past.length ≤ k) : a ∈ b.waiting := by
  obtain ⟨hget, -⟩ := h.pending_some a k hk
  rw [h.arrivals_eq, List.getElem?_append_right hle] at hget
  exact List.mem_of_getElem? hget

/-- An agent that neither waits nor is freed is not at the barrier. -/
theorem pending_none (h : Sound n b log R past) (hfreed : a ∉ b.freed) (hwaiting : a ∉ b.waiting) :
    log.pending a = none := by
  rcases hk : log.pending a with _ | k
  · rfl
  rcases Nat.lt_or_ge k past.length with hlt | hge
  · exact absurd ((h.pending_some a k hk).2 hlt) hfreed
  · exact absurd (h.mem_waiting hk hge) hwaiting

/-- Who arrives was not waiting. -/
theorem nodup_arrived (h : Sound n b log R past) (ha : a ∉ b.waiting) :
    (b.waiting ++ [a]).Nodup := by
  rw [← List.concat_eq_append]
  exact h.waiting_nodup.concat ha

/-- Later arrivals do not show in a round that is complete. -/
theorem distinct_past (h : Sound n b log R past) {r : ℕ} (hr : r < R) (later : List α) :
    (((past ++ later).drop (r * n)).take n).Nodup := by
  have hle : r * n + n ≤ past.length := by
    rw [h.past_length, ← Nat.succ_mul]
    exact Nat.mul_le_mul_right n hr
  rw [List.drop_append_of_le_length (by omega), List.take_append_of_le_length (by
    rw [List.length_drop]; omega)]
  exact h.distinct r

/-- Nobody passed who has not arrived. -/
theorem countP_index_of_le (h : Sound n b log R past) {k : ℕ} (hk : past.length ≤ k) :
    log.passes.countP (·.index = k) = 0 := by
  rw [List.countP_eq_zero]
  intro p hp hindex
  have hlt := h.index_lt p hp
  rw [of_decide_eq_true hindex] at hlt
  omega

/-- The element beyond a list is the one appended. -/
theorem eq_of_getElem?_concat {l : List α} {i : ℕ} {x : α} (h : (l ++ [a])[i]? = some x)
    (hi : l.length ≤ i) : i = l.length ∧ x = a := by
  have hlt := (List.getElem?_eq_some_iff.mp h).1
  rw [List.length_append, List.length_singleton] at hlt
  obtain rfl : i = l.length := by omega
  exact ⟨rfl, by simpa using h.symm⟩

/-- A round is complete when it is one of the past. -/
theorem complete_iff (h : Sound n b log R past) (r : ℕ) :
    (r + 1) * n ≤ log.arrivals.length ↔ r < R := by
  have hlt := h.waiting_lt
  rw [h.length_arrivals]
  constructor
  · intro hle
    by_contra hge
    have : (R + 1) * n ≤ (r + 1) * n := Nat.mul_le_mul_right n (by omega)
    rw [Nat.succ_mul] at this
    omega
  · intro hr
    exact (Nat.mul_le_mul_right n hr).trans (Nat.le_add_right _ _)

/-- **The observer sees what it should.** -/
theorem rounds (h : Sound n b log R past) : log.Rounds n where
  together := h.together
  once := h.once
  serial r := by
    rw [h.serial r]
    simp [h.complete_iff r]
  distinct r := by
    have hpast := h.past_length
    rw [h.arrivals_eq]
    rcases Nat.lt_trichotomy r R with hlt | rfl | hgt
    · exact h.distinct_past hlt _
    · rw [← hpast, List.drop_left, List.take_of_length_le h.waiting_lt.le]
      exact h.waiting_nodup
    rw [List.drop_of_length_le, List.take_nil]
    · exact List.nodup_nil
    have hlt := h.waiting_lt
    have : (R + 1) * n ≤ r * n := Nat.mul_le_mul_right n hgt
    rw [Nat.succ_mul] at this
    rw [List.length_append, hpast]
    omega

/-- **An agent whose round is complete** is freed. -/
theorem mem_freed (h : Sound n b log R past) {k : ℕ} (hk : log.pending a = some k)
    (hcomplete : (k / n + 1) * n ≤ log.arrivals.length) : a ∈ b.freed := by
  refine (h.pending_some a k hk).2 ?_
  have hn : 0 < n := Nat.zero_lt_of_lt h.waiting_lt
  have hround := (h.complete_iff (k / n)).mp hcomplete
  rw [h.past_length]
  exact (Nat.div_lt_iff_lt_mul hn).mp hround

variable [DecidableEq α] (h : Sound n b log R past)

include h

/-- A party that was freed passes. -/
theorem wait_freed (ha : a ∈ b.freed) :
    Sound n { b with freed := b.freed.filter (· ≠ a) } (log.record a (.passes false)) R past := by
  obtain ⟨k, hlt, hk⟩ := h.pending_freed a ha
  have hget := (h.pending_some a k hk).1
  have harrivals : (log.record a (.passes false)).arrivals = log.arrivals := by
    rw [Log.record_arrivals, hk]
    rfl
  have hpasses : (log.record a (.passes false)).passes =
      log.passes ++ [⟨k, log.arrivals.length, false⟩] := by
    rw [Log.record_passes_passes, harrivals, hk]
    rfl
  have hne : ∀ x ∈ b.waiting, x ≠ a := by
    rintro x hx rfl
    obtain ⟨k', hle, hk'⟩ := h.pending_waiting x hx
    have : k = k' := Option.some.inj (hk.symm.trans hk')
    omega
  refine ⟨harrivals ▸ h.arrivals_eq, h.past_length, h.waiting_lt, h.waiting_nodup, fun x hx => ?_,
    fun x hx => ?_, fun x i hi => ?_, h.distinct, ?_, ?_, fun i x hi => ?_, fun r => ?_⟩
  · rw [Log.record_pending_of_ne (hne x hx)]
    exact h.pending_waiting x hx
  · obtain ⟨hx, hxa⟩ := List.mem_filter.mp hx
    rw [Log.record_pending_of_ne (of_decide_eq_true hxa)]
    exact h.pending_freed x hx
  · by_cases hxa : x = a
    · rw [hxa, Log.record_passes_pending] at hi
      cases hi
    rw [Log.record_pending_of_ne hxa] at hi
    obtain ⟨hi', hfreed⟩ := h.pending_some x i hi
    exact ⟨harrivals ▸ hi', fun hlt' => List.mem_filter.mpr ⟨hfreed hlt', decide_eq_true hxa⟩⟩
  · rw [hpasses, List.forall_mem_append, List.forall_mem_singleton, h.length_arrivals]
    refine ⟨h.together, ?_⟩
    have hround : k / n < R := Nat.div_lt_of_lt_mul (by rw [mul_comm, ← h.past_length]; exact hlt)
    calc (k / n + 1) * n ≤ R * n := Nat.mul_le_mul_right n hround
      _ ≤ R * n + b.waiting.length := Nat.le_add_right _ _
  · rw [hpasses, List.forall_mem_append, List.forall_mem_singleton]
    exact ⟨h.index_lt, hlt⟩
  · rw [harrivals] at hi
    rw [hpasses, List.countP_append, h.once i x hi]
    by_cases hxa : x = a
    · rw [hxa, Log.record_passes_pending, hk]
      by_cases hik : k = i
      · simp [hik]
      · simp [hik]
    have hik : k ≠ i := by
      rintro rfl
      exact hxa (Option.some.inj (hi.symm.trans hget))
    rw [Log.record_pending_of_ne hxa]
    simp [hik]
  · rw [hpasses, List.countP_append, h.serial r]
    simp

/-- One that waits goes on waiting. -/
theorem wait_waiting (ha : a ∈ b.waiting) : Sound n b (log.record a .waits) R past := by
  obtain ⟨k, -, hk⟩ := h.pending_waiting a ha
  have hsame : Function.update log.pending a (some k) = log.pending := by
    rw [← hk, Function.update_eq_self]
  have hlog : log.record a .waits = log := by
    simp [Log.record, hk, hsame]
  rwa [hlog]

/-- One that arrives early waits. -/
theorem wait_arrives (hfreed : a ∉ b.freed) (hwaiting : a ∉ b.waiting)
    (hmore : b.waiting.length + 1 ≠ n) :
    Sound n { b with waiting := b.waiting ++ [a] } (log.record a .waits) R past := by
  have hnone := h.pending_none hfreed hwaiting
  have hlen : log.arrivals.length = past.length + b.waiting.length := by
    rw [h.arrivals_eq, List.length_append]
  have hlt := h.waiting_lt
  have harrivals : (log.record a .waits).arrivals = log.arrivals ++ [a] := by
    rw [Log.record_arrivals, hnone]
    rfl
  have hself : (log.record a .waits).pending a = some log.arrivals.length := by
    rw [Log.record_waits_pending, hnone]
    rfl
  refine ⟨?_, h.past_length, ?_, ?_, fun x hx => ?_, fun x hx => ?_, fun x i hi => ?_, h.distinct,
    h.together, h.index_lt, fun i x hi => ?_, h.serial⟩
  · rw [harrivals, h.arrivals_eq, List.append_assoc]
  · rw [List.length_append, List.length_singleton]
    omega
  · exact h.nodup_arrived hwaiting
  · by_cases hxa : x = a
    · exact ⟨log.arrivals.length, by omega, hxa ▸ hself⟩
    · rw [Log.record_pending_of_ne hxa]
      exact h.pending_waiting x (by simpa [hxa] using hx)
  · rw [Log.record_pending_of_ne (by rintro rfl; exact hfreed hx)]
    exact h.pending_freed x hx
  · rw [harrivals]
    by_cases hxa : x = a
    · rw [hxa, hself] at hi
      cases hi
      exact ⟨by simp [hxa], fun hlt' => by omega⟩
    rw [Log.record_pending_of_ne hxa] at hi
    obtain ⟨hget, hfreed'⟩ := h.pending_some x i hi
    refine ⟨?_, hfreed'⟩
    rwa [List.getElem?_append_left (List.getElem?_eq_some_iff.mp hget).1]
  rw [harrivals] at hi
  rw [Log.record_waits_passes]
  rcases Nat.lt_or_ge i log.arrivals.length with hlt' | hge
  · rw [List.getElem?_append_left hlt'] at hi
    rw [h.once i x hi]
    by_cases hxa : x = a
    · rw [hxa, hself, hnone]
      simp [hlt'.ne']
    · rw [Log.record_pending_of_ne hxa]
  obtain ⟨rfl, rfl⟩ := eq_of_getElem?_concat hi hge
  rw [hself, h.countP_index_of_le (by omega), if_pos rfl]

/-- The last one completes the round. -/
theorem wait_completes (hfreed : a ∉ b.freed) (hwaiting : a ∉ b.waiting)
    (hlast : b.waiting.length + 1 = n) :
    Sound n ⟨[], b.freed ++ b.waiting⟩ (log.record a (.passes true)) (R + 1)
      (past ++ (b.waiting ++ [a])) := by
  have hnone := h.pending_none hfreed hwaiting
  have hlen : log.arrivals.length = past.length + b.waiting.length := by
    rw [h.arrivals_eq, List.length_append]
  have hpast := h.past_length
  have harrivals : (log.record a (.passes true)).arrivals = log.arrivals ++ [a] := by
    rw [Log.record_arrivals, hnone]
    rfl
  have hpasses : (log.record a (.passes true)).passes =
      log.passes ++ [⟨log.arrivals.length, log.arrivals.length + 1, true⟩] := by
    rw [Log.record_passes_passes, harrivals, hnone, List.length_append]
    rfl
  have hpending : ∀ x, (log.record a (.passes true)).pending x = log.pending x := by
    intro x
    by_cases hxa : x = a
    · rw [hxa, Log.record_passes_pending, hnone]
    · exact Log.record_pending_of_ne hxa _
  have hround : log.arrivals.length / n = R := by
    rw [hlen, hpast, mul_comm, Nat.mul_add_div (by omega), Nat.div_eq_of_lt (by omega), add_zero]
  have hlen' : (past ++ (b.waiting ++ [a])).length = past.length + n := by
    rw [List.length_append, List.length_append, List.length_singleton, hlast]
  refine ⟨?_, ?_, ?_, List.nodup_nil, fun x hx => absurd hx List.not_mem_nil, fun x hx => ?_,
    fun x i hi => ?_, fun r => ?_, ?_, ?_, fun i x hi => ?_, fun r => ?_⟩
  · rw [harrivals, h.arrivals_eq, List.append_nil, List.append_assoc]
  · rw [hlen', hpast, Nat.succ_mul]
  · simp only [List.length_nil]
    omega
  · rw [hpending, hlen']
    rcases List.mem_append.mp hx with hx | hx
    · obtain ⟨i, hlt, hi⟩ := h.pending_freed x hx
      exact ⟨i, by omega, hi⟩
    obtain ⟨i, -, hi⟩ := h.pending_waiting x hx
    have hlt := (List.getElem?_eq_some_iff.mp (h.pending_some x i hi).1).1
    exact ⟨i, by omega, hi⟩
  · rw [hpending] at hi
    obtain ⟨hget, hfreed'⟩ := h.pending_some x i hi
    refine ⟨?_, fun _ => ?_⟩
    · rwa [harrivals, List.getElem?_append_left (List.getElem?_eq_some_iff.mp hget).1]
    rcases Nat.lt_or_ge i past.length with hlt | hge
    · exact List.mem_append_left _ (hfreed' hlt)
    · exact List.mem_append_right _ (h.mem_waiting hi hge)
  · rcases Nat.lt_trichotomy r R with hlt | rfl | hgt
    · exact h.distinct_past hlt _
    · rw [← hpast, List.drop_left, List.take_of_length_le (by simp; omega)]
      exact h.nodup_arrived hwaiting
    rw [List.drop_of_length_le, List.take_nil]
    · exact List.nodup_nil
    · rw [hlen', hpast, ← Nat.succ_mul]
      exact Nat.mul_le_mul_right n hgt
  · rw [hpasses, List.forall_mem_append, List.forall_mem_singleton, hround, Nat.succ_mul, ← hpast]
    exact ⟨h.together, by simp only; omega⟩
  · rw [hpasses, List.forall_mem_append, List.forall_mem_singleton, hlen']
    exact ⟨fun p hp => Nat.lt_add_right n (h.index_lt p hp), by simp only; omega⟩
  · rw [harrivals] at hi
    rw [hpasses, List.countP_append, hpending]
    rcases Nat.lt_or_ge i log.arrivals.length with hlt | hge
    · rw [List.getElem?_append_left hlt] at hi
      rw [h.once i x hi]
      simp [hlt.ne']
    obtain ⟨rfl, rfl⟩ := eq_of_getElem?_concat hi hge
    rw [h.countP_index_of_le (by omega), hnone]
    simp
  rw [hpasses, List.countP_append, h.serial r]
  by_cases hr : r = R
  · simp [hr, hround]
  have hne : ¬ log.arrivals.length / n = r := fun heq => hr (heq.symm.trans hround)
  have hiff : r < R ↔ r < R + 1 := by omega
  simp [hne, hiff]

/-- **One step of the barrier and its observer.** -/
theorem wait (a : α) :
    ∃ R' past', Sound n (b.wait n a).2 (log.record a (b.wait n a).1) R' past' := by
  rw [CyclicBarrier.wait]
  by_cases hfreed : a ∈ b.freed
  · rw [if_pos hfreed]
    exact ⟨R, past, h.wait_freed hfreed⟩
  rw [if_neg hfreed]
  by_cases hwaiting : a ∈ b.waiting
  · rw [if_pos hwaiting]
    exact ⟨R, past, h.wait_waiting hwaiting⟩
  rw [if_neg hwaiting]
  by_cases hlast : b.waiting.length + 1 = n
  · rw [if_pos hlast]
    exact ⟨_, _, h.wait_completes hfreed hwaiting hlast⟩
  · rw [if_neg hlast]
    exact ⟨_, _, h.wait_arrives hfreed hwaiting hlast⟩

end Sound

end CyclicBarrier
