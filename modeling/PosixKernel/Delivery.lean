import PosixKernel.Threads

/-!
# Delivery of Pending Signals

What the kernel does with pending signals at the end of every call (`wasm_api.rs`,
centralized mode). `deliver_pending_signals` looks at the lowest signal that can be
delivered to the calling thread: one with a handler is left for the thread to run, any
other is taken, and ends the process if its default action says so. The loop has no bound
of its own; each round takes an instance out of one of two places, so it ends.

## Main results

* `ThreadedProcess.deliverRound_eq_some` — what one round can do;
* `ThreadedProcess.deliverLoop_backlog` — the loop ends, within as many rounds as there is
  to take;
* `ThreadedProcess.deliverPendingSignals_spec` — **what the loop leaves and what it takes**.
-/

namespace PosixKernel

/-- Whether a signal has a handler. -/
def SignalState.isCaught (s : SignalState) (signum : ℕ) : Bool :=
  match (s.getAction signum).handler with
  | .Handler _ => true
  | _ => false

/-- Two states of a place that agree on a signal. -/
def PendingSignals.SameAt (w w' : PendingSignals) (signum : ℕ) : Prop :=
  w'.has signum = w.has signum ∧ w'.queued signum = w.queued signum

theorem PendingSignals.sameAt_consumeOne (w : PendingSignals) {signum n : ℕ}
    (h : validSignal signum = true) (hne : n ≠ signum) : w.SameAt (w.consumeOne signum).2 n := by
  rw [SameAt, has_consumeOne w signum n h, queued_consumeOne w signum n h, if_neg hne]
  simp [hne]

namespace ThreadedProcess

/-- One round of the loop; none when the loop stops. -/
def deliverRound (tid : ℕ) (p : ThreadedProcess) : Option ThreadedProcess :=
  let deliverable := p.deliverableFor tid
  if deliverable = 0 then none
  else
    let signum := lowestSignal deliverable
    if NSIG ≤ signum then none
    else
      match (p.signals.getAction signum).handler with
      | .Handler _ => none
      | .Default =>
        let q := (p.dequeueSignalFor tid signum).2
        if (defaultAction signum).isFatal then
          some { q with state := .Exited, exitStatus := 128 + signum }
        else some q
      | .Ignore => some (p.dequeueSignalFor tid signum).2

/-- The loop, in at most that many rounds; none when they do not suffice. -/
def deliverLoop (tid : ℕ) : ℕ → ThreadedProcess → Option ThreadedProcess
  | 0, _ => none
  | fuel + 1, p =>
    match deliverRound tid p with
    | none => some p
    | some q => if q.state = .Exited then some q else deliverLoop tid fuel q

/-- How much there is to take for a thread: what is pending in the process and in the place
of the thread. -/
def backlog (p : ThreadedProcess) (tid : ℕ) : ℕ :=
  (p.pendingAt .process).size + (p.pendingAt (.thread tid)).size

/-- Deliver pending signals to a thread, at the end of one of its calls. -/
def deliverPendingSignals (tid : ℕ) (p : ThreadedProcess) : ThreadedProcess :=
  (deliverLoop tid (p.backlog tid + 1) p).getD p

variable {tid : ℕ} {p q r : ThreadedProcess}

/-! ### One round -/

/-- A round takes the lowest signal that can be delivered, which has no handler. -/
theorem deliverRound_eq_some (h : deliverRound tid p = some q) :
    ∃ signum, inMask (p.deliverableFor tid) signum = true ∧
      (∀ n < signum, inMask (p.deliverableFor tid) n = false) ∧
      p.signals.isCaught signum = false ∧
      (q = (p.dequeueSignalFor tid signum).2 ∨
        q = { (p.dequeueSignalFor tid signum).2 with
          state := .Exited, exitStatus := 128 + signum }) := by
  simp only [deliverRound] at h
  split at h
  · cases h
  next hne =>
    obtain ⟨hmem, hlow⟩ := lowestSignal_spec hne
    split at h
    · cases h
    refine ⟨lowestSignal (p.deliverableFor tid), hmem, hlow, ?_⟩
    rw [SignalState.isCaught]
    rcases haction : (p.signals.getAction (lowestSignal (p.deliverableFor tid))).handler with
      _ | _ | ptr
    · rw [haction] at h
      simp only at h
      split at h
      · exact ⟨rfl, .inr (Option.some.inj h).symm⟩
      · exact ⟨rfl, .inl (Option.some.inj h).symm⟩
    · rw [haction] at h
      exact ⟨rfl, .inl (Option.some.inj h).symm⟩
    · rw [haction] at h
      cases h

/-- The loop stops when nothing can be delivered, and at a signal with a handler. -/
theorem deliverRound_eq_none (h : deliverRound tid p = none) : p.deliverableFor tid = 0 ∨
      p.deliverableFor tid ≠ 0 ∧
        p.signals.isCaught (lowestSignal (p.deliverableFor tid)) = true := by
  simp only [deliverRound] at h
  split at h
  next hzero => exact .inl hzero
  next hne =>
    have hvalid := validSignal_iff.mp (validSignal_of_inMask (lowestSignal_spec hne).1)
    rw [if_neg (by simp only [NSIG]; omega)] at h
    refine .inr ⟨hne, ?_⟩
    rw [SignalState.isCaught]
    rcases haction : (p.signals.getAction (lowestSignal (p.deliverableFor tid))).handler with
      _ | _ | ptr
    · rw [haction] at h
      simp only at h
      split at h <;> exact absurd h (Option.some_ne_none _)
    · rw [haction] at h
      cases h
    · rfl

/-! ### What rounds do -/

/-- What rounds of the loop for a thread do: they take signals that can be delivered to the
thread and come before the first one with a handler. -/
structure Drains (tid : ℕ) (p q : ThreadedProcess) : Prop where
  same : p.SameButPending q
  others : ∀ t, t ≠ tid → q.pendingAt (.thread t) = p.pendingAt (.thread t)
  fewer : ∀ k signum, (q.pendingAt k).has signum = true → (p.pendingAt k).has signum = true
  oldest : ∀ k signum, (q.pendingAt k).queued signum <:+ (p.pendingAt k).queued signum
  kept : ∀ k signum,
    (inMask (p.deliverableFor tid) signum = false ∨
      ∃ n ≤ signum, inMask (p.deliverableFor tid) n = true ∧ p.signals.isCaught n = true) →
    (p.pendingAt k).SameAt (q.pendingAt k) signum

namespace Drains

theorem refl (p : ThreadedProcess) : Drains tid p p :=
  ⟨.refl p, fun _ _ => rfl, fun _ _ h => h, fun _ _ => List.suffix_rfl, fun _ _ _ => ⟨rfl, rfl⟩⟩

variable (h : Drains tid p q)

include h

/-- What can be delivered afterwards could be delivered before. -/
theorem deliverable {signum : ℕ} (hq : inMask (q.deliverableFor tid) signum = true) :
    inMask (p.deliverableFor tid) signum = true := by
  rw [inMask_deliverableFor, inMask_pendingFor, Bool.and_eq_true, Bool.or_eq_true,
    h.same.blocked] at hq
  rw [inMask_deliverableFor, inMask_pendingFor, Bool.and_eq_true, Bool.or_eq_true]
  exact ⟨hq.1.imp (h.fewer _ _) (h.fewer _ _), hq.2⟩

theorem isCaught (signum : ℕ) : q.signals.isCaught signum = p.signals.isCaught signum := by
  rw [SignalState.isCaught, SignalState.isCaught, SignalState.getAction, SignalState.getAction,
    h.same.actions]

/-- A signal with a handler that can be delivered still can. -/
theorem caught {signum : ℕ} (hp : inMask (p.deliverableFor tid) signum = true)
    (hc : p.signals.isCaught signum = true) : inMask (q.deliverableFor tid) signum = true := by
  have hkept := fun k => (h.kept k signum (.inr ⟨signum, le_rfl, hp, hc⟩)).1
  rwa [inMask_deliverableFor, inMask_pendingFor, hkept, hkept, h.same.blocked, ← inMask_pendingFor,
    ← inMask_deliverableFor]

theorem trans (h' : Drains tid q r) : Drains tid p r := by
  refine ⟨h.same.trans h'.same, fun t ht => (h'.others t ht).trans (h.others t ht),
    fun k n hn => h.fewer k n (h'.fewer k n hn),
    fun k n => (h'.oldest k n).trans (h.oldest k n), fun k n hn => ?_⟩
  have hkept := h'.kept k n ?_
  · exact ⟨hkept.1.trans (h.kept k n hn).1, hkept.2.trans (h.kept k n hn).2⟩
  rcases hn with hn | ⟨m, hle, hm, hc⟩
  · refine .inl (Bool.eq_false_iff.mpr fun hq => ?_)
    rw [h.deliverable hq] at hn
    exact absurd hn Bool.false_ne_true.symm
  · exact .inr ⟨m, hle, h.caught hm hc, (h.isCaught m).trans hc⟩

/-- The process may be marked as ended on the way. -/
theorem exited (state : ProcessState) (status : ℤ) :
    Drains tid p { q with state := state, exitStatus := status } :=
  ⟨h.same.trans (.exited q state status), h.others, h.fewer, h.oldest, h.kept⟩

omit h

/-- Taking the lowest signal that can be delivered, when it has no handler. -/
theorem take {signum : ℕ} (hmem : inMask (p.deliverableFor tid) signum = true)
    (hlow : ∀ n < signum, inMask (p.deliverableFor tid) n = false)
    (hcaught : p.signals.isCaught signum = false) :
    Drains tid p (p.dequeueSignalFor tid signum).2 := by
  have hvalid := validSignal_of_inMask hmem
  refine ⟨.dequeueSignalFor p tid signum, fun t ht => ?_, fun k n hn => ?_, fun k n => ?_,
    fun k n hn => ?_⟩
  · exact pendingAt_dequeueSignalFor_of_ne p ht signum
  · rw [pendingAt_dequeueSignalFor] at hn
    split at hn
    · rw [PendingSignals.has_consumeOne _ _ _ hvalid, Bool.and_eq_true] at hn
      exact hn.1
    · exact hn
  · rw [pendingAt_dequeueSignalFor]
    split
    · rw [PendingSignals.queued_consumeOne _ _ _ hvalid]
      split
      next heq =>
        rw [heq]
        exact List.tail_suffix _
      next => exact List.suffix_rfl
    · exact List.suffix_rfl
  have hne : n ≠ signum := by
    rintro rfl
    rcases hn with hn | ⟨m, hle, hm, hc⟩
    · rw [hmem] at hn
      exact absurd hn Bool.false_ne_true.symm
    rcases Nat.lt_or_eq_of_le hle with hlt | rfl
    · rw [hlow m hlt] at hm
      cases hm
    · rw [hcaught] at hc
      cases hc
  rw [pendingAt_dequeueSignalFor]
  split
  · exact PendingSignals.sameAt_consumeOne _ hvalid hne
  · exact ⟨rfl, rfl⟩

theorem round (h : deliverRound tid p = some q) : Drains tid p q := by
  obtain ⟨signum, hmem, hlow, hcaught, hq⟩ := deliverRound_eq_some h
  rcases hq with rfl | rfl
  · exact take hmem hlow hcaught
  · exact (take hmem hlow hcaught).exited _ _

end Drains

/-! ### The loop -/

/-- Taking a signal that can be delivered leaves less to take. -/
theorem backlog_dequeueSignalFor {signum : ℕ} (hmem : inMask (p.deliverableFor tid) signum = true) :
    (p.dequeueSignalFor tid signum).2.backlog tid < p.backlog tid := by
  have hpending : inMask (p.pendingFor tid) signum = true := by
    rw [inMask_deliverableFor, Bool.and_eq_true] at hmem
    exact hmem.1
  have hlt := PendingSignals.size_consumeOne_lt (p.has_sourceOf hpending)
  rw [backlog, backlog, pendingAt_dequeueSignalFor, pendingAt_dequeueSignalFor]
  rcases hsource : p.sourceOf tid signum with _ | t
  · rw [hsource] at hlt
    rw [if_pos rfl, if_neg Target.noConfusion]
    omega
  obtain rfl : t = tid := by
    rw [sourceOf] at hsource
    split at hsource
    · exact (Target.thread.inj hsource).symm
    · exact Target.noConfusion hsource
  rw [hsource] at hlt
  rw [if_neg Target.noConfusion, if_pos rfl]
  omega

theorem backlog_deliverRound (h : deliverRound tid p = some q) : q.backlog tid < p.backlog tid := by
  obtain ⟨signum, hmem, -, -, rfl | rfl⟩ := deliverRound_eq_some h
  · exact backlog_dequeueSignalFor hmem
  · exact backlog_dequeueSignalFor hmem

/-- **The loop ends** as soon as it may make more rounds than there is to take, and what it
leaves does not depend on how many more. -/
theorem deliverLoop_backlog (fuel : ℕ) (p : ThreadedProcess) (h : p.backlog tid < fuel) :
    deliverLoop tid fuel p = some (deliverPendingSignals tid p) := by
  have hends : ∀ (n m : ℕ) (p : ThreadedProcess), p.backlog tid < n → p.backlog tid < m →
      ∃ q, deliverLoop tid n p = some q ∧ deliverLoop tid m p = some q := by
    intro n
    induction n with
    | zero => exact fun m p hn _ => absurd hn (Nat.not_lt_zero _)
    | succ n ih =>
      intro m p hn hm
      obtain ⟨m, rfl⟩ : ∃ m', m = m' + 1 := ⟨m - 1, by omega⟩
      rw [deliverLoop, deliverLoop]
      rcases hround : deliverRound tid p with _ | q
      · exact ⟨p, rfl, rfl⟩
      have hless := backlog_deliverRound hround
      simp only
      split
      · exact ⟨q, rfl, rfl⟩
      · exact ih m q (by omega) (by omega)
  obtain ⟨q, hq, hq'⟩ := hends fuel (p.backlog tid + 1) p h (Nat.lt_succ_self _)
  rw [deliverPendingSignals, hq', hq]
  rfl

/-- What holds when the loop has ended. -/
def Settled (tid : ℕ) (q : ThreadedProcess) : Prop :=
  q.state = .Exited ∨ q.deliverableFor tid = 0 ∨
    q.deliverableFor tid ≠ 0 ∧ q.signals.isCaught (lowestSignal (q.deliverableFor tid)) = true

/-- **Induction on the rounds**: what a round preserves holds when the loop has ended. -/
theorem deliverPendingSignals_induction {I : ThreadedProcess → Prop} (h : I p)
    (hround : ∀ p q, I p → deliverRound tid p = some q → I q) :
    I (deliverPendingSignals tid p) ∧ Settled tid (deliverPendingSignals tid p) := by
  have hloop : ∀ fuel p q, I p → deliverLoop tid fuel p = some q → I q ∧ Settled tid q := by
    intro fuel
    induction fuel with
    | zero => exact fun p q _ hq => absurd hq (Option.some_ne_none q).symm
    | succ fuel ih =>
      intro p q hp hq
      rw [deliverLoop] at hq
      rcases hr : deliverRound tid p with _ | r
      · rw [hr] at hq
        rw [← Option.some.inj hq]
        exact ⟨hp, .inr (deliverRound_eq_none hr)⟩
      rw [hr] at hq
      simp only at hq
      split at hq
      next hexited =>
        rw [← Option.some.inj hq]
        exact ⟨hround p r hp hr, .inl hexited⟩
      next => exact ih r q (hround p r hp hr) hq
  exact hloop _ p _ h (deliverLoop_backlog (p.backlog tid + 1) p (Nat.lt_succ_self _))

/-- What delivering pending signals takes, and what holds afterwards. -/
theorem deliverPendingSignals_drains (tid : ℕ) (p : ThreadedProcess) :
    Drains tid p (deliverPendingSignals tid p) ∧ Settled tid (deliverPendingSignals tid p) :=
  deliverPendingSignals_induction (.refl p) fun _ _ h hround => h.trans (.round hround)

/-- **Delivery of pending signals.** For every state of a process and every thread the loop
ends, and what it leaves does not depend on how many rounds it could have made. Afterwards
the process has exited, or nothing can be delivered to the thread, or the lowest signal that
can be has a handler. Wherever instances of a signal were taken, they were pending for the
process or for this thread, the signal could be delivered to the thread, and it comes before
every signal with a handler that could be; so a signal that has a handler or is blocked is
pending as before. -/
theorem deliverPendingSignals_spec (p : ThreadedProcess) (tid : ℕ) :
    ∃ q, (∀ fuel, p.backlog tid < fuel → deliverLoop tid fuel p = some q) ∧
      deliverPendingSignals tid p = q ∧
      (q.state = .Exited ∨ q.deliverableFor tid = 0 ∨
        q.deliverableFor tid ≠ 0 ∧
          q.signals.isCaught (lowestSignal (q.deliverableFor tid)) = true) ∧
      (∀ k signum, ((q.pendingAt k).has signum = true → (p.pendingAt k).has signum = true) ∧
        (q.pendingAt k).queued signum <:+ (p.pendingAt k).queued signum) ∧
      (∀ k signum, ¬ (p.pendingAt k).SameAt (q.pendingAt k) signum →
        (k = .process ∨ k = .thread tid) ∧ inMask (p.deliverableFor tid) signum = true ∧
          ∀ n, inMask (p.deliverableFor tid) n = true → p.signals.isCaught n = true →
            signum < n) ∧
      ∀ k signum, p.signals.isCaught signum = true ∨ inMask (p.blockedFor tid) signum = true →
        (p.pendingAt k).SameAt (q.pendingAt k) signum := by
  obtain ⟨hdrains, hsettled⟩ := deliverPendingSignals_drains tid p
  refine ⟨deliverPendingSignals tid p, fun fuel h => deliverLoop_backlog fuel p h, rfl, hsettled,
    fun k n => ⟨hdrains.fewer k n, hdrains.oldest k n⟩, fun k n hn => ⟨?_, ?_, ?_⟩,
    fun k n hn => hdrains.kept k n ?_⟩
  · rcases k with _ | t
    · exact .inl rfl
    refine .inr (congrArg Target.thread (by_contra fun ht => hn ?_))
    rw [hdrains.others t ht]
    exact ⟨rfl, rfl⟩
  · by_contra hblocked
    exact hn (hdrains.kept k n (.inl (Bool.eq_false_iff.mpr hblocked)))
  · intro m hm hc
    by_contra hle
    exact hn (hdrains.kept k n (.inr ⟨m, Nat.not_lt.mp hle, hm, hc⟩))
  -- a signal with a handler either cannot be delivered or is itself the bound
  rcases hn with hcaught | hblocked
  · cases hmem : inMask (p.deliverableFor tid) n with
    | false => exact .inl rfl
    | true => exact .inr ⟨n, le_rfl, hmem, hcaught⟩
  · rw [inMask_deliverableFor, hblocked, Bool.not_true, Bool.and_false]
    exact .inl rfl

end ThreadedProcess

end PosixKernel
