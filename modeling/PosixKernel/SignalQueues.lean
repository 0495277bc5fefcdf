import PosixKernel.DirectedSignals
import PosixKernel.Lib.Mailbox

/-!
# Queued Real-Time Signals

Every instance of a real-time signal waits in the place it was sent to, behind the earlier
instances of the same signal. Instances leave through a handler, `sigtimedwait`, a read from
a signal descriptor, or the disposition of the signal when it has no handler. Seen from
outside, each place is a mailbox for each signal: an instance is put in when it is sent, and
the oldest one is handed out, with its value. The history of a run is what was sent and what
the calls reported to have handed out, and the places refine the mailboxes: the history is
possible, and leads to what is queued. A read from a signal descriptor is the exception: it
reports one instance without its value and forgets all others.

## Main results

* `ThreadedProcess.refines_run` — one call refines the mailboxes;
* `realtime_handed_out_once` — so does every run in which no signal descriptor reads a
  signal that has more than one instance or a value;
* `signalfd_read_loses_instances` — a run with such a read.
-/

namespace PosixKernel

open PendingSignals SignalOp Mailbox SignalState

/-- What becomes of an instance. -/
inductive Handout
  | handler
  | wait
  | signalfd
  | ignored
  | byDefault
  deriving DecidableEq

/-- What happens to the instances of a real-time signal in a place. -/
abbrev SignalEvent := Mailbox.Event (Target × ℕ) ℤ Handout

namespace ThreadedProcess

/-- The values queued in each place for each real-time signal. -/
def instances (p : ThreadedProcess) (k : Target × ℕ) : List ℤ :=
  if SIGRTMIN ≤ k.2 then ((p.pendingAt k.1).queued k.2).map RtSigEntry.siValue else []

/-! ### Histories -/

/-- An event, if it is about a real-time signal. -/
def rtEvent (signum : ℕ) (e : SignalEvent) : List SignalEvent :=
  if SIGRTMIN ≤ signum then [e] else []

/-- A signal is sent to a place. -/
def sent (k : Target) (sig : ℕ) (siValue : ℤ) : List SignalEvent :=
  if validSignal sig then rtEvent sig (.put (k, sig) siValue) else []

/-- The disposition of a signal takes the next instance for a thread. -/
def disposed (p : ThreadedProcess) (tid signum : ℕ) : List SignalEvent :=
  rtEvent signum (.take (p.sourceOf tid signum, signum) (p.dequeueSignalFor tid signum).1.1
    (if (p.signals.getAction signum).handler = .Ignore then .ignored else .byDefault))

/-- What the delivery at the end of a call takes, in at most that many rounds. -/
def deliverEvents (tid : ℕ) : ℕ → ThreadedProcess → List SignalEvent
  | 0, _ => []
  | fuel + 1, p =>
    match deliverRound tid p with
    | none => []
    | some q =>
      p.disposed tid (lowestSignal (p.deliverableFor tid)) ++
        if q.state = .Exited then [] else deliverEvents tid fuel q

/-- What the delivery at the end of a call takes. -/
def delivered (tid : ℕ) (p : ThreadedProcess) : List SignalEvent :=
  deliverEvents tid (p.backlog tid + 1) p

/-- What is taken until the host is told of a handler, in at most that many rounds, with
the value that the host is told. -/
def dequeueEvents (tid : ℕ) : ℕ → ThreadedProcess → List SignalEvent
  | 0, _ => []
  | fuel + 1, p =>
    if p.deliverableFor tid = 0 then []
    else
      let signum := lowestSignal (p.deliverableFor tid)
      let action := p.signals.getAction signum
      match action.handler with
      | .Handler idx =>
        rtEvent signum (.take (p.sourceOf tid signum, signum)
          (p.startHandler tid signum idx action).1.siValue .handler)
      | .Default =>
        p.disposed tid signum ++
          if (defaultAction signum).isFatal then []
          else dequeueEvents tid fuel (p.dequeueSignalFor tid signum).2
      | .Ignore =>
        p.disposed tid signum ++ dequeueEvents tid fuel (p.dequeueSignalFor tid signum).2

/-- A change of disposition that discards what the process holds of a signal. -/
def discarded (sig : ℕ) (handlerVal : UInt32) : List SignalEvent :=
  if settable sig && shouldDiscardPending sig (.ofVal handlerVal) then
    [.drop fun k => k = (.process, sig)]
  else []

end ThreadedProcess

open ThreadedProcess in
/-- What a call sends and what it reports to have handed out. -/
def SignalOp.events (tid : ℕ) (p : ThreadedProcess) : SignalOp → List SignalEvent
  | .receive sig siValue siCode =>
    sent .process sig siValue ++ delivered tid (p.receive sig siValue siCode)
  | .arrive sig siValue _ => sent .process sig siValue
  | .tkill target sig siValue siCode =>
    sent (p.homeOf target) sig siValue ++ delivered tid (p.sysTkill target sig siValue siCode).2
  | .sigaction sig handlerVal flags mask =>
    discarded sig handlerVal ++ delivered tid (p.sysSigaction sig handlerVal flags mask).2
  | .signal sig handlerVal =>
    discarded sig handlerVal ++ delivered tid (p.sysSignal sig handlerVal).2
  | .sigprocmask how set =>
    match p.sysSigprocmask tid how set with
    | (.error _, _) => []
    | (.ok _, q) => delivered tid q
  | .sigsuspend mask => delivered tid (p.sysSigsuspend tid mask).2
  | .pause => delivered tid (p.sysPause tid).2
  | .ppoll polled mask => delivered tid (p.sysPpoll tid polled mask).2
  | .pselect6 selected mask => delivered tid (p.sysPselect6 tid selected mask).2
  | .sigtimedwait mask =>
    (match (p.sysSigtimedwait tid mask).1 with
      | .ok (sig, siValue, _) => rtEvent sig (.take (p.sourceOf tid sig, sig) siValue .wait)
      | .error _ => []) ++ delivered tid (p.sysSigtimedwait tid mask).2
  | .readSignalfd slot bufLen =>
    (match (p.readSignalfd slot bufLen).1 with
      | .ok signo => rtEvent signo (.take (.process, signo) 0 .signalfd)
      | .error _ => []) ++ delivered tid (p.readSignalfd slot bufLen).2
  | .clone _ => []
  | .threadExit => [.drop fun k => k.1 = .thread tid]
  | .sigaltstack sp size flags =>
    match p.sysSigaltstack sp size flags with
    | (.error _, _) => []
    | (.ok _, q) => delivered tid q
  | .sigreturn => []
  | .dequeue => dequeueEvents tid (p.backlog tid + 1) p
  | .other => delivered tid p

/-- The history of a run. -/
def ThreadedProcess.history (p : ThreadedProcess) : List (ℕ × SignalOp) → List SignalEvent
  | [] => []
  | call :: calls => call.2.events call.1 p ++ (p.next call).history calls

/-- If a read from a signal descriptor finds a real-time signal, the process holds one
instance of it, without a value. -/
def SignalOp.ReadsLone (p : ThreadedProcess) : SignalOp → Prop
  | .readSignalfd slot bufLen =>
    128 ≤ bufLen → ∀ sfd ∈ p.signalfds.get slot, p.signals.pending &&& sfd.mask ≠ 0 →
      SIGRTMIN ≤ lowestSignal (p.signals.pending &&& sfd.mask) →
        p.instances (.process, lowestSignal (p.signals.pending &&& sfd.mask)) = [0]
  | _ => True

namespace ThreadedProcess

/-! ### The places as mailboxes -/

/-- A real-time signal that is pending has an instance queued. -/
def Tidy (p : ThreadedProcess) : Prop :=
  ∀ k sig, SIGRTMIN ≤ sig → (p.pendingAt k).has sig = true → (p.pendingAt k).queued sig ≠ []

/-- A step of the process refines steps of the mailboxes. -/
def Refines (p q : ThreadedProcess) (history : List SignalEvent) : Prop :=
  q.Tidy ∧ replay p.instances history = some q.instances

/-- A change in one place that is about one signal. -/
structure ChangesAt (p q : ThreadedProcess) (k : Target) (sig : ℕ) (w : PendingSignals) : Prop where
  places : ∀ k', q.pendingAt k' = if k' = k then w else p.pendingAt k'
  others : ∀ n ≠ sig, SIGRTMIN ≤ n → (p.pendingAt k).SameAt w n
  self : SIGRTMIN ≤ sig → w.has sig = true → w.queued sig ≠ []

variable {tid sig : ℕ} {p q r : ThreadedProcess} {h h' : List SignalEvent} {k : Target}
  {w : PendingSignals}

namespace Refines

/-- Doing nothing refines no event. -/
theorem refl (htidy : p.Tidy) : p.Refines p [] := ⟨htidy, rfl⟩

/-- Refinements follow one another. -/
theorem trans (hpq : p.Refines q h) (hqr : q.Refines r h') : p.Refines r (h ++ h') := by
  refine ⟨hqr.1, ?_⟩
  rw [replay_append, hpq.2, Option.bind_some, hqr.2]

variable (htidy : p.Tidy)

include htidy

/-- What leaves all places refines no event. -/
theorem of_places (hplaces : ∀ k, q.pendingAt k = p.pendingAt k) : p.Refines q [] := by
  refine ⟨fun k sig hrt hhas => ?_, congrArg some (funext fun k => ?_)⟩
  · rw [hplaces] at hhas ⊢
    exact htidy k sig hrt hhas
  · rw [instances, instances, hplaces]

/-- A change at one place changes its instances. -/
theorem at_place (hchange : p.ChangesAt q k sig w) :
    q.Tidy ∧ q.instances = Function.update p.instances (k, sig)
      (if SIGRTMIN ≤ sig then (w.queued sig).map RtSigEntry.siValue else []) := by
  obtain ⟨hplaces, hothers, hself⟩ := hchange
  refine ⟨fun k' n hrt hhas => ?_, funext fun key => ?_⟩
  · rw [hplaces] at hhas ⊢
    split_ifs at hhas ⊢ with hk
    · by_cases hn : n = sig
      · exact hn ▸ hself (hn ▸ hrt) (hn ▸ hhas)
      · obtain ⟨hsame, hqueued⟩ := hothers n hn hrt
        rw [hqueued]
        exact htidy k n hrt (hsame.symm.trans hhas)
    · exact htidy k' n hrt hhas
  obtain ⟨k', n⟩ := key
  rw [instances, hplaces]
  by_cases hkey : (k', n) = (k, sig)
  · cases hkey
    rw [Function.update_self, if_pos rfl]
  rw [Function.update_of_ne hkey, instances]
  split_ifs with hrt hk
  · rw [(hothers n (fun hn => hkey (Prod.ext hk hn)) hrt).2, hk]
  · rfl
  · rfl

/-- A change that an event makes to the mailbox of a real-time signal. -/
theorem of_event {e : SignalEvent} (hchange : p.ChangesAt q k sig w)
    (hevent : SIGRTMIN ≤ sig → apply p.instances e =
      some (Function.update p.instances (k, sig) ((w.queued sig).map RtSigEntry.siValue))) :
    p.Refines q (rtEvent sig e) := by
  obtain ⟨htidy', hinstances⟩ := at_place htidy hchange
  refine ⟨htidy', ?_⟩
  rw [rtEvent]
  split
  next hrt => rw [replay_singleton, hevent hrt, hinstances, if_pos hrt]
  next hrt =>
    have hnil : p.instances (k, sig) = [] := if_neg hrt
    rw [hinstances, if_neg hrt, ← hnil, Function.update_eq_self]
    rfl

/-- Sending a signal puts an instance in. -/
theorem raise (hk : p.knows k = true) (sig : ℕ) (siValue siCode : ℤ) :
    p.Refines (p.raiseAt k sig siValue siCode) (sent k sig siValue) := by
  have hplaces := pendingAt_raiseAt p hk sig siValue siCode
  rw [sent]
  split
  next hv =>
    refine of_event htidy ⟨hplaces,
      fun n hn hrt => ⟨by simp [has_raiseInternal, hn], by simp [queued_raiseInternal hrt, hn]⟩,
      fun hrt _ => by simp [queued_raiseInternal hrt, hv]⟩ fun hrt => ?_
    rw [queued_raiseInternal hrt, if_pos ⟨hv, rfl⟩, List.map_append, apply, instances, if_pos hrt]
    rfl
  next hv =>
    refine .of_places htidy fun k' => ?_
    rw [hplaces]
    split_ifs with hk'
    · rw [hk', PendingSignals.raiseInternal, if_pos (by simpa using hv)]
    · rfl

/-- Taking a signal for a thread hands out the oldest instance in its place. -/
theorem take {signum : ℕ} (hpending : inMask (p.pendingFor tid) signum = true) (how : Handout) :
    p.Refines (p.dequeueSignalFor tid signum).2
      (rtEvent signum (.take (p.sourceOf tid signum, signum)
        (p.dequeueSignalFor tid signum).1.1 how)) := by
  have hvalid := validSignal_of_inMask hpending
  have hqueued := queued_consumeOne (p.pendingAt (p.sourceOf tid signum)) signum signum hvalid
  rw [if_pos rfl] at hqueued
  refine of_event htidy (k := p.sourceOf tid signum)
    (w := ((p.pendingAt (p.sourceOf tid signum)).consumeOne signum).2) ⟨fun k => ?_,
      fun n hn _ => sameAt_consumeOne _ hvalid hn, fun hrt hhas => ?_⟩ fun hrt => ?_
  · rw [pendingAt_dequeueSignalFor]
    split_ifs with hk
    · rw [hk]
    · rfl
  · rw [has_consumeOne _ _ _ hvalid, Bool.and_eq_true] at hhas
    rw [hqueued]
    simpa [hrt] using hhas.2
  obtain ⟨e, es, hes⟩ := List.ne_nil_iff_exists_cons.mp
    (htidy _ signum hrt (p.has_sourceOf hpending))
  have hvalue : (p.dequeueSignalFor tid signum).1.1 = e.siValue := by
    simp only [dequeueSignalFor]
    rw [fst_consumeOne _ _ hvalid, hes]
    rfl
  rw [apply, hvalue, instances, if_pos hrt, hqueued, hes]
  exact if_pos rfl

/-- A change of the signals of the process that leaves the pending ones alone. -/
theorem update {f : SignalState → SignalState} (hf : (f p.signals).shared = p.signals.shared) :
    p.Refines (p.updSignals f) [] := by
  refine .of_places htidy fun k => ?_
  cases k with
  | process => exact hf
  | thread => rfl

omit htidy in
/-- Clearing changes one place. -/
theorem cleared {f : SignalState → SignalState} (hvalid : validSignal sig = true)
    (hf : (f p.signals).shared = p.signals.shared.clearPending sig) :
    p.ChangesAt (p.updSignals f) .process sig (p.signals.shared.clearPending sig) := by
  refine ⟨fun k => ?_, fun n hn _ => ⟨?_, ?_⟩, fun _ hhas => ?_⟩
  · cases k with
    | process => exact hf
    | thread => rfl
  · rw [has_clearPending _ _ _ hvalid, decide_eq_true hn, Bool.and_true]
    rfl
  · rw [queued_clearPending _ _ _ hvalid, if_neg hn]
    rfl
  · simp [has_clearPending _ _ _ hvalid] at hhas

/-- Clearing drops the instances of a signal. -/
theorem clear {f : SignalState → SignalState} (hvalid : validSignal sig = true)
    (hf : (f p.signals).shared = p.signals.shared.clearPending sig) :
    p.Refines (p.updSignals f) [.drop fun k => k = (.process, sig)] := by
  obtain ⟨htidy', hinstances⟩ := at_place htidy (cleared hvalid hf)
  refine ⟨htidy', congrArg some (funext fun key => ?_)⟩
  rw [hinstances, queued_clearPending _ _ _ hvalid, if_pos rfl, List.map_nil, ite_self,
    Function.update_apply]
  simp

/-- A signal descriptor that reads the only instance, which has no value, hands it out. -/
theorem readLone (hvalid : validSignal sig = true)
    (hlone : SIGRTMIN ≤ sig → p.instances (.process, sig) = [0]) :
    p.Refines (p.updSignals fun s => s.clearPending sig)
      (rtEvent sig (.take (.process, sig) 0 .signalfd)) := by
  refine of_event htidy (cleared hvalid (by rw [clearPending_eq]; rfl)) fun hrt => ?_
  rw [apply, hlone hrt, queued_clearPending _ _ _ hvalid, if_pos rfl]
  rfl

/-- The disposition of the lowest signal that can be delivered takes an instance. -/
theorem dispose (hne : p.deliverableFor tid ≠ 0) :
    p.Refines (p.dequeueSignalFor tid (lowestSignal (p.deliverableFor tid))).2
      (p.disposed tid (lowestSignal (p.deliverableFor tid))) := by
  have hmem := (lowestSignal_spec hne).1
  rw [inMask_deliverableFor, Bool.and_eq_true] at hmem
  exact take htidy hmem.1 _

omit htidy

end Refines

/-! ### Delivery -/

/-- A delivery takes what it delivers or drops. -/
theorem refines_deliverLoop {fuel : ℕ} (htidy : p.Tidy) (hloop : deliverLoop tid fuel p = some q) :
    p.Refines q (deliverEvents tid fuel p) := by
  induction fuel generalizing p with
  | zero => cases hloop
  | succ fuel ih =>
    rw [deliverLoop] at hloop
    rw [deliverEvents]
    rcases hround : deliverRound tid p with _ | r
    · rw [hround] at hloop
      cases hloop
      exact .refl htidy
    rw [hround] at hloop
    obtain ⟨signum, hmem, hlow, -, hr⟩ := deliverRound_eq_some hround
    obtain rfl := eq_lowestSignal hmem hlow
    have hne : p.deliverableFor tid ≠ 0 := by
      intro hzero
      rw [hzero, inMask_zero] at hmem
      cases hmem
    have htaken := Refines.dispose htidy hne
    have hstep : p.Refines r (p.disposed tid (lowestSignal (p.deliverableFor tid))) := by
      rcases hr with rfl | rfl
      · exact htaken
      · exact ⟨htaken.1, htaken.2⟩
    simp only at hloop ⊢
    split_ifs at hloop with hexited
    · cases hloop
      rwa [if_pos hexited, List.append_nil]
    rw [if_neg hexited]
    exact hstep.trans (ih hstep.1 hloop)

/-- A call whose effect is followed by the delivery that ends it. -/
theorem Refines.deliver (hpq : p.Refines q h) :
    p.Refines (deliverPendingSignals tid q) (h ++ delivered tid q) :=
  hpq.trans (refines_deliverLoop hpq.1
    (deliverLoop_backlog (q.backlog tid + 1) q (Nat.lt_succ_self _)))

variable (htidy : p.Tidy)

include htidy

/-- So does a dequeue. -/
theorem refines_dequeueLoop {fuel : ℕ} {d : Option SignalDelivery}
    (hloop : dequeueLoop tid fuel p = some (d, q)) : p.Refines q (dequeueEvents tid fuel p) := by
  induction fuel generalizing p with
  | zero => cases hloop
  | succ fuel ih =>
    simp only [dequeueLoop] at hloop
    simp only [dequeueEvents]
    by_cases hzero : p.deliverableFor tid = 0
    · rw [if_pos hzero] at hloop ⊢
      obtain rfl := returned_eq hloop
      exact .refl htidy
    have hmem := (lowestSignal_spec hzero).1
    have hvalid := validSignal_iff.mp (validSignal_of_inMask hmem)
    have htaken := Refines.dispose htidy hzero
    rw [if_neg hzero, if_neg (by simp only [NSIG]; omega)] at hloop
    rw [if_neg hzero]
    rcases haction : (p.signals.getAction (lowestSignal (p.deliverableFor tid))).handler with
      _ | _ | idx
    · rw [haction] at hloop
      simp only at hloop ⊢
      split at hloop
      next hfatal =>
        obtain rfl := returned_eq hloop
        rw [if_pos hfatal]
        exact htaken.trans (.of_places htaken.1
          ((SamePending.dropSavedMasks _).trans (.exited _ _ _)).places)
      next hfatal =>
        rw [if_neg hfatal]
        exact htaken.trans (ih htaken.1 hloop)
    · rw [haction] at hloop
      exact htaken.trans (ih htaken.1 hloop)
    rw [haction] at hloop
    obtain rfl := returned_eq hloop
    rw [inMask_deliverableFor, Bool.and_eq_true] at hmem
    have hhandler := Refines.take htidy hmem.1 .handler
    have hplaces := (SamePending.startHandler p tid (lowestSignal (p.deliverableFor tid)) idx
      (p.signals.getAction (lowestSignal (p.deliverableFor tid)))).places
    have hend := hhandler.trans (.of_places hhandler.1 hplaces)
    rwa [List.append_nil] at hend

/-! ### Calls -/

/-- A directed signal is sent to the thread. -/
theorem refines_sysTkill (target sig : ℕ) (siValue siCode : ℤ) :
    p.Refines (p.sysTkill target sig siValue siCode).2 (sent (p.homeOf target) sig siValue) := by
  have hinvalid : validSignal sig = false → sent (p.homeOf target) sig siValue = [] := fun h => by
    rw [sent, if_neg (by simp [h])]
  rw [sysTkill]
  split
  next hbig =>
    rw [hinvalid (Bool.eq_false_iff.mpr fun h => by
      have := validSignal_iff.mp h
      simp only [NSIG] at hbig
      omega)]
    exact .refl htidy
  next =>
    split
    next hzero =>
      rw [hinvalid (by rw [hzero]; rfl)]
      exact .refl htidy
    next =>
      split
      · exact .raise htidy (p.knows_homeOf target) sig siValue (-1)
      next hplain =>
        rw [not_or, not_not, not_not] at hplain
        rw [hplain.2]
        exact .raise htidy (p.knows_homeOf target) sig 0 0

/-- What a new disposition does to the pending signals of the process. -/
theorem refines_disposition {f : SignalState → SignalState} {sig : ℕ}
    {handlerVal : UInt32} (hf : (f p.signals).shared =
      if settable sig && shouldDiscardPending sig (.ofVal handlerVal) then
        p.signals.shared.clearPending sig else p.signals.shared) :
    p.Refines (p.updSignals f) (discarded sig handlerVal) := by
  rw [discarded]
  split
  next h =>
    rw [if_pos h] at hf
    rw [Bool.and_eq_true] at h
    exact .clear htidy (settable_iff.mp h.1).1 hf
  next h =>
    rw [if_neg h] at hf
    exact .update htidy hf

/-- A wait takes the instance it returns. -/
theorem refines_sysSigtimedwait (tid : ℕ) (mask : UInt64) :
    p.Refines (p.sysSigtimedwait tid mask).2
      (match (p.sysSigtimedwait tid mask).1 with
        | .ok (sig, siValue, _) => rtEvent sig (.take (p.sourceOf tid sig, sig) siValue .wait)
        | .error _ => []) := by
  simp only [sysSigtimedwait]
  by_cases hzero : p.pendingFor tid &&& mask = 0
  · rw [if_pos hzero]
    exact .refl htidy
  have hmem := (lowestSignal_spec hzero).1
  have hvalid := validSignal_iff.mp (validSignal_of_inMask hmem)
  rw [inMask_and, Bool.and_eq_true] at hmem
  rw [if_neg hzero, if_pos (by simp only [NSIG]; omega)]
  exact .take htidy hmem.1 .wait

/-- So does a read of a signal descriptor. -/
theorem refines_readSignalfd (slot bufLen : ℕ)
    (hlone : (SignalOp.readSignalfd slot bufLen).ReadsLone p) :
    p.Refines (p.readSignalfd slot bufLen).2
      (match (p.readSignalfd slot bufLen).1 with
        | .ok signo => rtEvent signo (.take (.process, signo) 0 .signalfd)
        | .error _ => []) := by
  simp only [readSignalfd]
  split
  · exact .refl htidy
  next hlen =>
    rcases hsfd : p.signalfds.get slot with _ | sfd
    · exact .refl htidy
    simp only
    split_ifs with hzero
    · exact .refl htidy
    exact .readLone htidy (validSignal_of_inMask (lowestSignal_spec hzero).1)
      (hlone (Nat.not_lt.mp hlen) sfd hsfd hzero)

/-- A thread that leaves drops its instances. -/
theorem refines_removeThread (hnumbered : p.Numbered) (tid : ℕ) :
    p.Refines (p.removeThread tid) [.drop fun k => k.1 = .thread tid] := by
  have hplaces : ∀ k, (p.removeThread tid).pendingAt k =
      if k = .thread tid then .empty else p.pendingAt k := by
    intro k
    split
    next hk =>
      rw [hk, pendingAt, worker, hnumbered.getThread_removeThread_self, ite_self]
    next hk => exact hnumbered.pendingAt_removeThread hk
  refine ⟨fun k n hrt hhas => ?_, congrArg some (funext fun key => ?_)⟩
  · rw [hplaces] at hhas ⊢
    split at hhas
    · rw [has_empty] at hhas
      cases hhas
    next hk =>
      rw [if_neg hk]
      exact htidy k n hrt hhas
  obtain ⟨k, n⟩ := key
  have hafter : (p.removeThread tid).instances (k, n) =
      if k = .thread tid then [] else p.instances (k, n) := by
    rw [instances, hplaces]
    by_cases hk : k = .thread tid
    · rw [if_pos hk, if_pos hk, queued_empty, List.map_nil, ite_self]
    · rw [if_neg hk, if_neg hk]
      rfl
  rw [hafter]
  simp

omit htidy

/-- **One call refines the mailboxes.** -/
theorem refines_run (op : SignalOp) (tid : ℕ) (htidy : p.Tidy) (hnumbered : p.Numbered)
    (hlone : op.ReadsLone p) : p.Refines (op.run tid p).2 (op.events tid p) := by
  have hsame : ∀ {q : ThreadedProcess}, p.SamePending q →
      p.Refines (deliverPendingSignals tid q) (delivered tid q) := fun h =>
    (Refines.of_places htidy h.places).deliver
  cases op with
  | receive sig siValue siCode =>
    rw [run, events, receive_eq_raiseAt]
    exact (Refines.raise htidy rfl sig siValue siCode).deliver
  | arrive sig siValue siCode =>
    rw [run, events, receive_eq_raiseAt]
    exact Refines.raise htidy rfl sig siValue siCode
  | tkill target sig siValue siCode =>
    exact (refines_sysTkill htidy target sig siValue siCode).deliver
  | sigaction =>
    simp only [run, events, sysSigaction_snd]
    exact (refines_disposition htidy (shared_setAction _ _ _)).deliver
  | signal =>
    simp only [run, events, sysSignal_snd]
    refine (refines_disposition htidy ?_).deliver
    rw [setHandler_eq]
    exact shared_setAction _ _ _
  | sigprocmask how set =>
    have hmask := SamePending.sysSigprocmask p tid how set
    rw [run, events]
    generalize p.sysSigprocmask tid how set = r at hmask ⊢
    rcases r with ⟨e | old, q⟩
    · exact .of_places htidy hmask.places
    · exact hsame hmask
  | sigsuspend mask => exact hsame (.sysSigsuspend p tid mask)
  | pause => exact hsame (.sysSigsuspend p tid _)
  | ppoll polled mask => exact hsame (.maskedPoll p tid polled mask)
  | pselect6 selected mask => exact hsame (.maskedPoll p tid selected mask)
  | sigtimedwait mask => exact (refines_sysSigtimedwait htidy tid mask).deliver
  | readSignalfd slot bufLen => exact (refines_readSignalfd htidy slot bufLen hlone).deliver
  | clone =>
    simp only [run, events, sysClone]
    split
    · exact .refl htidy
    · exact .of_places htidy (p.pendingAt_join
        ⟨p.allocTid.1, ⟨.empty, p.allocTid.2.blockedFor tid, none⟩⟩ rfl)
  | threadExit => exact refines_removeThread htidy hnumbered tid
  | sigaltstack sp size flags =>
    have hstack := SamePending.sysSigaltstack p sp size flags
    rw [run, events]
    generalize p.sysSigaltstack sp size flags = r at hstack ⊢
    rcases r with ⟨e | u, q⟩
    · exact .of_places htidy hstack.places
    · exact hsame hstack
  | sigreturn => exact .of_places htidy (SamePending.sysSigreturn p).places
  | dequeue =>
    exact refines_dequeueLoop htidy
      (dequeueLoop_backlog (p.backlog tid + 1) p (Nat.lt_succ_self _))
  | other => exact hsame (.refl p)

/-! ### Runs -/

/-- A run refines its history. -/
theorem refines_perform (htidy : p.Tidy) (hnumbered : p.Numbered) (calls : List (ℕ × SignalOp))
    (hrun : Runs ThreadedProcess.next (fun p call => call.2.ReadsLone p) p calls) :
    p.Refines (p.perform calls) (p.history calls) := by
  induction calls generalizing p with
  | nil => exact .refl htidy
  | cons call calls ih =>
    have hstep := refines_run call.2 call.1 htidy hnumbered hrun.1
    have hnumbered' := Acts.numbered hnumbered (acts_run call.2 call.1 p)
    exact hstep.trans (ih hstep.1 hnumbered' hrun.2)

end ThreadedProcess

open ThreadedProcess in
/-- **Real-time signals are handed out once, in order, with their values.** In every run of
a process that starts with its main thread only and with nothing pending, and in which a
signal descriptor only reads real-time signals of which the process holds one instance
without a value: what the calls reported is a possible history of first-in first-out
mailboxes that leads to what is queued at the end. So for every place and every real-time
signal that was never discarded there, the values sent are the values handed out, in the
order of sending, followed by the values that are still queued. -/
theorem realtime_handed_out_once (p₀ : Process) (hidle : p₀.signals.shared = .empty)
    (calls : List (ℕ × SignalOp))
    (hrun : Runs ThreadedProcess.next (fun p call => call.2.ReadsLone p) ⟨p₀, .single⟩ calls) :
    let p := ThreadedProcess.mk p₀ .single
    replay (fun _ => []) (p.history calls) = some (p.perform calls).instances ∧
      ∀ k sig, spares (k, sig) (p.history calls) = true →
        putInto (k, sig) (p.history calls) =
          takenFrom (k, sig) (p.history calls) ++ (p.perform calls).instances (k, sig) := by
  intro p
  have hempty : ∀ k, p.pendingAt k = .empty := by
    intro k
    cases k with
    | process => exact hidle
    | thread =>
      rw [pendingAt, worker]
      split
      next h =>
        split at h
        · cases h
        · cases h
      next => rfl
  have htidy : p.Tidy := fun k sig _ hhas => by
    rw [hempty, has_empty] at hhas
    cases hhas
  have hnone : p.instances = fun _ => [] := funext fun k => by
    rw [instances, hempty, queued_empty, List.map_nil, ite_self]
  have hreplay := (refines_perform htidy (.single p₀) calls hrun).2
  rw [hnone] at hreplay
  exact ⟨hreplay, fun k sig hspares => put_eq_taken_append hreplay hspares⟩

/-- Two values are queued for the process while the signal is blocked, and one for a thread;
a wait takes the first, a handler the second. -/
def queuedTwice : List (ℕ × SignalOp) :=
  [(0, .sigaction 40 7 0 0), (0, .sigprocmask SIG_BLOCK (sigBit 40)),
    (0, .clone (CLONE_VM ||| CLONE_THREAD)), (0, .receive 40 5 (-1)), (0, .receive 40 6 (-1)),
    (0, .tkill 11 40 8 (-1)), (0, .sigtimedwait (sigBit 40)),
    (0, .sigprocmask SIG_UNBLOCK (sigBit 40)), (0, .dequeue)]

/-- One signal queued twice. -/
theorem realtime_handed_out_once_queuedTwice :
    let p := ThreadedProcess.new 10
    putInto (.process, 40) (p.history queuedTwice) = [5, 6] ∧
      putInto (.process, 40) (p.history queuedTwice) =
        takenFrom (.process, 40) (p.history queuedTwice) ++
          (p.perform queuedTwice).instances (.process, 40) := by
  have hrun : Runs ThreadedProcess.next (fun p call => call.2.ReadsLone p)
      ⟨Process.new 10, .single⟩ queuedTwice :=
    ⟨trivial, trivial, trivial, trivial, trivial, trivial, trivial, trivial, trivial, trivial⟩
  exact ⟨by decide +kernel, (realtime_handed_out_once (Process.new 10) rfl queuedTwice hrun).2
    .process 40 (by decide +kernel)⟩

/-- Two instances with values 5 and 6 are queued for the process; a read from a signal
descriptor reports the signal with no value, and nothing is queued any more. -/
theorem signalfd_read_loses_instances :
    let p := { ThreadedProcess.new 10 with
      signalfds := ⟨[some ⟨sigBit 40⟩]⟩ }
    let q := p.perform
      [(0, .sigprocmask SIG_BLOCK (sigBit 40)), (0, .receive 40 5 (-1)), (0, .receive 40 6 (-1))]
    q.instances (.process, 40) = [5, 6] ∧
      ((SignalOp.readSignalfd 0 128).run 0 q).1 = .ok (.taken 40 0 0) ∧
      ((SignalOp.readSignalfd 0 128).run 0 q).2.instances (.process, 40) = [] := by
  decide +kernel

end PosixKernel
