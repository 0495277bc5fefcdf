import Mathlib.Data.Multiset.Filter
import PosixKernel.Families
import PosixKernel.Lib.Trace

/-!
# Every Child Once

The host answers waits from the statuses it has stored: at once, or when a child ends whose
parent waits. Seen from the waits, whatever happens on the host is a sequence of six kinds of
steps: a child is recorded, a status is stored, a wait is made, a wait is answered with a child,
waits are answered without one, and everything else, in which the records only get fewer. A child
that was taken by a wait is on no record, and comes back on record only when its number is given
to a new child.

The host keeps the target of a `waitid` that it puts off as the target of a `wait4`. A `waitid`
for process group 1 becomes a `wait4` for `-1`, which is any child.

## Main results

* `WaitCall.faithful_waitid` — which targets keep their meaning;
* `Worker.explained_next` — every step of the host is made of such steps;
* `reaped_once_run` — each child is taken once, by a wait that asked for it;
* `reaped_unasked` — a child that is taken by a wait for others.
-/

namespace PosixKernel

open SlotTable

/-! ### Waits -/

namespace WaitCall

/-- What is kept of a call means the same as the call. -/
def Faithful (call : WaitCall) : Prop :=
  ∀ (w : Worker) (c : ℕ),
    call.wants w c = w.childMatchesWaitTarget c call.waiter.pid call.parentPid

/-- A waiter is of the process that called. -/
theorem parentPid_waiter (call : WaitCall) : call.waiter.parentPid = call.parentPid := by
  cases call <;> rfl

/-- A waiter leaves the zombie when its call does. -/
theorem keeps_waiter (call : WaitCall) :
    (call.waiter.isWaitid && hasFlag call.waiter.options WNOWAIT) = call.keeps := by
  cases call <;> rfl

/-- A wait4 is deferred as it was made. -/
theorem faithful_wait4 (p : ℕ) (target : ℤ) (options : UInt32) :
    (WaitCall.wait4 p target options).Faithful := fun _ _ => rfl

/-- **Targets that keep their meaning**: those of every `waitid` for one child by a positive
number, for a process group other than 1, and for all children. -/
theorem faithful_waitid {p : ℕ} {idtype id : ℤ} {options : UInt32}
    (hpid : idtype = P_PID → 0 < id) (hpgid : idtype = P_PGID → 0 ≤ id ∧ id ≠ 1) :
    (WaitCall.waitid p idtype id options).Faithful := by
  intro w c
  show w.waitidMatches p idtype id c = w.childMatchesWaitTarget c (Worker.waitidTarget idtype id) p
  rw [Worker.waitidMatches, Worker.waitidTarget, Worker.childMatchesWaitTarget]
  by_cases htype : idtype = P_PID
  · simp only [if_pos htype, if_pos (hpid htype)]
  by_cases hgroup : idtype = P_PGID
  · obtain ⟨hnonneg, hone⟩ := hpgid hgroup
    simp only [if_neg htype, if_pos hgroup]
    by_cases hzero : id = 0
    · simp [hzero]
    have hneg : ¬ 0 < -id := by omega
    have hany : ¬ -id = -1 := by omega
    have hown : ¬ -id = 0 := by omega
    simp only [if_neg hzero, if_neg hneg, if_neg hany, if_neg hown, neg_neg]
  · simp only [if_neg htype, if_neg hgroup]
    rfl

end WaitCall

/-! ### Steps as the waits see them -/

/-- The kinds of steps. -/
inductive WaitLabel
  | other
  | born (childPid : ℕ)
  | ended (childPid : ℕ)
  | made (call : WaitCall)
  | refused (calls : Multiset WaitCall)
  | returned (call : WaitCall) (childPid : ℕ)

namespace WaitLabel

/-- The parent that is answered, and the child. -/
def answer : WaitLabel → Option (ℕ × ℕ)
  | .returned call c => some (call.parentPid, c)
  | _ => none

/-- The wait that is made. -/
def call : WaitLabel → Option WaitCall
  | .made call => some call
  | _ => none

/-- A child is taken by a wait. -/
def Takes (c : ℕ) : WaitLabel → Prop
  | .returned call c' => c' = c ∧ call.keeps = false
  | _ => False

/-- A child can be waited for, or a wait is answered with it. -/
def Concerns (c : ℕ) : WaitLabel → Prop
  | .ended c' | .returned _ c' => c' = c
  | _ => False

end WaitLabel

/-- Whom an answer is for. -/
def WaitAnswer.parentPid : WaitAnswer → ℕ
  | .child p _ _ | .none p | .echild p => p

/-- Who waits in a step. -/
def WorkerAction.waits : WorkerAction → Option ℕ
  | .wait4 p _ _ | .waitid p _ _ _ => some p
  | _ => none

/-- The wait that is made in a step. -/
def WorkerAction.call : WorkerAction → Option WaitCall
  | .wait4 p target options => some (.wait4 p target options)
  | .waitid p idtype id options => some (.waitid p idtype id options)
  | _ => none

/-- The wait an action makes is of the process that waits in it. -/
theorem WorkerAction.map_call (a : WorkerAction) : a.call.map WaitCall.parentPid = a.waits := by
  cases a <;> rfl

namespace Worker

/-- The children that waits were answered with. -/
def returns (w : Worker) : List (ℕ × ℕ) :=
  w.answers.filterMap fun
    | .child p c _ => some (p, c)
    | _ => none

/-- The waits of a process that were answered, and those that are open. -/
def accepted (w : Worker) (p : ℕ) : ℕ :=
  w.answers.countP (·.parentPid = p) + w.waitingForChild.countP (·.parentPid = p)

/-- The records get fewer. -/
structure Recedes (w w' : Worker) : Prop where
  up : ∀ c p, w'.childToParent.get c = some p → w.childToParent.get c = some p
  down : ∀ p, ∀ c ∈ w'.children p, c ∈ w.children p
  exited : ∀ c st, w'.exitedChildren.get c = some st → w.exitedChildren.get c = some st

/-- A process is on no record. -/
def Gone (w : Worker) (c : ℕ) : Prop :=
  w.childToParent.get c = none ∧ w.exitedChildren.get c = none

end Worker

/-- The host, with the waits that were made and not answered. -/
structure WaitView where
  host : Worker
  calls : Multiset WaitCall

/-- A step of the host as the waits see it. -/
inductive WaitStep : WaitView → WaitLabel → WaitView → Prop
  /-- The records get fewer, and no wait is made or answered. -/
  | other {w w' : Worker} {calls : Multiset WaitCall} (frame : w.Recedes w')
      (answers : w'.returns = w.returns) : WaitStep ⟨w, calls⟩ .other ⟨w', calls⟩
  /-- A child is recorded. -/
  | born {w w' : Worker} {calls : Multiset WaitCall} (p c : ℕ)
      (up : w'.childToParent = w.childToParent.put c (some p))
      (exited : w'.exitedChildren = w.exitedChildren)
      (answers : w'.returns = w.returns) : WaitStep ⟨w, calls⟩ (.born c) ⟨w', calls⟩
  /-- The status of a child on record is stored. -/
  | ended {w w' : Worker} {calls : Multiset WaitCall} (p c : ℕ) (st : ℤ)
      (child : w.childToParent.get c = some p) (up : w'.childToParent = w.childToParent)
      (exited : w'.exitedChildren = w.exitedChildren.put c (some st))
      (answers : w'.returns = w.returns) : WaitStep ⟨w, calls⟩ (.ended c) ⟨w', calls⟩
  /-- A wait is made. -/
  | made {w : Worker} {calls : Multiset WaitCall} (call : WaitCall) :
      WaitStep ⟨w, calls⟩ (.made call) ⟨w, call ::ₘ calls⟩
  /-- Waits that were made are answered without a child. -/
  | refused {w w' : Worker} {calls : Multiset WaitCall} (gone : Multiset WaitCall)
      (frame : w.Recedes w') (answers : w'.returns = w.returns) :
      WaitStep ⟨w, gone + calls⟩ (.refused gone) ⟨w', calls⟩
  /-- A wait that was made is answered with a child that it asks for and whose status is stored;
  unless it leaves the child, the child is on no record afterwards. -/
  | returned {w w' : Worker} {calls : Multiset WaitCall} (call : WaitCall) (c : ℕ)
      (wanted : call.wants w c = true) (status : (w.exitedChildren.get c).isSome = true)
      (frame : w.Recedes w') (answers : w'.returns = w.returns ++ [(call.parentPid, c)])
      (taken : call.keeps = false → w'.Gone c) :
      WaitStep ⟨w, call ::ₘ calls⟩ (.returned call c) ⟨w', calls⟩

namespace WaitStep

variable {v v' : WaitView} {l : WaitLabel} {c : ℕ}

/-- What is on no record stays so while the records get fewer. -/
theorem gone_of_recedes {w w' : Worker} (frame : w.Recedes w') (hgone : w.Gone c) : w'.Gone c :=
  ⟨Option.eq_none_iff_forall_ne_some.mpr fun p hp =>
      absurd (hgone.1.symm.trans (frame.up c p hp)) (Option.some_ne_none p).symm,
    Option.eq_none_iff_forall_ne_some.mpr fun st hst =>
      absurd (hgone.2.symm.trans (frame.exited c st hst)) (Option.some_ne_none st).symm⟩

/-- What is on no record stays so and is of no concern, until the number is given to a new
child. -/
theorem gone (h : WaitStep v l v') (hgone : v.host.Gone c) :
    l = .born c ∨ v'.host.Gone c ∧ ¬ l.Concerns c := by
  cases h with
  | other frame | refused _ frame => exact .inr ⟨gone_of_recedes frame hgone, id⟩
  | made => exact .inr ⟨hgone, id⟩
  | born p c' up exited =>
    by_cases hc : c' = c
    · exact .inl (hc ▸ rfl)
    · refine .inr ⟨⟨?_, exited ▸ hgone.2⟩, id⟩
      rw [up, get_put_of_ne _ _ (Ne.symm hc)]
      exact hgone.1
  | ended p c' st child up exited =>
    have hc : c' ≠ c := by
      rintro rfl
      cases hgone.1.symm.trans child
    refine .inr ⟨⟨up ▸ hgone.1, ?_⟩, hc⟩
    rw [exited, get_put_of_ne _ _ (Ne.symm hc)]
    exact hgone.2
  | returned call c' _ status frame =>
    refine .inr ⟨gone_of_recedes frame hgone, ?_⟩
    rintro rfl
    rw [hgone.2] at status
    cases status

/-- A child that is taken is on no record. -/
theorem gone_of_takes (h : WaitStep v l v') (htakes : l.Takes c) : v'.host.Gone c := by
  cases h with
  | returned call c' _ _ _ _ taken =>
    obtain ⟨rfl, hkeeps⟩ := htakes
    exact taken hkeeps
  | _ => exact htakes.elim

/-- What a step returns is what its label answers. -/
theorem returns_eq (h : WaitStep v l v') :
    v'.host.returns = v.host.returns ++ l.answer.toList := by
  cases h with
  | returned _ _ _ _ _ answers => exact answers
  | made => exact (List.append_nil _).symm
  | other _ answers | born _ _ _ _ answers | ended _ _ _ _ _ _ answers | refused _ _ answers =>
    rw [answers]
    exact (List.append_nil _).symm

end WaitStep

/-- The answers of a trace are those that were given. -/
theorem returns_of_trace {v v' : WaitView} {labels : List WaitLabel}
    (h : Trace WaitStep v labels v') :
    v'.host.returns = v.host.returns ++ labels.filterMap WaitLabel.answer := by
  induction h with
  | nil => exact (List.append_nil _).symm
  | @cons v u v' l labels head _ ih =>
    rw [ih, head.returns_eq, List.append_assoc]
    cases hl : l.answer with
    | none => rw [List.filterMap_cons_none hl]; rfl
    | some => rw [List.filterMap_cons_some hl]; rfl

/-- **Between two concerns of a child** of which the first takes it, its number is given to a
new child. -/
theorem born_between {v v' : WaitView} {before between after : List WaitLabel}
    {taking later : WaitLabel} {c : ℕ}
    (h : Trace WaitStep v (before ++ taking :: (between ++ later :: after)) v')
    (htakes : taking.Takes c) (hlater : later.Concerns c) : .born c ∈ between := by
  obtain ⟨u, u', -, hstep, hrest⟩ := h.split
  have hborn : ∃ l ∈ between, l = .born c :=
    hrest.renewed (Q := fun v => v.host.Gone c) (hstep.gone_of_takes htakes)
      (fun _ _ _ hstep hgone => hstep.gone hgone)
      (by rintro l rfl; exact id) hlater
  obtain ⟨l, hl, rfl⟩ := hborn
  exact hl

/-! ### The host's handlers are made of such steps -/

/-- A spawned child has the number that was allocated. -/
theorem System.spawnChild_pid {H : HostIO} {env : System → ProcfsEnv} {s s' : System}
    {parentPid childPid : ℕ} {argv envp : List Bytes} {actions : List FileAction}
    {attrs : SpawnAttrs}
    (h : s.spawnChild H env parentPid argv envp actions attrs = (.ok childPid, s')) :
    childPid = s.allocateSpawnPid := by
  rcases spawnChild_cases h with ⟨-, hr, -⟩ | ⟨parent, child, c, -, hchild, -, ⟨hr, -⟩ | ⟨e, hr, -⟩⟩
  · cases hr
  · rw [Except.ok.inj hr, hchild, (spawnedChild_tables parent parentPid _ argv envp attrs).1]
  · cases hr

namespace Worker

/-- What holds of every state of the host: children have positive numbers, and the waits that
were put off mean the same as the calls. -/
structure Sane (w : Worker) : Prop where
  next : 0 < w.nextChildPid
  numbers : ∀ p, ∀ c ∈ w.children p, 0 < c
  faithful : ∀ x ∈ w.waitingForChild, ∃ call : WaitCall, call.waiter = x ∧ call.Faithful

/-- The waits that were made and not answered are those that the host keeps, and mean the same as
what it keeps of them. -/
structure Open (w : Worker) (calls : Multiset WaitCall) : Prop where
  kept : calls.map WaitCall.waiter = w.waitingForChild
  faithful : ∀ call ∈ calls, call.Faithful

/-- A change of the host is made of steps as the waits see them, in which the given wait is made;
and no wait is lost: those that were answered or are open stay as many, and that one more. -/
structure Explained (w : Worker) (made : Option WaitCall) (w' : Worker) : Prop where
  sane : w'.Sane
  steps : ∀ calls, w.Open calls → ∃ labels calls', Trace WaitStep ⟨w, calls⟩ labels ⟨w', calls'⟩ ∧
    labels.filterMap WaitLabel.call = made.toList ∧ w'.Open calls'
  accepted : ∀ p, w'.accepted p =
    w.accepted p + if made.map WaitCall.parentPid = some p then 1 else 0

variable {M : Machine} {sigchld : System → ℕ → System} {w w' w'' : Worker} {parentPid c : ℕ}

/-- Changes that make no wait compose. -/
theorem Explained.trans (h : w.Explained none w') (h' : w'.Explained none w'') :
    w.Explained none w'' := by
  refine ⟨h'.sane, fun calls hopen => ?_, fun p => (h'.accepted p).trans (h.accepted p)⟩
  obtain ⟨labels, calls', hlabels, hmade, hopen'⟩ := h.steps calls hopen
  obtain ⟨labels', calls'', hlabels', hmade', hopen''⟩ := h'.steps calls' hopen'
  exact ⟨labels ++ labels', calls'', hlabels.append hlabels',
    by rw [List.filterMap_append, hmade, hmade']; rfl, hopen''⟩

/-- Nothing is explained by nothing. -/
theorem Explained.refl (h : w.Sane) : w.Explained none w :=
  ⟨h, fun calls hopen => ⟨[], calls, .nil _, rfl, hopen⟩, fun _ => rfl⟩

/-- The returns are read from the answers. -/
theorem returns_of_answers (h : w'.answers = w.answers) : w'.returns = w.returns := by
  rw [returns, h, returns]

/-- The records get fewer, and no wait is made or answered. -/
theorem Explained.other (h : w.Sane) (frame : w.Recedes w')
    (waiting : w'.waitingForChild = w.waitingForChild) (answers : w'.answers = w.answers)
    (hnext : w.nextChildPid ≤ w'.nextChildPid) : w.Explained none w' := by
  refine ⟨⟨h.next.trans_le hnext, fun p c hc => h.numbers p c (frame.down p c hc),
    fun x hx => h.faithful x (waiting ▸ hx)⟩, fun calls hopen => ?_, fun p => ?_⟩
  · exact ⟨[.other], calls, .single (.other frame (returns_of_answers answers)), rfl,
      waiting ▸ hopen.kept, hopen.faithful⟩
  · rw [Worker.accepted, answers, waiting]
    rfl

/-- The kernel, the registered processes and the ends that are being reported do not matter. -/
theorem Explained.aside (h : w.Sane) (kernel : System) (processes hostReaped : List ℕ) :
    w.Explained none { w with
      kernel := kernel, processes := processes, hostReaped := hostReaped } :=
  .other h ⟨fun _ _ h => h, fun _ _ h => h, fun _ _ h => h⟩ rfl rfl le_rfl

/-- A child that is recorded is born. -/
theorem Explained.recordChild (h : w.Sane) (hc : 0 < c) :
    w.Explained none (w.recordChild parentPid c) := by
  refine ⟨⟨h.next, fun p c' hc' => ?_, h.faithful⟩, fun calls hopen => ⟨[.born c], calls,
    .single (.born parentPid c rfl rfl rfl), rfl, hopen.kept, hopen.faithful⟩, fun _ => rfl⟩
  rcases (mem_members_enlist _ _ _).mp hc' with hold | ⟨-, rfl⟩
  · exact h.numbers p c' hold
  · exact hc

/-- Consuming a zombie only takes from the books. -/
theorem recedes_consumeExitedChild (w : Worker) (parentPid c : ℕ) :
    w.Recedes (w.consumeExitedChild parentPid c) := by
  refine ⟨fun q p => get_of_get_clear, fun p q hq => ?_, fun q st => get_of_get_clear⟩
  have hstruck : q ∈ (w.parentToChildren.strikeOff parentPid c).members p := hq
  rw [members_strikeOff] at hstruck
  exact ((mem_members_strike _ _ _).mp hstruck).1

/-- A consumed child is gone. -/
theorem gone_consumeExitedChild (w : Worker) (parentPid c : ℕ) :
    (w.consumeExitedChild parentPid c).Gone c := by
  refine ⟨?_, ?_⟩
  · exact (get_clear w.childToParent c c).trans (if_pos rfl)
  · exact (get_clear w.exitedChildren c c).trans (if_pos rfl)

/-- An answer accepts one wait of its process. -/
theorem accepted_answer (w : Worker) (a : WaitAnswer) (p : ℕ) :
    (w.answer a).accepted p = w.accepted p + if some a.parentPid = some p then 1 else 0 := by
  simp only [accepted, answer, List.countP_append, List.countP_cons, List.countP_nil,
    decide_eq_true_eq, Option.some.injEq]
  omega

/-- Giving a child to a waiter keeps the books sane. -/
theorem sane_giveChild {waiting : List Waiter} (h : w.Sane) (p c : ℕ) (st : ℤ) (keep : Bool)
    (hwaiting : ∀ x ∈ waiting, x ∈ w.waitingForChild) :
    ({ w with waitingForChild := waiting }.giveChild p c st keep).Sane := by
  cases keep with
  | true => exact ⟨h.next, h.numbers, fun x hx => h.faithful x (hwaiting x hx)⟩
  | false =>
    have hrecedes := recedes_consumeExitedChild { w with waitingForChild := waiting } p c
    exact ⟨h.next, fun p q hq => h.numbers p q (hrecedes.down p q hq),
      fun x hx => h.faithful x (hwaiting x hx)⟩

/-- It appends one answer and leaves those who wait. -/
theorem giveChild_frame (w : Worker) (p c : ℕ) (st : ℤ) (keep : Bool) :
    (w.giveChild p c st keep).answers = w.answers ++ [.child p c st] ∧
      (w.giveChild p c st keep).waitingForChild = w.waitingForChild := by
  cases keep <;> exact ⟨rfl, rfl⟩

/-- A wait that was made is answered with a child. -/
theorem returned_giveChild (call : WaitCall) (wanted : call.wants w c = true)
    (status : (w.exitedChildren.get c).isSome = true) (waiting : List Waiter) (st : ℤ)
    (calls : Multiset WaitCall) : WaitStep ⟨w, call ::ₘ calls⟩ (.returned call c)
      ⟨{ w with waitingForChild := waiting }.giveChild call.parentPid c st call.keeps, calls⟩ := by
  have hanswers : ({ w with waitingForChild := waiting }.giveChild call.parentPid c st
      call.keeps).returns = w.returns ++ [(call.parentPid, c)] := by
    rw [returns, (giveChild_frame _ _ _ _ _).1, List.filterMap_append]
    rfl
  cases hkeeps : call.keeps with
  | true =>
    rw [hkeeps] at hanswers
    refine .returned call c wanted status ⟨fun _ _ h => h, fun _ _ h => h, fun _ _ h => h⟩ hanswers
      fun hfalse => ?_
    exact absurd (hkeeps.symm.trans hfalse) Bool.false_ne_true.symm
  | false =>
    rw [hkeeps] at hanswers
    have hrecedes := recedes_consumeExitedChild { w with waitingForChild := waiting }
      call.parentPid c
    exact .returned call c wanted status ⟨hrecedes.up, hrecedes.down, hrecedes.exited⟩ hanswers
      fun _ => gone_consumeExitedChild { w with waitingForChild := waiting } call.parentPid c

/-- **A wait is answered with a child** when it is made. -/
theorem Explained.giveChild (h : w.Sane) (call : WaitCall) (wanted : call.wants w c = true)
    (status : (w.exitedChildren.get c).isSome = true) (st : ℤ) :
    w.Explained (some call) (w.giveChild call.parentPid c st call.keeps) := by
  obtain ⟨hanswers, hwaiting⟩ := giveChild_frame w call.parentPid c st call.keeps
  refine ⟨sane_giveChild h call.parentPid c st call.keeps fun _ hx => hx, fun calls hopen => ?_,
    fun p => ?_⟩
  · exact ⟨[.made call, .returned call c], calls,
      .cons (.made call) (.single (returned_giveChild call wanted status _ st calls)), rfl,
      hwaiting ▸ hopen.kept, hopen.faithful⟩
  · rw [Worker.accepted, hanswers, hwaiting]
    exact w.accepted_answer (.child call.parentPid c st) p

/-- **A wait is answered with a child** after it was put off. -/
theorem Explained.giveWaiting {x : Waiter} {waiting : List Waiter} (h : w.Sane)
    (hperm : w.waitingForChild.Perm (x :: waiting))
    (wanted : w.childMatchesWaitTarget c x.pid x.parentPid = true)
    (status : (w.exitedChildren.get c).isSome = true) (st : ℤ) :
    w.Explained none ({ w with waitingForChild := waiting }.giveChild x.parentPid c st
      (x.isWaitid && hasFlag x.options WNOWAIT)) := by
  obtain ⟨hanswers, hwaiting⟩ := giveChild_frame { w with waitingForChild := waiting } x.parentPid c
    st (x.isWaitid && hasFlag x.options WNOWAIT)
  refine ⟨sane_giveChild h _ c st _ fun y hy => hperm.mem_iff.mpr (List.mem_cons_of_mem _ hy),
    fun calls hopen => ?_, fun p => ?_⟩
  · -- the call that was made, of which the host has kept this
    obtain ⟨call, hcall, rfl⟩ : ∃ call ∈ calls, call.waiter = x := by
      refine Multiset.mem_map.mp ?_
      rw [hopen.kept]
      exact hperm.mem_iff.mpr List.mem_cons_self
    obtain ⟨rest, rfl⟩ := Multiset.exists_cons_of_mem hcall
    rw [call.parentPid_waiter] at wanted hwaiting ⊢
    rw [call.keeps_waiter] at hwaiting ⊢
    refine ⟨[.returned call c], rest, .single (returned_giveChild call
      ((hopen.faithful call hcall w c).trans wanted) status waiting st rest), rfl, ?_,
      fun call' hmem => hopen.faithful call' (Multiset.mem_cons_of_mem hmem)⟩
    have hkept := hopen.kept
    rw [Multiset.map_cons, Multiset.coe_eq_coe.mpr hperm, ← Multiset.cons_coe] at hkept
    rw [hwaiting]
    exact (Multiset.cons_inj_right _).mp hkept
  · have hgiven := accepted_answer { w with waitingForChild := waiting } (.child x.parentPid c st) p
    rw [Worker.accepted, hanswers, hwaiting]
    refine hgiven.trans ?_
    simp only [Worker.accepted, hperm.countP_eq, List.countP_cons, WaitAnswer.parentPid,
      decide_eq_true_eq, Option.some.injEq, Option.map_none, reduceCtorEq, if_false]
    omega

/-- A wait is answered without a child when it is made. -/
theorem Explained.answer (h : w.Sane) {call : WaitCall} {a : WaitAnswer}
    (ha : a = .echild call.parentPid ∨ a = .none call.parentPid) :
    w.Explained (some call) (w.answer a) := by
  have hparent : a.parentPid = call.parentPid := by rcases ha with rfl | rfl <;> rfl
  have hreturns : (w.answer a).returns = w.returns := by
    rw [returns, Worker.answer, List.filterMap_append]
    rcases ha with rfl | rfl <;> exact List.append_nil _
  refine ⟨⟨h.next, h.numbers, h.faithful⟩, fun calls hopen => ?_, fun p => ?_⟩
  · exact ⟨[.made call, .refused {call}], calls, .cons (.made call) (.single (.refused {call}
      ⟨fun _ _ h => h, fun _ _ h => h, fun _ _ h => h⟩ hreturns)), rfl, hopen.kept, hopen.faithful⟩
  · rw [accepted_answer, hparent]
    rfl

/-- A wait is put off. -/
theorem Explained.deferred (h : w.Sane) (call : WaitCall) (hfaithful : call.Faithful) :
    w.Explained (some call)
      { w with waitingForChild := w.waitingForChild ++ [call.waiter] } := by
  refine ⟨⟨h.next, h.numbers, fun x hx => ?_⟩, fun calls hopen => ?_, fun p => ?_⟩
  · rcases List.mem_append.mp hx with hx | hx
    · exact h.faithful x hx
    · exact ⟨call, (List.mem_singleton.mp hx).symm, hfaithful⟩
  · refine ⟨[.made call, .other], call ::ₘ calls, .cons (.made call)
      (.single (.other ⟨fun _ _ h => h, fun _ _ h => h, fun _ _ h => h⟩ rfl)), rfl, ?_, ?_⟩
    · rw [Multiset.map_cons, hopen.kept, Multiset.cons_coe]
      exact Multiset.coe_eq_coe.mpr (List.perm_append_singleton _ _).symm
    · exact Multiset.forall_mem_cons.mpr ⟨hfaithful, hopen.faithful⟩
  · simp only [Worker.accepted, List.countP_append, List.countP_cons, List.countP_nil,
      call.parentPid_waiter, decide_eq_true_eq, Option.map_some, Option.some.injEq]
    omega

/-- A wait that comes in is explained as made, and as answered or left open. -/
theorem Explained.handleWait (h : w.Sane) {call : WaitCall}
    (hfaithful : w.defers call = true → call.Faithful) :
    w.Explained (some call) (w.handleWait call) := by
  rcases w.handleWait_cases call with ⟨a, ha, heq⟩ |
    ⟨c, -, hended, hwants, heq⟩ | ⟨hdefers, heq⟩ <;>
    rw [heq]
  · exact .answer h ha
  · exact .giveChild h call hwants hended _
  · exact .deferred h call (hfaithful hdefers)

/-- A process group is never negative. -/
theorem getProcessPgid_nonneg (w : Worker) (pid : ℕ) : 0 ≤ w.getProcessPgid pid := by
  rw [getProcessPgid]
  split
  next h => exact h
  next => exact Int.natCast_nonneg pid

/-- What is kept of a `waitid` that is put off means the same, unless it is for group 1. -/
theorem faithful_of_defersWaitid {idtype id : ℤ} {options : UInt32} (h : w.Sane)
    (hdefers : w.defersWaitid parentPid idtype id options = true)
    (hone : ¬ (idtype = P_PGID ∧ id = 1)) :
    (WaitCall.waitid parentPid idtype id options).Faithful := by
  rw [defersWaitid, Bool.and_eq_true, Bool.and_eq_true, List.any_eq_true] at hdefers
  obtain ⟨⟨-, c, hc, hliving⟩, -⟩ := hdefers
  rw [Bool.and_eq_true, waitidMatches] at hliving
  refine WaitCall.faithful_waitid (fun htype => ?_) fun htype => ?_
  · rw [if_pos htype] at hliving
    have hid : (c : ℤ) = id := of_decide_eq_true hliving.2
    rw [← hid]
    exact Int.natCast_pos.mpr (h.numbers parentPid c hc)
  refine ⟨?_, fun hid => hone ⟨htype, hid⟩⟩
  have hne : ¬ idtype = P_PID := by
    rw [htype]
    decide
  rw [if_neg hne, if_pos htype] at hliving
  by_cases hzero : id = 0
  · exact hzero.symm.le
  · rw [if_neg hzero] at hliving
    exact of_decide_eq_true hliving.2 ▸ w.getProcessPgid_nonneg c

/-- The first waiter found is taken out of the list. -/
theorem perm_eraseP_of_find? {p : Waiter → Bool} {l : List Waiter} {x : Waiter}
    (h : l.find? p = some x) : l.Perm (x :: l.eraseP p) := by
  obtain ⟨hx, before, after, rfl, hbefore⟩ := List.find?_eq_some_iff_append.mp h
  rw [List.eraseP_append_right, List.eraseP_cons_of_pos hx]
  · exact List.perm_middle
  · intro b hb hp
    exact absurd hp (by simpa using hbefore b hb)

/-- A parent that waits is answered with the child that has ended. -/
theorem Explained.wakeWaitingParent (h : w.Sane) (status : (w.exitedChildren.get c).isSome = true)
    (st : ℤ) : w.Explained none (w.wakeWaitingParent parentPid c st) := by
  simp only [Worker.wakeWaitingParent]
  split
  next => exact .refl h
  next x hfound =>
    have hperm := perm_eraseP_of_find? hfound
    have hx := List.find?_some hfound
    rw [Bool.and_eq_true, decide_eq_true_eq] at hx
    obtain ⟨rfl, hmatches⟩ := hx
    exact .giveWaiting h hperm hmatches status st

/-- The signal to the parent is no step of a wait. -/
theorem Explained.sendSigchld (sigchld : System → ℕ → System) (h : w.Sane) (pid : ℕ) :
    w.Explained none (w.sendSigchld sigchld pid) ∧
      (w.sendSigchld sigchld pid).exitedChildren = w.exitedChildren := by
  rw [Worker.sendSigchld]
  split
  · exact ⟨.aside h _ w.processes w.hostReaped, rfl⟩
  · exact ⟨.refl h, rfl⟩

/-- **The end of a process is reported.** -/
theorem Explained.reportEnd (sigchld : System → ℕ → System) (c : ℕ) (h : w.Sane) (st : ℤ) :
    w.Explained none (w.reportEnd sigchld c st) := by
  rw [Worker.reportEnd]
  split
  next => exact .refl h
  next p hparent =>
    split
    · exact .other h ⟨fun q p => get_of_get_clear, fun _ _ h => h, fun _ _ h => h⟩ rfl rfl le_rfl
    have hended : w.Explained none
        { w with exitedChildren := w.exitedChildren.put c (some st) } :=
      ⟨⟨h.next, h.numbers, h.faithful⟩, fun calls hopen => ⟨[.ended c], calls,
        .single (.ended p c st hparent rfl rfl rfl), rfl, hopen.kept, hopen.faithful⟩, fun _ => rfl⟩
    obtain ⟨hsent, hexited⟩ := Explained.sendSigchld sigchld hended.sane p
    refine (hended.trans hsent).trans (.wakeWaitingParent hsent.sane ?_ st)
    rw [hexited, get_put_self]
    rfl

variable (h : w.Sane)

include h

/-- An end that is reported and taken down. -/
theorem Explained.terminated (st : ℤ) :
    w.Explained none (({ w with hostReaped := addOnce w.hostReaped c }.reportEnd sigchld c
      st).deactivateProcess c) := by
  have hmarked := Explained.aside h w.kernel w.processes (addOnce w.hostReaped c)
  have hreported := hmarked.trans (.reportEnd sigchld c hmarked.sane st)
  exact hreported.trans (.aside hreported.sane _ _ _)

/-- The end of a process is explained. -/
theorem Explained.handleProcessTerminated (st : ℤ) :
    w.Explained none (w.handleProcessTerminated sigchld c st) := by
  rw [Worker.handleProcessTerminated]
  split
  · exact .refl h
  · exact .terminated h st

/-- A call that the kernel has performed, and what the host does next. -/
theorem Explained.performed (pid : ℕ) (kernel : System) (andThen : Worker → Worker)
    (hthen : ∀ v : Worker, v.Sane → v.Explained none (andThen v)) :
    w.Explained none (w.performed sigchld pid kernel andThen) := by
  have hkernel := Explained.aside h kernel w.processes w.hostReaped
  simp only [Worker.performed, noticeDeath]
  split
  · exact hkernel.trans (.handleProcessTerminated hkernel.sane _)
  · exact hkernel.trans (hthen _ hkernel.sane)

/-- So is the end of one that a signal killed. -/
theorem Explained.reapKilled (pid : ℕ) : w.Explained none (w.reapKilled sigchld pid) := by
  simp only [Worker.reapKilled]
  split
  · exact .refl h
  split
  · exact .refl h
  split
  · exact .handleProcessTerminated h _
  · exact .refl h

/-- So are the ends of all those it killed. -/
theorem Explained.reapAll (pids : List ℕ) :
    w.Explained none (pids.foldl (Worker.reapKilled sigchld) w) := by
  induction pids generalizing w with
  | nil => exact .refl h
  | cons pid rest ih =>
    have hfirst : w.Explained none (w.reapKilled sigchld pid) := .reapKilled h pid
    exact hfirst.trans (ih hfirst.sane)

/-- Waits whose children are lost are answered. -/
theorem Explained.recheckDeferredWaitpids : w.Explained none w.recheckDeferredWaitpids := by
  have hreturns : w.recheckDeferredWaitpids.returns = w.returns := by
    rw [returns, Worker.recheckDeferredWaitpids, List.filterMap_append, List.filterMap_map]
    refine (List.append_right_eq_self).mpr (List.filterMap_eq_nil_iff.mpr ?_)
    exact fun _ _ => rfl
  refine ⟨⟨h.next, h.numbers, fun x hx => h.faithful x (List.mem_of_mem_filter hx)⟩,
    fun calls hopen => ?_, fun p => ?_⟩
  · have hsplit := Multiset.filter_add_not (fun call => w.lostChildren call.waiter = true) calls
    refine ⟨[.refused (calls.filter fun call => w.lostChildren call.waiter = true)],
      calls.filter fun call => ¬ w.lostChildren call.waiter = true, .single ?_, rfl, ?_,
      fun call hmem => hopen.faithful call (Multiset.mem_of_mem_filter hmem)⟩
    · nth_rewrite 1 [← hsplit]
      exact .refused _ ⟨fun _ _ h => h, fun _ _ h => h, fun _ _ h => h⟩ hreturns
    · have hkept := congrArg (Multiset.filter fun x => ¬ w.lostChildren x = true) hopen.kept
      rw [Multiset.filter_map, Multiset.filter_coe] at hkept
      refine hkept.trans ?_
      simp [Worker.recheckDeferredWaitpids]
  -- a wait is answered or stays
  have hsplit := (List.filter_append_perm w.lostChildren w.waitingForChild).countP_eq
    (·.parentPid = p)
  have hanswered : ((w.waitingForChild.filter w.lostChildren).reverse.map fun x =>
      WaitAnswer.echild x.parentPid).countP (·.parentPid = p) =
        (w.waitingForChild.filter w.lostChildren).countP (·.parentPid = p) := by
    rw [List.countP_map, List.countP_reverse]
    rfl
  rw [List.countP_append] at hsplit
  simp only [Worker.accepted, Worker.recheckDeferredWaitpids, List.countP_append,
    hanswered, ← hsplit,
    Option.map_none, reduceCtorEq, if_false]
  omega

/-- An exit is explained. -/
theorem Explained.handleExit (pid : ℕ) (status : ℤ) :
    w.Explained none (w.handleExit M sigchld pid status) := by
  have hkernel := Explained.aside h (w.kernel.after M (.exit pid status)) w.processes w.hostReaped
  simp only [Worker.handleExit]
  split
  · exact hkernel.trans (.aside hkernel.sane _ _ _)
  · exact hkernel.trans (.terminated hkernel.sane _)

/-- A fork is explained as a birth. -/
theorem Explained.handleFork : w.Explained none (w.handleFork parentPid).2 := by
  have hfree : w.nextChildPid ≤ w.freeChildPid := by
    rw [freeChildPid]
    cases hfound : List.find? _ _ with
    | none => exact le_rfl
    | some =>
      obtain ⟨k, -, rfl⟩ := List.mem_map.mp (List.mem_of_find?_eq_some hfound)
      exact Nat.le_add_right _ _
  have hmoved : ∀ k : System,
      w.Explained none { w with nextChildPid := w.freeChildPid + 1, kernel := k } := fun k =>
    .other h ⟨fun _ _ h => h, fun _ _ h => h, fun _ _ h => h⟩ rfl rfl (hfree.trans (Nat.le_succ _))
  simp only [Worker.handleFork]
  split
  · exact hmoved _
  · exact (hmoved _).trans (.recordChild (hmoved _).sane (h.next.trans_le hfree))

/-- So is a spawn. -/
theorem Explained.handleSpawnAfterResolve (argv envp : List Bytes) (actions : List FileAction)
    (attrs : SpawnAttrs) :
    w.Explained none (w.handleSpawnAfterResolve M parentPid argv envp actions attrs).2 := by
  simp only [Worker.handleSpawnAfterResolve]
  split
  · exact .aside h _ w.processes w.hostReaped
  next childPid k hspawn =>
    have hpos : 0 < childPid := by
      rw [System.spawnChild_pid hspawn]
      exact Nat.add_pos_left Nat.two_pos _
    have hmoved : w.Explained none { w with
        kernel := k
        nextChildPid := if w.nextChildPid ≤ childPid then childPid + 1 else w.nextChildPid } := by
      refine .other h ⟨fun _ _ h => h, fun _ _ h => h, fun _ _ h => h⟩ rfl rfl ?_
      split
      next hle => exact hle.trans (Nat.le_succ _)
      next => exact le_rfl
    exact hmoved.trans (.recordChild hmoved.sane hpos)

omit h

/-- A step that keeps the meaning of the waits that it puts off. -/
def KeepsTarget (w : Worker) (e : WorkerEvent) : Prop :=
  match e.action with
  | .waitid parentPid idtype id options =>
    w.defersWaitid parentPid idtype id options = true → ¬ (idtype = P_PGID ∧ id = 1)
  | _ => True

/-- **Every step of the host** is made of steps as the waits see them. -/
theorem explained_next {e : WorkerEvent} (h : w.Sane) (he : w.KeepsTarget e) :
    w.Explained e.action.call (w.next M e) := by
  obtain ⟨action, sigchld⟩ := e
  cases action with
  | create =>
    simp only [next, registerProcess]
    split
    · exact .aside h _ _ _
    · exact .aside h _ _ _
  | register => exact .aside h w.kernel _ _
  | prepareExec => exact .aside h w.kernel _ w.hostReaped
  | syscall pid kernel => exact .performed h pid kernel id fun v hv => .refl hv
  | kill pid kernel ok =>
    refine .performed h pid kernel
      (fun w => if ok then w.reapKilledProcessesAfterSyscall sigchld else w) fun v hv => ?_
    split
    · exact .reapAll hv v.processes
    · exact .refl hv
  | setpgid pid kernel ok =>
    refine .performed h pid kernel
      (fun w => if ok then w.recheckDeferredWaitpids else w) fun v hv => ?_
    split
    · exact .recheckDeferredWaitpids hv
    · exact .refl hv
  | unwatched kernel => exact .aside h kernel w.processes w.hostReaped
  | retry =>
    simp only [next, noticeDeath]
    split
    · exact .handleProcessTerminated h _
    · exact .refl h
  | fork => exact .handleFork h
  | forkRejected => exact .aside h _ w.processes w.hostReaped
  | spawn parentPid argv envp actions attrs =>
    exact .handleSpawnAfterResolve h argv envp actions attrs
  | spawnFailed parentPid childPid =>
    exact .other h ⟨fun q p => get_of_get_clear, fun p q hq => ((mem_members_strike _ _ _).mp hq).1,
      fun _ _ h => h⟩ rfl rfl le_rfl
  | exit pid => exact .handleExit h pid _
  | crashed =>
    simp only [next, finalizeProcessWorker]
    split
    · rw [notifyHostProcessCrashed]
      split
      · exact .aside h w.kernel _ _
      · exact .terminated h _
    · exact .refl h
  | unregister => exact .aside h _ _ w.hostReaped
  | wait4 parentPid target options =>
    exact .handleWait h fun _ => WaitCall.faithful_wait4 parentPid target options
  | waitid =>
    exact .handleWait h fun hdefers => faithful_of_defersWaitid h hdefers (he hdefers)

/-- The host starts with sane books. -/
theorem sane_boot : Worker.boot.Sane := by
  refine ⟨by decide, fun p c hc => ?_, fun x hx => absurd hx List.not_mem_nil⟩
  cases hc

/-! ### Whole runs -/

/-- **Every run of the host** is made of steps as the waits see them. -/
theorem explained_run {events : List WorkerEvent} {calls : Multiset WaitCall} (hsane : w.Sane)
    (hopen : w.Open calls) (hrun : Runs (next M) KeepsTarget w events) : ∃ labels calls',
      Trace WaitStep ⟨w, calls⟩ labels ⟨events.foldl (next M) w, calls'⟩ ∧
        labels.filterMap WaitLabel.call = events.filterMap (·.action.call) ∧
        (events.foldl (next M) w).Open calls' := by
  induction events generalizing w calls with
  | nil => exact ⟨[], calls, .nil _, rfl, hopen⟩
  | cons e events ih =>
    have hstep := explained_next (M := M) hsane hrun.1
    obtain ⟨labels, calls', hlabels, hmade, hopen'⟩ := hstep.steps calls hopen
    obtain ⟨labels', calls'', hlabels', hmade', hopen''⟩ := ih hstep.sane hopen' hrun.2
    refine ⟨labels ++ labels', calls'', hlabels.append hlabels', ?_, hopen''⟩
    rw [List.filterMap_append, hmade, hmade', List.filterMap_cons]
    cases e.action.call <;> rfl

end Worker

/-- A child ends after its parent has begun to wait, and its number is given to the next child,
which ends before the parent waits for it and leaves it. -/
def twoChildren : List WorkerEvent :=
  [plainly (.create 10), plainly (.spawn 10 [] [] [] .empty), plainly (.register 2),
    plainly (.wait4 10 (-1) 0), plainly (.crashed 2), plainly (.spawn 10 [] [] [] .empty),
    plainly (.register 2), plainly (.crashed 2), plainly (.waitid 10 P_PID 2 WNOWAIT)]

/-- The host with a process and its children 2 and 3. -/
def parentOfTwo : Worker :=
  [plainly (.spawn 10 [] [] [] .empty), plainly (.register 3)].foldl (Worker.next (.on .barren))
    parentAndChild

/-- Child 2 joins process group 1, and the parent waits for a child of that group. -/
def waitingForGroupOne : Worker :=
  [plainly (.setpgid 2 { parentOfTwo.kernel with
      procs := parentOfTwo.kernel.procs.modify 2 fun p => { p with pgid := 1 } } true),
    plainly (.waitid 10 P_PGID 1 4)].foldl (Worker.next (.on .barren)) parentOfTwo

end PosixKernel
