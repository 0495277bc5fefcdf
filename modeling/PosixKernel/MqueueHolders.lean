import PosixKernel.Lib.Runs
import PosixKernel.MqueueIdeal

/-!
# Who Holds a Message Queue Descriptor

The numbers of message queue descriptors are numbers of one table for all processes. The system
here notes beside the table who holds what: the process that opened a descriptor, and every
child of a holder. The kernel has no such note and answers whoever names the number of an open
descriptor.

## Main results

* `MqCall.refused_iff` — what can be done through a number, and when nothing can;
* `mqueue_holders_iff` — processes without descriptors over whole runs;
* `mqueue_holders_bypassed` — a message that goes to a process without a descriptor.
-/

namespace PosixKernel

/-! ### Holders -/

/-- What happens to the table: a call, a child that is made, a process that ends. -/
inductive MqEvent
  | call (pid : UInt32) (c : MqCall)
  | fork (parent child : UInt32)
  | exit (pid : UInt32)

/-- The table, and the pairs of a process and a descriptor that it holds. -/
structure MqSystem where
  table : MqueueTable
  holders : List (UInt32 × UInt32)

namespace MqSystem

def new : MqSystem := ⟨.new, []⟩

def Holds (s : MqSystem) (pid mqd : UInt32) : Prop := (pid, mqd) ∈ s.holders

instance (s : MqSystem) (pid mqd : UInt32) : Decidable (s.Holds pid mqd) :=
  inferInstanceAs (Decidable (_ ∈ _))

/-- A process without any descriptor. -/
def HoldsNone (s : MqSystem) (pid : UInt32) : Prop := ∀ h ∈ s.holders, h.1 ≠ pid

instance (s : MqSystem) (pid : UInt32) : Decidable (s.HoldsNone pid) :=
  List.decidableBAll _ s.holders

/-- Who holds what after a call: a descriptor that is opened belongs to the caller, and one
that is closed to nobody. -/
def noted (s : MqSystem) (pid : UInt32) (c : MqCall) : List (UInt32 × UInt32) :=
  match (c.run pid s.table).1 with
  | .ok (.opened mqd) => (pid, mqd) :: s.holders.filter (·.2 ≠ mqd)
  | .ok .done =>
    match c with
    | .close fd => s.holders.filter (·.2 ≠ fd)
    | _ => s.holders
  | _ => s.holders

def next (s : MqSystem) : MqEvent → MqSystem
  | .call pid c => ⟨(c.run pid s.table).2, s.noted pid c⟩
  | .fork parent child =>
    { s with holders := s.holders.filter (·.1 ≠ child) ++
        (s.holders.filter (·.1 = parent)).map fun h => (child, h.2) }
  | .exit pid => ⟨s.table.cleanupProcess pid, s.holders.filter (·.1 ≠ pid)⟩

end MqSystem

/-- A call through a number is made by a holder, or the number is of no open descriptor. -/
def MqEvent.Entitled (s : MqSystem) : MqEvent → Prop
  | .call pid c => ∀ mqd ∈ c.mqd?, s.table.isMqd mqd = true → s.Holds pid mqd
  | _ => True

instance (s : MqSystem) : (e : MqEvent) → Decidable (e.Entitled s)
  | .call _ c => Option.decidableForallMem c.mqd?
  | .fork .. | .exit _ => .isTrue trivial

/-- A call of a process through a number. -/
def MqEvent.isNumberCall (p : UInt32) : MqEvent → Bool
  | .call pid c => pid == p && c.mqd?.isSome
  | _ => false

/-! ### Calls that are refused -/

/-- A call finds no descriptor and changes nothing. -/
def MqCall.Refused (c : MqCall) (pid : UInt32) (t : MqueueTable) : Prop :=
  (c.run pid t).2 = t ∧ ((c.run pid t).1 = .error .EBADF ∨ (c.run pid t).1 = .ok .elsewhere)

theorem MqueueTable.queueOf_not_isMqd {t : MqueueTable} {mqd : UInt32}
    (h : ¬ t.isMqd mqd = true) (ruledOut : Option UInt32) :
    t.queueOf mqd ruledOut = .error .EBADF := by
  have hnone : t.descriptors.lookup mqd = none := by
    rwa [isMqd, Option.isSome_iff_ne_none, not_not] at h
  rw [queueOf, hnone]

theorem MqCall.refused_of_not_isMqd {c : MqCall} {t : MqueueTable} {mqd : UInt32} (pid : UInt32)
    (hc : c.mqd? = some mqd) (h : ¬ t.isMqd mqd = true) : c.Refused pid t := by
  cases c with
  | mqOpen => cases hc
  | mqUnlink => cases hc
  | mqTimedsend =>
    cases hc
    simp only [Refused, run, MqueueTable.mqSend, MqueueTable.queueOf_not_isMqd h]
    exact ⟨trivial, .inl trivial⟩
  | mqTimedreceive =>
    cases hc
    simp only [Refused, run, MqueueTable.mqReceive, MqueueTable.queueOf_not_isMqd h]
    exact ⟨trivial, .inl rfl⟩
  | mqNotify =>
    cases hc
    simp only [Refused, run, MqueueTable.mqNotify, MqueueTable.queueOf_not_isMqd h]
    exact ⟨trivial, .inl rfl⟩
  | mqGetsetattr =>
    cases hc
    simp only [Refused, run, MqueueTable.mqGetsetattr, MqueueTable.queueOf_not_isMqd h]
    exact ⟨trivial, .inl rfl⟩
  | close =>
    cases hc
    simp only [Refused, run, if_neg h]
    exact ⟨trivial, .inr trivial⟩

/-- An open descriptor can be closed by whoever names its number. -/
theorem MqCall.not_refused_close {t : MqueueTable} {mqd : UInt32} (pid : UInt32)
    (h : t.isMqd mqd = true) : ¬ (MqCall.close mqd).Refused pid t := by
  obtain ⟨desc, hdesc⟩ := Option.isSome_iff_exists.mp h
  have hanswer : ((MqCall.close mqd).run pid t).1 = .ok .done := by
    simp only [run, if_pos h, MqueueTable.mqClose, hdesc]
    rfl
  rintro ⟨-, hrefused⟩
  rw [hanswer] at hrefused
  simp at hrefused

/-- **What can be done through a number**: nothing exactly if it is of no open descriptor. -/
theorem MqCall.refused_iff (t : MqueueTable) (pid mqd : UInt32) :
    (∀ c : MqCall, c.mqd? = some mqd → c.Refused pid t) ↔ ¬ t.isMqd mqd = true := by
  constructor
  · exact fun h hmqd => not_refused_close pid hmqd (h (.close mqd) rfl)
  · exact fun h c hc => refused_of_not_isMqd pid hc h

theorem MqSystem.next_of_refused {s : MqSystem} {pid : UInt32} {c : MqCall}
    (h : c.Refused pid s.table) : s.next (.call pid c) = s := by
  have hnoted : s.noted pid c = s.holders := by
    delta noted
    rcases h.2 with hrefused | hrefused <;> rw [hrefused]
  rw [next, h.1, hnoted]

/-! ### Whole runs -/

/-- **Descriptors and their holders.** In every state that is reached, a process that does not
hold a number can do nothing through it exactly if the number is of no open descriptor; and if
every call through the number of an open descriptor was made by one of its holders, the calls
of a process that held no descriptor whenever it named a number could be left out, and
everything would be the same for the others. -/
theorem mqueue_holders_iff (events : List MqEvent) :
    let s := events.foldl MqSystem.next .new
    (∀ pid mqd, (∀ c : MqCall, c.mqd? = some mqd → ¬ s.Holds pid mqd → c.Refused pid s.table) ↔
      (s.table.isMqd mqd = true → s.Holds pid mqd)) ∧
    (Runs MqSystem.next (fun s e => e.Entitled s) .new events →
      ∀ p, Runs MqSystem.next (fun s e => e.isNumberCall p = true → s.HoldsNone p) .new events →
        (events.filter fun e => !e.isNumberCall p).foldl MqSystem.next .new = s) := by
  intro s
  refine ⟨fun pid mqd => ?_, fun hentitled p hp => ?_⟩
  · by_cases hholds : s.Holds pid mqd
    · exact iff_of_true (fun _ _ hnot => absurd hholds hnot) fun _ => hholds
    have hall := MqCall.refused_iff s.table pid mqd
    constructor
    · exact fun h hmqd => absurd hmqd (hall.mp fun c hc => h c hc hholds)
    · exact fun h c hc _ => hall.mpr (fun hmqd => hholds (h hmqd)) c hc
  refine (hentitled.and hp).foldl_filter fun s e he hhidden => ?_
  obtain ⟨hentitled, hnone⟩ := he
  have hnumber : e.isNumberCall p = true := by
    rw [← Bool.not_eq_false', hhidden]
  cases e with
  | fork => cases hnumber
  | exit => cases hnumber
  | call pid =>
    obtain ⟨hpid, hc⟩ := Bool.and_eq_true_iff.mp hnumber
    obtain rfl : pid = p := beq_iff_eq.mp hpid
    obtain ⟨mqd, hmqd⟩ := Option.isSome_iff_exists.mp hc
    have hclosed : ¬ s.table.isMqd mqd = true :=
      fun hopen => hnone hnumber (pid, mqd) (hentitled mqd hmqd hopen) rfl
    exact MqSystem.next_of_refused (MqCall.refused_of_not_isMqd pid hmqd hclosed)

/-- A process opens `/q`, makes a child and sends a message; a stranger closes a number that is
of no descriptor. -/
def inherited : List MqEvent :=
  [.call 1 (.mqOpen [47, 113] (O_CREAT ||| O_RDWR) none), .fork 1 2,
    .call 1 (.mqTimedsend MQD_BASE [1] 0), .call 3 (.close 5)]

/-- The child holds the descriptor too, and the stranger's call can be left out. -/
theorem mqueue_holders_inherited : (inherited.foldl MqSystem.next .new).Holds 2 MQD_BASE ∧
      Runs MqSystem.next (fun s e => e.Entitled s) .new inherited ∧
      (inherited.filter fun e => !e.isNumberCall 3).foldl MqSystem.next .new =
        inherited.foldl MqSystem.next .new := by
  have hrun : Runs MqSystem.next (fun s e => e.Entitled s) .new inherited := by decide
  exact ⟨by decide, hrun, (mqueue_holders_iff inherited).2 hrun 3 (by decide)⟩

/-- A process opens `/q` and sends a message; another one, without any descriptor, takes it and
closes the descriptor. -/
def stolen : List MqEvent :=
  [.call 1 (.mqOpen [47, 113] (O_CREAT ||| O_RDWR) none), .call 1 (.mqTimedsend MQD_BASE [1] 0)]

/-- **Holders bypassed.** The message goes to the process without a descriptor, and once that
process closes the number the holder has lost its queue. -/
theorem mqueue_holders_bypassed :
    let s := stolen.foldl MqSystem.next .new
    s.HoldsNone 2 ∧
    ((MqCall.mqTimedreceive MQD_BASE 8192).run 2 s.table).1 = .ok (.message ⟨[1], 0⟩) ∧
    ((MqCall.mqTimedreceive MQD_BASE 8192).run 1
      (s.next (.call 2 (.mqTimedreceive MQD_BASE 8192))).table).1 = .error .EAGAIN ∧
    ((MqCall.mqTimedreceive MQD_BASE 8192).run 1
      (s.next (.call 2 (.close MQD_BASE))).table).1 = .error .EBADF := by
  decide

end PosixKernel
