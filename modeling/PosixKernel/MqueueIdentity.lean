import PosixKernel.Lib.Runs
import PosixKernel.MqueueIdeal

/-!
# The Identity of Queues

The kernel's table keeps its queues by name and has room for one queue of each name, so that it
follows the ideal table only as long as no name is created again while descriptors of its old
queue are open.

## Main results

* `MqRefines.through`, `MqRefines.close`, `MqRefines.unlink`, `MqRefines.mqOpen` — what each call
  keeps, put together in `MqRefines.step`;
* `mqueue_identity_run` — descriptors keep their queues over whole runs;
* `mqueue_identity_lost` — a run in which one does not.
-/

namespace PosixKernel

open MqueueTable

/-! ### What it is to follow the ideal table -/

/-- The kernel's record of a descriptor. -/
def IdealMqueues.descriptor (I : IdealMqueues) (d : IdealDescriptor) : MqDescriptor :=
  ⟨I.name d.queue, d.accessMode, d.nonblock⟩

/-- How many descriptors of a name there are. -/
def MqueueTable.opened (t : MqueueTable) (name : Bytes) : ℕ :=
  KeyMap.tally (fun d => d.queueName = name) t.descriptors

/-- The kernel's entry of a queue: what it holds, whether its name is gone, and how many
descriptors it has. -/
def MqBody.entry (b : MqBody) (unlinked : Bool) (count : ℕ) : MqQueue :=
  ⟨b.maxmsg, b.msgsize, b.messages, unlinked, UInt32.ofNat count, b.notification⟩

/-- A queue under a name is read back. -/
theorem MqBody.body_entry (b : MqBody) (unlinked : Bool) (count : ℕ) :
    (b.entry unlinked count).body = b := rfl

/-- The kernel's table follows the ideal one, in which `cur` is the living queue of each name. -/
structure MqRefines (t : MqueueTable) (I : IdealMqueues) (cur : Bytes → Option ℕ) : Prop where
  nextMqd : t.nextMqd = I.nextMqd
  pending : t.pendingNotification = I.pendingNotification
  known : ∀ name i, cur name = some i → i < I.created ∧ I.name i = name
  live : ∀ name i, cur name = some i → I.named name = some i ∨ 0 < t.opened name
  named : ∀ name i, I.named name = some i → cur name = some i
  held : ∀ mqd d, I.held mqd = some d → cur (I.name d.queue) = some d.queue
  desc : ∀ mqd, t.descriptors.lookup mqd = (I.held mqd).map I.descriptor
  small : ∀ name, t.opened name < 2 ^ 32
  queues : ∀ name, t.queues.lookup name = (cur name).map fun i =>
    (I.body i).entry (decide (I.named name ≠ some i)) (t.opened name)

/-- Empty tables correspond. -/
theorem MqRefines.new : MqRefines MqueueTable.new IdealMqueues.new fun _ => none where
  nextMqd := rfl
  pending := rfl
  known := by
    intro name i h
    cases h
  live := by
    intro name i h
    cases h
  named := by
    intro name i h
    cases h
  held := by
    intro mqd d h
    cases h
  desc := fun _ => rfl
  small := fun _ => Nat.two_pow_pos 32
  queues := fun name => AList.lookup_empty name

section Following

variable {t : MqueueTable} {I : IdealMqueues} {cur : Bytes → Option ℕ} {name : Bytes} {i : ℕ}

/-- A name is open when someone holds a queue of it. -/
theorem opened_pos_iff {held : UInt32 → Option IdealDescriptor}
    (hdesc : ∀ mqd, t.descriptors.lookup mqd = (held mqd).map I.descriptor) :
    0 < t.opened name ↔ ∃ mqd d, held mqd = some d ∧ I.name d.queue = name := by
  rw [opened, KeyMap.tally_pos_iff]
  constructor
  · rintro ⟨mqd, desc, hlookup, hname⟩
    rw [hdesc, Option.map_eq_some_iff] at hlookup
    obtain ⟨d, hheld, rfl⟩ := hlookup
    exact ⟨mqd, d, hheld, of_decide_eq_true hname⟩
  rintro ⟨mqd, d, hheld, hname⟩
  refine ⟨mqd, I.descriptor d, ?_, decide_eq_true hname⟩
  rw [hdesc, hheld]
  rfl

/-- The entries after one holder closed. -/
theorem lookup_dropQueue {q : MqQueue} (hq : t.queues.lookup name = some q) (name' : Bytes) :
    (t.dropQueue name).lookup name' = if name' = name then
        if (closedQueue q).openCount = 0 ∧ q.unlinked then none else some (closedQueue q)
      else t.queues.lookup name' := by
  rw [dropQueue, hq]
  by_cases hlast : (closedQueue q).openCount = 0 ∧ q.unlinked = true
  · simp only [if_pos hlast]
    exact KeyMap.lookup_erase_eq _ _ _
  · simp only [if_neg hlast]
    exact KeyMap.lookup_insert_eq _ _ _ _

/-- A count that fits is zero when its word is. -/
theorem ofNat_eq_zero_iff {n : ℕ} (h : n < 2 ^ 32) : UInt32.ofNat n = 0 ↔ n = 0 := by
  rw [← UInt32.toNat_inj, UInt32.toNat_ofNat_of_lt' h]
  rfl

/-- One holder less. -/
theorem closedQueue_entry {b : MqBody} {unlinked : Bool} {n : ℕ} (h : n + 1 < 2 ^ 32) :
    closedQueue (b.entry unlinked (n + 1)) = b.entry unlinked n := by
  have hne : UInt32.ofNat (n + 1) ≠ 0 := mt (ofNat_eq_zero_iff h).mp n.succ_ne_zero
  have hsub : UInt32.ofNat (n + 1) - 1 = UInt32.ofNat n := by
    rw [UInt32.ofNat_add]
    exact UInt32.add_sub_cancel _ _
  simp only [closedQueue, MqBody.entry, if_neg hne, hsub]

namespace MqRefines

variable (h : MqRefines t I cur)

include h

/-- The living queues are those that their names stand for. -/
theorem alive_iff : I.Alive i ↔ cur (I.name i) = some i := by
  constructor
  · rintro (hnamed | ⟨mqd, d, hheld, rfl⟩)
    · exact h.named _ i hnamed
    · exact h.held mqd d hheld
  intro hcur
  refine (h.live _ i hcur).imp_right fun hpos => ?_
  obtain ⟨mqd, d, hheld, hname⟩ := (opened_pos_iff h.desc).mp hpos
  have hd := h.held mqd d hheld
  rw [hname, hcur] at hd
  exact ⟨mqd, d, hheld, (Option.some.inj hd).symm⟩

/-- The entry of a name is its current queue. -/
theorem lookup_of_cur (hcur : cur name = some i) : t.queues.lookup name =
    some ((I.body i).entry (decide (I.named name ≠ some i)) (t.opened name)) := by
  rw [h.queues, hcur]
  rfl

/-- A name stands for its living queue or for none. -/
theorem named_of_ne (hcur : cur name = some i) (hnot : I.named name ≠ some i) :
    I.named name = none := by
  cases hnamed : I.named name with
  | none => rfl
  | some j =>
    cases (h.named name j hnamed).symm.trans hcur
    exact absurd hnamed hnot

/-- A name is linked when it names a queue. -/
theorem linked_eq (name : Bytes) : t.linked name = (I.named name).isSome := by
  rw [linked, h.queues]
  cases hcur : cur name with
  | none =>
    cases hnamed : I.named name with
    | none => rfl
    | some j => cases (h.named name j hnamed).symm.trans hcur
  | some i =>
    by_cases hnamed : I.named name = some i
    · simp [MqBody.entry, hnamed]
    · simp [MqBody.entry, h.named_of_ne hcur hnamed]

/-- A descriptor reaches the queue it was opened on. -/
theorem queueOf_held {mqd : UInt32} {d : IdealDescriptor} {ruledOut : Option UInt32}
    (hheld : I.held mqd = some d) (hmode : ruledOut ≠ some d.accessMode) :
    t.queueOf mqd ruledOut = .ok (I.descriptor d, (I.body d.queue).entry
      (decide (I.named (I.name d.queue) ≠ some d.queue)) (t.opened (I.name d.queue))) := by
  refine queueOf_eq_ok.mpr ⟨?_, hmode, h.lookup_of_cur (h.held mqd d hheld)⟩
  rw [h.desc, hheld]
  rfl

/-- One that is not held reaches none. -/
theorem queueOf_not_held {mqd : UInt32} (hheld : I.held mqd = none) (ruledOut : Option UInt32) :
    t.queueOf mqd ruledOut = .error .EBADF := by
  rw [queueOf, h.desc, hheld]
  rfl

/-! ### What each call keeps -/

/-- What a queue holds changes. -/
theorem write (hcur : cur (I.name i) = some i) (b : MqBody) :
    MqRefines { t with
        queues := t.queues.insert (I.name i)
          (b.entry (decide (I.named (I.name i) ≠ some i)) (t.opened (I.name i))) }
      { I with body := Function.update I.body i b } cur := by
  refine ⟨h.nextMqd, h.pending, h.known, h.live, h.named, h.held, h.desc, h.small, fun name => ?_⟩
  simp only [KeyMap.lookup_insert_eq, Function.update_apply]
  split_ifs with hname
  · rw [hname, hcur, Option.map_some, if_pos rfl]
    rfl
  · refine (h.queues name).trans (Option.map_congr fun j hj => ?_)
    have hne : j ≠ i := by
      rintro rfl
      exact hname (h.known name j hj).2.symm
    rw [if_neg hne]
    rfl

/-- **A call through a descriptor** answers what its queue answers and changes that queue. -/
theorem through {β : Type} (mqd : UInt32) (ruledOut : Option UInt32)
    (op : MqBody → Except Errno (β × MqBody)) :
    (t.through mqd ruledOut op).1 = (I.through mqd ruledOut op).1 ∧
      MqRefines (t.through mqd ruledOut op).2 (I.through mqd ruledOut op).2 cur := by
  rw [MqueueTable.through, IdealMqueues.through]
  cases hheld : I.held mqd with
  | none =>
    rw [h.queueOf_not_held hheld]
    exact ⟨rfl, h⟩
  | some d =>
    by_cases hmode : ruledOut = some d.accessMode
    · have hqueue : t.queueOf mqd ruledOut = .error .EBADF := by
        rw [queueOf, h.desc, hheld]
        exact if_pos hmode
      simp only [hqueue, if_pos hmode]
      exact ⟨trivial, h⟩
    simp only [h.queueOf_held hheld hmode, if_neg hmode, MqBody.body_entry]
    rcases op (I.body d.queue) with e | ⟨r, b⟩
    · exact ⟨rfl, h⟩
    · exact ⟨rfl, h.write (h.held mqd d hheld) b⟩

/-- A notification is pending in both. -/
theorem notified (n : Option MqNotification) :
    MqRefines { t with pendingNotification := n } { I with pendingNotification := n } cur :=
  ⟨h.nextMqd, rfl, h.known, h.live, h.named, h.held, h.desc, h.small, h.queues⟩

/-- **What happens to one name**: its queue keeps its entry while it has the name or a
descriptor. -/
theorem retouch (hcur : cur (I.name i) = some i) {t' : MqueueTable} {named : Bytes → Option ℕ}
    {held : UInt32 → Option IdealDescriptor} {nextMqd : UInt32} (hnext : t'.nextMqd = nextMqd)
    (hpending : t'.pendingNotification = t.pendingNotification)
    (hnamed : ∀ name, named name = I.named name ∨ name = I.name i ∧ named name = none)
    (hheld : ∀ mqd d, held mqd = some d → cur (I.name d.queue) = some d.queue)
    (hdesc : ∀ mqd, t'.descriptors.lookup mqd = (held mqd).map I.descriptor)
    (hopened : ∀ name ≠ I.name i, t'.opened name = t.opened name)
    (hqueues : ∀ name ≠ I.name i, t'.queues.lookup name = t.queues.lookup name)
    {n : ℕ} (hn : t'.opened (I.name i) = n) (hsmall : n < 2 ^ 32)
    (hqueue : t'.queues.lookup (I.name i) = if named (I.name i) = some i ∨ 0 < n then
      some ((I.body i).entry (decide (named (I.name i) ≠ some i)) n) else none) :
    ∃ cur', MqRefines t' { I with named, held, nextMqd } cur' := by
  refine ⟨fun name => if name = I.name i ∧ ¬ (named name = some i ∨ 0 < t'.opened name) then none
      else cur name, hnext, hpending.trans h.pending, fun name j hj => h.known name j ?_,
    fun name j hj => ?_, fun name j hj => ?_, fun mqd d hd => ?_, hdesc, fun name => ?_,
    fun name => ?_⟩
  · split at hj
    · cases hj
    · exact hj
  · split at hj
    · cases hj
    next hlive =>
    by_cases hname : name = I.name i
    · subst hname
      cases hcur.symm.trans hj
      exact not_and_not_right.mp hlive rfl
    · have hsame := (hnamed name).resolve_right fun hgone => hname hgone.1
      exact (h.live name j hj).imp hsame.trans (hopened name hname).trans_gt
  · have hold : cur name = some j := by
      rcases hnamed name with hsame | ⟨-, hgone⟩
      · exact h.named name j (hsame ▸ hj)
      · cases hgone.symm.trans hj
    refine (if_neg ?_).trans hold
    rintro ⟨rfl, hdead⟩
    cases hcur.symm.trans hold
    exact hdead (.inl hj)
  · refine (if_neg ?_).trans (hheld mqd d hd)
    rintro ⟨-, hdead⟩
    exact hdead (.inr ((opened_pos_iff hdesc).mpr ⟨mqd, d, hd, rfl⟩))
  · by_cases hname : name = I.name i
    · rwa [hname, hn]
    · exact (hopened name hname).trans_lt (h.small name)
  by_cases hname : name = I.name i
  · subst hname
    rw [hqueue, hn]
    split_ifs with hlive hdead hdead
    · exact absurd hlive hdead.2
    · rw [hcur]
      rfl
    · rfl
    · exact absurd ⟨rfl, hlive⟩ hdead
  · have hsame := (hnamed name).resolve_right fun hgone => hname hgone.1
    rw [hqueues name hname, if_neg fun hdead => hname hdead.1, h.queues, hopened name hname]
    simp only [hsame]

variable {mqd : UInt32} {d : IdealDescriptor}

/-- A held descriptor is in the table. -/
theorem lookup_of_held (hheld : I.held mqd = some d) :
    t.descriptors.lookup mqd = some (I.descriptor d) := by
  rw [h.desc, hheld]
  rfl

/-- A descriptor taken in both tables. -/
theorem desc_insert (mqd : UInt32) (d : IdealDescriptor) (mqd' : UInt32) :
    (t.descriptors.insert mqd (I.descriptor d)).lookup mqd' =
      ((I.setHeld mqd (some d)).held mqd').map I.descriptor := by
  rw [KeyMap.lookup_insert_eq, IdealMqueues.held_setHeld, h.desc]
  split_ifs <;> rfl

/-- The flags of a descriptor change. -/
theorem reflag (hheld : I.held mqd = some d) (nonblock : Bool) :
    MqRefines { t with descriptors := t.descriptors.insert mqd { I.descriptor d with nonblock } }
      (I.setHeld mqd (some { d with nonblock })) cur := by
  have hcount : ∀ name, KeyMap.tally (fun d => d.queueName = name)
      (t.descriptors.insert mqd { I.descriptor d with nonblock }) = t.opened name :=
    fun name => KeyMap.tally_insert_same (h.lookup_of_held hheld) rfl
  refine ⟨h.nextMqd, h.pending, h.known, fun name j hj => ?_, h.named, fun mqd' d' hd' => ?_,
    h.desc_insert mqd { d with nonblock }, fun name => (hcount name).trans_lt (h.small name),
    fun name => ?_⟩
  · exact (h.live name j hj).imp_right (hcount name).trans_gt
  · rw [IdealMqueues.held_setHeld] at hd'
    split_ifs at hd' with hmqd
    · cases hd'
      exact h.held mqd d hheld
    · exact h.held mqd' d' hd'
  · rw [opened, hcount]
    exact h.queues name

/-- A descriptor goes, and with the last one a queue without a name. -/
theorem closed (hheld : I.held mqd = some d) :
    ∃ cur', MqRefines { t with
        descriptors := t.descriptors.erase mqd, queues := t.dropQueue (I.name d.queue) }
      (I.setHeld mqd none) cur' := by
  have hcur := h.held mqd d hheld
  have hcount : ∀ name, KeyMap.tally (fun d => d.queueName = name) (t.descriptors.erase mqd) +
      (if I.name d.queue = name then 1 else 0) = t.opened name := by
    intro name
    rw [opened, ← KeyMap.tally_erase (h.lookup_of_held hheld)]
    simp only [decide_eq_true_eq]
    rfl
  have hself := hcount (I.name d.queue)
  rw [if_pos rfl] at hself
  have hsmall := hself.trans_lt (h.small _)
  refine h.retouch hcur h.nextMqd rfl (fun _ => .inl rfl) (fun mqd' d' hd' => ?_)
    (fun mqd' => ?_) (fun name hname => ?_) (fun name hname => ?_) rfl
    ((Nat.le_add_right _ 1).trans_lt hsmall) ?_
  · rw [Function.update_apply] at hd'
    split_ifs at hd'
    exact h.held mqd' d' hd'
  · rw [KeyMap.lookup_erase_eq, Function.update_apply, h.desc]
    split_ifs with hmqd <;> rfl
  · rw [← hcount name, if_neg hname.symm]
    rfl
  · rw [lookup_dropQueue (h.lookup_of_cur hcur), if_neg hname]
  · have hlast := ofNat_eq_zero_iff ((Nat.le_add_right _ 1).trans_lt hsmall)
    rw [lookup_dropQueue (h.lookup_of_cur hcur), if_pos rfl, ← hself, closedQueue_entry hsmall]
    simp only [MqBody.entry, hlast, decide_eq_true_eq]
    split_ifs with hgone hlive hlive
    · exact absurd hlive (not_or.mpr ⟨hgone.2, hgone.1.not_gt⟩)
    · rfl
    · rfl
    · exact absurd ⟨Nat.eq_zero_of_not_pos (not_or.mp hlive).2, (not_or.mp hlive).1⟩ hgone

/-- Reading and setting the attributes correspond. -/
theorem getsetattr (mqd : UInt32) (newFlags : Option UInt32) :
    (t.mqGetsetattr mqd newFlags).1 = (I.mqGetsetattr mqd newFlags).1 ∧
      MqRefines (t.mqGetsetattr mqd newFlags).2 (I.mqGetsetattr mqd newFlags).2 cur := by
  rw [mqGetsetattr, IdealMqueues.mqGetsetattr]
  cases hheld : I.held mqd with
  | none =>
    rw [h.queueOf_not_held hheld]
    exact ⟨rfl, h⟩
  | some d =>
    rw [h.queueOf_held hheld (Option.some_ne_none _).symm]
    cases newFlags with
    | none => exact ⟨rfl, h⟩
    | some flags => exact ⟨rfl, h.reflag hheld _⟩

/-- **A descriptor is closed.** -/
theorem close (pid mqd : UInt32) :
    ((MqCall.close mqd).run pid t).1 = (I.close mqd).1 ∧
      ∃ cur', MqRefines ((MqCall.close mqd).run pid t).2 (I.close mqd).2 cur' := by
  rw [MqCall.run, IdealMqueues.close, isMqd, mqClose, h.desc]
  cases hheld : I.held mqd with
  | none => exact ⟨rfl, cur, h⟩
  | some d => exact ⟨rfl, h.closed hheld⟩

/-! ### Names that go -/

/-- A name goes, and its queue if it has no descriptor. -/
theorem unlinked (hnamed : I.named name = some i) {queues : KeyMap Bytes MqQueue}
    (hqueues : ∀ name' ≠ name, queues.lookup name' = t.queues.lookup name')
    (hqueue : queues.lookup name =
      if 0 < t.opened name then some ((I.body i).entry true (t.opened name)) else none) :
    ∃ cur', MqRefines { t with queues := queues } (I.forget name) cur' := by
  have hcur := h.named name i hnamed
  obtain ⟨-, rfl⟩ := h.known name i hcur
  refine h.retouch hcur h.nextMqd rfl (fun name => ?_) h.held h.desc (fun _ _ => rfl) hqueues rfl
    (h.small _) ?_
  · rw [Function.update_apply]
    split_ifs with hname
    · exact .inr ⟨hname, rfl⟩
    · exact .inl rfl
  · rw [hqueue, Function.update_self]
    simp only [reduceCtorEq, false_or, ne_eq, not_false_eq_true, decide_true]
    rfl

/-- **A name is unlinked.** -/
theorem unlink (name : Bytes) : (t.mqUnlink name).1 = (I.mqUnlink name).1 ∧
      ∃ cur', MqRefines (t.mqUnlink name).2 (I.mqUnlink name).2 cur' := by
  rw [mqUnlink, IdealMqueues.mqUnlink]
  cases hnamed : I.named name with
  | none =>
    rw [h.queues, hnamed]
    cases hcur : cur name with
    | none => exact ⟨rfl, cur, h⟩
    | some i => exact ⟨rfl, cur, h⟩
  | some i =>
    simp only [h.lookup_of_cur (h.named name i hnamed), hnamed, MqBody.entry,
      ofNat_eq_zero_iff (h.small name), decide_eq_true_eq, if_neg (not_not.mpr rfl)]
    by_cases hzero : t.opened name = 0
    · simp only [if_pos hzero]
      refine ⟨trivial, h.unlinked hnamed (fun name' hname => AList.lookup_erase_ne hname) ?_⟩
      rw [if_neg hzero.not_gt, AList.lookup_erase]
    · simp only [if_neg hzero]
      refine ⟨trivial, h.unlinked hnamed (fun name' hname => AList.lookup_insert_ne hname) ?_⟩
      rw [if_pos (Nat.pos_of_ne_zero hzero), AList.lookup_insert]
      rfl

/-! ### Names that come -/

/-- Nobody holds a queue of a name without an entry. -/
theorem name_ne_of_absent (hnone : cur name = none) {mqd : UInt32} {d : IdealDescriptor}
    (hheld : I.held mqd = some d) : I.name d.queue ≠ name := by
  rintro rfl
  cases hnone.symm.trans (h.held mqd d hheld)

/-- So it is open nowhere. -/
theorem opened_of_absent (hnone : cur name = none) : t.opened name = 0 := by
  refine Nat.eq_zero_of_not_pos fun hpos => ?_
  obtain ⟨mqd, d, hheld, hname⟩ := (opened_pos_iff h.desc).mp hpos
  exact h.name_ne_of_absent hnone hheld hname

/-- **A queue is created**, with no descriptor yet. -/
theorem created (hnone : cur name = none) (b : MqBody) :
    MqRefines { t with queues := t.queues.insert name (b.entry false 0) } (I.create name b)
      (Function.update cur name (some I.created)) := by
  have hold : ∀ j, j < I.created → (I.create name b).name j = I.name j :=
    fun j hj => Function.update_of_ne hj.ne _ _
  have hlt : ∀ mqd d, I.held mqd = some d → d.queue < I.created :=
    fun mqd d hheld => (h.known _ _ (h.held mqd d hheld)).1
  refine ⟨h.nextMqd, h.pending, fun name' j hj => ?_, fun name' j hj => ?_, fun name' j hj => ?_,
    fun mqd d hd => ?_, fun mqd => ?_, h.small, fun name' => ?_⟩
  · rw [Function.update_apply] at hj
    split_ifs at hj with hname
    · cases hj
      exact ⟨Nat.lt_succ_self _, (Function.update_self ..).trans hname.symm⟩
    obtain ⟨hlt, hname'⟩ := h.known name' j hj
    exact ⟨hlt.trans (Nat.lt_succ_self _), (hold j hlt).trans hname'⟩
  · rw [Function.update_apply] at hj
    split_ifs at hj with hname
    · cases hj
      rw [hname]
      exact .inl (Function.update_self ..)
    · exact (h.live name' j hj).imp_left (Function.update_of_ne hname _ _).trans
  · have hj' : Function.update I.named name (some I.created) name' = some j := hj
    rw [Function.update_apply] at hj' ⊢
    split_ifs at hj' ⊢ with hname
    · exact hj'
    · exact h.named name' j hj'
  · rw [hold _ (hlt mqd d hd), Function.update_of_ne (h.name_ne_of_absent hnone hd)]
    exact h.held mqd d hd
  · refine (h.desc mqd).trans (Option.map_congr fun d hd => ?_)
    rw [IdealMqueues.descriptor, IdealMqueues.descriptor, hold d.queue (hlt mqd d hd)]
  by_cases hname : name' = name
  · subst hname
    rw [AList.lookup_insert, Function.update_self, Option.map_some]
    simp only [IdealMqueues.create, Function.update_self, ne_eq, not_true, decide_false]
    exact congrArg (fun n => some (b.entry false n)) (h.opened_of_absent hnone).symm
  · rw [AList.lookup_insert_ne hname, Function.update_of_ne hname]
    refine (h.queues name').trans (Option.map_congr fun j hj => ?_)
    have hlt := (h.known name' j hj).1
    simp only [IdealMqueues.create, Function.update_of_ne hlt.ne, Function.update_of_ne hname]
    rfl

/-- **A descriptor is given out** on a queue that has a name. -/
theorem granted (hnamed : I.named name = some i) (hfree : t.descriptors.lookup t.nextMqd = none)
    (hcount : t.opened name + 1 < 2 ^ 32) (flags : UInt32) :
    ∃ cur', MqRefines { t with
        queues := t.queues.insert name ((I.body i).entry false (t.opened name + 1))
        descriptors := t.descriptors.insert t.nextMqd
          ⟨name, flags &&& O_ACCMODE, hasFlag flags O_NONBLOCK⟩
        nextMqd := t.nextMqd + 1 }
      (I.grant i flags).2 cur' := by
  have hcur := h.named name i hnamed
  obtain ⟨-, rfl⟩ := h.known name i hcur
  have hopened : ∀ name, KeyMap.tally (fun d => d.queueName = name)
      (t.descriptors.insert t.nextMqd ⟨I.name i, flags &&& O_ACCMODE, hasFlag flags O_NONBLOCK⟩) =
      t.opened name + if I.name i = name then 1 else 0 := by
    intro name
    rw [KeyMap.tally_insert_new hfree]
    simp only [decide_eq_true_eq]
    rfl
  refine h.retouch hcur (congrArg (· + 1) h.nextMqd) rfl (fun _ => .inl rfl) (fun mqd d hd => ?_)
    ?_ (fun name hname => ?_) (fun name hname => AList.lookup_insert_ne hname)
    ((hopened _).trans (congrArg _ (if_pos rfl))) hcount ?_
  · rw [IdealMqueues.held_setHeld] at hd
    split_ifs at hd with hmqd
    · cases hd
      exact hcur
    · exact h.held mqd d hd
  · rw [h.nextMqd]
    exact h.desc_insert I.nextMqd ⟨i, flags &&& O_ACCMODE, hasFlag flags O_NONBLOCK⟩
  · rw [opened, hopened, if_neg hname.symm]
    rfl
  · have hlinked : decide (I.named (I.name i) ≠ some i) = false :=
      decide_eq_false (not_not.mpr hnamed)
    rw [AList.lookup_insert, if_pos (.inl hnamed)]
    exact congrArg (fun unlinked => some ((I.body i).entry unlinked _)) hlinked.symm

end MqRefines

end Following

/-! ### Every call -/

/-- An open under a name finds no queue that is unlinked and still open, and numbers are left
for one more descriptor. -/
def MqueueTable.roomFor (t : MqueueTable) (name : Bytes) : Bool :=
  ((t.queues.lookup name).all fun q => !q.unlinked && decide (q.openCount.toNat + 1 < 2 ^ 32)) &&
    !t.isMqd t.nextMqd

/-- A call that makes no second queue of a name. -/
def MqCall.Unambiguous (t : MqueueTable) : MqCall → Prop
  | .mqOpen name flags attr =>
    t.Opens name flags (if hasFlag flags O_CREAT then attr else none) → t.roomFor name = true
  | _ => True

instance (t : MqueueTable) : (call : MqCall) → Decidable (call.Unambiguous t)
  | .mqOpen .. => inferInstanceAs (Decidable (_ → _))
  | .mqUnlink _ | .mqTimedsend .. | .mqTimedreceive .. | .mqNotify .. | .mqGetsetattr ..
  | .close _ => .isTrue trivial

section Calls

variable {t : MqueueTable} {I : IdealMqueues} {cur : Bytes → Option ℕ} {name : Bytes}

/-- There is room when the count and the number can be taken. -/
theorem MqueueTable.roomFor_iff : t.roomFor name = true ↔
    (∀ q, t.queues.lookup name = some q → q.unlinked = false ∧ q.openCount.toNat + 1 < 2 ^ 32) ∧
      t.descriptors.lookup t.nextMqd = none := by
  rw [roomFor, Bool.and_eq_true, Option.all_eq_true]
  simp [isMqd]

/-- A new queue is linked and held once. -/
theorem MqueueTable.newQueue_eq {attr : Option (UInt32 × UInt32)} {q : MqQueue}
    (h : newQueue attr = .ok q) :
    q = q.body.entry false 1 := by
  rw [newQueue] at h
  split at h
  · cases h
  · cases h
    rfl

namespace MqRefines

variable (h : MqRefines t I cur)

include h

/-- A queue made under a free name corresponds. -/
theorem createdGranted (hnone : t.queues.lookup name = none)
    (hfree : t.descriptors.lookup t.nextMqd = none) (b : MqBody) (flags : UInt32) :
    ∃ cur', MqRefines { t with
        queues := t.queues.insert name (b.entry false 1)
        descriptors := t.descriptors.insert t.nextMqd
          ⟨name, flags &&& O_ACCMODE, hasFlag flags O_NONBLOCK⟩
        nextMqd := t.nextMqd + 1 }
      ((I.create name b).grant I.created flags).2 cur' := by
  rw [h.queues, Option.map_eq_none_iff] at hnone
  have hopened : ({ t with queues := t.queues.insert name (b.entry false 0) } :
      MqueueTable).opened name = 0 := h.opened_of_absent hnone
  have hcount : 0 + 1 < 2 ^ 32 := by decide
  have hgranted := (h.created hnone b).granted (Function.update_self ..) hfree
    (hopened.symm ▸ hcount) flags
  rw [hopened, AList.insert_insert] at hgranted
  simpa only [IdealMqueues.create, Function.update_self] using hgranted

/-- **An open** that makes no second queue of a name. -/
theorem mqOpen (flags : UInt32) (attr : Option (UInt32 × UInt32))
    (hroom : t.Opens name flags attr → t.roomFor name = true) :
    (t.mqOpen name flags attr).1 = (I.mqOpen name flags attr).1 ∧
      ∃ cur', MqRefines (t.mqOpen name flags attr).2 (I.mqOpen name flags attr).2 cur' := by
  rw [MqueueTable.mqOpen, IdealMqueues.mqOpen]
  by_cases hname : name = [] ∨ 255 < name.length
  · simp only [if_pos hname]
    exact ⟨trivial, cur, h⟩
  simp only [if_neg hname]
  cases hnamed : I.named name with
  | some i =>
    have hlinked : t.linked name = true := by
      rw [h.linked_eq, hnamed]
      rfl
    have hq : t.queues.lookup name = some ((I.body i).entry false (t.opened name)) := by
      rw [h.lookup_of_cur (h.named name i hnamed), hnamed, decide_eq_false (not_not.mpr rfl)]
    by_cases hexcl : hasFlag (flags &&& ~~~O_LARGEFILE) O_CREAT = true ∧
        hasFlag (flags &&& ~~~O_LARGEFILE) O_EXCL = true
    · simp only [if_pos hexcl, if_pos (⟨hexcl.1, hexcl.2, hlinked⟩ : _ ∧ _ ∧ _)]
      exact ⟨trivial, cur, h⟩
    have hexcl' : ¬ (hasFlag (flags &&& ~~~O_LARGEFILE) O_CREAT = true ∧
        hasFlag (flags &&& ~~~O_LARGEFILE) O_EXCL = true ∧ t.linked name = true) :=
      fun hall => hexcl ⟨hall.1, hall.2.1⟩
    have hfound : ¬ (¬ hasFlag (flags &&& ~~~O_LARGEFILE) O_CREAT = true ∧
        ¬ t.linked name = true) := fun hnone => hnone.2 hlinked
    simp only [if_neg hexcl, if_neg hexcl', if_neg hfound, openedQueue_of_linked attr hq rfl]
    obtain ⟨hentry, hfree⟩ :=
      roomFor_iff.mp (hroom ⟨hname, hexcl', .inr hlinked, .inl hlinked⟩)
    have hcount := (hentry _ hq).2
    rw [MqBody.entry, UInt32.toNat_ofNat_of_lt' (h.small name)] at hcount
    have hgranted := h.granted hnamed hfree hcount (flags &&& ~~~O_LARGEFILE)
    rw [MqBody.entry, UInt32.ofNat_add] at hgranted
    exact ⟨congrArg Except.ok h.nextMqd, hgranted⟩
  | none =>
    have hlinked : ¬ t.linked name = true := by
      rw [h.linked_eq, hnamed]
      exact Bool.false_ne_true
    have hexcl : ¬ (hasFlag (flags &&& ~~~O_LARGEFILE) O_CREAT = true ∧
        hasFlag (flags &&& ~~~O_LARGEFILE) O_EXCL = true ∧ t.linked name = true) :=
      fun hall => hlinked hall.2.2
    simp only [if_neg hexcl]
    by_cases hcreat : hasFlag (flags &&& ~~~O_LARGEFILE) O_CREAT = true
    · simp only [if_neg (fun hnone : ¬ _ ∧ ¬ _ => hnone.1 hcreat), if_neg (not_not.mpr hcreat),
        openedQueue_of_not_linked attr hlinked]
      cases hnew : newQueue attr with
      | error => exact ⟨rfl, cur, h⟩
      | ok q =>
        have hok : (newQueue attr).isOk = true := by
          rw [hnew]
          rfl
        obtain ⟨hentry, hfree⟩ :=
          roomFor_iff.mp (hroom ⟨hname, hexcl, .inl hcreat, .inr hok⟩)
        have habsent : t.queues.lookup name = none := by
          cases hq : t.queues.lookup name with
          | none => rfl
          | some q' => exact absurd (linked_iff.mpr ⟨q', hq, (hentry q' hq).1⟩) hlinked
        have hgranted := h.createdGranted habsent hfree q.body (flags &&& ~~~O_LARGEFILE)
        rw [← newQueue_eq hnew] at hgranted
        exact ⟨congrArg Except.ok h.nextMqd, hgranted⟩
    · simp only [if_pos (⟨hcreat, hlinked⟩ : _ ∧ _), if_pos hcreat]
      exact ⟨trivial, cur, h⟩

/-- An open that succeeds gives out a number that nobody holds. -/
theorem nextMqd_free {flags : UInt32} {attr : Option (UInt32 × UInt32)}
    {n : UInt32} (hroom : t.Opens name flags attr → t.roomFor name = true)
    (hopened : (I.mqOpen name flags attr).1 = .ok n) : I.held I.nextMqd = none := by
  rw [← (h.mqOpen flags attr hroom).1] at hopened
  rcases t.mqOpen_cases name flags attr with ⟨-, e, hopen⟩ | ⟨hopens, -⟩
  · rw [hopen] at hopened
    cases hopened
  · have hfree := (roomFor_iff.mp (hroom hopens)).2
    rwa [h.nextMqd, h.desc, Option.map_eq_none_iff] at hfree

/-- **One call**: the same answer, and the tables still go together. -/
theorem step (pid : UInt32) (call : MqCall) (hcall : call.Unambiguous t) :
    (call.run pid t).1 = (call.ideal pid I).1 ∧
      ∃ cur', MqRefines (call.run pid t).2 (call.ideal pid I).2 cur' := by
  cases call with
  | mqOpen name flags =>
    obtain ⟨hanswer, hnext⟩ := h.mqOpen flags _ hcall
    exact ⟨congrArg (Except.map _) hanswer, hnext⟩
  | mqUnlink name =>
    obtain ⟨hanswer, hnext⟩ := h.unlink name
    exact ⟨congrArg (Except.map _) hanswer, hnext⟩
  | mqTimedsend mqd data priority =>
    obtain ⟨hanswer, hnext⟩ := h.through mqd (some O_RDONLY) (MqBody.send data priority)
    rw [MqCall.run, MqCall.ideal, mqSend_eq_through]
    generalize t.through mqd (some O_RDONLY) (MqBody.send data priority) = r at hanswer hnext ⊢
    generalize I.through mqd (some O_RDONLY) (MqBody.send data priority) = r' at hanswer hnext ⊢
    obtain ⟨a, t'⟩ := r
    obtain ⟨a', I'⟩ := r'
    obtain rfl : a = a' := hanswer
    rcases a with e | _ | notif
    · exact ⟨rfl, cur, hnext⟩
    · exact ⟨rfl, cur, hnext⟩
    · exact ⟨rfl, cur, hnext.notified (some notif)⟩
  | mqTimedreceive mqd bufSize =>
    obtain ⟨hanswer, hnext⟩ := h.through mqd (some O_WRONLY) (MqBody.receive bufSize)
    rw [MqCall.run, MqCall.ideal, mqReceive_eq_through]
    exact ⟨congrArg (Except.map _) hanswer, cur, hnext⟩
  | mqNotify mqd sev =>
    obtain ⟨hanswer, hnext⟩ := h.through mqd none
      (MqBody.notify pid (sev.map Prod.fst) ((sev.map Prod.snd).getD 0))
    rw [MqCall.run, MqCall.ideal, mqNotify_eq_through]
    exact ⟨congrArg (Except.map _) hanswer, cur, hnext⟩
  | mqGetsetattr mqd newFlags =>
    obtain ⟨hanswer, hnext⟩ := h.getsetattr mqd newFlags
    exact ⟨congrArg (Except.map _) hanswer, cur, hnext⟩
  | close fd => exact h.close pid fd

end MqRefines

end Calls

/-! ### Whole runs -/

/-- **The identity of queues.** In every run in which no open makes a second queue of a name:
every descriptor finds the queue it was opened on, with that queue's messages; a name has an
entry exactly while a queue of that name is alive, which is while it has the name or a
descriptor; and every further such call answers what the ideal table answers, leaves every
descriptor on its queue until it is closed, and leaves every queue alone on which it names no
descriptor. -/
theorem mqueue_identity_run (calls : List (UInt32 × MqCall))
    (hrun : Runs next (fun t a => a.2.Unambiguous t) .new calls) :
    let t := calls.foldl next .new
    let I := calls.foldl IdealMqueues.next .new
    (∀ mqd d, I.held mqd = some d → ∃ q, t.queueOf mqd none = .ok (I.descriptor d, q) ∧
      q.body = I.body d.queue) ∧
    (∀ mqd, I.held mqd = none → t.isMqd mqd = false) ∧
    (∀ name, (∃ q, t.queues.lookup name = some q) ↔ ∃ i, I.Alive i ∧ I.name i = name) ∧
    (∀ i j, I.Alive i → I.Alive j → I.name i = I.name j → i = j) ∧
    ∀ (pid : UInt32) (call : MqCall), call.Unambiguous t →
      (call.run pid t).1 = (call.ideal pid I).1 ∧
      (∀ mqd d, I.held mqd = some d → call ≠ .close mqd →
        ∃ d', (call.ideal pid I).2.held mqd = some d' ∧ d'.queue = d.queue) ∧
      ∀ i, I.Alive i → (∀ mqd d, call.mqd? = some mqd → I.held mqd = some d → d.queue ≠ i) →
        (call.ideal pid I).2.body i = I.body i := by
  intro t I
  obtain ⟨cur, h⟩ : ∃ cur, MqRefines t I cur := by
    refine hrun.simulates (R := fun t I => ∃ cur, MqRefines t I cur) ⟨_, MqRefines.new⟩ ?_
    rintro t I a ⟨cur, h⟩ ha
    exact (h.step a.1 a.2 ha).2
  refine ⟨?_, ?_, ?_, ?_, ?_⟩
  · intro mqd d hheld
    exact ⟨_, h.queueOf_held hheld (Option.some_ne_none d.accessMode).symm, rfl⟩
  · intro mqd hheld
    rw [isMqd, h.desc, hheld]
    rfl
  · intro name
    constructor
    · rintro ⟨q, hq⟩
      rw [h.queues, Option.map_eq_some_iff] at hq
      obtain ⟨i, hcur, -⟩ := hq
      obtain ⟨-, rfl⟩ := h.known name i hcur
      exact ⟨i, h.alive_iff.mpr hcur, rfl⟩
    · rintro ⟨i, hi, rfl⟩
      exact ⟨_, h.lookup_of_cur (h.alive_iff.mp hi)⟩
  · intro i j hi hj hname
    rw [h.alive_iff] at hi hj
    rw [hname, hj] at hi
    exact (Option.some.inj hi).symm
  intro pid call hcall
  obtain ⟨hanswer, hnext⟩ := h.step pid call hcall
  refine ⟨hanswer, fun mqd d hheld hclose => ?_, fun i hi hother => ?_⟩
  · refine IdealMqueues.held_ideal ?_ hheld hclose
    rintro name flags attr n rfl hopened
    exact h.nextMqd_free hcall hopened
  · exact IdealMqueues.body_ideal (h.known _ i (h.alive_iff.mp hi)).1 hother

/-- A queue `/q` that is unlinked while two descriptors are open; then one of them is closed. -/
def unlinkedWhileOpen : List (UInt32 × MqCall) :=
  [(1, .mqOpen [47, 113] (O_CREAT ||| O_RDWR) none), (2, .mqOpen [47, 113] O_RDWR none),
    (1, .mqTimedsend MQD_BASE [1] 0), (1, .mqUnlink [47, 113]), (1, .close MQD_BASE)]

/-- A queue unlinked while it is open. -/
theorem mqueue_identity_unlinked :
    Runs next (fun t a => a.2.Unambiguous t) .new unlinkedWhileOpen ∧
      ∃ q, (unlinkedWhileOpen.foldl next .new).queueOf (MQD_BASE + 1) none =
        .ok (⟨[47, 113], O_RDWR, false⟩, q) ∧ q.messages = [⟨[1], 0⟩] := by
  have hrun : Runs next (fun t a => a.2.Unambiguous t) .new unlinkedWhileOpen := by
    decide
  obtain ⟨hheld, -⟩ := mqueue_identity_run unlinkedWhileOpen hrun
  obtain ⟨q, hqueue, hbody⟩ := hheld (MQD_BASE + 1) ⟨0, O_RDWR, false⟩ (by decide)
  exact ⟨hrun, q, hqueue, congrArg MqBody.messages hbody⟩

/-- The queue `/q` gets a message and is unlinked, and the name is created again. -/
def recreated : List (UInt32 × MqCall) :=
  [(1, .mqOpen [47, 113] (O_CREAT ||| O_RDWR) none), (1, .mqTimedsend MQD_BASE [1] 0),
    (1, .mqUnlink [47, 113]), (2, .mqOpen [47, 113] (O_CREAT ||| O_RDWR) none)]

/-- **An identity that is lost.** The old descriptor does not find its message any more, and what
is sent through it arrives in the new queue. -/
theorem mqueue_identity_lost :
    let t := recreated.foldl next .new
    let I := recreated.foldl IdealMqueues.next .new
    ((MqCall.mqTimedreceive MQD_BASE 8192).run 1 t).1 = .error .EAGAIN ∧
    ((MqCall.mqTimedreceive MQD_BASE 8192).ideal 1 I).1 = .ok (.message ⟨[1], 0⟩) ∧
    ((MqCall.mqTimedreceive (MQD_BASE + 1) 8192).run 2
      (t.next (1, .mqTimedsend MQD_BASE [9] 0))).1 = .ok (.message ⟨[9], 0⟩) ∧
    ((MqCall.mqTimedreceive (MQD_BASE + 1) 8192).ideal 2
      (I.next (1, .mqTimedsend MQD_BASE [9] 0))).1 = .error .EAGAIN := by
  decide

end PosixKernel
