import PosixKernel.Lib.SharedRefs
import PosixKernel.Shared

/-!
# Sockets, Shared Accept Queues and Pseudo-Terminals

The per-process socket table with the two tables that processes share next to the pipe
table: the accept queues of listeners (`socket.rs`) and the pseudo-terminal pairs
(`pty.rs`). Both count the holders of a slot and free it with the last one.

## Main results

* `SharedBacklogTable.refs_decRef`, `SharedBacklogTable.refs_addRef` — holders of an
  accept queue after each operation;
* `PtyTable.refs_dropSide`, `PtyTable.refs_addSide` — holders of a terminal side.
-/

namespace PosixKernel

open SlotTable

/-! ### Sockets -/

inductive SocketDomain
  | Unix | Inet | Inet6
  deriving DecidableEq

inductive SocketType
  | Stream | Dgram
  deriving DecidableEq

inductive SocketState
  | Unbound | Bound | Listening | Connected | Closed
  deriving DecidableEq

/-- An IPv4 address. -/
abbrev Ipv4 := UInt8 × UInt8 × UInt8 × UInt8

/-- A received datagram. -/
structure Datagram where
  data : Bytes
  srcAddr : Ipv4
  srcPort : UInt16

/-- The kernel state of a socket. -/
structure SocketInfo where
  domain : SocketDomain
  sockType : SocketType
  protocol : UInt32
  state : SocketState
  peerIdx : Option ℕ
  recvBufIdx : Option ℕ
  sendBufIdx : Option ℕ
  shutRd : Bool
  shutWr : Bool
  hostNetHandle : Option Int32
  options : List (UInt32 × UInt32 × UInt32)
  bindAddr : Ipv4
  bindPort : UInt16
  peerAddr : Ipv4
  peerPort : UInt16
  listenBacklog : List ℕ
  sharedBacklogIdx : Option ℕ
  dgramQueue : List Datagram
  globalPipes : Bool
  oobByte : Option UInt8
  recvTimeoutUs : UInt64
  sendTimeoutUs : UInt64
  bindPath : Option Bytes

/-- A socket as `socket` creates it. -/
def SocketInfo.new (domain : SocketDomain) (sockType : SocketType) (protocol : UInt32) :
    SocketInfo where
  domain := domain
  sockType := sockType
  protocol := protocol
  state := .Unbound
  peerIdx := none
  recvBufIdx := none
  sendBufIdx := none
  shutRd := false
  shutWr := false
  hostNetHandle := none
  options := []
  bindAddr := (0, 0, 0, 0)
  bindPort := 0
  peerAddr := (0, 0, 0, 0)
  peerPort := 0
  listenBacklog := []
  sharedBacklogIdx := none
  dgramQueue := []
  globalPipes := false
  oobByte := none
  recvTimeoutUs := 0
  sendTimeoutUs := 0
  bindPath := none

/-- The copy that a child inherits: what may be consumed only once stays with the
parent. -/
def SocketInfo.clone (s : SocketInfo) : SocketInfo :=
  { s with listenBacklog := [], dgramQueue := [], oobByte := none }

/-- The sockets of a process. -/
abbrev SocketTable := SlotTable SocketInfo

/-- The copy of the table that a spawned child inherits. -/
def SocketTable.clone (t : SocketTable) : SocketTable :=
  ⟨t.slots.map (Option.map SocketInfo.clone)⟩

/-- Cloning a table clones its sockets. -/
theorem SocketTable.get_clone (t : SocketTable) (i : ℕ) :
    t.clone.get i = (t.get i).map SocketInfo.clone := by
  simp only [clone, SlotTable.get, List.getD_eq_getElem?_getD, List.getElem?_map]
  rcases t.slots[i]? with _ | o <;> rfl

/-! ### Shared accept queues -/

/-- A connection waiting to be accepted, with its two pipes in the global table. -/
structure PendingConnection where
  peerAddr : Ipv4
  peerPort : UInt16
  recvPipeIdx : ℕ
  sendPipeIdx : ℕ
  deriving DecidableEq

/-- The accept queue that all inherited copies of a listener share. -/
structure SharedBacklog where
  queue : List PendingConnection
  refCount : ℕ

/-- The accept queues in use. -/
abbrev SharedBacklogTable := SlotTable SharedBacklog

namespace SharedBacklogTable

/-- Reserve a queue for a new listener. -/
def allocQueue (t : SharedBacklogTable) : ℕ × SharedBacklogTable := t.alloc ⟨[], 1⟩

/-- One more socket refers to the queue. -/
def addRef (t : SharedBacklogTable) (idx : ℕ) : SharedBacklogTable :=
  t.modify idx fun b => { b with refCount := b.refCount + 1 }

/-- One socket less refers to the queue; the last one takes it along. -/
def decRef (t : SharedBacklogTable) (idx : ℕ) : SharedBacklogTable :=
  t.release idx (fun b => { b with refCount := b.refCount - 1 }) fun b => b.refCount == 0

/-- Take the oldest pending connection. -/
def pop (t : SharedBacklogTable) (idx : ℕ) : Option (PendingConnection × SharedBacklogTable) :=
  match t.get idx with
  | some ⟨c :: queue, n⟩ => some (c, t.put idx (some ⟨queue, n⟩))
  | _ => none

/-- The number of sockets recorded for a queue. -/
def refs (t : SharedBacklogTable) (idx : ℕ) : ℕ :=
  weight SharedBacklog.refCount (t.get idx)

/-- The users of a queue after one left. -/
theorem refs_decRef (t : SharedBacklogTable) (i j : ℕ) :
    (t.decRef i).refs j = if j = i then t.refs i - 1 else t.refs j := by
  have hw : weight SharedBacklog.refCount ((t.decRef i).get j) = _ :=
    weight_get_release t i j (fun b => { b with refCount := b.refCount - 1 })
      fun b hb => beq_iff_eq.mp hb
  rw [refs, hw]
  split
  · simp only [refs]
    rcases t.get i with _ | b <;> rfl
  · rfl

/-- The users of a queue after one came. -/
theorem refs_addRef {t : SharedBacklogTable} {i : ℕ} {b : SharedBacklog}
    (hb : t.get i = some b) (j : ℕ) :
    (t.addRef i).refs j = if j = i then t.refs i + 1 else t.refs j := by
  simp only [refs, addRef, get_modify, hb]
  split <;> rfl

/-- Those of the other queues. -/
theorem refs_addRef_of_ne (t : SharedBacklogTable) {i j : ℕ} (h : j ≠ i) :
    (t.addRef i).refs j = t.refs j := by
  simp [refs, addRef, get_modify, if_neg h]

end SharedBacklogTable

/-! ### Pseudo-terminals -/

/-- The two sides of a pseudo-terminal. -/
inductive PtySide
  | master | slave
  deriving DecidableEq

/-- A pseudo-terminal pair. -/
structure PtyPair where
  locked : Bool
  masterRefs : ℕ
  slaveRefs : ℕ
  deriving DecidableEq

namespace PtyPair

/-- A new pair is locked until `unlockpt` and has no descriptions on it. -/
def new : PtyPair := ⟨true, 0, 0⟩

/-- The number of open descriptions on a side. -/
def refs (s : PtySide) (p : PtyPair) : ℕ :=
  match s with
  | .master => p.masterRefs
  | .slave => p.slaveRefs

/-- One more description on a side. -/
def addSide (s : PtySide) (p : PtyPair) : PtyPair :=
  match s with
  | .master => { p with masterRefs := p.masterRefs + 1 }
  | .slave => { p with slaveRefs := p.slaveRefs + 1 }

/-- One description less on a side, stopping at zero. -/
def dropSide (s : PtySide) (p : PtyPair) : PtyPair :=
  match s with
  | .master => { p with masterRefs := p.masterRefs - 1 }
  | .slave => { p with slaveRefs := p.slaveRefs - 1 }

def isAlive (p : PtyPair) : Bool := 0 < p.masterRefs || 0 < p.slaveRefs

/-- The users of a pair after one left. -/
theorem refs_dropSide (s s' : PtySide) (p : PtyPair) :
    (p.dropSide s).refs s' = if s' = s then p.refs s - 1 else p.refs s' := by
  cases s <;> cases s' <;> rfl

/-- The users of a pair after one came. -/
theorem refs_addSide (s s' : PtySide) (p : PtyPair) :
    (p.addSide s).refs s' = if s' = s then p.refs s + 1 else p.refs s' := by
  cases s <;> cases s' <;> rfl

/-- A dead pair has no users. -/
theorem refs_eq_zero_of_not_isAlive (s : PtySide) {p : PtyPair} (h : (!p.isAlive) = true) :
    p.refs s = 0 := by
  simp only [isAlive, Bool.not_or, Bool.and_eq_true, Bool.not_eq_true',
    decide_eq_false_iff_not, not_lt, nonpos_iff_eq_zero] at h
  cases s with
  | master => exact h.1
  | slave => exact h.2

end PtyPair

def MAX_PTYS : ℕ := 64

/-- The pseudo-terminals of the system. -/
abbrev PtyTable := SlotTable PtyPair

namespace PtyTable

/-- Reserve the lowest free pair, unless all are taken. -/
def allocPty (t : PtyTable) : Option (ℕ × PtyTable) :=
  if t.nextIdx < MAX_PTYS then some (t.alloc .new) else none

/-- The pair in a slot. -/
def getPty (t : PtyTable) (idx : ℕ) : Option PtyPair :=
  if MAX_PTYS ≤ idx then none else t.get idx

/-- One more description on a side of a live pair. -/
def addSide (t : PtyTable) (idx : ℕ) (s : PtySide) : PtyTable :=
  if MAX_PTYS ≤ idx then t else t.modify idx (PtyPair.addSide s)

/-- One description less on a side; the pair goes with the last description on it. -/
def dropSide (t : PtyTable) (idx : ℕ) (s : PtySide) : PtyTable :=
  if MAX_PTYS ≤ idx then t else t.release idx (PtyPair.dropSide s) fun p => !p.isAlive

/-- The number of descriptions recorded for a side. -/
def refs (t : PtyTable) (idx : ℕ) (s : PtySide) : ℕ :=
  weight (PtyPair.refs s) (t.getPty idx)

/-- The same in the table. -/
theorem refs_dropSide (t : PtyTable) (i : ℕ) (s : PtySide) (j : ℕ) (s' : PtySide) :
    (t.dropSide i s).refs j s' = if j = i ∧ s' = s then t.refs i s - 1 else t.refs j s' := by
  by_cases hi : MAX_PTYS ≤ i
  · rw [dropSide, if_pos hi]
    split
    next h =>
      obtain ⟨rfl, rfl⟩ := h
      simp [refs, getPty, hi]
    · rfl
  rw [dropSide, if_neg hi]
  by_cases hj : MAX_PTYS ≤ j
  · have hne : j ≠ i := fun h => hi (h ▸ hj)
    simp [refs, getPty, hj, hne]
  have hw := weight_get_release t (g := PtyPair.refs s') i j
    (PtyPair.dropSide s) fun p (hp : (!p.isAlive) = true) =>
      PtyPair.refs_eq_zero_of_not_isAlive s' hp
  simp only [refs, getPty, if_neg hi, if_neg hj]
  rw [hw]
  by_cases hji : j = i
  · subst hji
    rw [if_pos rfl]
    rcases t.get j with _ | p
    · simp
    · simp [weight_some, PtyPair.refs_dropSide]
  · rw [if_neg hji, if_neg fun h => hji h.1]

/-- The same in the table. -/
theorem refs_addSide {t : PtyTable} {i : ℕ} {p : PtyPair} (hp : t.getPty i = some p)
    (s : PtySide) (j : ℕ) (s' : PtySide) : (t.addSide i s).refs j s' =
      if j = i ∧ s' = s then t.refs i s + 1 else t.refs j s' := by
  have hi : ¬ MAX_PTYS ≤ i := by
    intro h
    rw [getPty, if_pos h] at hp
    cases hp
  rw [getPty, if_neg hi] at hp
  rw [addSide, if_neg hi]
  by_cases hji : j = i
  · subst hji
    simp [refs, getPty, if_neg hi, get_modify, hp, weight_some,
      PtyPair.refs_addSide]
  · rw [if_neg fun h => hji h.1]
    simp [refs, getPty, get_modify, if_neg hji]

/-- The other sides stay. -/
theorem refs_addSide_of_ne (t : PtyTable) {i j : ℕ} {s s' : PtySide} (h : ¬ (j = i ∧ s' = s)) :
    (t.addSide i s).refs j s' = t.refs j s' := by
  rcases hp : t.getPty i with _ | p
  · have hsame : t.addSide i s = t ∨ ¬ MAX_PTYS ≤ i ∧ t.get i = none := by
      by_cases hi : MAX_PTYS ≤ i
      · exact .inl (if_pos hi)
      · rw [getPty, if_neg hi] at hp
        exact .inr ⟨hi, hp⟩
    rcases hsame with hsame | ⟨hi, hnone⟩
    · rw [hsame]
    rw [addSide, if_neg hi]
    simp only [refs, getPty, get_modify]
    by_cases hj : j = i
    · simp [hj, hnone]
    · simp [hj]
  · rw [refs_addSide hp, if_neg h]

/-- A new pair has its master. -/
theorem refs_allocPty {t t' : PtyTable} {idx : ℕ} (h : t.allocPty = some (idx, t')) (j : ℕ)
    (s : PtySide) :
    (t'.addSide idx .master).refs j s = t.refs j s + if j = idx ∧ s = .master then 1 else 0 := by
  rw [allocPty] at h
  split at h
  next hlt =>
    obtain ⟨hidx, ht⟩ := Prod.mk.inj (Option.some.inj h)
    have hidx' : idx = t.nextIdx := hidx.symm
    have hget : ∀ j, t'.getPty j = if j = idx then some .new else t.getPty j := by
      intro j
      rw [getPty, getPty, ← ht, put, hidx']
      have hput := get_put t t.nextIdx j (some PtyPair.new)
      rw [put] at hput
      rw [hput]
      by_cases hj : j = t.nextIdx
      · rw [if_pos hj, if_pos hj, if_neg (by rw [hj]; exact not_le.mpr hlt)]
      · rw [if_neg hj, if_neg hj]
    have hrefs : ∀ j s, t'.refs j s = t.refs j s := by
      intro j s
      rw [refs, hget, refs]
      split
      next hj =>
        rw [hj, hidx', getPty, get_nextIdx]
        cases s <;> split <;> rfl
      · rfl
    rw [refs_addSide (p := .new) (by rw [hget, if_pos rfl])]
    split
    next hj => rw [hrefs, hj.1, hj.2]
    · rw [hrefs, add_zero]
  · cases h

/-- A user makes no pair. -/
theorem isSome_getPty_addSide (t : PtyTable) (i j : ℕ) (s : PtySide) :
    ((t.addSide i s).getPty j).isSome = (t.getPty j).isSome := by
  rw [addSide]
  split
  · rfl
  simp only [getPty, get_modify]
  split
  · rfl
  split
  next hj => rw [hj, Option.isSome_map]
  · rfl

end PtyTable

end PosixKernel
