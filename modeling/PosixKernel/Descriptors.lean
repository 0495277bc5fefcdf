import PosixKernel.Shared

/-!
# Descriptors and Open File Descriptions

The two per-process tables behind every descriptor: `FdTable` (`fd.rs`) maps descriptor
numbers to open file descriptions, `OfdTable` (`ofd.rs`) holds the descriptions with
their reference counts.

## Main results

* `FdTable.alloc_eq_ok`, `FdTable.free_eq_ok`, `FdTable.setAt_eq_ok` — what each
  successful descriptor operation did to the table;
* `OfdTable.get_decRef` — the reference count after a release, and when the slot goes.
-/

namespace PosixKernel

open SlotTable

/-! ### Open file descriptions -/

/-- The kind of object an open file description refers to. -/
inductive FileType
  | Regular | Directory | Pipe | CharDevice | Socket | EventFd | Epoll | TimerFd
  | SignalFd | MemFd | PtyMaster | PtySlave
  deriving DecidableEq

/-- An open file description. `hostHandle` is a host handle when it is not negative;
otherwise it encodes an index into one of the kernel's object tables. `dirHostHandle` is
the host directory iterator, with the sentinels `-1` for not yet opened and `-2` for
exhausted. -/
structure OpenFileDesc where
  fileType : FileType
  statusFlags : UInt32
  hostHandle : ℤ
  offset : ℤ
  refCount : ℕ
  ownerPid : ℕ
  path : Bytes
  dirHostHandle : ℤ
  dirSynthState : UInt8
  dirEntryOffset : ℤ
  deriving DecidableEq

/-- The handle that encodes slot `idx` of an in-kernel object table. -/
def slotHandle (idx : ℕ) : ℤ := -((idx : ℤ) + 1)

/-- The slot that a negative handle encodes. -/
def handleSlot (handle : ℤ) : ℕ := (-(handle + 1)).toNat

/-- A slot is read back from its handle. -/
@[simp] theorem handleSlot_slotHandle (idx : ℕ) : handleSlot (slotHandle idx) = idx := by
  simp only [handleSlot, slotHandle]
  omega

/-- The handle of a slot is negative. -/
theorem slotHandle_neg (idx : ℕ) : slotHandle idx < 0 := by
  simp only [slotHandle]
  omega

/-- A freshly opened description, referenced once. -/
def OpenFileDesc.fresh (fileType : FileType) (statusFlags : UInt32) (hostHandle : ℤ)
    (path : Bytes) : OpenFileDesc where
  fileType := fileType
  statusFlags := statusFlags
  hostHandle := hostHandle
  offset := 0
  refCount := 1
  ownerPid := 0
  path := path
  dirHostHandle := -1
  dirSynthState := 0
  dirEntryOffset := 0

/-- The open file descriptions of a process. -/
abbrev OfdTable := SlotTable OpenFileDesc

/-- Count one more reference to description `idx`. -/
def OfdTable.incRef (t : OfdTable) (idx : ℕ) : OfdTable :=
  t.modify idx fun o => { o with refCount := o.refCount + 1 }

/-- Drop one reference to description `idx`; the flag says whether the slot was freed. -/
def OfdTable.decRef (t : OfdTable) (idx : ℕ) : Bool × OfdTable :=
  match t.get idx with
  | none => (false, t)
  | some o =>
    if o.refCount - 1 = 0 then (true, t.clear idx)
    else (false, t.put idx (some { o with refCount := o.refCount - 1 }))

/-- The table after a reference was counted. -/
theorem OfdTable.get_incRef (t : OfdTable) (i j : ℕ) :
    (t.incRef i).get j =
      if j = i then (t.get i).map fun o => { o with refCount := o.refCount + 1 }
      else t.get j :=
  get_modify t i j _

variable {i : ℕ} {o : OpenFileDesc}

/-- Dropping a reference to a description. -/
theorem OfdTable.decRef_of_get {t : OfdTable} (h : t.get i = some o) :
    t.decRef i = if o.refCount - 1 = 0 then (true, t.clear i)
      else (false, t.put i (some { o with refCount := o.refCount - 1 })) := by
  simp [decRef, h]

/-- The table after a reference was dropped. -/
theorem OfdTable.get_decRef {t : OfdTable} (h : t.get i = some o) (j : ℕ) :
    (t.decRef i).2.get j =
      if j = i then
        if o.refCount - 1 = 0 then none
        else some { o with refCount := o.refCount - 1 }
      else t.get j := by
  rw [decRef_of_get h]
  split
  · exact get_clear t i j
  · exact get_put t i j _

/-- There is none to drop at a free slot. -/
theorem OfdTable.decRef_of_free {t : OfdTable} (h : t.get i = none) : t.decRef i = (false, t) := by
  simp [decRef, h]

/-- A description made and dropped leaves the table. -/
theorem OfdTable.get_decRef_alloc (t : OfdTable) (ho : o.refCount = 1) (i : ℕ) :
    (OfdTable.decRef (t.alloc o).2 (t.alloc o).1).2.get i = t.get i := by
  have hget : (t.alloc o).2.get (t.alloc o).1 = some o := by
    rw [get_alloc]
    exact if_pos rfl
  rw [OfdTable.decRef_of_get hget, ho]
  exact get_clear_alloc t o i

/-! ### Descriptors -/

/-- An entry of the descriptor table. -/
structure FdEntry where
  ofdRef : ℕ
  fdFlags : UInt32
  deriving DecidableEq

/-- The descriptor table of a process, with its limit on descriptor numbers. -/
structure FdTable where
  entries : SlotTable FdEntry
  maxFds : ℕ
  deriving DecidableEq

/-- The default limit on descriptor numbers. -/
def FdTable.DEFAULT_MAX : ℕ := 1024

/-- The table of a process without descriptors. -/
def FdTable.new : FdTable := ⟨empty, FdTable.DEFAULT_MAX⟩

/-- The first free descriptor number from `min` on. -/
def FdTable.freeIdx (t : FdTable) (min : ℕ) : ℕ :=
  match (t.entries.slots.drop min).findIdx? Option.isNone with
  | some k => min + k
  | none => max t.entries.slots.length min

/-- Allocate the lowest available descriptor from `minFd` on. -/
def FdTable.allocAtMin (t : FdTable) (ofdRef : ℕ) (fdFlags : UInt32) (minFd : ℤ) :
    Except Errno (ℤ × FdTable) :=
  let i := t.freeIdx minFd.toNat
  if t.maxFds ≤ i then .error .EMFILE
  else .ok (i, { t with entries := t.entries.put i (some ⟨ofdRef, fdFlags⟩) })

/-- Allocate the lowest available descriptor. -/
def FdTable.alloc (t : FdTable) (ofdRef : ℕ) (fdFlags : UInt32) : Except Errno (ℤ × FdTable) :=
  t.allocAtMin ofdRef fdFlags 0

/-- The entry of a descriptor. -/
def FdTable.lookup (t : FdTable) (fd : ℤ) : Option FdEntry :=
  if fd < 0 then none else t.entries.get fd.toNat

/-- The entry of a descriptor, or `EBADF`. -/
def FdTable.get (t : FdTable) (fd : ℤ) : Except Errno FdEntry :=
  match t.lookup fd with
  | none => .error .EBADF
  | some e => .ok e

/-- Give a descriptor up, returning the description it pointed to. -/
def FdTable.free (t : FdTable) (fd : ℤ) : Except Errno (ℕ × FdTable) :=
  match t.lookup fd with
  | none => .error .EBADF
  | some e => .ok (e.ofdRef, { t with entries := t.entries.clear fd.toNat })

/-- Point a descriptor at a description, whatever it pointed to before. -/
def FdTable.setAt (t : FdTable) (fd : ℤ) (ofdRef : ℕ) (fdFlags : UInt32) :
    Except Errno FdTable :=
  if fd < 0 ∨ t.maxFds ≤ fd.toNat then .error .EBADF
  else .ok { t with entries := t.entries.put fd.toNat (some ⟨ofdRef, fdFlags⟩) }

/-- Replace the flags of a descriptor, if it is open. -/
def FdTable.setFlags (t : FdTable) (fd : ℤ) (f : UInt32 → UInt32) : FdTable :=
  { t with entries := t.entries.modify fd.toNat fun e => { e with fdFlags := f e.fdFlags } }

/-- The number found is free. -/
theorem FdTable.get_freeIdx (t : FdTable) (min : ℕ) : t.entries.get (t.freeIdx min) = none := by
  simp only [freeIdx]
  rcases h : (t.entries.slots.drop min).findIdx? Option.isNone with _ | k
  · exact get_eq_none_of_le (le_max_left _ _)
  obtain ⟨hlt, hnone, -⟩ := List.findIdx?_eq_some_iff_getElem.mp h
  have hlen : min + k < t.entries.slots.length := by
    rw [List.length_drop] at hlt
    omega
  simp only [SlotTable.get, List.getD_eq_getElem?_getD, List.getElem?_eq_getElem hlen]
  simpa using hnone

/-- It is not below the least one asked for. -/
theorem FdTable.le_freeIdx (t : FdTable) (min : ℕ) : min ≤ t.freeIdx min := by
  rw [freeIdx]
  split
  · exact Nat.le_add_right _ _
  · exact le_max_right _ _

/-- A number is looked up in its slot. -/
theorem FdTable.lookup_natCast (t : FdTable) (i : ℕ) : t.lookup (i : ℤ) = t.entries.get i := by
  simp [lookup]

/-- What is looked up after one entry changed. -/
theorem FdTable.lookup_update {t t' : FdTable} {e : Option FdEntry}
    (h : ∀ j, t'.entries.get j = if j = i then e else t.entries.get j) (fd : ℤ) :
    t'.lookup fd = if fd = i then e else t.lookup fd := by
  rw [lookup, lookup]
  split
  · rw [if_neg (by omega)]
  · rw [h]
    exact ite_congr (propext (by omega)) (fun _ => rfl) fun _ => rfl

/-- An open descriptor is a slot number. -/
theorem FdTable.lookup_eq_some {t : FdTable} {fd : ℤ} {e : FdEntry} :
    t.lookup fd = some e ↔ ∃ i : ℕ, fd = i ∧ t.entries.get i = some e := by
  constructor
  · intro h
    rw [lookup] at h
    split at h
    · cases h
    · exact ⟨fd.toNat, by omega, h⟩
  · rintro ⟨i, rfl, h⟩
    rw [lookup_natCast, h]

variable {t : FdTable} {ofdRef : ℕ} {fdFlags : UInt32}

/-- What a successful allocation did: it filled a free slot below the limit. -/
theorem FdTable.allocAtMin_eq_ok {t' : FdTable} {minFd fd : ℤ}
    (h : t.allocAtMin ofdRef fdFlags minFd = .ok (fd, t')) :
    ∃ i : ℕ, fd = i ∧ t.entries.get i = none ∧ i < t.maxFds ∧
      t' = { t with entries := t.entries.put i (some ⟨ofdRef, fdFlags⟩) } := by
  simp only [allocAtMin] at h
  split at h
  · cases h
  next hlt =>
    cases h
    exact ⟨_, rfl, t.get_freeIdx _, not_le.mp hlt, rfl⟩

/-- An allocation takes a free number below the limit. -/
theorem FdTable.alloc_eq_ok {t' : FdTable} {fd : ℤ} (h : t.alloc ofdRef fdFlags = .ok (fd, t')) :
    ∃ i : ℕ, fd = i ∧ t.entries.get i = none ∧ i < t.maxFds ∧
      t' = { t with entries := t.entries.put i (some ⟨ofdRef, fdFlags⟩) } :=
  allocAtMin_eq_ok h

/-- Whether an allocation succeeds depends on the table alone. -/
theorem FdTable.alloc_isOk_iff :
    (∃ r, t.alloc ofdRef fdFlags = .ok r) ↔ t.freeIdx 0 < t.maxFds := by
  simp only [alloc, allocAtMin, Int.toNat_zero]
  split
  next h => simp [h]
  next h => simpa using h

/-- The lowest free number is below every other. -/
theorem FdTable.freeIdx_le (t : FdTable) {min : ℕ} (hmin : min ≤ i)
    (hfree : t.entries.get i = none) : t.freeIdx min ≤ i := by
  simp only [freeIdx]
  rcases h : (t.entries.slots.drop min).findIdx? Option.isNone with _ | k
  · by_contra hlt
    have hi : i < t.entries.slots.length := by
      simp only at hlt
      omega
    have hmem : t.entries.slots[i] ∈ t.entries.slots.drop min := by
      rw [List.mem_drop_iff_getElem]
      exact ⟨i - min, by omega, by congr 1; omega⟩
    have hsome := List.findIdx?_eq_none_iff.mp h _ hmem
    rw [SlotTable.get, List.getD_eq_getElem?_getD, List.getElem?_eq_getElem hi,
      Option.getD_some] at hfree
    rw [hfree] at hsome
    cases hsome
  obtain ⟨hk, -, hbefore⟩ := List.findIdx?_eq_some_iff_getElem.mp h
  by_contra hlt
  simp only [not_le] at hlt
  have hi : i < t.entries.slots.length := by
    rw [List.length_drop] at hk
    omega
  have hsome := hbefore (i - min) (by omega)
  rw [List.getElem_drop] at hsome
  rw [SlotTable.get, List.getD_eq_getElem?_getD, List.getElem?_eq_getElem hi,
    Option.getD_some] at hfree
  simp only [Nat.add_sub_cancel' hmin, hfree] at hsome
  simp at hsome

/-- The descriptor numbers that are free. -/
def FdTable.freeNumbers (t : FdTable) : List ℕ :=
  (List.range t.maxFds).filter fun i => (t.entries.get i).isNone

/-- The free numbers below the limit. -/
theorem FdTable.mem_freeNumbers : i ∈ t.freeNumbers ↔ i < t.maxFds ∧ t.entries.get i = none := by
  rw [freeNumbers, List.mem_filter, List.mem_range, Option.isNone_iff_eq_none]

/-- With a free number an allocation succeeds. -/
theorem FdTable.alloc_of_free (h : i ∈ t.freeNumbers) (ofdRef : ℕ) (fdFlags : UInt32) :
    ∃ r, t.alloc ofdRef fdFlags = .ok r := by
  obtain ⟨hmax, hfree⟩ := mem_freeNumbers.mp h
  exact alloc_isOk_iff.mpr ((t.freeIdx_le (Nat.zero_le i) hfree).trans_lt hmax)

/-- With two, two do. -/
theorem FdTable.alloc_twice (h : 2 ≤ t.freeNumbers.length) (a b : ℕ) (fa fb : UInt32) :
    ∃ fd t' r, t.alloc a fa = .ok (fd, t') ∧ t'.alloc b fb = .ok r := by
  have hnodup : t.freeNumbers.Nodup := List.nodup_range.filter _
  obtain ⟨i, j, hi, hj, hij⟩ : ∃ i j, i ∈ t.freeNumbers ∧ j ∈ t.freeNumbers ∧ i ≠ j := by
    rcases hl : t.freeNumbers with _ | ⟨i, _ | ⟨j, l⟩⟩
    · rw [hl] at h
      exact absurd h (by simp)
    · rw [hl] at h
      exact absurd h (by simp)
    · rw [hl, List.nodup_cons] at hnodup
      exact ⟨i, j, by simp, by simp, fun heq => hnodup.1 (heq ▸ List.mem_cons_self)⟩
  obtain ⟨⟨fd, t'⟩, hfirst⟩ := alloc_of_free hi a fa
  obtain ⟨k, -, -, -, rfl⟩ := alloc_eq_ok hfirst
  -- at most one of the two numbers is taken by the first allocation
  obtain ⟨l, hl, hlk⟩ : ∃ l ∈ t.freeNumbers, l ≠ k := by
    by_cases hik : i = k
    · exact ⟨j, hj, fun hjk => hij (hik.trans hjk.symm)⟩
    · exact ⟨i, hi, hik⟩
  obtain ⟨hmax, hfree⟩ := mem_freeNumbers.mp hl
  have hstill :
      l ∈ ({ t with entries := t.entries.put k (some ⟨a, fa⟩) } : FdTable).freeNumbers := by
    refine mem_freeNumbers.mpr ⟨hmax, ?_⟩
    rwa [get_put_of_ne _ _ hlk]
  obtain ⟨r, hsecond⟩ := alloc_of_free hstill b fb
  exact ⟨fd, _, r, hfirst, hsecond⟩

/-- Freeing clears the entry that was there. -/
theorem FdTable.free_eq_ok {t' : FdTable} {fd : ℤ} {idx : ℕ} (h : t.free fd = .ok (idx, t')) :
    ∃ (i : ℕ) (e : FdEntry), fd = i ∧ t.entries.get i = some e ∧ e.ofdRef = idx ∧
      t' = { t with entries := t.entries.clear i } := by
  rw [free] at h
  rcases he : t.lookup fd with _ | e
  · rw [he] at h
    cases h
  obtain ⟨i, rfl, hi⟩ := lookup_eq_some.mp he
  rw [he] at h
  cases h
  exact ⟨i, e, rfl, hi, rfl, rfl⟩

/-- An entry is set at a number below the limit. -/
theorem FdTable.setAt_eq_ok {t' : FdTable} {fd : ℤ} (h : t.setAt fd ofdRef fdFlags = .ok t') :
    ∃ i : ℕ, fd = i ∧ i < t.maxFds ∧
      t' = { t with entries := t.entries.put i (some ⟨ofdRef, fdFlags⟩) } := by
  rw [setAt] at h
  split at h
  · cases h
  next hfd =>
    obtain ⟨h0, hmax⟩ := not_or.mp hfd
    exact ⟨fd.toNat, by omega, not_le.mp hmax, (Except.ok.inj h).symm⟩

end PosixKernel
