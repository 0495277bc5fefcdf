import PosixKernel.Lib.Ranges
import PosixKernel.Memory

/-!
# The Mapping List

The operations of the memory manager on its list of mapped regions (`memory.rs`): placing a
region, at a fixed address or in the first gap, unmapping, and growing. A region ends where
the source's saturating addition puts its end, and a byte is mapped if a region covers it.

## Main results

* `MemoryManager.holds_munmap`, `MemoryManager.tidy_munmap` — unmapping is set difference;
* `MemoryManager.findGapFrom_spec`, `MemoryManager.findGapFrom_free` — what a gap is;
* `MemoryManager.placement_mmapAnonymous` — what a mapping request can do.
-/

namespace PosixKernel

open MappedRegion Layout

/-! ### Machine arithmetic -/

def USIZE_MAX : ℕ := 2 ^ 64 - 1

/-- A Wasm page. -/
def PAGE_SIZE : ℕ := 0x10000

def saturatingAdd (a b : ℕ) : ℕ := min (a + b) USIZE_MAX

/-- Addition in release builds, where it wraps. -/
def wrappingAdd (a b : ℕ) : ℕ := (a + b) % 2 ^ 64

/-- `n & !0xFFFF`: the page boundary at or below an address. -/
def pageFloor (n : ℕ) : ℕ := n / PAGE_SIZE * PAGE_SIZE

/-- A length rounded up to whole pages, if nothing overflows. -/
def pageCeil (n : ℕ) : ℕ := pageFloor (n + 0xFFFF)

def MAP_PRIVATE : UInt32 := 0x02
def MAP_FIXED : UInt32 := 0x10
def MAP_ANONYMOUS : UInt32 := 0x20
def MAP_FAILED : ℕ := USIZE_MAX

/-- Rounding up does not shrink. -/
theorem le_pageCeil (n : ℕ) : n ≤ pageCeil n := by
  simp only [pageCeil, pageFloor, PAGE_SIZE]
  omega

/-- Rounding down ends on a page. -/
theorem pageFloor_mod (n : ℕ) : pageFloor n % PAGE_SIZE = 0 := Nat.mul_mod_left _ _

/-! ### Regions -/

/-- Where a region ends. -/
def MappedRegion.stop (r : MappedRegion) : ℕ := saturatingAdd r.addr r.len

/-- A region ends where addresses do. -/
theorem MappedRegion.stop_le (r : MappedRegion) : r.stop ≤ USIZE_MAX := min_le_right _ _

/-- Regions as ranges of addresses that carry a protection and map flags. -/
def regions : Layout MappedRegion ℕ (UInt32 × UInt32) where
  lo := MappedRegion.addr
  hi := stop
  val r := (r.prot, r.flags)

/-- What an unmapping of the addresses from `addr` up to `unmapEnd` leaves of a region: all
of it, or a left and a right remnant. -/
def MappedRegion.remnants (r : MappedRegion) (addr unmapEnd : ℕ) : List MappedRegion :=
  if r.stop ≤ addr ∨ unmapEnd ≤ r.addr then [r]
  else
    (if r.addr < addr then [{ r with len := addr - r.addr }] else []) ++
    (if unmapEnd < r.stop then [{ r with addr := unmapEnd, len := r.stop - unmapEnd }] else [])

namespace MemoryManager

/-- A byte is mapped with a protection and map flags. -/
def MappedAs (m : MemoryManager) (b : ℕ) (attrs : UInt32 × UInt32) : Prop :=
  regions.Holds m.mappings b attrs

/-- A byte is mapped. -/
def Mapped (m : MemoryManager) (b : ℕ) : Prop := ∃ attrs, m.MappedAs b attrs

/-- Insert a region by address. The source finds the place by bisection, which is this place
on a list sorted by address. -/
def insertSorted (m : MemoryManager) (r : MappedRegion) : MemoryManager :=
  { m with
    mappings := m.mappings.takeWhile (·.addr < r.addr) ++
      r :: m.mappings.dropWhile (·.addr < r.addr) }

/-- The gap search from a cursor on; regions below the mapping base are passed over. -/
def findGapFrom (maxAddr needed : ℕ) : List MappedRegion → ℕ → Option ℕ
  | [], cursor => if saturatingAdd cursor needed ≤ maxAddr then some cursor else none
  | r :: rest, cursor =>
    if r.addr < MMAP_BASE then findGapFrom maxAddr needed rest cursor
    else if cursor ≤ r.addr ∧ needed ≤ r.addr - cursor then some cursor
    else findGapFrom maxAddr needed rest (max cursor r.stop)

/-- The first gap that can take `needed` bytes. -/
def findGap (m : MemoryManager) (needed : ℕ) : Option ℕ :=
  findGapFrom m.maxAddr needed m.mappings MMAP_BASE

/-- Drop the regions that overlap the addresses from `hint` up to `stop`. -/
def retainClear (m : MemoryManager) (hint stop : ℕ) : MemoryManager :=
  { m with mappings := m.mappings.filter fun r => r.stop ≤ hint ∨ stop ≤ r.addr }

/-- Map a region and return its address. -/
def mmapAnonymous (m : MemoryManager) (hint len : ℕ) (prot flags : UInt32) :
    ℕ × MemoryManager :=
  if len = 0 then (MAP_FAILED, m)
  else if USIZE_MAX < len + 0xFFFF then (MAP_FAILED, m)
  else
    let alignedLen := pageFloor (len + 0xFFFF)
    if hint ≠ 0 ∧ hasFlag flags MAP_FIXED then
      let stop := saturatingAdd hint alignedLen
      if m.maxAddr < stop then (MAP_FAILED, m)
      else (hint, (m.retainClear hint stop).insertSorted ⟨hint, alignedLen, prot, flags⟩)
    else
      match m.findGap alignedLen with
      | none => (MAP_FAILED, m)
      | some addr => (addr, m.insertSorted ⟨addr, alignedLen, prot, flags⟩)

/-- Unmap the addresses from `addr` up to `addr + len`, and say whether a region overlapped
them. -/
def munmap (m : MemoryManager) (addr len : ℕ) : Bool × MemoryManager :=
  if len = 0 then (false, m)
  else
    let unmapEnd := saturatingAdd addr len
    (m.mappings.any fun r => ¬ (r.stop ≤ addr ∨ unmapEnd ≤ r.addr),
      { m with mappings := m.mappings.flatMap (·.remnants addr unmapEnd) })

/-- Whether `len` bytes at `addr` are below the ceiling and overlap no region. -/
def canGrowAt (m : MemoryManager) (addr len : ℕ) : Bool :=
  if USIZE_MAX < addr + len then false
  else if m.maxAddr < addr + len then false
  else m.mappings.all fun r => ¬ (addr < r.stop ∧ r.addr < addr + len)

/-- Give the first region with this address and length another length. -/
def extendFirst (addr oldLen newLen : ℕ) : List MappedRegion → List MappedRegion
  | [] => []
  | r :: rest =>
    if r.addr = addr ∧ r.len = oldLen then { r with len := newLen } :: rest
    else r :: extendFirst addr oldLen newLen rest

def extendMapping (m : MemoryManager) (addr oldLen newLen : ℕ) : MemoryManager :=
  { m with mappings := extendFirst addr oldLen newLen m.mappings }

/-- Lower the ceiling; it is never raised. -/
def setMaxAddr (m : MemoryManager) (addr : ℕ) : MemoryManager :=
  if addr < m.maxAddr then { m with maxAddr := addr } else m

/-! ### Well-kept lists -/

/-- A list of regions is sorted by address, and its regions are pairwise disjoint and not
empty. -/
structure Tidy (l : List MappedRegion) : Prop where
  sorted : l.Pairwise fun r s => r.addr < s.addr
  disjoint : l.Pairwise fun r s => ∀ b, ¬ (regions.Covers r b ∧ regions.Covers s b)
  nonempty : ∀ r ∈ l, ∃ b, regions.Covers r b

variable {m : MemoryManager} {l : List MappedRegion} {r : MappedRegion} {b : ℕ}
  {attrs : UInt32 × UInt32}

/-- A tidy list is sorted and has no empty region. -/
theorem tidy_iff : Tidy l ↔ regions.Sorted l ∧ regions.Solid l := by
  constructor
  · intro h
    have hsolid : regions.Solid l := fun r hr =>
      let ⟨b, hb⟩ := h.nonempty r hr
      hb.1.trans_lt hb.2
    refine ⟨?_, hsolid⟩
    refine List.Pairwise.imp_of_mem ?_ (h.sorted.and h.disjoint)
    intro r s _ hs hrs
    by_contra hlt
    exact hrs.2 s.addr ⟨⟨hrs.1.le, not_le.mp hlt⟩, le_refl _, hsolid s hs⟩
  rintro ⟨hsorted, hsolid⟩
  refine ⟨?_, ?_, fun r hr => ⟨r.addr, le_refl _, hsolid r hr⟩⟩
  · refine List.Pairwise.imp_of_mem ?_ hsorted
    intro r s hr _ hle
    exact (hsolid r hr).trans_le hle
  refine hsorted.imp ?_
  rintro r s hle b ⟨hr, hs⟩
  exact absurd (hr.2.trans_le hle) hs.1.not_gt

/-! ### Unmapping -/

/-- Where the part before a cut ends. -/
theorem stop_cut {addr : ℕ} (hlo : r.addr < addr) (hhi : addr < r.stop) :
    ({ r with len := addr - r.addr } : MappedRegion).stop = addr := by
  have hmax := r.stop_le
  simp only [stop, saturatingAdd]
  omega

/-- Where the part after it does. -/
theorem stop_rest {unmapEnd : ℕ} (hhi : unmapEnd < r.stop) :
    ({ r with addr := unmapEnd, len := r.stop - unmapEnd } : MappedRegion).stop = r.stop := by
  have hmax := r.stop_le
  show saturatingAdd unmapEnd (r.stop - unmapEnd) = r.stop
  rw [saturatingAdd, Nat.add_sub_cancel' hhi.le, min_eq_left hmax]

/-- The remnants of a region hold its bytes outside the unmapped addresses. -/
theorem holds_remnants (r : MappedRegion) (addr unmapEnd b : ℕ) (attrs : UInt32 × UInt32) :
    regions.Holds (r.remnants addr unmapEnd) b attrs ↔
      (regions.Covers r b ∧ regions.val r = attrs) ∧ ¬ (addr ≤ b ∧ b < unmapEnd) := by
  rw [remnants]
  by_cases hclear : r.stop ≤ addr ∨ unmapEnd ≤ r.addr
  · rw [if_pos hclear, holds_cons, or_iff_left holds_nil]
    refine ⟨fun h => ⟨h, ?_⟩, And.left⟩
    rintro ⟨hlo, hhi⟩
    have hcov : r.addr ≤ b ∧ b < r.stop := h.1
    omega
  rw [if_neg hclear, holds_append]
  have hleft : regions.Holds (if r.addr < addr then [{ r with len := addr - r.addr }] else [])
      b attrs ↔ (regions.Covers r b ∧ regions.val r = attrs) ∧ b < addr := by
    by_cases hlt : r.addr < addr
    · rw [if_pos hlt, holds_cons, or_iff_left holds_nil]
      have hstop := stop_cut hlt (by omega : addr < r.stop)
      show ((r.addr ≤ b ∧ b < stop _) ∧ (r.prot, r.flags) = attrs) ↔
        ((r.addr ≤ b ∧ b < r.stop) ∧ (r.prot, r.flags) = attrs) ∧ b < addr
      have hin : b < addr → b < r.stop := by omega
      rw [hstop]
      tauto
    rw [if_neg hlt]
    refine iff_of_false holds_nil ?_
    rintro ⟨⟨⟨hlo, -⟩, -⟩, hb⟩
    have hlo : r.addr ≤ b := hlo
    omega
  have hright : regions.Holds
      (if unmapEnd < r.stop then [{ r with addr := unmapEnd, len := r.stop - unmapEnd }] else [])
      b attrs ↔ (regions.Covers r b ∧ regions.val r = attrs) ∧ unmapEnd ≤ b := by
    by_cases hlt : unmapEnd < r.stop
    · rw [if_pos hlt, holds_cons, or_iff_left holds_nil]
      have hstop := stop_rest hlt
      show ((unmapEnd ≤ b ∧ b < stop _) ∧ (r.prot, r.flags) = attrs) ↔
        ((r.addr ≤ b ∧ b < r.stop) ∧ (r.prot, r.flags) = attrs) ∧ unmapEnd ≤ b
      have hin : unmapEnd ≤ b → r.addr ≤ b := by omega
      rw [hstop]
      tauto
    rw [if_neg hlt]
    refine iff_of_false holds_nil ?_
    rintro ⟨⟨⟨-, hhi⟩, -⟩, hb⟩
    have hhi : b < r.stop := hhi
    omega
  rw [hleft, hright, ← and_or_left, not_and_or, not_le, not_lt]

/-- A remnant is the region itself, its part below the unmapped addresses or its part above
them. -/
theorem mem_remnants {s : MappedRegion} {addr unmapEnd : ℕ} (hs : s ∈ r.remnants addr unmapEnd) :
    s = r ∨ (r.addr < addr ∧ addr < r.stop ∧ s = { r with len := addr - r.addr }) ∨
      (r.addr < unmapEnd ∧ unmapEnd < r.stop ∧
        s = { r with addr := unmapEnd, len := r.stop - unmapEnd }) := by
  rw [remnants] at hs
  split at hs
  · exact .inl (List.mem_singleton.mp hs)
  rename_i hclear
  rcases List.mem_append.mp hs with hs | hs
  · split at hs
    · rename_i hlt
      exact .inr (.inl ⟨hlt, by omega, List.mem_singleton.mp hs⟩)
    · cases hs
  split at hs
  · rename_i hlt
    exact .inr (.inr ⟨by omega, hlt, List.mem_singleton.mp hs⟩)
  · cases hs

/-- The remnants of a region are parts of it, and none is empty. -/
theorem remnant_within {s : MappedRegion} {addr unmapEnd : ℕ} (hr : r.addr < r.stop)
    (hs : s ∈ r.remnants addr unmapEnd) : r.addr ≤ s.addr ∧ s.addr < s.stop ∧ s.stop ≤ r.stop := by
  rcases mem_remnants hs with rfl | ⟨hlo, hhi, rfl⟩ | ⟨hlo, hhi, rfl⟩
  · exact ⟨le_refl _, hr, le_refl _⟩
  · rw [stop_cut hlo hhi]
    exact ⟨le_refl _, hlo, hhi.le⟩
  · rw [stop_rest hhi]
    exact ⟨hlo.le, hhi, le_refl _⟩

/-- The left remnant ends before the right one starts. -/
theorem sorted_remnants (r : MappedRegion) (addr len : ℕ) :
    regions.Sorted (r.remnants addr (saturatingAdd addr len)) := by
  have hmax := r.stop_le
  rw [remnants]
  split
  · exact List.pairwise_singleton _ _
  rename_i hclear
  have hle : addr ≤ saturatingAdd addr len := by
    simp only [saturatingAdd]
    omega
  split
  · rename_i hlt
    split
    · refine List.pairwise_pair.mpr ?_
      show stop _ ≤ saturatingAdd addr len
      rwa [stop_cut hlt (by omega)]
    · exact List.pairwise_singleton _ _
  split
  · exact List.pairwise_singleton _ _
  · exact List.Pairwise.nil

/-- What unmapping leaves. -/
theorem munmap_of_pos {addr len : ℕ} (hlen : 0 < len) :
    m.munmap addr len =
      (m.mappings.any fun r => ¬ (r.stop ≤ addr ∨ saturatingAdd addr len ≤ r.addr),
        { m with mappings := m.mappings.flatMap (·.remnants addr (saturatingAdd addr len)) }) :=
  if_neg hlen.ne'

/-- No region covers an address that the saturating addition cannot reach. -/
theorem lt_saturatingAdd_iff {addr len : ℕ} (hb : b < USIZE_MAX) :
    b < saturatingAdd addr len ↔ b < addr + len := by
  rw [saturatingAdd, lt_min_iff, and_iff_left hb]

/-- What is covered is an address. -/
theorem lt_max_of_covers (h : regions.Covers r b) : b < USIZE_MAX := h.2.trans_le r.stop_le

/-- **Unmapping is set difference.** -/
theorem holds_munmap (addr len : ℕ) : (m.munmap addr len).2.MappedAs b attrs ↔
      m.MappedAs b attrs ∧ ¬ (addr ≤ b ∧ b < addr + len) := by
  rcases Nat.eq_zero_or_pos len with rfl | hlen
  · exact (and_iff_left fun h => absurd (h.1.trans_lt h.2) (lt_irrefl addr)).symm
  rw [munmap_of_pos hlen]
  refine (holds_flatMap (P := fun b => ¬ (addr ≤ b ∧ b < saturatingAdd addr len))
    fun r _ b attrs => holds_remnants r addr _ b attrs).trans (and_congr_right ?_)
  rintro ⟨r, -, hr, -⟩
  rw [lt_saturatingAdd_iff (lt_max_of_covers hr)]

/-- Unmapping keeps a list tidy. -/
theorem tidy_munmap (addr len : ℕ) (h : Tidy m.mappings) : Tidy (m.munmap addr len).2.mappings := by
  rcases Nat.eq_zero_or_pos len with rfl | hlen
  · exact h
  obtain ⟨hsorted, hsolid⟩ := tidy_iff.mp h
  rw [munmap_of_pos hlen]
  refine tidy_iff.mpr ⟨hsorted.flatMap ?_ fun r _ => sorted_remnants r addr len, ?_⟩
  · intro r hr s hs
    obtain ⟨hlo, -, hhi⟩ := remnant_within (hsolid r hr) hs
    exact ⟨hlo, hhi⟩
  intro s hs
  obtain ⟨r, hr, hs⟩ := List.mem_flatMap.mp hs
  exact (remnant_within (hsolid r hr) hs).2.1

/-- An unmapping reports whether it removed a byte. -/
theorem munmap_found {addr len : ℕ} (h : Tidy m.mappings) (hlen : 0 < len) :
    (m.munmap addr len).1 = true ↔ ∃ b, m.Mapped b ∧ addr ≤ b ∧ b < addr + len := by
  obtain ⟨-, hsolid⟩ := tidy_iff.mp h
  rw [munmap_of_pos hlen]
  simp only [List.any_eq_true, decide_eq_true_eq]
  constructor
  · rintro ⟨r, hr, hmeets⟩
    have hmeets : regions.Meets r addr (saturatingAdd addr len) := by
      rw [not_or, not_le, not_le] at hmeets
      exact hmeets.symm
    have hpos : addr < saturatingAdd addr len := by
      have hmax := r.stop_le
      simp only [saturatingAdd]
      omega
    obtain ⟨b, hb, hlo, hhi⟩ := exists_covers_of_meets hmeets (hsolid r hr) hpos
    exact ⟨b, ⟨_, r, hr, hb, rfl⟩, hlo, (lt_saturatingAdd_iff (lt_max_of_covers hb)).mp hhi⟩
  rintro ⟨b, ⟨_, r, hr, hb, -⟩, hlo, hhi⟩
  have hmeets := hb.meets hlo ((lt_saturatingAdd_iff (lt_max_of_covers hb)).mpr hhi)
  refine ⟨r, hr, ?_⟩
  rw [not_or, not_le, not_le]
  exact hmeets.symm

/-- **Unmapping** a range of a sorted list of disjoint regions, none empty. -/
theorem munmap_exact {addr len : ℕ} (h : Tidy m.mappings) (hlen : 0 < len) :
    (∀ b attrs, (m.munmap addr len).2.MappedAs b attrs ↔
      m.MappedAs b attrs ∧ ¬ (addr ≤ b ∧ b < addr + len)) ∧
    ((m.munmap addr len).1 = true ↔ ∃ b, m.Mapped b ∧ addr ≤ b ∧ b < addr + len) ∧
    Tidy (m.munmap addr len).2.mappings :=
  ⟨fun _ _ => holds_munmap addr len, munmap_found h hlen, tidy_munmap addr len h⟩

/-- Cutting a page out of the middle of a region of three pages. -/
theorem munmap_exact_middle :
    let m : MemoryManager := { new with mappings := [⟨0x4000000, 0x30000, 3, 0x22⟩] }
    (m.munmap 0x4010000 0x10000).2.mappings =
      [⟨0x4000000, 0x10000, 3, 0x22⟩, ⟨0x4020000, 0x10000, 3, 0x22⟩] ∧
    ((m.munmap 0x4010000 0x10000).1 = true ↔
      ∃ b, m.Mapped b ∧ 0x4010000 ≤ b ∧ b < 0x4010000 + 0x10000) := by
  intro m
  have htidy : Tidy m.mappings := by
    refine ⟨List.pairwise_singleton _ _, List.pairwise_singleton _ _, ?_⟩
    intro r hr
    obtain rfl := List.mem_singleton.mp hr
    exact ⟨0x4000000, by decide⟩
  exact ⟨by decide, (munmap_exact htidy (by decide)).2.1⟩

/-- A list of one empty region is sorted and disjoint, but an unmapping around the region
reports a removal although no byte was mapped. -/
theorem munmap_around_empty :
    let m : MemoryManager := { new with mappings := [⟨0x4010000, 0, 3, 0x22⟩] }
    m.mappings.Pairwise (fun r s => r.addr < s.addr) ∧
    m.mappings.Pairwise (fun r s => ∀ b, ¬ (regions.Covers r b ∧ regions.Covers s b)) ∧
    (m.munmap 0x4000000 0x20000).1 = true ∧ ∀ b, ¬ m.Mapped b := by
  intro m
  refine ⟨List.pairwise_singleton _ _, List.pairwise_singleton _ _, by decide, ?_⟩
  rintro b ⟨_, r, hr, hb, -⟩
  obtain rfl := List.mem_singleton.mp hr
  exact absurd (hb.1.trans_lt hb.2) (by decide)

/-! ### Gaps -/

section Gap

variable {maxAddr needed cursor addr : ℕ}

variable (h : findGapFrom maxAddr needed l cursor = some addr)

include h

/-- **What a gap is.** It does not lie before the cursor; it starts at the cursor or where a
region ends, and ends below the ceiling or where a region starts. -/
theorem findGapFrom_spec : cursor ≤ addr ∧ (addr = cursor ∨ ∃ r ∈ l, addr = r.stop) ∧
    (saturatingAdd addr needed ≤ maxAddr ∨ ∃ r ∈ l, addr + needed ≤ r.addr) := by
  induction l generalizing cursor with
  | nil =>
    rw [findGapFrom] at h
    split at h
    · rename_i hle
      cases h
      exact ⟨le_refl _, .inl rfl, .inl hle⟩
    · cases h
  | cons r l ih =>
    simp only [List.exists_mem_cons_iff]
    rw [findGapFrom] at h
    split at h
    · obtain ⟨hle, hstart, hend⟩ := ih h
      exact ⟨hle, hstart.imp_right .inr, hend.imp_right .inr⟩
    split at h
    · cases h
      exact ⟨le_refl _, .inl rfl, .inr (.inl (by omega))⟩
    obtain ⟨hle, hstart, hend⟩ := ih h
    refine ⟨(le_max_left _ _).trans hle, ?_, hend.imp_right .inr⟩
    rcases hstart with heq | hmem
    · rcases max_choice cursor r.stop with hmax | hmax
      · exact .inl (heq.trans hmax)
      · exact .inr (.inl (heq.trans hmax))
    · exact .inr (.inr hmem)

/-- The search never goes back. -/
theorem le_findGapFrom : cursor ≤ addr := (findGapFrom_spec h).1

omit h

/-- A gap overlaps no region of a sorted list, if the regions that the search passes over
end before the cursor. -/
theorem findGapFrom_free (hsorted : regions.Sorted l) (hsolid : regions.Solid l)
    (hlow : ∀ r ∈ l, r.addr < MMAP_BASE → r.stop ≤ cursor)
    (h : findGapFrom maxAddr needed l cursor = some addr) :
    ∀ r ∈ l, r.stop ≤ addr ∨ addr + needed ≤ r.addr := by
  induction l generalizing cursor with
  | nil => exact fun r hr => absurd hr List.not_mem_nil
  | cons s l ih =>
    obtain ⟨hfirst, hrest⟩ := List.pairwise_cons.mp hsorted
    have hlow' : ∀ r ∈ l, r.addr < MMAP_BASE → r.stop ≤ cursor := fun r hr =>
      hlow r (List.mem_cons_of_mem _ hr)
    have hsolid' : regions.Solid l := fun r hr => hsolid r (List.mem_cons_of_mem _ hr)
    have hs := hsolid s List.mem_cons_self
    rw [findGapFrom] at h
    intro r hr
    split at h
    · rename_i hbase
      rcases List.mem_cons.mp hr with rfl | hr
      · exact .inl ((hlow r List.mem_cons_self hbase).trans (le_findGapFrom h))
      · exact ih hrest hsolid' hlow' h r hr
    split at h
    · rename_i hgap
      cases h
      right
      have hstart : s.addr ≤ r.addr := by
        rcases List.mem_cons.mp hr with rfl | hr
        · exact le_refl _
        · exact hs.le.trans (hfirst r hr)
      omega
    rcases List.mem_cons.mp hr with rfl | hr
    · exact .inl ((le_max_right _ _).trans (le_findGapFrom h))
    · refine ih hrest hsolid' ?_ h r hr
      exact fun t ht hbase => (hlow' t ht hbase).trans (le_max_left _ _)

end Gap

/-! ### Placing a region -/

/-- What is in the list after an insertion. -/
theorem mem_insertSorted {s : MappedRegion} :
    s ∈ (m.insertSorted r).mappings ↔ s = r ∨ s ∈ m.mappings := by
  have hsplit : s ∈ m.mappings ↔
      s ∈ m.mappings.takeWhile (·.addr < r.addr) ∨ s ∈ m.mappings.dropWhile (·.addr < r.addr) := by
    rw [← List.mem_append, List.takeWhile_append_dropWhile]
  rw [hsplit, insertSorted, List.mem_append, List.mem_cons]
  exact or_left_comm

/-- What is mapped after it. -/
theorem holds_insertSorted : (m.insertSorted r).MappedAs b attrs ↔
      (regions.Covers r b ∧ regions.val r = attrs) ∨ m.MappedAs b attrs := by
  rw [MappedAs, MappedAs, ← holds_cons]
  exact holds_congr fun s => mem_insertSorted.trans List.mem_cons.symm

/-- What a mapping request can do. -/
inductive Placement (m : MemoryManager) (hint len : ℕ) (prot flags : UInt32) :
    ℕ × MemoryManager → Prop
  | failed : Placement m hint len prot flags (MAP_FAILED, m)
  | fixed (hhint : hint ≠ 0) (hflag : hasFlag flags MAP_FIXED = true) (hlen : 0 < len)
      (hstop : saturatingAdd hint (pageCeil len) ≤ m.maxAddr) :
      Placement m hint len prot flags
        (hint, (m.retainClear hint (saturatingAdd hint (pageCeil len))).insertSorted
          ⟨hint, pageCeil len, prot, flags⟩)
  | gap {addr : ℕ} (hfree : ¬ (hint ≠ 0 ∧ hasFlag flags MAP_FIXED = true)) (hlen : 0 < len)
      (hgap : m.findGap (pageCeil len) = some addr) :
      Placement m hint len prot flags (addr, m.insertSorted ⟨addr, pageCeil len, prot, flags⟩)

/-- **What a mapping request does.** -/
theorem placement_mmapAnonymous (m : MemoryManager) (hint len : ℕ) (prot flags : UInt32) :
    Placement m hint len prot flags (m.mmapAnonymous hint len prot flags) := by
  rw [mmapAnonymous]
  split
  · exact .failed
  rename_i hlen
  split
  · exact .failed
  dsimp only
  split
  · rename_i hfixed
    split
    · exact .failed
    · rename_i hstop
      exact .fixed hfixed.1 hfixed.2 (Nat.pos_of_ne_zero hlen) (not_lt.mp hstop)
  rename_i hfree
  split
  · exact .failed
  · rename_i hgap
    exact .gap hfree (Nat.pos_of_ne_zero hlen) hgap

/-! ### Fixed placement -/

/-- Every byte outside the addresses from `lo` up to `hi` is mapped as before. -/
def KeepsOutside (m m' : MemoryManager) (lo hi : ℕ) : Prop :=
  ∀ b attrs, ¬ (lo ≤ b ∧ b < hi) → (m'.MappedAs b attrs ↔ m.MappedAs b attrs)

/-- What sticks out of a range, of the regions that overlap it, is also mapped by regions
that do not. -/
def OverhangsCovered (m : MemoryManager) (lo hi : ℕ) : Prop :=
  ∀ r ∈ m.mappings, regions.Meets r lo hi → ∀ b, regions.Covers r b → ¬ (lo ≤ b ∧ b < hi) →
    ∃ s ∈ m.mappings, ¬ regions.Meets s lo hi ∧ regions.Covers s b ∧
      regions.val s = regions.val r

/-- What is mapped where a range was cleared. -/
theorem holds_retainClear {lo hi : ℕ} : (m.retainClear lo hi).MappedAs b attrs ↔
      ∃ r ∈ m.mappings, ¬ regions.Meets r lo hi ∧ regions.Covers r b ∧ regions.val r = attrs := by
  have hkeep : ∀ r : MappedRegion, (r.stop ≤ lo ∨ hi ≤ r.addr) ↔ ¬ regions.Meets r lo hi := by
    intro r
    rw [Layout.Meets, not_and_or, not_lt, not_lt, or_comm]
    rfl
  constructor
  · rintro ⟨r, hr, hb⟩
    obtain ⟨hr, hclear⟩ := List.mem_filter.mp hr
    exact ⟨r, hr, (hkeep r).mp (of_decide_eq_true hclear), hb⟩
  · rintro ⟨r, hr, hclear, hb⟩
    exact ⟨r, List.mem_filter.mpr ⟨hr, decide_eq_true ((hkeep r).mpr hclear)⟩, hb⟩

/-- For a region that covers a byte, the saturated end of a range tells as much as its
end. -/
theorem meets_saturatingAdd_iff {hint len : ℕ} (h : regions.Covers r b) :
    regions.Meets r hint (saturatingAdd hint len) ↔ regions.Meets r hint (hint + len) :=
  and_congr_left fun _ => lt_saturatingAdd_iff (h.1.trans_lt (lt_max_of_covers h))

/-- **The frame of a fixed mapping.** A fixed mapping drops every region that overlaps its
range, so it keeps the bytes outside exactly if nothing sticks out. -/
theorem mmapFixed_keepsOutside_iff {hint len : ℕ} {prot flags : UInt32}
    (hflag : hasFlag flags MAP_FIXED = true) (hfailed : hint ≠ MAP_FAILED)
    (hok : (m.mmapAnonymous hint len prot flags).1 = hint) :
    m.KeepsOutside (m.mmapAnonymous hint len prot flags).2 hint (hint + pageCeil len) ↔
      m.OverhangsCovered hint (hint + pageCeil len) := by
  have hplaced := placement_mmapAnonymous m hint len prot flags
  generalize m.mmapAnonymous hint len prot flags = res at hok hplaced ⊢
  cases hplaced with
  | failed => exact absurd hok.symm hfailed
  | gap hfree hlen hgap =>
    -- without a hint the request is not fixed, and a gap does not start at zero
    have hbase : MMAP_BASE ≤ hint := hok ▸ le_findGapFrom hgap
    exact absurd ⟨(lt_of_lt_of_le (by decide) hbase).ne', hflag⟩ hfree
  | fixed =>
    -- outside the range the list holds what the regions clear of the range hold
    have hafter : ∀ b attrs, ¬ (hint ≤ b ∧ b < hint + pageCeil len) →
        (((m.retainClear hint (saturatingAdd hint (pageCeil len))).insertSorted
          ⟨hint, pageCeil len, prot, flags⟩).MappedAs b attrs ↔
        ∃ r ∈ m.mappings, ¬ regions.Meets r hint (hint + pageCeil len) ∧
          regions.Covers r b ∧ regions.val r = attrs) := by
      intro b attrs hout
      rw [holds_insertSorted, holds_retainClear, or_iff_right]
      · refine exists_congr fun r => and_congr_right fun _ => and_congr_left ?_
        rintro ⟨hb, -⟩
        rw [meets_saturatingAdd_iff hb]
      · rintro ⟨hb, -⟩
        exact hout ⟨hb.1, (lt_saturatingAdd_iff (lt_max_of_covers hb)).mp hb.2⟩
    constructor
    · intro hkeep r hr _ b hb hout
      exact (hafter b _ hout).mp ((hkeep b _ hout).mpr ⟨r, hr, hb, rfl⟩)
    intro hcov b attrs hout
    rw [hafter b attrs hout]
    constructor
    · rintro ⟨r, hr, -, hb⟩
      exact ⟨r, hr, hb⟩
    rintro ⟨r, hr, hb, rfl⟩
    by_cases hmeets : regions.Meets r hint (hint + pageCeil len)
    · exact hcov r hr hmeets b hb hout
    · exact ⟨r, hr, hmeets, hb, rfl⟩

/-- Mapping a region anew, at its own address and length, leaves the rest alone. -/
theorem mmapFixed_over_itself :
    let m := (new.mmapAnonymous 0 0x30000 3 0x22).2
    (m.mmapAnonymous 0x4000000 0x30000 1 0x32).1 = 0x4000000 ∧
    m.KeepsOutside (m.mmapAnonymous 0x4000000 0x30000 1 0x32).2 0x4000000
      (0x4000000 + pageCeil 0x30000) := by
  intro m
  have hok : (m.mmapAnonymous 0x4000000 0x30000 1 0x32).1 = 0x4000000 := by decide
  have hone : m.mappings = [⟨0x4000000, 0x30000, 3, 0x22⟩] := by decide
  refine ⟨hok, (mmapFixed_keepsOutside_iff (by decide) (by decide) hok).mpr ?_⟩
  intro r hr _ b hb hout
  rw [hone] at hr
  obtain rfl := List.mem_singleton.mp hr
  exact absurd hb hout

/-- A fixed mapping of the middle page of three unmaps the other two. -/
theorem mmapFixed_drops_neighbours :
    let m := (new.mmapAnonymous 0 0x30000 3 0x22).2
    let m' := (m.mmapAnonymous 0x4010000 0x10000 3 0x32).2
    (m.mmapAnonymous 0x4010000 0x10000 3 0x32).1 = 0x4010000 ∧
    (m.MappedAs 0x4000000 (3, 0x22) ∧ m.MappedAs 0x4020000 (3, 0x22)) ∧
    ¬ m'.Mapped 0x4000000 ∧ ¬ m'.Mapped 0x4020000 := by
  intro m m'
  have hmem : ⟨0x4000000, 0x30000, 3, 0x22⟩ ∈ m.mappings := by decide
  have hone : m'.mappings = [⟨0x4010000, 0x10000, 3, 0x32⟩] := by decide
  have hgone : ∀ b, ¬ (0x4010000 ≤ b ∧ b < 0x4020000) → ¬ m'.Mapped b := by
    rintro b hout ⟨_, r, hr, hb, -⟩
    rw [hone] at hr
    obtain rfl := List.mem_singleton.mp hr
    exact hout hb
  exact ⟨by decide, ⟨⟨_, hmem, by decide, rfl⟩, ⟨_, hmem, by decide, rfl⟩⟩,
    hgone _ (by decide), hgone _ (by decide)⟩

end MemoryManager

end PosixKernel
