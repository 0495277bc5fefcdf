import PosixKernel.Lib.Runs
import PosixKernel.MemoryCalls

/-!
# Runs of Memory Calls

A process makes memory calls, and the host lowers the ceiling of its address space. Two
properties of the mapping list are carried through such runs: its shape, and that nothing
lies above the ceiling.

## Main results

* `mappings_paged_run` — the mapping list is sorted, disjoint and made of whole pages after
  every run of page-wise calls;
* `mmap_below_ceiling_run` — mappings without a fixed address lie below the ceiling, if the
  ceiling was never lowered below a mapping.
-/

namespace PosixKernel

open MemoryManager

/-- A request that concerns the memory of a process: a call, or the host lowering the
ceiling. -/
inductive MemCall
  | mmap (addr len : ℕ) (prot flags : UInt32) (fd : ℤ)
  | munmap (addr len : ℕ)
  | mremap (oldAddr oldLen newLen : ℕ) (flags : UInt32)
  | brk (addr : ℕ)
  | setMaxAddr (addr : ℕ)

/-- The state after a request. -/
def MemCall.perform (c : Ctx) : MemCall → Ctx
  | .mmap addr len prot flags fd => { c with proc := (sysMmap c.proc addr len prot flags fd).2 }
  | .munmap addr len => (sysMunmap c addr len).2
  | .mremap oldAddr oldLen newLen flags =>
      { c with proc := (sysMremap c.proc oldAddr oldLen newLen flags).2 }
  | .brk addr => { c with proc := (sysBrk c.proc addr).2 }
  | .setMaxAddr addr => c.updProc fun p => { p with memory := p.memory.setMaxAddr addr }

/-! ### What a request does to the memory -/

/-- What a request can do to the memory manager. -/
inductive MemStep (m : MemoryManager) : MemCall → MemoryManager → Prop
  | same (call : MemCall) : MemStep m call m
  | mapped {addr len : ℕ} {prot flags : UInt32} {fd : ℤ} {placed : ℕ × MemoryManager}
      (h : Placement m addr len prot (flags ||| MAP_ANONYMOUS) placed) :
      MemStep m (.mmap addr len prot flags fd) placed.2
  | unmapped {addr len : ℕ} (hpage : addr % PAGE_SIZE = 0) (hend : addr + len ≤ USIZE_MAX) :
      MemStep m (.munmap addr len) (m.munmap addr len).2
  | remapped {oldAddr oldLen newLen : ℕ} {flags : UInt32} {res : Except Errno ℕ}
      {m' : MemoryManager} (h : RemapOutcome m oldAddr oldLen newLen res m') :
      MemStep m (.mremap oldAddr oldLen newLen flags) m'
  | moved {addr b : ℕ} : MemStep m (.brk addr) { m with programBreak := b }
  | lowered {addr : ℕ} : MemStep m (.setMaxAddr addr) (m.setMaxAddr addr)

/-- A mapping is refused, or places a region and may bind the framebuffer to it. -/
theorem sysMmap_cases (p : Process) (addr len : ℕ) (prot flags : UInt32) (fd : ℤ) :
    (∃ e, sysMmap p addr len prot flags fd = (.error e, p)) ∨
    (sysMmap p addr len prot flags fd).1 = (mmapRegion p addr len prot flags).1 ∧
      (sysMmap p addr len prot flags fd).2.memory =
        (mmapRegion p addr len prot flags).2.memory := by
  rw [sysMmap]
  split
  · exact .inr ⟨rfl, rfl⟩
  split
  · exact .inl ⟨_, rfl⟩
  split
  · exact .inl ⟨_, rfl⟩
  split
  · exact .inl ⟨_, rfl⟩
  split
  · split
    · exact .inl ⟨_, rfl⟩
    split
    · exact .inl ⟨_, rfl⟩
    split
    all_goals
      rename_i h
      rw [h]
      exact .inr ⟨rfl, rfl⟩
  · exact .inr ⟨rfl, rfl⟩

/-- **What a request does to the memory.** -/
theorem memStep_perform {c : Ctx} (hm : c.proc.memory.InRange) (call : MemCall) :
    MemStep c.proc.memory call (call.perform c).proc.memory := by
  cases call with
  | mmap addr len prot flags fd =>
    show MemStep _ _ (sysMmap c.proc addr len prot flags fd).2.memory
    rcases sysMmap_cases c.proc addr len prot flags fd with ⟨e, heq⟩ | ⟨-, heq⟩
    · rw [heq]
      exact .same _
    · rw [heq]
      exact .mapped (placement_mmapAnonymous c.proc.memory addr len prot (flags ||| MAP_ANONYMOUS))
  | munmap addr len =>
    show MemStep _ _ (sysMunmap c addr len).2.proc.memory
    rw [sysMunmap]
    split
    · exact .same _
    split
    · exact .same _
    rename_i hpage
    split
    · exact .same _
    rename_i hend
    have hunmapped := MemStep.unmapped (m := c.proc.memory) (not_not.mp hpage)
      (not_lt.mp hend)
    dsimp only
    split
    · split <;> exact hunmapped
    · exact hunmapped
  | mremap oldAddr oldLen newLen flags =>
    exact .remapped (remapOutcome_mremap hm oldAddr oldLen newLen flags)
  | brk addr =>
    show MemStep _ _ (sysBrk c.proc addr).2.memory
    rw [sysBrk]
    split
    · exact .same _
    rw [setBrk]
    split
    · exact .same _
    split
    · exact .same _
    split
    · exact .same _
    · exact .moved
  | setMaxAddr => exact .lowered

/-! ### Whole pages -/

/-- A region of whole pages below the initial ceiling, on one side of the mapping base. -/
structure MappedRegion.OnPages (r : MappedRegion) : Prop where
  start : r.addr % PAGE_SIZE = 0
  pages : r.len % PAGE_SIZE = 0
  pos : 0 < r.len
  below : r.addr + r.len ≤ DEFAULT_MAX_ADDR
  side : r.addr < MMAP_BASE → r.addr + r.len ≤ MMAP_BASE

namespace MappedRegion.OnPages

variable {r s : MappedRegion}

/-- A region on pages does not wrap around. -/
theorem stop (h : r.OnPages) : r.stop = r.addr + r.len := by
  have hbelow := h.below
  rw [MappedRegion.stop, saturatingAdd, min_eq_left]
  rw [USIZE_MAX]
  rw [DEFAULT_MAX_ADDR] at hbelow
  omega

/-- Nor is it empty. -/
theorem solid (h : r.OnPages) : r.addr < r.stop := by
  have hpos := h.pos
  rw [h.stop]
  omega

/-- Cuts at page boundaries leave whole pages. -/
theorem remnant (h : r.OnPages) {addr unmapEnd : ℕ} (hpage : addr % PAGE_SIZE = 0)
    (hcut : r.addr < unmapEnd → unmapEnd < r.stop → unmapEnd % PAGE_SIZE = 0)
    (hs : s ∈ r.remnants addr unmapEnd) : s.OnPages := by
  have hstop := h.stop
  obtain ⟨hstart, hpages, hpos, hbelow, hside⟩ := h
  rw [PAGE_SIZE] at *
  rcases mem_remnants hs with rfl | ⟨hlo, hhi, rfl⟩ | ⟨hlo, hhi, rfl⟩
  · exact ⟨hstart, hpages, hpos, hbelow, hside⟩
  all_goals constructor <;> dsimp only [PAGE_SIZE] <;> omega

end MappedRegion.OnPages

namespace MemoryManager

/-- The mapping list is sorted and made of whole pages. -/
structure Paged (m : MemoryManager) : Prop where
  sorted : regions.Sorted m.mappings
  onPages : ∀ r ∈ m.mappings, r.OnPages
  ceiling : m.maxAddr ≤ DEFAULT_MAX_ADDR

namespace Paged

variable {m : MemoryManager}

/-- No mappings are on pages. -/
theorem new : MemoryManager.new.Paged :=
  ⟨List.Pairwise.nil, fun _ hr => absurd hr List.not_mem_nil, le_refl _⟩

variable (h : m.Paged)

include h

/-- No mapping of a paged list is empty. -/
theorem solid : regions.Solid m.mappings := fun r hr => (h.onPages r hr).solid

/-- A paged list is tidy. -/
theorem tidy : Tidy m.mappings := tidy_iff.mpr ⟨h.sorted, h.solid⟩

/-- A paged list stays in the range of addresses. -/
theorem inRange : m.InRange := by
  refine ⟨fun r hr => ?_, h.ceiling⟩
  have hbelow := (h.onPages r hr).below
  rw [DEFAULT_MAX_ADDR] at hbelow
  rw [USIZE_MAX]
  omega

/-- Unmapping keeps the list paged when it cuts on a page. -/
theorem munmap {addr len : ℕ} (hpage : addr % PAGE_SIZE = 0)
    (hcut : ∀ r ∈ m.mappings, r.addr < saturatingAdd addr len →
      saturatingAdd addr len < r.stop → saturatingAdd addr len % PAGE_SIZE = 0) :
    (m.munmap addr len).2.Paged := by
  have hsorted := (tidy_iff.mp (tidy_munmap addr len h.tidy)).1
  refine ⟨hsorted, ?_, ?_⟩
  · rcases Nat.eq_zero_or_pos len with rfl | hlen
    · exact h.onPages
    rw [munmap_of_pos hlen]
    intro s hs
    obtain ⟨r, hr, hs⟩ := List.mem_flatMap.mp hs
    exact (h.onPages r hr).remnant hpage (hcut r hr) hs
  · rw [MemoryManager.munmap]
    split <;> exact h.ceiling

/-- Unmapping whole pages. An end inside a region lies far below the top, where the addition
does not saturate. -/
theorem munmap_pages {addr len : ℕ} (hpage : addr % PAGE_SIZE = 0) (hlen : len % PAGE_SIZE = 0) :
    (m.munmap addr len).2.Paged := by
  refine h.munmap hpage fun r hr _ hlt => ?_
  have hbelow := (h.onPages r hr).below
  rw [(h.onPages r hr).stop] at hlt
  simp only [saturatingAdd, PAGE_SIZE, USIZE_MAX, DEFAULT_MAX_ADDR] at *
  omega

/-- So does putting in a region on pages that overlaps none. -/
theorem insertSorted {r : MappedRegion} (hr : r.OnPages)
    (hfree : ∀ s ∈ m.mappings, s.stop ≤ r.addr ∨ r.stop ≤ s.addr) : (m.insertSorted r).Paged := by
  refine ⟨h.sorted.insert h.solid hr.solid hfree, ?_, h.ceiling⟩
  intro s hs
  rcases mem_insertSorted.mp hs with rfl | hs
  · exact hr
  · exact h.onPages s hs

/-- So does dropping what is not clear of a range. -/
theorem retainClear (lo hi : ℕ) : (m.retainClear lo hi).Paged :=
  ⟨h.sorted.sublist List.filter_sublist,
    fun r hr => h.onPages r (List.mem_filter.mp hr).1, h.ceiling⟩

/-- Regions below the mapping base end there, so the gap search may pass them over. -/
theorem gap_free {needed addr : ℕ} (hgap : m.findGap needed = some addr) :
    ∀ r ∈ m.mappings, r.stop ≤ addr ∨ addr + needed ≤ r.addr := by
  refine findGapFrom_free h.sorted h.solid ?_ hgap
  intro r hr hbase
  rw [(h.onPages r hr).stop]
  exact (h.onPages r hr).side hbase

/-- A region in a gap is on pages. -/
theorem gap_onPages {needed addr : ℕ} (hgap : m.findGap needed = some addr)
    (hpages : needed % PAGE_SIZE = 0) (hpos : 0 < needed) (prot flags : UInt32) :
    MappedRegion.OnPages ⟨addr, needed, prot, flags⟩ := by
  have hbase : MMAP_BASE ≤ addr := le_findGapFrom hgap
  refine ⟨?_, hpages, hpos, ?_, fun hlt => absurd hlt (not_lt.mpr hbase)⟩
  · rcases (findGapFrom_spec hgap).2.1 with rfl | ⟨r, hr, rfl⟩
    · show MMAP_BASE % PAGE_SIZE = 0
      decide
    have hr := h.onPages r hr
    rw [hr.stop, Nat.add_mod, hr.start, hr.pages]
    rfl
  have hstop := h.inRange.gap_stop hgap prot flags
  have hceiling := h.ceiling
  show addr + needed ≤ DEFAULT_MAX_ADDR
  rcases (findGapFrom_spec hgap).2.2 with hend | ⟨r, hr, hend⟩
  · exact hstop ▸ hend.trans hceiling
  · have hr := (h.onPages r hr).below
    omega

/-- So it may be put in. -/
theorem insert_gap {needed addr : ℕ} (hgap : m.findGap needed = some addr)
    (hpages : needed % PAGE_SIZE = 0) (hpos : 0 < needed) (prot flags : UInt32) :
    (m.insertSorted ⟨addr, needed, prot, flags⟩).Paged := by
  refine h.insertSorted (h.gap_onPages hgap hpages hpos prot flags) fun s hs => ?_
  rw [h.inRange.gap_stop hgap prot flags]
  exact h.gap_free hgap s hs

/-- Placing a region. A fixed one must start at a page boundary and must not lie on both
sides of the mapping base. -/
theorem placement {hint len : ℕ} {prot flags : UInt32} {placed : ℕ × MemoryManager}
    (hplaced : Placement m hint len prot flags placed)
    (hfixed : hint ≠ 0 → hasFlag flags MAP_FIXED = true → hint % PAGE_SIZE = 0 ∧
      (MMAP_BASE ≤ hint ∨ hint + pageCeil len ≤ MMAP_BASE)) : placed.2.Paged := by
  have hpages : pageCeil len % PAGE_SIZE = 0 := pageFloor_mod _
  cases hplaced with
  | failed => exact h
  | gap _ hlen hgap =>
    exact h.insert_gap hgap hpages (hlen.trans_le (le_pageCeil len)) prot flags
  | fixed hhint hflag hlen =>
    obtain ⟨hstart, hside⟩ := hfixed hhint hflag
    have hceiling := h.ceiling
    have hpos := hlen.trans_le (le_pageCeil len)
    have hend : hint + pageCeil len ≤ DEFAULT_MAX_ADDR := by
      simp only [saturatingAdd, USIZE_MAX, DEFAULT_MAX_ADDR] at *
      omega
    have hon : MappedRegion.OnPages ⟨hint, pageCeil len, prot, flags⟩ :=
      ⟨hstart, hpages, hpos, hend, fun hlt => hside.resolve_left (not_le.mpr hlt)⟩
    refine (h.retainClear _ _).insertSorted hon fun s hs => ?_
    have hclear := of_decide_eq_true (List.mem_filter.mp hs).2
    exact hclear

omit h

/-- Extending a region that has room before the next one keeps the order. -/
theorem sorted_extendFirst {l : List MappedRegion} {addr oldLen newLen : ℕ} (h : regions.Sorted l)
    (hroom : ∀ r ∈ l, r.addr = addr → r.len = oldLen → ∀ s ∈ l, r.stop ≤ s.addr →
      saturatingAdd addr newLen ≤ s.addr) : regions.Sorted (extendFirst addr oldLen newLen l) := by
  rcases extendFirst_cases addr oldLen newLen l with
    ⟨-, heq⟩ | ⟨before, r, after, rfl, ⟨rfl, rfl⟩, heq⟩
  · rwa [heq]
  obtain ⟨hbefore, hrest, hacross⟩ := List.pairwise_append.mp h
  obtain ⟨hfirst, hafter⟩ := List.pairwise_cons.mp hrest
  rw [heq]
  refine List.pairwise_append.mpr ⟨hbefore, List.pairwise_cons.mpr ⟨fun s hs => ?_, hafter⟩, ?_⟩
  · exact hroom r (by simp) rfl rfl s (by simp [hs]) (hfirst s hs)
  intro s hs t ht
  rcases List.mem_cons.mp ht with rfl | ht
  · exact hacross s hs r List.mem_cons_self
  · exact hacross s hs t (List.mem_cons_of_mem _ ht)

/-- A mapping that grows in place keeps the list paged. -/
theorem extendMapping (h : m.Paged) {addr oldLen newLen : ℕ}
    (hlt : oldLen < newLen) (hpages : newLen % PAGE_SIZE = 0)
    (hgrow : m.canGrowAt (wrappingAdd addr oldLen) (newLen - oldLen) = true)
    (hside : MMAP_BASE ≤ addr ∨ addr + newLen ≤ MMAP_BASE) :
    (m.extendMapping addr oldLen newLen).Paged := by
  obtain ⟨-, hend, hfree⟩ := canGrowAt_iff.mp hgrow
  have hceiling := h.ceiling
  have hwrap : ∀ r ∈ m.mappings, r.addr = addr → r.len = oldLen →
      wrappingAdd addr oldLen = addr + oldLen := by
    rintro r hr rfl rfl
    have hbelow := (h.onPages r hr).below
    rw [DEFAULT_MAX_ADDR] at hbelow
    rw [wrappingAdd, Nat.mod_eq_of_lt (by omega)]
  refine ⟨sorted_extendFirst h.sorted ?_, ?_, hceiling⟩
  · intro r hr haddr hlen s hs hle
    rw [hwrap r hr haddr hlen] at hfree
    have hs' := (h.onPages s hs).solid
    have hclear := hfree s hs
    rw [(h.onPages r hr).stop] at hle
    rw [saturatingAdd]
    omega
  intro s hs
  rcases mem_extendFirst hs with hs | ⟨r, hr, haddr, hlen, rfl⟩
  · exact h.onPages s hs
  rw [hwrap r hr haddr hlen] at hend
  refine ⟨(h.onPages r hr).start, hpages, Nat.zero_lt_of_lt hlt, ?_, fun hbase => ?_⟩
  · show r.addr + newLen ≤ DEFAULT_MAX_ADDR
    omega
  · rw [← haddr] at hside
    exact hside.resolve_left (not_le.mpr hbase)

/-- Remapping from a page boundary, to a range on one side of the mapping base. -/
theorem remapOutcome (h : m.Paged) {oldAddr oldLen newLen : ℕ} {res : Except Errno ℕ}
    {m' : MemoryManager} (hout : RemapOutcome m oldAddr oldLen newLen res m')
    (hstart : oldAddr % PAGE_SIZE = 0)
    (hside : MMAP_BASE ≤ oldAddr ∨ oldAddr + pageCeil newLen ≤ MMAP_BASE) : m'.Paged := by
  have hold := wrappingCeil_mod oldLen
  have hnew := wrappingCeil_mod newLen
  cases hout with
  | refused => exact h
  | shrunk =>
    refine h.munmap_pages ?_ ?_
    · simp only [wrappingAdd, PAGE_SIZE] at *
      omega
    · simp only [PAGE_SIZE] at *
      omega
  | grown hlt hgrow =>
    refine h.extendMapping hlt hnew hgrow (hside.imp_right fun hle => ?_)
    exact (Nat.add_le_add_left (wrappingCeil_le newLen) oldAddr).trans hle
  | moved _ hlt _ hgap =>
    exact (h.insert_gap hgap hnew (Nat.zero_lt_of_lt hlt) _ _).munmap_pages hstart hold

end Paged

end MemoryManager

/-- A fixed mapping starts at a page boundary and does not lie on both sides of the mapping
base; an unmapping ends at a page boundary or outside all regions; a remapping is of an old
range that starts at a page boundary and does not grow across the mapping base. -/
def MemCall.PageWise (c : Ctx) : MemCall → Prop
  | .mmap addr len _ flags _ => addr ≠ 0 → hasFlag flags MAP_FIXED = true →
      addr % PAGE_SIZE = 0 ∧ (MMAP_BASE ≤ addr ∨ addr + pageCeil len ≤ MMAP_BASE)
  | .munmap addr len => (addr + len) % PAGE_SIZE = 0 ∨
      ∀ r ∈ c.proc.memory.mappings, ¬ (r.addr < addr + len ∧ addr + len < r.stop)
  | .mremap oldAddr _ newLen _ => oldAddr % PAGE_SIZE = 0 ∧
      (MMAP_BASE ≤ oldAddr ∨ oldAddr + pageCeil newLen ≤ MMAP_BASE)
  | .brk _ => True
  | .setMaxAddr _ => True

instance (c : Ctx) (call : MemCall) : Decidable (call.PageWise c) := by
  cases call <;> unfold MemCall.PageWise <;> infer_instance

/-- A flag that lies outside the mask does not matter. -/
theorem hasFlag_or {other mask : UInt32} (h : other &&& mask = 0) (flags : UInt32) :
    hasFlag (flags ||| other) mask = hasFlag flags mask := by
  have hdistrib : (flags ||| other) &&& mask = (flags &&& mask) ||| (other &&& mask) := by
    apply UInt32.toBitVec_inj.mp
    ext i hi
    simp [BitVec.getElem_and, BitVec.getElem_or, Bool.and_or_distrib_right]
  rw [hasFlag, hasFlag, hdistrib, h, UInt32.or_zero]

/-- The ceiling does not matter. -/
theorem MemoryManager.Paged.setMaxAddr {m : MemoryManager} (h : m.Paged) (addr : ℕ) :
    (m.setMaxAddr addr).Paged := by
  rw [MemoryManager.setMaxAddr]
  split
  · rename_i hlt
    exact ⟨h.sorted, h.onPages, hlt.le.trans h.ceiling⟩
  · exact h

/-- A page-wise request keeps the list sorted and made of whole pages. -/
theorem paged_perform {c : Ctx} {call : MemCall} (h : c.proc.memory.Paged)
    (hcall : call.PageWise c) : (call.perform c).proc.memory.Paged := by
  have hstep := memStep_perform h.inRange call
  generalize (call.perform c).proc.memory = m' at hstep ⊢
  cases hstep with
  | same => exact h
  | mapped hplaced =>
    refine h.placement hplaced fun hne hflag => hcall hne ?_
    rwa [hasFlag_or (by decide)] at hflag
  | unmapped hpage hend =>
    refine h.munmap hpage fun r hr => ?_
    rw [saturatingAdd, min_eq_left hend]
    intro hlo hhi
    exact hcall.resolve_right fun hout => hout r hr ⟨hlo, hhi⟩
  | remapped hout => exact h.remapOutcome hout hcall.1 hcall.2
  | moved => exact ⟨h.sorted, h.onPages, h.ceiling⟩
  | lowered => exact h.setMaxAddr _

/-- **The shape of the mapping list.** After every run of page-wise requests the list is
sorted by address, and its regions are disjoint, not empty and made of whole pages. -/
theorem mappings_paged_run {c : Ctx} {calls : List MemCall} (hnew : c.proc.memory = .new)
    (hrun : Runs MemCall.perform MemCall.PageWise c calls) :
    Tidy (calls.foldl MemCall.perform c).proc.memory.mappings ∧
    ∀ r ∈ (calls.foldl MemCall.perform c).proc.memory.mappings,
      r.addr % PAGE_SIZE = 0 ∧ (r.addr + r.len) % PAGE_SIZE = 0 := by
  have hinit : c.proc.memory.Paged := hnew ▸ Paged.new
  have hpaged := hrun.invariant (I := fun c => c.proc.memory.Paged) hinit
    fun _ _ h hcall => paged_perform h hcall
  refine ⟨hpaged.tidy, fun r hr => ?_⟩
  have hon := hpaged.onPages r hr
  refine ⟨hon.start, ?_⟩
  rw [Nat.add_mod, hon.start, hon.pages]
  rfl

/-- A process that has made no memory call yet. -/
def freshCtx : Ctx := ⟨.boot, .new 1⟩

/-- The mapping list after requests. -/
def mappingsAfter (calls : List MemCall) : List MappedRegion :=
  (calls.foldl MemCall.perform freshCtx).proc.memory.mappings

/-- A mapping that is cut, and grown. -/
theorem mappings_paged_each_call :
    let calls := [MemCall.mmap 0 0x30000 3 0x22 (-1), .munmap 0x4010000 0x10000,
      .mmap 0x4010000 0x8000 1 0x32 (-1), .mremap 0x4020000 0x10000 0x20000 0,
      .mremap 0x4000000 0x10000 0x20000 1, .brk 0x1100000, .setMaxAddr 0x20000000]
    (mappingsAfter calls).map MappedRegion.addr = [0x4010000, 0x4020000, 0x4040000] ∧
    Tidy (mappingsAfter calls) :=
  ⟨by decide, (mappings_paged_run (c := freshCtx) rfl (by decide)).1⟩

/-- Outside the condition. A fixed mapping across the mapping base hides the part above it
from the gap search, so the next mapping overlaps it; a fixed mapping may start anywhere;
and an unmapping may end anywhere. -/
theorem mappings_not_paged :
    ¬ Tidy (mappingsAfter [.mmap 0x3ff0000 0x20000 3 0x32 (-1), .mmap 0 0x10000 3 0x22 (-1)]) ∧
    mappingsAfter [.mmap 0x4000001 0x10000 3 0x32 (-1)] = [⟨0x4000001, 0x10000, 3, 0x32⟩] ∧
    mappingsAfter [.mmap 0 0x10000 3 0x22 (-1), .munmap 0x4000000 1] =
      [⟨0x4000001, 0xffff, 3, 0x22⟩] := by
  refine ⟨fun htidy => ?_, by decide, by decide⟩
  have hlist : mappingsAfter [.mmap 0x3ff0000 0x20000 3 0x32 (-1), .mmap 0 0x10000 3 0x22 (-1)] =
      [⟨0x3ff0000, 0x20000, 3, 0x32⟩, ⟨0x4000000, 0x10000, 3, 0x22⟩] := by decide
  rw [hlist] at htidy
  exact List.pairwise_pair.mp htidy.disjoint 0x4000000 (by decide)

/-! ### The ceiling -/

namespace MemoryManager

/-- No region reaches above the ceiling. -/
structure UnderCeiling (m : MemoryManager) : Prop where
  regions : ∀ r ∈ m.mappings, r.addr + r.len ≤ m.maxAddr
  ceiling : m.maxAddr ≤ DEFAULT_MAX_ADDR

namespace UnderCeiling

variable {m : MemoryManager}

/-- No mappings are under the ceiling. -/
theorem new : MemoryManager.new.UnderCeiling :=
  ⟨fun _ hr => absurd hr List.not_mem_nil, le_refl _⟩

variable (h : m.UnderCeiling)

include h

/-- What is under the ceiling is in the range of addresses. -/
theorem inRange : m.InRange := by
  refine ⟨fun r hr => ?_, h.ceiling⟩
  have hle := (h.regions r hr).trans h.ceiling
  rw [DEFAULT_MAX_ADDR] at hle
  rw [USIZE_MAX]
  omega

/-- Unmapping keeps the mappings under the ceiling. -/
theorem munmap (addr len : ℕ) : (m.munmap addr len).2.UnderCeiling := by
  rcases Nat.eq_zero_or_pos len with rfl | hlen
  · exact h
  rw [munmap_of_pos hlen]
  refine ⟨fun s hs => ?_, h.ceiling⟩
  obtain ⟨r, hr, hs⟩ := List.mem_flatMap.mp hs
  have hle := h.regions r hr
  have hstop : r.stop ≤ r.addr + r.len := min_le_left _ _
  rcases mem_remnants hs with rfl | ⟨hlo, hhi, rfl⟩ | ⟨hlo, hhi, rfl⟩
  · exact hle
  all_goals
    dsimp only
    omega

/-- So does putting in a region that ends under it. -/
theorem insertSorted {r : MappedRegion} (hr : r.addr + r.len ≤ m.maxAddr) :
    (m.insertSorted r).UnderCeiling := by
  refine ⟨fun s hs => ?_, h.ceiling⟩
  rcases mem_insertSorted.mp hs with rfl | hs
  · exact hr
  · exact h.regions s hs

/-- A gap lies under the ceiling, because the region after it does. -/
theorem gap_le {needed addr : ℕ} (hgap : m.findGap needed = some addr) :
    addr + needed ≤ m.maxAddr := by
  rcases (findGapFrom_spec hgap).2.2 with hend | ⟨r, hr, hend⟩
  · exact h.inRange.gap_stop hgap 0 0 ▸ hend
  · have hle := h.regions r hr
    omega

/-- A placement is under the ceiling. -/
theorem placement {hint len : ℕ} {prot flags : UInt32} {placed : ℕ × MemoryManager}
    (hplaced : Placement m hint len prot flags placed) : placed.2.UnderCeiling := by
  have hceiling := h.ceiling
  cases hplaced with
  | failed => exact h
  | gap _ _ hgap => exact h.insertSorted (h.gap_le hgap)
  | fixed =>
    have hretain : (m.retainClear hint (saturatingAdd hint (pageCeil len))).UnderCeiling :=
      ⟨fun r hr => h.regions r (List.mem_filter.mp hr).1, hceiling⟩
    refine hretain.insertSorted ?_
    show hint + pageCeil len ≤ m.maxAddr
    simp only [saturatingAdd, USIZE_MAX, DEFAULT_MAX_ADDR] at *
    omega

/-- A mapping that grows in place stays under the ceiling. -/
theorem extendMapping {addr oldLen newLen : ℕ} (hlt : oldLen < newLen)
    (hgrow : m.canGrowAt (wrappingAdd addr oldLen) (newLen - oldLen) = true) :
    (m.extendMapping addr oldLen newLen).UnderCeiling := by
  obtain ⟨-, hend, -⟩ := canGrowAt_iff.mp hgrow
  refine ⟨fun s hs => ?_, h.ceiling⟩
  rcases mem_extendFirst hs with hs | ⟨r, hr, rfl, rfl, rfl⟩
  · exact h.regions s hs
  have hle := (h.regions r hr).trans h.ceiling
  rw [DEFAULT_MAX_ADDR] at hle
  rw [wrappingAdd, Nat.mod_eq_of_lt (by omega)] at hend
  show r.addr + newLen ≤ m.maxAddr
  omega

/-- So does whatever a remap leaves. -/
theorem remapOutcome {oldAddr oldLen newLen : ℕ} {res : Except Errno ℕ} {m' : MemoryManager}
    (hout : RemapOutcome m oldAddr oldLen newLen res m') : m'.UnderCeiling := by
  cases hout with
  | refused => exact h
  | shrunk => exact h.munmap _ _
  | grown hlt hgrow => exact h.extendMapping hlt hgrow
  | moved _ _ _ hgap => exact (h.insertSorted (h.gap_le hgap)).munmap _ _

/-- A ceiling no mapping reaches beyond may be set. -/
theorem setMaxAddr {addr : ℕ} (hle : ∀ r ∈ m.mappings, r.stop ≤ addr) :
    (m.setMaxAddr addr).UnderCeiling := by
  rw [MemoryManager.setMaxAddr]
  split
  · rename_i hlt
    refine ⟨fun r hr => ?_, hlt.le.trans h.ceiling⟩
    have hstop := hle r hr
    have hmax := (h.regions r hr).trans h.ceiling
    simp only [MappedRegion.stop, saturatingAdd, USIZE_MAX, DEFAULT_MAX_ADDR] at *
    omega
  · exact h

omit h

end UnderCeiling

end MemoryManager

/-- The host lowers the ceiling only to where nothing is mapped above it. -/
def MemCall.SparesMappings (c : Ctx) : MemCall → Prop
  | .setMaxAddr addr => ∀ r ∈ c.proc.memory.mappings, r.stop ≤ addr
  | .mmap .. | .munmap .. | .mremap .. | .brk _ => True

instance (c : Ctx) (call : MemCall) : Decidable (call.SparesMappings c) := by
  cases call <;> unfold MemCall.SparesMappings <;> infer_instance

/-- A call that spares the mappings keeps them under the ceiling. -/
theorem underCeiling_perform {c : Ctx} {call : MemCall} (h : c.proc.memory.UnderCeiling)
    (hcall : call.SparesMappings c) : (call.perform c).proc.memory.UnderCeiling := by
  have hstep := memStep_perform h.inRange call
  generalize (call.perform c).proc.memory = m' at hstep ⊢
  cases hstep with
  | same => exact h
  | mapped hplaced => exact h.placement hplaced
  | unmapped => exact h.munmap _ _
  | remapped hout => exact h.remapOutcome hout
  | moved => exact ⟨h.regions, h.ceiling⟩
  | lowered => exact h.setMaxAddr hcall

/-- The address that a mapping returns is the one where it was placed. -/
theorem sysMmap_eq_ok {p : Process} {addr len a : ℕ} {prot flags : UInt32} {fd : ℤ}
    (h : (sysMmap p addr len prot flags fd).1 = .ok a) :
    (p.memory.mmapAnonymous addr len prot (flags ||| MAP_ANONYMOUS)).1 = a ∧ a ≠ MAP_FAILED := by
  rcases sysMmap_cases p addr len prot flags fd with ⟨e, heq⟩ | ⟨heq, -⟩
  · rw [heq] at h
    cases h
  rw [heq, mmapRegion] at h
  split at h
  · cases h
  rename_i hne
  cases h
  exact ⟨rfl, hne⟩

/-- **The ceiling.** After every run in which the ceiling was never lowered below a mapping,
a mapping without a fixed address lies between the mapping base and the ceiling. -/
theorem mmap_below_ceiling_run {c : Ctx} {calls : List MemCall} (hnew : c.proc.memory = .new)
    (hrun : Runs MemCall.perform MemCall.SparesMappings c calls) {addr len a : ℕ}
    {prot flags : UInt32} {fd : ℤ} (hfree : hasFlag flags MAP_FIXED = false)
    (hok : (sysMmap (calls.foldl MemCall.perform c).proc addr len prot flags fd).1 = .ok a) :
    MMAP_BASE ≤ a ∧ a + pageCeil len ≤ (calls.foldl MemCall.perform c).proc.memory.maxAddr := by
  have hinit : c.proc.memory.UnderCeiling := hnew ▸ UnderCeiling.new
  have hunder := hrun.invariant (I := fun c => c.proc.memory.UnderCeiling) hinit
    fun _ _ h hcall => underCeiling_perform h hcall
  obtain ⟨hplace, hne⟩ := sysMmap_eq_ok hok
  generalize (calls.foldl MemCall.perform c).proc.memory = m at hplace hunder ⊢
  have hplaced := placement_mmapAnonymous m addr len prot (flags ||| MAP_ANONYMOUS)
  generalize m.mmapAnonymous addr len prot (flags ||| MAP_ANONYMOUS) = placed at hplace hplaced
  cases hplaced with
  | failed => exact absurd hplace.symm hne
  | fixed _ hflag =>
    rw [hasFlag_or (by decide), hfree] at hflag
    cases hflag
  | gap _ _ hgap =>
    obtain rfl : _ = a := hplace
    exact ⟨le_findGapFrom hgap, hunder.gap_le hgap⟩

/-- Three pages, of which the last is unmapped before the ceiling is lowered to it: the next
mapping reuses the page in the middle. -/
theorem mmap_below_ceiling_three_pages :
    let calls := [MemCall.mmap 0 0x30000 3 0x22 (-1), .munmap 0x4020000 0x10000,
      .setMaxAddr 0x4020000, .munmap 0x4010000 0x10000]
    let c := calls.foldl MemCall.perform freshCtx
    (sysMmap c.proc 0 0x10000 3 0x22 (-1)).1 = .ok 0x4010000 ∧
    0x4010000 + pageCeil 0x10000 ≤ c.proc.memory.maxAddr := by
  intro calls c
  have hok : (sysMmap c.proc 0 0x10000 3 0x22 (-1)).1 = .ok 0x4010000 := rfl
  exact ⟨hok, (mmap_below_ceiling_run (c := freshCtx) rfl (by decide) (by decide) hok).2⟩

/-- If the ceiling is lowered into the mappings, a gap between mappings above it is still
handed out. -/
theorem mmap_above_ceiling :
    let calls := [MemCall.mmap 0 0x10000 3 0x22 (-1), .mmap 0 0x10000 3 0x22 (-1),
      .mmap 0 0x10000 3 0x22 (-1), .setMaxAddr 0x4010000, .munmap 0x4010000 0x10000]
    let c := calls.foldl MemCall.perform freshCtx
    c.proc.memory.maxAddr = 0x4010000 ∧
    (sysMmap c.proc 0 0x10000 3 0x22 (-1)).1 = .ok 0x4010000 := by
  decide

end PosixKernel
