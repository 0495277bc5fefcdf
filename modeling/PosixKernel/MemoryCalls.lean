import PosixKernel.Close
import PosixKernel.Mappings

/-!
# The Memory Calls

`sys_mmap`, `sys_munmap`, `sys_mremap` and `sys_brk`, with the framebuffer binding that the
first two keep. The host is only told about the binding and answers nothing.

## Main results

* `remapOutcome_mremap` — what a remapping can do;
* `sysMremap_remapped_iff` — when a remapping that succeeds has mapped what it returned.
-/

namespace PosixKernel

open MemoryManager

/-- Allocate a region for a process. -/
def mmapRegion (p : Process) (addr len : ℕ) (prot flags : UInt32) : Except Errno ℕ × Process :=
  let placed := p.memory.mmapAnonymous addr len prot (flags ||| MAP_ANONYMOUS)
  (if placed.1 = MAP_FAILED then .error .ENOMEM else .ok placed.1,
    { p with memory := placed.2 })

/-- Map memory. A mapping of a file needs an open descriptor; one of the framebuffer must
have its size, and there is at most one. -/
def sysMmap (p : Process) (addr len : ℕ) (prot flags : UInt32) (fd : ℤ) :
    Except Errno ℕ × Process :=
  if hasFlag flags MAP_ANONYMOUS then mmapRegion p addr len prot flags
  else if fd < 0 then (.error .EBADF, p)
  else
    match p.fdTable.get fd with
    | .error e => (.error e, p)
    | .ok entry =>
      match p.ofdTable.get entry.ofdRef with
      | none => (.error .EBADF, p)
      | some o =>
        if o.isDevice .Fb0 then
          if p.fbBinding.isSome then (.error .EINVAL, p)
          else if (len : ℤ) ≠ FB_SMEM_LEN then (.error .EINVAL, p)
          else
            match mmapRegion p addr len prot flags with
            | (.error e, p) => (.error e, p)
            | (.ok addrOut, p) => (.ok addrOut, { p with fbBinding := some ⟨addrOut, len⟩ })
        else mmapRegion p addr len prot flags

/-- Whether an unmapping covers the framebuffer binding. -/
def releasesFb (p : Process) (addr len : ℕ) : Bool :=
  match p.fbBinding with
  | none => false
  | some b => addr ≤ b.addr ∧ saturatingAdd b.addr b.len ≤ saturatingAdd addr len

/-- Unmap memory. -/
def sysMunmap (c : Ctx) (addr len : ℕ) : Except Errno Unit × Ctx :=
  if len = 0 then (.error .EINVAL, c)
  else if addr % PAGE_SIZE ≠ 0 then (.error .EINVAL, c)
  else if USIZE_MAX < addr + len then (.error .EINVAL, c)
  else
    let c := if releasesFb c.proc addr len then
        let c := c.updProc fun p => { p with fbBinding := none }
        if procHasFb0Fd c.proc then c else c.updKernel (maybeReleaseFb0 c.proc.pid)
      else c
    (.ok (), c.updProc fun p => { p with memory := (p.memory.munmap addr len).2 })

def MREMAP_MAYMOVE : UInt32 := 1

/-- A length rounded up to whole pages by wrapping arithmetic. -/
def wrappingCeil (len : ℕ) : ℕ := pageFloor (wrappingAdd len 0xFFFF)

/-- Change the size of a mapping: cut its tail off, grow it in place, or map a new region
and unmap the old one. -/
def MemoryManager.mremap (m : MemoryManager) (oldAddr oldLen newLen : ℕ) (flags : UInt32) :
    Except Errno ℕ × MemoryManager :=
  if oldLen = 0 ∨ newLen = 0 then (.error .EINVAL, m)
  else
    let alignedOld := wrappingCeil oldLen
    let alignedNew := wrappingCeil newLen
    if alignedNew ≤ alignedOld then
      if alignedNew < alignedOld then
        (.ok oldAddr, (m.munmap (wrappingAdd oldAddr alignedNew) (alignedOld - alignedNew)).2)
      else (.ok oldAddr, m)
    else if m.canGrowAt (wrappingAdd oldAddr alignedOld) (alignedNew - alignedOld) then
      (.ok oldAddr, m.extendMapping oldAddr alignedOld alignedNew)
    else if hasFlag flags MREMAP_MAYMOVE then
      let placed := m.mmapAnonymous 0 alignedNew 3 (MAP_PRIVATE ||| MAP_ANONYMOUS)
      if placed.1 = MAP_FAILED then (.error .ENOMEM, placed.2)
      else (.ok placed.1, (placed.2.munmap oldAddr alignedOld).2)
    else (.error .ENOMEM, m)

/-- Change the size of a mapping of a process. -/
def sysMremap (p : Process) (oldAddr oldLen newLen : ℕ) (flags : UInt32) :
    Except Errno ℕ × Process :=
  let res := p.memory.mremap oldAddr oldLen newLen flags
  (res.1, { p with memory := res.2 })

/-- Read or move the program break. -/
def sysBrk (p : Process) (addr : ℕ) : ℕ × Process :=
  if addr = 0 then (p.memory.programBreak, p)
  else ((p.memory.setBrk addr).programBreak, { p with memory := p.memory.setBrk addr })

/-! ### Rounding -/

/-- Rounding up may wrap. -/
theorem wrappingCeil_le (len : ℕ) : wrappingCeil len ≤ pageCeil len := by
  simp only [wrappingCeil, pageCeil, pageFloor, wrappingAdd, PAGE_SIZE]
  omega

/-- It ends on a page. -/
theorem wrappingCeil_mod (len : ℕ) : wrappingCeil len % PAGE_SIZE = 0 := pageFloor_mod _

/-- Only lengths close to the top of the address space wrap, and then to zero. -/
theorem wrappingCeil_of_pos {len : ℕ} (hlen : len ≤ USIZE_MAX) (hpos : 0 < wrappingCeil len) :
    wrappingCeil len = pageCeil len := by
  simp only [wrappingCeil, pageCeil, pageFloor, wrappingAdd, PAGE_SIZE, USIZE_MAX] at *
  omega

/-- It is not rounded again. -/
theorem pageCeil_wrappingCeil (len : ℕ) : pageCeil (wrappingCeil len) = wrappingCeil len := by
  have hmod := wrappingCeil_mod len
  simp only [pageCeil, pageFloor, PAGE_SIZE] at *
  omega

/-- What does not fit in the rounded old length is longer than it. -/
theorem lt_of_wrappingCeil_lt {oldLen newLen : ℕ} (h : wrappingCeil oldLen < wrappingCeil newLen)
    (hnew : newLen ≤ USIZE_MAX) : wrappingCeil oldLen < newLen := by
  have hold := wrappingCeil_mod oldLen
  have hceil := wrappingCeil_of_pos hnew (Nat.zero_lt_of_lt h)
  rw [hceil] at h
  simp only [pageCeil, pageFloor, PAGE_SIZE] at *
  omega

/-! ### Growing in place -/

namespace MemoryManager

variable {m : MemoryManager} {l : List MappedRegion} {addr oldLen newLen b : ℕ}
  {attrs : UInt32 × UInt32}

/-- When there is room behind a mapping. -/
theorem canGrowAt_iff {len : ℕ} : m.canGrowAt addr len = true ↔
      addr + len ≤ USIZE_MAX ∧ addr + len ≤ m.maxAddr ∧
        ∀ r ∈ m.mappings, ¬ (addr < r.stop ∧ r.addr < addr + len) := by
  rw [canGrowAt]
  split
  · rename_i hlt
    simp only [Bool.false_eq_true, false_iff]
    omega
  rename_i hle
  split
  · rename_i hlt
    simp only [Bool.false_eq_true, false_iff]
    omega
  rename_i hmax
  simp only [List.all_eq_true, decide_eq_true_eq]
  exact ⟨fun h => ⟨not_lt.mp hle, not_lt.mp hmax, h⟩, fun h => h.2.2⟩

/-- The first mapping that matches grows, if there is one. -/
theorem extendFirst_cases (addr oldLen newLen : ℕ) (l : List MappedRegion) :
    (∀ r ∈ l, ¬ (r.addr = addr ∧ r.len = oldLen)) ∧ extendFirst addr oldLen newLen l = l ∨
    ∃ before r after, l = before ++ r :: after ∧ (r.addr = addr ∧ r.len = oldLen) ∧
      extendFirst addr oldLen newLen l = before ++ { r with len := newLen } :: after := by
  induction l with
  | nil => exact .inl ⟨fun r hr => absurd hr List.not_mem_nil, rfl⟩
  | cons r l ih =>
    rw [extendFirst]
    split
    · rename_i hr
      exact .inr ⟨[], r, l, rfl, hr, rfl⟩
    rename_i hr
    rcases ih with ⟨hnone, heq⟩ | ⟨before, s, after, rfl, hs, heq⟩
    · exact .inl ⟨List.forall_mem_cons.mpr ⟨hr, hnone⟩, by rw [heq]⟩
    · exact .inr ⟨r :: before, s, after, rfl, hs, by rw [heq, List.cons_append]⟩

/-- What is in the list then. -/
theorem mem_extendFirst {s : MappedRegion} (h : s ∈ extendFirst addr oldLen newLen l) :
    s ∈ l ∨ ∃ r ∈ l, r.addr = addr ∧ r.len = oldLen ∧ s = { r with len := newLen } := by
  rcases extendFirst_cases addr oldLen newLen l with ⟨-, heq⟩ | ⟨before, r, after, rfl, hr, heq⟩
  · exact .inl (heq ▸ h)
  simp only [heq, List.mem_append, List.mem_cons] at h ⊢
  rcases h with h | rfl | h
  · exact .inl (.inl h)
  · exact .inr ⟨r, .inr (.inl rfl), hr.1, hr.2, rfl⟩
  · exact .inl (.inr (.inr h))

/-- An extension changes no byte outside the longer range. -/
theorem keepsOutside_extendMapping (hle : oldLen ≤ newLen) :
    m.KeepsOutside (m.extendMapping addr oldLen newLen) addr (addr + newLen) := by
  intro b attrs hout
  have hcov : ∀ r : MappedRegion, r.addr = addr → r.len ≤ newLen → ¬ regions.Covers r b := by
    rintro r rfl hlen ⟨hlo, hhi⟩
    have hhi : b < min (r.addr + r.len) USIZE_MAX := hhi
    have hlo : r.addr ≤ b := hlo
    omega
  show regions.Holds (extendFirst addr oldLen newLen m.mappings) b attrs ↔ _
  rcases extendFirst_cases addr oldLen newLen m.mappings with
    ⟨-, heq⟩ | ⟨before, r, after, hl, ⟨haddr, hlen⟩, heq⟩
  · rw [heq]
    rfl
  have hold := hcov r haddr (hlen.trans_le hle)
  have hnew := hcov { r with len := newLen } haddr (le_refl newLen)
  rw [heq, MappedAs, hl]
  simp only [Layout.holds_append, Layout.holds_cons, hold, hnew, false_and, false_or]

/-! ### Remapping -/

/-- The fields of the manager are machine words, and its ceiling was only ever lowered. -/
structure InRange (m : MemoryManager) : Prop where
  regions : ∀ r ∈ m.mappings, r.addr ≤ USIZE_MAX
  ceiling : m.maxAddr ≤ DEFAULT_MAX_ADDR

/-- What a remapping to `addr` promises: the new range is mapped, and every byte outside
the old and the new range, in whole pages, is mapped as before. -/
structure Remapped (m m' : MemoryManager) (oldAddr oldLen newLen addr : ℕ) : Prop where
  mapped : ∀ b, addr ≤ b → b < addr + newLen → m'.Mapped b
  frame : ∀ b attrs, ¬ (oldAddr ≤ b ∧ b < oldAddr + pageCeil oldLen) →
    ¬ (addr ≤ b ∧ b < addr + pageCeil newLen) → (m'.MappedAs b attrs ↔ m.MappedAs b attrs)

/-- When a remapping keeps its promise. Cutting a tail off: the part that stays is mapped
and is not in the tail, and the tail does not wrap around onto other mappings. Growing in
place, where the space after the old range is free: the old range is a whole region. Moving:
the gap found does not overlap the old range. -/
def Remappable (m : MemoryManager) (oldAddr oldLen newLen : ℕ) : Prop :=
  if wrappingCeil newLen ≤ wrappingCeil oldLen then
    let tail := wrappingAdd oldAddr (wrappingCeil newLen)
    let tailEnd := tail + (wrappingCeil oldLen - wrappingCeil newLen)
    (∀ b, oldAddr ≤ b → b < oldAddr + newLen → m.Mapped b ∧ ¬ (tail ≤ b ∧ b < tailEnd)) ∧
    (∀ b, tail ≤ b → b < tailEnd → m.Mapped b → oldAddr ≤ b ∧
      (b < oldAddr + pageCeil oldLen ∨ b < oldAddr + pageCeil newLen))
  else if m.canGrowAt (wrappingAdd oldAddr (wrappingCeil oldLen))
      (wrappingCeil newLen - wrappingCeil oldLen) then
    oldAddr + newLen ≤ USIZE_MAX ∧
      ∃ r ∈ m.mappings, r.addr = oldAddr ∧ r.len = wrappingCeil oldLen
  else
    ∀ addr, m.findGap (wrappingCeil newLen) = some addr →
      ∀ b, addr ≤ b → b < addr + newLen → ¬ (oldAddr ≤ b ∧ b < oldAddr + wrappingCeil oldLen)

/-- What is mapped is an address. -/
theorem Mapped.lt (h : m.Mapped b) : b < USIZE_MAX := by
  obtain ⟨_, r, -, hb, -⟩ := h
  exact lt_max_of_covers hb

/-- What is mapped after unmapping. -/
theorem mapped_munmap {len : ℕ} :
    (m.munmap addr len).2.Mapped b ↔ m.Mapped b ∧ ¬ (addr ≤ b ∧ b < addr + len) := by
  constructor
  · rintro ⟨attrs, h⟩
    obtain ⟨h, hout⟩ := (holds_munmap addr len).mp h
    exact ⟨⟨attrs, h⟩, hout⟩
  · rintro ⟨⟨attrs, h⟩, hout⟩
    exact ⟨attrs, (holds_munmap addr len).mpr ⟨h, hout⟩⟩

/-- Cutting a tail off. -/
theorem remapped_munmap_iff {oldAddr tail len : ℕ} :
    m.Remapped (m.munmap tail len).2 oldAddr oldLen newLen oldAddr ↔
      (∀ b, oldAddr ≤ b → b < oldAddr + newLen → m.Mapped b ∧ ¬ (tail ≤ b ∧ b < tail + len)) ∧
      (∀ b, tail ≤ b → b < tail + len → m.Mapped b → oldAddr ≤ b ∧
        (b < oldAddr + pageCeil oldLen ∨ b < oldAddr + pageCeil newLen)) := by
  constructor
  · intro h
    refine ⟨fun b hlo hhi => mapped_munmap.mp (h.mapped b hlo hhi), ?_⟩
    rintro b hlo hhi ⟨attrs, hb⟩
    by_contra hout
    have hsame := h.frame b attrs (by omega) (by omega)
    exact ((holds_munmap tail len).mp (hsame.mpr hb)).2 ⟨hlo, hhi⟩
  rintro ⟨hmapped, hframe⟩
  refine ⟨fun b hlo hhi => mapped_munmap.mpr (hmapped b hlo hhi), ?_⟩
  intro b attrs hold hnew
  rw [holds_munmap, and_iff_left_iff_imp]
  rintro hb ⟨hlo, hhi⟩
  have hin := hframe b hlo hhi ⟨attrs, hb⟩
  omega

/-- Growing in place. -/
theorem remapped_extendMapping_iff {oldAddr aligned alignedNew : ℕ}
    (hlt : aligned < newLen) (hnew : alignedNew = pageCeil newLen) (hold : oldAddr ≤ USIZE_MAX)
    (hgrow : m.canGrowAt (wrappingAdd oldAddr aligned) (alignedNew - aligned) = true) :
    m.Remapped (m.extendMapping oldAddr aligned alignedNew) oldAddr oldLen newLen oldAddr ↔
      oldAddr + newLen ≤ USIZE_MAX ∧ ∃ r ∈ m.mappings, r.addr = oldAddr ∧ r.len = aligned := by
  obtain ⟨hend, -, hfree⟩ := canGrowAt_iff.mp hgrow
  have hceil : newLen ≤ alignedNew := hnew ▸ le_pageCeil newLen
  have hbound (h : m.Remapped (m.extendMapping oldAddr aligned alignedNew) oldAddr oldLen newLen
      oldAddr) : oldAddr + newLen ≤ USIZE_MAX := by
    by_contra hover
    exact absurd (h.mapped USIZE_MAX hold (not_le.mp hover)).lt (lt_irrefl _)
  rcases extendFirst_cases oldAddr aligned alignedNew m.mappings with
    ⟨hnone, hsame⟩ | ⟨before, s, after, hl, hs, heq⟩
  · refine iff_of_false (fun h => ?_) fun ⟨_, r, hr, hmatch⟩ => hnone r hr hmatch
    -- no region is extended, so the byte after the old range is not mapped
    obtain ⟨_, r, hr, ⟨hlo, hhi⟩, -⟩ := h.mapped (oldAddr + aligned) (by omega) (by omega)
    rw [extendMapping, hsame] at hr
    have hwrap : wrappingAdd oldAddr aligned = oldAddr + aligned := by
      have hbound := hbound h
      rw [wrappingAdd, Nat.mod_eq_of_lt]
      rw [USIZE_MAX] at hbound
      omega
    rw [hwrap] at hfree
    have hlo : r.addr ≤ oldAddr + aligned := hlo
    exact hfree r hr ⟨hhi, by omega⟩
  refine ⟨fun h => ⟨hbound h, s, by simp [hl], hs⟩, fun ⟨hbound, _⟩ => ⟨?_, ?_⟩⟩
  · intro b hlo hhi
    refine ⟨_, { s with len := alignedNew }, ?_, ⟨hs.1.trans_le hlo, ?_⟩, rfl⟩
    · rw [extendMapping, heq]
      simp
    show b < saturatingAdd s.addr alignedNew
    rw [saturatingAdd, hs.1]
    omega
  · intro b attrs _ hout
    exact keepsOutside_extendMapping (by omega) b attrs (hnew ▸ hout)

/-- A region in a gap does not wrap. -/
theorem InRange.gap_stop {needed : ℕ} (hm : m.InRange) (h : m.findGap needed = some addr)
    (prot flags : UInt32) : (⟨addr, needed, prot, flags⟩ : MappedRegion).stop = addr + needed := by
  have hceiling := hm.ceiling
  show saturatingAdd addr needed = addr + needed
  rcases (findGapFrom_spec h).2.2 with hend | ⟨r, hr, hend⟩
  · simp only [saturatingAdd, USIZE_MAX, DEFAULT_MAX_ADDR] at *
    omega
  have hword := hm.regions r hr
  rw [saturatingAdd]
  omega

/-- A gap is not where a failure is reported. -/
theorem InRange.gap_ne_failed {needed : ℕ} (hm : m.InRange) (h : m.findGap needed = some addr)
    (hpos : 0 < needed) : addr ≠ MAP_FAILED := by
  have hstop := hm.gap_stop h 0 0
  have hmax := (⟨addr, needed, 0, 0⟩ : MappedRegion).stop_le
  rw [MAP_FAILED]
  omega

/-- Moving. -/
theorem remapped_move_iff {oldAddr aligned alignedNew : ℕ} {prot flags : UInt32} (hm : m.InRange)
    (hold : aligned ≤ pageCeil oldLen) (hnew : alignedNew = pageCeil newLen)
    (hgap : m.findGap alignedNew = some addr) :
    m.Remapped ((m.insertSorted ⟨addr, alignedNew, prot, flags⟩).munmap oldAddr aligned).2
        oldAddr oldLen newLen addr ↔
      ∀ b, addr ≤ b → b < addr + newLen → ¬ (oldAddr ≤ b ∧ b < oldAddr + aligned) := by
  have hstop := hm.gap_stop hgap prot flags
  have hceil : newLen ≤ alignedNew := hnew ▸ le_pageCeil newLen
  constructor
  · intro h b hlo hhi
    exact (mapped_munmap.mp (h.mapped b hlo hhi)).2
  intro hapart
  refine ⟨?_, ?_⟩
  · intro b hlo hhi
    refine mapped_munmap.mpr ⟨⟨_, holds_insertSorted.mpr (.inl ⟨⟨hlo, ?_⟩, rfl⟩)⟩,
      hapart b hlo hhi⟩
    exact lt_of_lt_of_eq (by omega) hstop.symm
  intro b attrs hout hout'
  rw [holds_munmap, holds_insertSorted, and_iff_left (by omega), or_iff_right]
  rintro ⟨⟨hlo, hhi⟩, -⟩
  exact hout' ⟨hlo, hnew ▸ lt_of_lt_of_eq hhi hstop⟩

end MemoryManager

/-- What a remapping can do to the memory of a process. -/
inductive RemapOutcome (m : MemoryManager) (oldAddr oldLen newLen : ℕ) :
    Except Errno ℕ → MemoryManager → Prop
  | refused (e : Errno) : RemapOutcome m oldAddr oldLen newLen (.error e) m
  | shrunk (hle : wrappingCeil newLen ≤ wrappingCeil oldLen) :
      RemapOutcome m oldAddr oldLen newLen (.ok oldAddr)
        (m.munmap (wrappingAdd oldAddr (wrappingCeil newLen))
          (wrappingCeil oldLen - wrappingCeil newLen)).2
  | grown (hlt : wrappingCeil oldLen < wrappingCeil newLen)
      (hgrow : m.canGrowAt (wrappingAdd oldAddr (wrappingCeil oldLen))
        (wrappingCeil newLen - wrappingCeil oldLen) = true) :
      RemapOutcome m oldAddr oldLen newLen (.ok oldAddr)
        (m.extendMapping oldAddr (wrappingCeil oldLen) (wrappingCeil newLen))
  | moved {addr : ℕ} (flags : UInt32) (hlt : wrappingCeil oldLen < wrappingCeil newLen)
      (hgrow : ¬ m.canGrowAt (wrappingAdd oldAddr (wrappingCeil oldLen))
        (wrappingCeil newLen - wrappingCeil oldLen) = true)
      (hgap : m.findGap (wrappingCeil newLen) = some addr) :
      RemapOutcome m oldAddr oldLen newLen (.ok addr)
        ((m.insertSorted ⟨addr, wrappingCeil newLen, 3, flags⟩).munmap oldAddr
          (wrappingCeil oldLen)).2

/-- **What a remapping does.** -/
theorem remapOutcome_mremap {m : MemoryManager} (hm : m.InRange) (oldAddr oldLen newLen : ℕ)
    (flags : UInt32) : RemapOutcome m oldAddr oldLen newLen (m.mremap oldAddr oldLen newLen flags).1
      (m.mremap oldAddr oldLen newLen flags).2 := by
  rcases hres : m.mremap oldAddr oldLen newLen flags with ⟨res, m'⟩
  rw [mremap] at hres
  split at hres
  · cases hres
    exact .refused .EINVAL
  dsimp only at hres
  split at hres
  · rename_i hle
    split at hres
    · cases hres
      exact .shrunk hle
    cases hres
    have hzero : wrappingCeil oldLen - wrappingCeil newLen = 0 := by omega
    have hshrunk := @RemapOutcome.shrunk m oldAddr oldLen newLen hle
    rwa [hzero] at hshrunk
  rename_i hgt
  have hlt := not_le.mp hgt
  split at hres
  · rename_i hgrow
    cases hres
    exact .grown hlt hgrow
  rename_i hgrow
  split at hres
  · have hplaced := placement_mmapAnonymous m 0 (wrappingCeil newLen) 3
      (MAP_PRIVATE ||| MAP_ANONYMOUS)
    generalize m.mmapAnonymous 0 (wrappingCeil newLen) 3
      (MAP_PRIVATE ||| MAP_ANONYMOUS) = placed at hplaced hres
    cases hplaced with
    | failed =>
      rw [if_pos rfl] at hres
      cases hres
      exact .refused .ENOMEM
    | fixed => contradiction
    | gap _ _ hgap =>
      rw [pageCeil_wrappingCeil] at hgap hres
      rw [if_neg (hm.gap_ne_failed hgap (Nat.zero_lt_of_lt hlt))] at hres
      cases hres
      exact .moved _ hlt hgrow hgap
  · cases hres
    exact .refused .ENOMEM

/-- **Remapping.** A remapping that succeeds has mapped the range it returned and kept the
bytes outside both ranges exactly if the old range was as `Remappable` says. -/
theorem sysMremap_remapped_iff {p : Process} {oldAddr oldLen newLen addr : ℕ} {flags : UInt32}
    (hm : p.memory.InRange) (hold : oldAddr ≤ USIZE_MAX) (hlen : newLen ≤ USIZE_MAX)
    (hok : (sysMremap p oldAddr oldLen newLen flags).1 = .ok addr) :
    p.memory.Remapped (sysMremap p oldAddr oldLen newLen flags).2.memory oldAddr oldLen newLen
        addr ↔ p.memory.Remappable oldAddr oldLen newLen := by
  have hout : RemapOutcome p.memory oldAddr oldLen newLen
      (sysMremap p oldAddr oldLen newLen flags).1
      (sysMremap p oldAddr oldLen newLen flags).2.memory :=
    remapOutcome_mremap hm oldAddr oldLen newLen flags
  rw [hok] at hout
  generalize (sysMremap p oldAddr oldLen newLen flags).2.memory = m' at hout ⊢
  rw [Remappable]
  cases hout with
  | shrunk hle =>
    rw [if_pos hle]
    exact remapped_munmap_iff
  | grown hlt hgrow =>
    rw [if_neg (not_le.mpr hlt), if_pos hgrow]
    exact remapped_extendMapping_iff (lt_of_wrappingCeil_lt hlt hlen)
      (wrappingCeil_of_pos hlen (Nat.zero_lt_of_lt hlt)) hold hgrow
  | moved _ hlt hgrow hgap =>
    rw [if_neg (not_le.mpr hlt), if_neg hgrow]
    refine (remapped_move_iff hm (wrappingCeil_le oldLen)
      (wrappingCeil_of_pos hlen (Nat.zero_lt_of_lt hlt)) hgap).trans ?_
    rw [hgap]
    exact ⟨fun h a ha => Option.some.inj ha ▸ h, fun h => h addr rfl⟩

/-- A process with one mapping of two pages. -/
def twoPages : Process := (sysMmap (.new 1) 0 0x20000 3 0x22 (-1)).2

/-- A mapping that grows in place. -/
theorem sysMremap_whole_region :
    (sysMremap twoPages 0x4000000 0x20000 0x30000 0).1 = .ok 0x4000000 ∧
    twoPages.memory.Remapped (sysMremap twoPages 0x4000000 0x20000 0x30000 0).2.memory
      0x4000000 0x20000 0x30000 0x4000000 := by
  have hrange : twoPages.memory.InRange := ⟨by decide, by decide⟩
  refine ⟨rfl, (sysMremap_remapped_iff hrange (by decide) (by decide) rfl).mpr ?_⟩
  rw [Remappable, if_neg (by decide), if_pos (by decide)]
  exact ⟨by decide, ⟨0x4000000, 0x20000, 3, 0x22⟩, by decide, rfl, rfl⟩

/-- Growing the second page of a region succeeds, but the page it grows by is not mapped. -/
theorem sysMremap_part_of_region :
    (sysMremap twoPages 0x4010000 0x10000 0x20000 0).1 = .ok 0x4010000 ∧
    ¬ (sysMremap twoPages 0x4010000 0x10000 0x20000 0).2.memory.Mapped 0x4020000 := by
  refine ⟨rfl, ?_⟩
  rintro ⟨_, r, hr, hb, -⟩
  have hone : (sysMremap twoPages 0x4010000 0x10000 0x20000 0).2.memory.mappings =
      [⟨0x4000000, 0x20000, 3, 0x22⟩] := by decide
  rw [hone] at hr
  obtain rfl := List.mem_singleton.mp hr
  exact absurd hb (by decide)

end PosixKernel
