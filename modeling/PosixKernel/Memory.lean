import PosixKernel.Shared

/-!
# Memory Bookkeeping

The mapping list and the program break of a process (`memory.rs`), as far as process
creation reads and restores them.
-/

namespace PosixKernel

/-- A mapped region. -/
structure MappedRegion where
  addr : ℕ
  len : ℕ
  prot : UInt32
  flags : UInt32
  deriving DecidableEq

/-- The mappings and the break of a process. -/
structure MemoryManager where
  mappings : List MappedRegion
  programBreak : ℕ
  maxAddr : ℕ
  dataLimit : UInt64
  initialBrk : ℕ
  deriving DecidableEq

namespace MemoryManager

def MMAP_BASE : ℕ := 0x04000000
def INITIAL_BRK : ℕ := 0x01000000
def DEFAULT_MAX_ADDR : ℕ := 0x40000000

def new : MemoryManager where
  mappings := []
  programBreak := INITIAL_BRK
  maxAddr := DEFAULT_MAX_ADDR
  dataLimit := UInt64.ofNat (2 ^ 64 - 1)
  initialBrk := INITIAL_BRK

/-- Move the break; a refused request leaves it where it was. -/
def setBrk (m : MemoryManager) (newBrk : ℕ) : MemoryManager :=
  if newBrk = 0 then m
  else if MMAP_BASE < newBrk then m
  else if m.initialBrk < newBrk ∧ m.dataLimit.toNat < newBrk - m.initialBrk then m
  else { m with programBreak := newBrk }

def setMappings (m : MemoryManager) (mappings : List MappedRegion) : MemoryManager :=
  { m with mappings }

def setDataLimit (m : MemoryManager) (limit : UInt64) : MemoryManager :=
  { m with dataLimit := limit }

theorem dataLimit_new : new.dataLimit.toNat = 2 ^ 64 - 1 := by decide

/-- A manager without a data limit takes every break between zero and the mapping base. -/
theorem setBrk_new (b : ℕ) :
    new.setBrk b = if b = 0 ∨ MMAP_BASE < b then new else { new with programBreak := b } := by
  have hlim : ¬ (new.initialBrk < b ∧ new.dataLimit.toNat < b - new.initialBrk) ∨
      MMAP_BASE < b := by
    rw [dataLimit_new]
    by_cases hb : MMAP_BASE < b
    · exact .inr hb
    refine .inl fun h => ?_
    have hbase : b ≤ 0x04000000 := not_lt.mp hb
    omega
  rw [setBrk]
  by_cases h0 : b = 0
  · simp [h0]
  by_cases hb : MMAP_BASE < b
  · simp [h0, hb]
  rw [if_neg h0, if_neg hb, if_neg (hlim.resolve_right hb), if_neg]
  rintro (h | h)
  · exact h0 h
  · exact hb h

end MemoryManager

end PosixKernel
