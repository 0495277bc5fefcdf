import PosixKernel.Reachable

/-!
# What Processes Inherit and Return

A new process is counted as a holder of what it inherits, and a removed one gives back what
its sockets share. Host files are counted for a new process and not given back by a removed
one.

## Main results

* `Process.count_inherited_of_ne` — what is no pipe is counted once for every holder;
* `Process.count_returned_of_ne`, `hostFile_not_mem_returned` — what a removed process gives
  back.
-/

namespace PosixKernel

open OpenFileDesc SlotTable Process

namespace Process

variable {r : Resource}

/-- The buffers of a socket are pipes. -/
theorem count_pipeEnds_of_ne (hr : ∀ idx e, r ≠ .pipe idx e) (s : SocketInfo) :
    s.pipeEnds.count r = 0 := by
  rw [List.count_eq_zero, SocketInfo.pipeEnds]
  intro hmem
  split at hmem
  · rcases List.mem_append.mp hmem with h | h
    all_goals
      obtain ⟨idx, -, rfl⟩ := List.mem_map.mp h
      exact hr _ _ rfl
  · cases hmem

/-- **What is no pipe is counted once for every holder.** -/
theorem count_inherited_of_ne (hr : ∀ idx e, r ≠ .pipe idx e) (p : Process) :
    p.inherited.count r = p.holds r := by
  have hends := count_pipeEnds_of_ne hr
  have hofds : (p.ofdTable.total fun o => weight (fun s : SocketInfo => s.pipeEnds.count r)
      (o.socketSlot.bind p.sockets.get)) = 0 := by
    refine total_eq_zero_iff.mpr fun _ o _ => ?_
    rcases o.socketSlot.bind p.sockets.get with _ | s
    · rfl
    · exact hends s
  have hsocks : p.sockets.total (·.resources.count r) = p.sockets.total (·.shared.count r) := by
    refine congrArg p.sockets.total (funext fun s => ?_)
    rw [SocketInfo.resources, List.count_append, hends, Nat.zero_add]
  rw [count_inherited, hofds, Nat.add_zero, holds, hsocks]

/-- The ends of a description are pipes. -/
theorem count_ofdEnds_of_ne (hpipe : ∀ idx e, r ≠ .pipe idx e) (o : OpenFileDesc) :
    o.pipeEnds.count r = 0 := by
  rw [List.count_eq_zero, pipeEnds]
  split
  · simpa using hpipe _ _
  · exact List.not_mem_nil

/-- Its sides are terminals. -/
theorem count_ptySides_of_ne (hpty : ∀ idx e, r ≠ .pty idx e) (o : OpenFileDesc) :
    o.ptySides.count r = 0 := by
  rw [List.count_eq_zero, ptySides]
  split
  · simpa using hpty _ _
  · simpa using hpty _ _
  · exact List.not_mem_nil

/-- What its socket had queued is pipes. -/
theorem count_removedSocketEnds_of_ne (hpipe : ∀ idx e, r ≠ .pipe idx e) (p : Process)
    (o : OpenFileDesc) : (o.removedSocketEnds p.sockets).count r = 0 := by
  have hends := count_pipeEnds_of_ne hpipe
  rw [removedSocketEnds]
  split
  · split
    · rfl
    rw [List.count_append, hends, SocketInfo.backlogEnds, Nat.zero_add, List.count_eq_zero]
    intro hmem
    obtain ⟨j, -, hmem⟩ := List.mem_flatMap.mp hmem
    split at hmem
    · exact List.not_mem_nil hmem
    · exact absurd (List.count_pos_iff.mpr hmem) (by rw [hends]; simp)
  · rfl

/-- Of what is neither a pipe nor a terminal, a removed process gives back what its sockets
share. -/
theorem count_returned_of_ne (hpipe : ∀ idx e, r ≠ .pipe idx e) (hpty : ∀ idx e, r ≠ .pty idx e)
    (p : Process) : p.returned.count r = p.sockets.total (·.shared.count r) := by
  have hnone : ∀ f : OpenFileDesc → ℕ, (∀ o, f o = 0) → p.ofdTable.total f = 0 :=
    fun f hf => total_eq_zero_iff.mpr fun _ o _ => hf o
  simp [returned, count_flatMap_values, hnone _ (count_ofdEnds_of_ne hpipe),
    hnone _ (count_ptySides_of_ne hpty), hnone _ (count_removedSocketEnds_of_ne hpipe p)]

end Process

/-- A removed process gives back no host file. -/
theorem hostFile_not_mem_returned (p : Process) (h : ℤ) : .hostFile h ∉ p.returned := by
  rw [← List.count_eq_zero, count_returned_of_ne (by simp) (by simp),
    total_eq_zero_iff]
  exact fun j sock _ => List.count_eq_zero.mpr (by simp [SocketInfo.shared])

end PosixKernel
