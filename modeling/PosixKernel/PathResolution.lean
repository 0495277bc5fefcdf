import PosixKernel.Dir

/-!
# Path Resolution

What `resolve_path` (`path.rs`) makes of a path and a working directory, and which of the calls that
take a directory descriptor (`syscalls.rs`) use it. `resolve_at_path` hands an absolute path on as
it stands, so that a `..` in it is left to whoever gets the path, and a name of the kernel behind a
`..` is not recognised.

## Main results

* `resolvePath_canonical` — resolution is a stack machine over components and gives canonical paths;
* `atPaths_canonical_iff` — when the calls with a directory descriptor use canonical paths.
-/

namespace PosixKernel

/-! ### Canonical paths -/

/-- A component that stands for itself. -/
def IsName (c : Bytes) : Prop := c ≠ [] ∧ c ≠ ascii "." ∧ c ≠ ascii ".." ∧ slash ∉ c

/-- The path to a name below other names. -/
def renderPath : List Bytes → Bytes
  | [] => [slash]
  | names => names.flatMap (slash :: ·)

/-- **A canonical path**: the root, or names with a separator before each. -/
def Canonical (path : Bytes) : Prop := ∃ names, (∀ c ∈ names, IsName c) ∧ path = renderPath names

/-- One component on a stack of names. -/
def stackStep (stack : List Bytes) (component : Bytes) : List Bytes :=
  if component = [] ∨ component = ascii "." then stack
  else if component = ascii ".." then stack.tail
  else component :: stack

/-- The stack machine over the components of a path, for a relative path after those of the working
directory. -/
def stackMachine (path cwd : Bytes) : List Bytes :=
  let start := if path.head? = some slash then [] else (cwd.splitOn slash).foldl stackStep []
  (path.splitOn slash).foldl stackStep start

variable {names kept : List Bytes} {path cwd : Bytes}

/-- The stack is the path reversed. -/
theorem reverse_stackStep (stack : List Bytes) (c : Bytes) :
    (stackStep stack c).reverse = pushComponent stack.reverse c := by
  rw [stackStep, pushComponent]
  split
  · rfl
  split
  · rw [List.dropLast_reverse]
  · exact List.reverse_cons

/-- So it is after many components. -/
theorem reverse_foldl_stackStep (components stack : List Bytes) :
    (components.foldl stackStep stack).reverse = components.foldl pushComponent stack.reverse := by
  induction components generalizing stack with
  | nil => rfl
  | cons c components ih => exact (ih _).trans (by rw [reverse_stackStep]; rfl)

/-- Normalising folds the components. -/
theorem normalizePath_eq (path : Bytes) :
    normalizePath path = renderPath ((path.splitOn slash).foldl pushComponent []) := by
  rw [normalizePath]
  rcases (path.splitOn slash).foldl pushComponent [] with _ | ⟨c, names⟩ <;> rfl

/-- The components that a path leaves, after those of the working directory. -/
theorem resolvePath_eq (path cwd : Bytes) :
    resolvePath path cwd = renderPath (stackMachine path cwd).reverse := by
  rw [stackMachine, reverse_foldl_stackStep, resolvePath]
  split
  · exact normalizePath_eq path
  rw [normalizePath_eq, reverse_foldl_stackStep]
  congr 1
  split
  next hlast =>
    -- the last component of the directory is empty
    obtain ⟨dir, rfl⟩ : ∃ dir, cwd = dir ++ [slash] := List.getLast?_eq_some_iff.mp hlast
    rw [List.append_assoc, List.singleton_append, List.splitOn_append_cons_self,
      List.splitOn_append_cons_self, List.foldl_append, List.foldl_append]
    rfl
  · rw [List.append_assoc, List.singleton_append, List.splitOn_append_cons_self, List.foldl_append]
    rfl

/-- No component has a slash. -/
theorem not_mem_of_mem_splitOn {c : Bytes} (h : c ∈ path.splitOn slash) : slash ∉ c := by
  induction path generalizing c with
  | nil => simp_all
  | cons b path ih =>
    rw [List.splitOn_cons_eq_if_modifyHead] at h
    split at h
    · rcases List.mem_cons.mp h with rfl | h
      · exact List.not_mem_nil
      · exact ih h
    next hb =>
      rcases hs : path.splitOn slash with _ | ⟨d, ds⟩
      · exact absurd hs (List.splitOn_ne_nil _ _)
      rw [hs] at h ih
      rcases List.mem_cons.mp h with rfl | h
      · exact fun hmem => (List.mem_cons.mp hmem).elim (fun heq => hb (by simp [← heq]))
          (ih List.mem_cons_self)
      · exact ih (List.mem_cons_of_mem _ h)

/-- Only names are kept. -/
theorem isName_foldl_pushComponent (h : ∀ c ∈ names, slash ∉ c) (hkept : ∀ c ∈ kept, IsName c) :
    ∀ c ∈ names.foldl pushComponent kept, IsName c := by
  induction names generalizing kept with
  | nil => exact hkept
  | cons d names ih =>
    refine ih (fun c hc => h c (List.mem_cons_of_mem _ hc)) ?_
    rw [pushComponent]
    split
    · exact hkept
    split
    · exact fun c hc => hkept c (List.mem_of_mem_dropLast hc)
    · simp_all [IsName, or_imp, forall_and]

/-- Names are all kept. -/
theorem foldl_pushComponent_names (h : ∀ c ∈ names, IsName c) :
    names.foldl pushComponent kept = kept ++ names := by
  induction names generalizing kept with
  | nil => simp
  | cons c names ih =>
    have hc := h c List.mem_cons_self
    rw [List.foldl_cons, pushComponent, if_neg (by simp [hc.1, hc.2.1]), if_neg hc.2.2.1,
      ih fun d hd => h d (List.mem_cons_of_mem _ hd), List.append_assoc]
    rfl

/-- Splitting what was joined. -/
theorem splitOn_append_flatMap {α : Type*} [DecidableEq α] {sep : α} {names : List (List α)}
    (h : ∀ c ∈ names, sep ∉ c) (x : List α) :
    (x ++ names.flatMap (sep :: ·)).splitOn sep = x.splitOn sep ++ names := by
  induction names generalizing x with
  | nil => simp
  | cons c names ih =>
    rw [List.flatMap_cons, List.cons_append, List.splitOn_append_cons_self,
      ih (fun d hd => h d (List.mem_cons_of_mem _ hd)),
      List.splitOn_eq_singleton (h c List.mem_cons_self)]
    rfl

/-- A rendered path is read back. -/
theorem foldl_splitOn_renderPath (h : ∀ c ∈ names, IsName c) :
    ((renderPath names).splitOn slash).foldl pushComponent kept = kept ++ names := by
  rcases names with _ | ⟨c, names⟩
  · exact (List.append_nil kept).symm
  have hsplit := splitOn_append_flatMap (fun d hd => (h d hd).2.2.2) []
  rw [List.nil_append] at hsplit
  rw [renderPath, hsplit, List.foldl_append]
  exacts [foldl_pushComponent_names h, by simp]

/-- A canonical path resolves to itself. -/
theorem Canonical.resolvePath_eq_self (h : Canonical path) (cwd : Bytes) :
    resolvePath path cwd = path := by
  obtain ⟨names, hnames, rfl⟩ := h
  rw [resolvePath, if_pos (by cases names <;> rfl), normalizePath_eq,
    foldl_splitOn_renderPath hnames]
  rfl

/-- The stack has only names. -/
theorem isName_stackMachine (path cwd : Bytes) :
    ∀ c ∈ (stackMachine path cwd).reverse, IsName c := by
  rw [stackMachine, reverse_foldl_stackStep]
  refine isName_foldl_pushComponent (fun _ => not_mem_of_mem_splitOn) ?_
  split
  · simp
  · rw [reverse_foldl_stackStep]
    exact isName_foldl_pushComponent (fun _ => not_mem_of_mem_splitOn) (by simp)

/-- What is resolved is canonical. -/
theorem canonical_resolvePath (path cwd : Bytes) : Canonical (resolvePath path cwd) :=
  ⟨_, isName_stackMachine path cwd, resolvePath_eq path cwd⟩

/-- **Resolution** gives a canonical path, by a stack machine over the components; resolving twice
is resolving once, and a path may be resolved piece by piece. -/
theorem resolvePath_canonical (path cwd : Bytes) :
    Canonical (resolvePath path cwd) ∧
      resolvePath path cwd = renderPath (stackMachine path cwd).reverse ∧
      (∀ dir, resolvePath (resolvePath path cwd) dir = resolvePath path cwd) ∧
      ∀ rel, path ≠ [] → rel.head? ≠ some slash →
        resolvePath (path ++ slash :: rel) cwd = resolvePath rel (resolvePath path cwd) := by
  have hcanonical := canonical_resolvePath path cwd
  refine ⟨hcanonical, resolvePath_eq path cwd, hcanonical.resolvePath_eq_self,
    fun rel hne hrel => ?_⟩
  have hhead : (path ++ slash :: rel).head? = path.head? := by
    obtain ⟨b, path, rfl⟩ := List.exists_cons_of_ne_nil hne
    rfl
  have hdir : ((resolvePath path cwd).splitOn slash).foldl stackStep [] =
      stackMachine path cwd := by
    refine List.reverse_injective ?_
    rw [reverse_foldl_stackStep, resolvePath_eq,
      foldl_splitOn_renderPath (isName_stackMachine path cwd)]
    rfl
  rw [resolvePath_eq, resolvePath_eq rel, stackMachine, hhead, List.splitOn_append_cons_self,
    List.foldl_append, stackMachine, if_neg hrel, hdir]
  rfl

/-! ### Paths below a directory descriptor -/

def AT_FDCWD : ℤ := -100

/-- Resolve a path against a directory descriptor. An absolute path is handed on as it stands. -/
def resolveAtPath (p : Process) (dirfd : ℤ) (path : Bytes) : Except Errno Bytes :=
  if path.head? = some slash then .ok path
  else if dirfd = AT_FDCWD then .ok (resolvePath path p.cwd)
  else
    match ofdOf p dirfd with
    | .error e => .error e
    | .ok (_, o) =>
      if o.fileType ≠ .Directory then .error .ENOTDIR else .ok (resolvePath path o.path)

/-- The path of `utimensat`; without one, the path that the descriptor was opened with. -/
def utimensatPath (p : Process) (dirfd : ℤ) (path : Bytes) : Except Errno Bytes :=
  if path = [] ∧ dirfd ≠ AT_FDCWD then (ofdOf p dirfd).map (·.2.path)
  else resolveAtPath p dirfd path

/-- The description that `openat` leads to, once its path is resolved. -/
def openatTarget (H : HostIO) (E : ProcfsEnv) (c : Ctx) (resolved : Bytes) (oflags mode : UInt32) :
    Except Errno (ℕ × UInt32) × Ctx :=
  match matchDevFd resolved with
  | some targetFd => openDevFd c targetFd oflags
  | none =>
    match matchVirtualDevice resolved with
    | some dev => openDevice c dev resolved oflags
    | none =>
      if resolved = ascii "/dev/ptmx" then openPtmx c resolved oflags
      else
        match afterPrefix (ascii "/dev/pts/") resolved with
        | some num => openPts c num resolved oflags
        | none =>
          if resolved = ascii "/dev/tty" then openTty c oflags
          else
            match matchProcfs resolved c.proc.pid with
            | some entry => procfsOpen E c entry resolved oflags
            | none =>
              if matchDevfsDir resolved then devfsOpenDir c resolved oflags
              else
                openHostPath H c resolved oflags
                  (if hasFlag oflags O_CREAT then mode &&& ~~~ c.proc.umask else mode)

/-- Open a path below a directory descriptor. -/
def sysOpenat (H : HostIO) (E : ProcfsEnv) (c : Ctx) (dirfd : ℤ) (path : Bytes)
    (oflags mode : UInt32) : Except Errno ℤ × Ctx :=
  match resolveAtPath c.proc dirfd path with
  | .error e => (.error e, c)
  | .ok resolved =>
    match openatTarget H E c resolved oflags mode with
    | (.error e, c) => (.error e, c)
    | (.ok (ofdRef, fdFlags), c) => allocFd c ofdRef fdFlags

/-- **The condition**: an absolute path is canonical, and where `utimensat` gets none, so is the
path that the descriptor was opened with. -/
def AtSafe (p : Process) (dirfd : ℤ) (path : Bytes) : Prop :=
  (path.head? = some slash → Canonical path) ∧
    (path = [] → dirfd ≠ AT_FDCWD → ∀ idx o, ofdOf p dirfd = .ok (idx, o) → Canonical o.path)

/-- So it is at a descriptor. -/
theorem canonical_resolveAtPath {p : Process} {dirfd : ℤ} {resolved : Bytes}
    (habs : path.head? = some slash → Canonical path)
    (h : resolveAtPath p dirfd path = .ok resolved) : Canonical resolved := by
  rw [resolveAtPath] at h
  split at h
  next hhead => exact Except.ok.inj h ▸ habs hhead
  split at h
  · exact Except.ok.inj h ▸ canonical_resolvePath _ _
  split at h
  · cases h
  split at h
  · cases h
  · exact Except.ok.inj h ▸ canonical_resolvePath _ _

/-- **Paths of calls with a directory descriptor.** `openat` from the working directory is `open`,
and all paths that these calls use are canonical, exactly under the condition. -/
theorem atPaths_canonical_iff (H : HostIO) (E : ProcfsEnv) (c : Ctx) (dirfd : ℤ) (path : Bytes) :
    ((∀ oflags mode, sysOpenat H E c AT_FDCWD path oflags mode = sysOpen H E c path oflags mode) ∧
        (∀ resolved, resolveAtPath c.proc dirfd path = .ok resolved → Canonical resolved) ∧
        ∀ resolved, utimensatPath c.proc dirfd path = .ok resolved → Canonical resolved) ↔
      AtSafe c.proc dirfd path := by
  constructor
  · rintro ⟨-, hpath, htimes⟩
    refine ⟨fun hhead => hpath path (if_pos hhead), fun hnil hcwd idx o ho => htimes _ ?_⟩
    rw [utimensatPath, if_pos ⟨hnil, hcwd⟩, ho]
    rfl
  rintro ⟨habs, hdesc⟩
  refine ⟨fun oflags mode => ?_, fun _ => canonical_resolveAtPath habs, fun resolved h => ?_⟩
  · have hresolved : resolveAtPath c.proc AT_FDCWD path = .ok (resolvePath path c.proc.cwd) := by
      rw [resolveAtPath]
      split
      next hhead => rw [(habs hhead).resolvePath_eq_self]
      next => rfl
    rw [sysOpenat, hresolved]
    rfl
  · rw [utimensatPath] at h
    split at h
    next hnil =>
      rcases ho : ofdOf c.proc dirfd with e | ⟨idx, o⟩
      · rw [ho] at h
        cases h
      · rw [ho] at h
        exact Except.ok.inj h ▸ hdesc hnil.1 hnil.2 idx o ho
    · exact canonical_resolveAtPath habs h

/-- The null device behind a `..`: `open` knows it, `openat` asks the host. -/
theorem atPaths_not_canonical :
    let path := ascii "/tmp/../dev/null"
    let c : Ctx := ⟨.boot, .new 1⟩
    resolveAtPath c.proc AT_FDCWD path = .ok path ∧
      resolvePath path c.proc.cwd = ascii "/dev/null" ∧
      (sysOpen .barren .bare c path 0 0).1 = .ok 3 ∧
      (sysOpenat .barren .bare c AT_FDCWD path 0 0).1 = .error .ENOENT := by
  decide

end PosixKernel
