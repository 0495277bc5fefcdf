import Mathlib.Algebra.Order.Ring.Nat
import Mathlib.Data.List.Basic
import Mathlib.Tactic.Ring

/-!
# Byte Streams: Bounded Writers and Consuming Readers

A writer appends chunks to a buffer of fixed capacity and fails on the chunk that does
not fit. A reader is a computation that consumes bytes from the front of a stream and
may fail. The two meet in `Reads e r bs c a`: on any stream that starts with the bytes
`bs`, the reader `r` returns `a` and leaves exactly what follows `bs` if the condition
`c` holds, and fails with `e` otherwise. Round trips compose, one rule per way of
building a reader.

## Main results

* `writeAll_eq` — a sequence of bounded writes succeeds exactly when all of it fits;
* `leNat_leBytes` — a little-endian word reads back modulo its width;
* `Reads.bind`, `Reads.readMany` — the sequencing rule and the counted-loop rule.
-/

namespace ByteCodec

variable {ε α β γ : Type}

/-! ### Little-endian words -/

/-- The `w` low bytes of `n`, least significant first. -/
def leBytes : ℕ → ℕ → List UInt8
  | 0, _ => []
  | w + 1, n => UInt8.ofNat n :: leBytes w (n / 256)

/-- The number a little-endian byte sequence denotes. -/
def leNat : List UInt8 → ℕ
  | [] => 0
  | b :: bs => b.toNat + 256 * leNat bs

/-- A word has its width. -/
@[simp] theorem length_leBytes (w n : ℕ) : (leBytes w n).length = w := by
  induction w generalizing n with
  | zero => rfl
  | succ w ih => simp [leBytes, ih]

/-- It is read back modulo its range. -/
theorem leNat_leBytes (w n : ℕ) : leNat (leBytes w n) = n % 256 ^ w := by
  induction w generalizing n with
  | zero => simp [leBytes, leNat, Nat.mod_one]
  | succ w ih =>
    have hbyte : (UInt8.ofNat n).toNat = n % 256 := by simp
    rw [leBytes, leNat, ih, hbyte, pow_succ, mul_comm (256 ^ w) 256, Nat.mod_mul]

/-- What is read is in range. -/
theorem leNat_lt (bs : List UInt8) : leNat bs < 256 ^ bs.length := by
  induction bs with
  | nil => exact Nat.one_pos
  | cons b bs ih =>
    have := b.toNat_lt
    rw [leNat, List.length_cons, pow_succ]
    omega

/-! ### Bounded writers -/

/-- Append a chunk to the output, unless it would pass the capacity. -/
def write (e : ε) (cap : ℕ) (out bs : List UInt8) : Except ε (List UInt8) :=
  if cap < out.length + bs.length then .error e else .ok (out ++ bs)

/-- Append chunks in turn, stopping at the first that does not fit. -/
def writeAll (e : ε) (cap : ℕ) (out : List UInt8) :
    List (List UInt8) → Except ε (List UInt8)
  | [] => .ok out
  | c :: cs =>
    match write e cap out c with
    | .error e => .error e
    | .ok out => writeAll e cap out cs

/-- **A sequence of writes succeeds exactly when all of it fits.** -/
theorem writeAll_eq (e : ε) {cap : ℕ} {out : List UInt8} (hout : out.length ≤ cap)
    (chunks : List (List UInt8)) : writeAll e cap out chunks =
      if cap < out.length + chunks.flatten.length then .error e
      else .ok (out ++ chunks.flatten) := by
  induction chunks generalizing out with
  | nil =>
    rw [writeAll, if_neg (by simpa using hout)]
    simp
  | cons c cs ih =>
    rw [writeAll, write]
    by_cases hc : cap < out.length + c.length
    · rw [if_pos hc, if_pos]
      rw [List.flatten_cons, List.length_append]
      omega
    rw [if_neg hc]
    have hlen : (out ++ c).length = out.length + c.length := List.length_append
    simp only
    rw [ih (by omega), hlen, List.flatten_cons, List.length_append, List.append_assoc,
      add_assoc]

/-! ### Consuming readers -/

/-- A computation that consumes bytes from the front of a stream and may fail. -/
abbrev Reader (ε α : Type) := StateT (List UInt8) (Except ε) α

/-- Read exactly `n` bytes. -/
def readBytes (e : ε) (n : ℕ) : Reader ε (List UInt8) := fun s =>
  if s.length < n then .error e else .ok (s.take n, s.drop n)

/-- Read a little-endian word of `w` bytes. -/
def readWord (e : ε) (w : ℕ) : Reader ε ℕ := leNat <$> readBytes e w

/-- Fail unless the condition holds. -/
def require (e : ε) (c : Bool) : Reader ε Unit := fun s =>
  if c then .ok ((), s) else .error e

/-- Run a reader a given number of times and collect the results. -/
def readMany : ℕ → Reader ε α → Reader ε (List α)
  | 0, _ => pure []
  | n + 1, r => do
    let a ← r
    let as ← readMany n r
    pure (a :: as)

/-- Read on only while enough bytes are left; otherwise take a default. -/
def ifRemaining (n : ℕ) (d : α) (r : Reader ε α) : Reader ε α := fun s =>
  if n ≤ s.length then r s else .ok (d, s)

/-- Take a default, without moving, where a reader fails. -/
def orDefault (d : α) (r : Reader ε α) : Reader ε α := fun s =>
  match r s with
  | .ok x => .ok x
  | .error _ => .ok (d, s)

/-- On a stream that starts with `bs`, the reader returns `a` and leaves what follows
`bs` if the condition holds, and fails with `e` if it does not. -/
def Reads (e : ε) (r : Reader ε α) (bs : List UInt8) (c : Prop) (a : α) : Prop :=
  ∀ rest, (c → r (bs ++ rest) = .ok (a, rest)) ∧ (¬ c → r (bs ++ rest) = .error e)

variable {e : ε} {c d : Prop} {bs cs : List UInt8} {a : α} {b : β}

variable {r : Reader ε α}

/-- A reader that cannot fail. -/
theorem Reads.of_ok (h : ∀ rest, r (bs ++ rest) = .ok (a, rest)) : Reads e r bs True a :=
  fun rest => ⟨fun _ => h rest, fun hc => absurd trivial hc⟩

/-- The condition may be restated. -/
theorem Reads.congr (h : Reads e r bs c a) (hc : c ↔ d) : Reads e r bs d a := by
  rwa [propext hc] at h

/-- Nothing is read from nothing. -/
theorem Reads.pure (a : α) : Reads e (Pure.pure a : Reader ε α) [] True a :=
  .of_ok fun _ => rfl

/-- **Sequencing**: the second reader starts where the first one stopped. -/
theorem Reads.bind {f : α → Reader ε β} (hr : Reads e r bs c a) (hf : Reads e (f a) cs d b) :
    Reads e (r >>= f) (bs ++ cs) (c ∧ d) b := by
  intro rest
  have hrun : (r >>= f) (bs ++ cs ++ rest) =
      (do let (a, s) ← r (bs ++ (cs ++ rest)); f a s) := by
    rw [List.append_assoc]
    rfl
  obtain ⟨hok, herr⟩ := hr (cs ++ rest)
  rw [hrun]
  by_cases hc : c
  · rw [hok hc]
    obtain ⟨hok', herr'⟩ := hf rest
    exact ⟨fun h => hok' h.2, fun h => herr' fun hd => h ⟨hc, hd⟩⟩
  · rw [herr hc]
    exact ⟨fun h => absurd h.1 hc, fun _ => rfl⟩

/-- The last step of a sequence. -/
theorem Reads.bind_pure {f : α → β} (hr : Reads e r bs c a) :
    Reads e (r >>= fun a => Pure.pure (f a)) bs c (f a) := by
  have h := hr.bind (f := fun a => (Pure.pure (f a) : Reader ε β)) (Reads.pure (f a))
  rw [List.append_nil] at h
  exact h.congr (and_iff_left trivial)

/-- What is read may be mapped. -/
theorem Reads.map (f : α → β) (hr : Reads e r bs c a) : Reads e (f <$> r) bs c (f a) := by
  rw [map_eq_pure_bind]
  exact hr.bind_pure

/-- Bytes are read back. -/
theorem reads_readBytes {n : ℕ} (h : bs.length = n) : Reads e (readBytes e n) bs True bs := by
  subst h
  refine .of_ok fun rest => ?_
  have hlen : ¬ (bs ++ rest).length < bs.length := by
    rw [List.length_append]
    omega
  rw [readBytes, if_neg hlen, List.take_left, List.drop_left]

/-- A word is read back modulo its range. -/
theorem reads_readWord (w n : ℕ) : Reads e (readWord e w) (leBytes w n) True (n % 256 ^ w) := by
  rw [← leNat_leBytes]
  exact (reads_readBytes (length_leBytes w n)).map leNat

/-- A check passes when it holds. -/
theorem reads_require (q : Bool) : Reads e (require e q) [] (q = true) () := by
  intro rest
  cases q with
  | false => exact ⟨fun h => absurd h (by simp), fun _ => rfl⟩
  | true => exact ⟨fun _ => rfl, fun h => absurd rfl h⟩

/-- What is there is read. -/
theorem Reads.ifRemaining {n : ℕ} (dflt : α) (h : Reads e r bs c a) (hn : n ≤ bs.length) :
    Reads e (ifRemaining n dflt r) bs c a := by
  intro rest
  have hlen : n ≤ (bs ++ rest).length := by
    rw [List.length_append]
    omega
  rw [ByteCodec.ifRemaining, if_pos hlen]
  exact h rest

/-- What can be read is not defaulted. -/
theorem Reads.orDefault (dflt : α) (h : Reads e r bs True a) :
    Reads e (orDefault dflt r) bs True a := by
  refine .of_ok fun rest => ?_
  rw [ByteCodec.orDefault, (h rest).1 trivial]

/-- **Counted loops**: reading as many items as were written, each in its own
encoding. -/
theorem Reads.readMany {r : Reader ε β} {enc : α → List UInt8} {cond : α → Prop}
    {val : α → β} (xs : List α) (h : ∀ x ∈ xs, Reads e r (enc x) (cond x) (val x)) :
    Reads e (readMany xs.length r) (xs.flatMap enc) (∀ x ∈ xs, cond x) (xs.map val) := by
  induction xs with
  | nil => exact (Reads.pure []).congr (by simp)
  | cons x xs ih =>
    have htail := ih fun y hy => h y (List.mem_cons_of_mem _ hy)
    exact ((h x List.mem_cons_self).bind htail.bind_pure).congr (by simp)

end ByteCodec
