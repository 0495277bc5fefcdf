import PosixKernel.Lib.LossyQueue
import PosixKernel.Lib.Runs
import PosixKernel.Shared

/-!
# The Queues of the Audio Device and the Mouse

The ring of `/dev/dsp` (`audio.rs`) and the queue of `/dev/input/mice` (`mouse.rs`). Both drop
whole units from the front when they are full: frames of samples, or packets of three bytes. The
ring is drained in whole frames, and no write is longer than a channel of the host, so that a unit
is always there to be dropped. The queue of the mouse is read in pieces of any size, and what is
dropped are three bytes from wherever the reader has got to.

## Main results

* `Audio.drains_whole_frames` — what is drained are frames of the stream, in order;
* `Mouse.reads_packets` — what is read are packets, if no packet is half read when another one has
  to be dropped;
* `Mouse.reads_torn_packet` — a history in which one is.
-/

namespace PosixKernel

open LossyQueue

namespace Audio

def MAX_QUEUED_BYTES : ℕ := 256 * 1024

/-- The most that the host hands over in one call (`CH_DATA_SIZE`). -/
def CHANNEL_BYTES : ℕ := 65536

def frameBytes (channels : ℕ) : ℕ := 2 * max channels 1

def writePcm (channels : ℕ) (ring data : Bytes) : Bytes :=
  makeRoom MAX_QUEUED_BYTES (frameBytes channels) data.length ring ++ data

/-- What is drained into a buffer of some size, and the ring that is left. -/
def drainInto (channels : ℕ) (ring : Bytes) (want : ℕ) : Bytes × Bytes :=
  let n := min want ring.length / frameBytes channels * frameBytes channels
  (ring.take n, ring.drop n)

inductive Call
  | write (data : Bytes)
  | drain (want : ℕ)

/-- The ring with all that was written and the blocks that were drained since it was cleared. -/
structure History where
  ring : Bytes
  written : Bytes
  drained : List Bytes

namespace History

def new : History := ⟨[], [], []⟩

def next (channels : ℕ) (s : History) : Call → History
  | .write data => { s with
      ring := writePcm channels s.ring data
      written := s.written ++ data }
  | .drain want => { s with
      ring := (drainInto channels s.ring want).2
      drained := s.drained ++ [(drainInto channels s.ring want).1] }

/-- The ring is the end of the stream from a boundary of frames on, behind all that was drained. -/
structure Framed (frame : ℕ) (s : History) : Prop where
  cut : ∃ stop start, CutOut frame s.written s.drained stop ∧ stop ≤ start ∧ frame ∣ start ∧
    start ≤ s.written.length ∧ s.ring = s.written.drop start
  bounded : s.ring.length ≤ MAX_QUEUED_BYTES

/-- One call keeps the ring on a boundary. -/
theorem Framed.next {channels : ℕ} {s : History} (h : s.Framed (frameBytes channels))
    (hchannels : channels = 1 ∨ channels = 2) {call : Call}
    (hcall : ∀ data, call = .write data → data.length ≤ CHANNEL_BYTES) :
    (s.next channels call).Framed (frameBytes channels) := by
  have hframe : 0 < frameBytes channels ∧ frameBytes channels ≤ 4 := by
    rcases hchannels with rfl | rfl <;> decide
  obtain ⟨⟨stop, start, hcut, hstop, hstart, hle, hring⟩, hbounded⟩ := h
  cases call with
  | write data =>
    have hdata := hcall data rfl
    simp only [CHANNEL_BYTES] at hdata
    -- a write fits in the room that is left when the ring is down to less than a frame
    obtain ⟨k, heq, hk, hroom⟩ := exists_makeRoom hframe.1
      (by simp only [MAX_QUEUED_BYTES]; omega :
        data.length + frameBytes channels ≤ MAX_QUEUED_BYTES + 1) s.ring
    rw [hring] at heq hk hroom
    rw [List.length_drop] at hk
    refine ⟨⟨stop, start + k * frameBytes channels, hcut.append data, by omega,
      (Nat.dvd_add_right hstart).mpr ⟨k, Nat.mul_comm _ _⟩, ?_, ?_⟩, ?_⟩
    · simp only [History.next, List.length_append]
      omega
    · simp only [History.next, writePcm, hring, heq, List.drop_drop]
      exact (List.drop_append_of_le_length (by omega)).symm
    · simpa only [History.next, writePcm, hring, List.length_append] using hroom
  | drain want =>
    generalize hn : min want s.ring.length / frameBytes channels * frameBytes channels = n
    have hlen : n ≤ s.ring.length := by
      rw [← hn]
      exact (Nat.div_mul_le_self _ _).trans (min_le_right _ _)
    have hunit : frameBytes channels ∣ n := ⟨_, by rw [← hn, Nat.mul_comm]⟩
    have htake : (s.ring.take n).length = n := by rw [List.length_take, min_eq_left hlen]
    have hblock := hcut.block hstop hstart (htake ▸ hunit) (hring ▸ s.ring.take_prefix n)
    rw [hring, List.length_drop] at hlen
    simp only [History.next, drainInto, hn]
    refine ⟨⟨_, start + n, hblock, by rw [htake], (Nat.dvd_add_right hstart).mpr hunit, by
      simp only
      omega, ?_⟩, ?_⟩
    · simp only [hring, List.drop_drop]
    · rw [List.length_drop]
      exact (Nat.sub_le _ _).trans hbounded

end History

/-- **Whole frames, in order.** Whatever is written, in calls that the host can make, and drained:
the drained blocks are cut out of the stream in whole frames, from boundaries of frames, one after
the other, and the ring keeps its bound. -/
theorem drains_whole_frames {channels : ℕ} (hchannels : channels = 1 ∨ channels = 2)
    (calls : List Call) (hcalls : ∀ data, .write data ∈ calls → data.length ≤ CHANNEL_BYTES) :
    let s := calls.foldl (History.next channels) .new
    (∃ stop, CutOut (frameBytes channels) s.written s.drained stop) ∧
      s.ring.length ≤ MAX_QUEUED_BYTES := by
  have hrun : Runs (History.next channels)
      (fun _ call => ∀ data, call = .write data → data.length ≤ CHANNEL_BYTES) .new calls :=
    .of_forall_mem fun call hmem data heq => hcalls data (heq ▸ hmem)
  obtain ⟨⟨stop, -, hcut, -⟩, hbounded⟩ := hrun.invariant (I := History.Framed _)
    ⟨⟨0, 0, .none, le_rfl, Nat.dvd_zero _, le_rfl, rfl⟩, Nat.zero_le _⟩
    fun s call h hcall => h.next hchannels hcall
  exact ⟨⟨stop, hcut⟩, hbounded⟩

/-- Five bytes are written, and one frame of two channels is drained. -/
theorem drains_whole_frames_five :
    ∃ stop, CutOut 4 [1, 2, 3, 4, 5]
      ([Call.write [1, 2, 3, 4, 5], .drain 7].foldl (History.next 2) .new).drained stop := by
  have h := drains_whole_frames (.inr rfl) [.write [1, 2, 3, 4, 5], .drain 7] (by
    intro data hmem
    simp at hmem
    simp [hmem, CHANNEL_BYTES])
  exact h.1

end Audio

namespace Mouse

def PACKET_LEN : ℕ := 3

def MAX_QUEUED_BYTES : ℕ := 4096 * PACKET_LEN

/-- The packet of an event, in the encoding of PS/2 mice. -/
def packet (dx dy : ℤ) (buttons : UInt32) : Bytes :=
  let dx := max (-128) (min 127 dx)
  let dy := max (-128) (min 127 dy)
  [0x08 ||| (buttons &&& 0x07).toUInt8 ||| (if dx < 0 then 0x10 else 0) |||
    (if dy < 0 then 0x20 else 0), .ofInt dx, .ofInt dy]

def injectEvent (q p : Bytes) : Bytes := makeRoom MAX_QUEUED_BYTES PACKET_LEN PACKET_LEN q ++ p

/-- What is read into a buffer of some size, and the queue that is left. -/
def readInto (q : Bytes) (n : ℕ) : Bytes × Bytes := (q.take n, q.drop n)

inductive Call
  | inject (dx dy : ℤ) (buttons : UInt32)
  | read (n : ℕ)

/-- The queue with the packets that came in and the bytes that were read. -/
structure History where
  queue : Bytes
  injected : List Bytes
  taken : Bytes

namespace History

def new : History := ⟨[], [], []⟩

def next (s : History) : Call → History
  | .inject dx dy buttons => { s with
      queue := injectEvent s.queue (packet dx dy buttons)
      injected := s.injected ++ [packet dx dy buttons] }
  | .read n => { s with
      queue := (readInto s.queue n).2
      taken := s.taken ++ (readInto s.queue n).1 }

/-- The bytes read are packets that were injected, in their order; the last may be incomplete. -/
def InPackets (s : History) : Prop :=
  ∃ packets : List Bytes, packets.Sublist s.injected ∧ s.taken <+: packets.flatten ∧
    packets.flatten.length < s.taken.length + PACKET_LEN

/-- No packet is half read when one has to be dropped. -/
def Undivided (s : History) : Call → Prop
  | .inject .. => s.queue.length + PACKET_LEN ≤ MAX_QUEUED_BYTES ∨ PACKET_LEN ∣ s.queue.length
  | .read _ => True

/-- What was read and what is queued are packets, in the order in which they were injected. -/
structure Packed (s : History) : Prop where
  whole : ∀ p ∈ s.injected, p.length = PACKET_LEN
  packets : ∃ packets : List Bytes,
    packets.Sublist s.injected ∧ packets.flatten = s.taken ++ s.queue

theorem Packed.next {s : History} (h : s.Packed) {call : Call} (hcall : s.Undivided call) :
    (s.next call).Packed := by
  obtain ⟨hwhole, packets, hsub, hflat⟩ := h
  cases call with
  | read n =>
    refine ⟨hwhole, packets, hsub, ?_⟩
    simp only [History.next, readInto, List.append_assoc, List.take_append_drop, hflat]
  | inject dx dy buttons =>
    refine ⟨List.forall_mem_append.mpr ⟨hwhole, List.forall_mem_singleton.mpr rfl⟩, ?_⟩
    simp only [History.next, injectEvent]
    rcases hcall with hroom | hphase
    · refine ⟨packets ++ [packet dx dy buttons], hsub.append (.refl _), ?_⟩
      rw [makeRoom_of_le hroom, List.flatten_append, hflat, List.flatten_singleton,
        List.append_assoc]
    -- the front of the queue is the front of a packet, and packets go from there
    have hall : ∀ p ∈ packets, p.length = PACKET_LEN := fun p hp => hwhole p (hsub.subset hp)
    have hlen := congrArg List.length hflat
    rw [length_flatten hall, List.length_append] at hlen
    obtain ⟨i, hi⟩ : PACKET_LEN ∣ s.taken.length :=
      (Nat.dvd_add_left hphase).mp ⟨packets.length, by rw [← hlen, Nat.mul_comm]⟩
    rw [Nat.mul_comm] at hi
    obtain ⟨k, heq, -⟩ := exists_makeRoom (by decide : 0 < PACKET_LEN)
      (by decide : PACKET_LEN + PACKET_LEN ≤ MAX_QUEUED_BYTES + 1) s.queue
    have htaken : (packets.take i).flatten = s.taken := by
      rw [← take_flatten hall, hflat, ← hi, List.take_left]
    have hqueue : (packets.drop i).flatten = s.queue := by
      rw [← drop_flatten hall, hflat, ← hi, List.drop_left]
    refine ⟨packets.take i ++ packets.drop (i + k) ++ [packet dx dy buttons], ?_, ?_⟩
    · refine (List.Sublist.append ?_ (.refl _)).trans (hsub.append (.refl _))
      conv_rhs => rw [← packets.take_append_drop i]
      rw [← List.drop_drop]
      exact (List.Sublist.refl _).append (List.drop_sublist _ _)
    · rw [List.flatten_append, List.flatten_append, htaken, List.flatten_singleton, heq, ← hqueue,
        drop_flatten fun p hp => hall p (List.mem_of_mem_drop hp), List.drop_drop,
        List.append_assoc]

theorem Packed.inPackets {s : History} (h : s.Packed) : s.InPackets := by
  obtain ⟨hwhole, packets, hsub, hflat⟩ := h
  have hall : ∀ p ∈ packets, p.length = PACKET_LEN := fun p hp => hwhole p (hsub.subset hp)
  have htake := take_flatten hall ((s.taken.length + 2) / PACKET_LEN)
  refine ⟨packets.take ((s.taken.length + 2) / PACKET_LEN), (List.take_sublist _ _).trans hsub, ?_,
    ?_⟩
  · rw [← htake, hflat, List.take_append, List.take_of_length_le]
    · exact List.prefix_append _ _
    · simp only [PACKET_LEN]
      omega
  · rw [← htake, List.length_take]
    simp only [PACKET_LEN]
    omega

end History

/-- **Reading packets.** In every run in which no packet is half read when one has to be dropped,
the bytes that were read are packets that were injected, in their order, the last one perhaps
incomplete. -/
theorem reads_packets (calls : List Call)
    (hrun : Runs History.next History.Undivided .new calls) :
    (calls.foldl History.next .new).InPackets := by
  have hpacked := hrun.invariant (I := History.Packed) ⟨by simp [History.new], [], .slnil, rfl⟩
    fun s call h hcall => h.next hcall
  exact hpacked.inPackets

/-- One event is read in two pieces. -/
theorem reads_packets_two_pieces :
    ([Call.inject 1 1 0, .read 1, .read 2].foldl History.next .new).InPackets :=
  reads_packets _ ⟨.inl (by decide), trivial, trivial, trivial⟩

/-- Events that find room are queued behind each other. -/
theorem foldl_inject (dx dy : ℤ) (buttons : UInt32) (n : ℕ) (s : History)
    (hroom : s.queue.length + n * PACKET_LEN ≤ MAX_QUEUED_BYTES) :
    (List.replicate n (Call.inject dx dy buttons)).foldl History.next s =
      ⟨s.queue ++ (List.replicate n (packet dx dy buttons)).flatten,
        s.injected ++ List.replicate n (packet dx dy buttons), s.taken⟩ := by
  induction n generalizing s with
  | zero => simp
  | succ n ih =>
    rw [Nat.succ_mul] at hroom
    have hqueue : injectEvent s.queue (packet dx dy buttons) = s.queue ++ packet dx dy buttons := by
      rw [injectEvent, makeRoom_of_le (by omega)]
    rw [List.replicate_succ, List.foldl_cons, ih]
    · simp [History.next, hqueue, List.replicate_succ]
    · have hpacket : (packet dx dy buttons).length = PACKET_LEN := rfl
      simp only [History.next, hqueue, List.length_append, hpacket]
      omega

/-- One byte of a packet is read from a full queue, another packet comes in, and two bytes more
are read. -/
theorem torn_of_full {calls : List Call} (rest : Bytes) (moved : List Bytes)
    (hfull : calls.foldl History.next .new =
      ⟨9 :: 0 :: 0 :: 8 :: 1 :: 1 :: rest, [9, 0, 0] :: moved, []⟩)
    (hlen : rest.length + 6 = MAX_QUEUED_BYTES) (hmoved : ∀ p ∈ moved, p = [8, 1, 1]) :
    ¬ ((calls ++ [Call.read 1, .inject 1 1 0, .read 2]).foldl History.next .new).InPackets := by
  -- two bytes of the first packet and one of the next are dropped
  have hdropped : makeRoom MAX_QUEUED_BYTES PACKET_LEN PACKET_LEN (0 :: 0 :: 8 :: 1 :: 1 :: rest) =
      1 :: 1 :: rest := by
    have hpacket : PACKET_LEN = 3 := rfl
    have hlong : (0 :: 0 :: 8 :: 1 :: 1 :: rest).length = rest.length + 5 := rfl
    rw [makeRoom, if_pos (by omega)]
    exact makeRoom_of_le (by simp only [hpacket, List.drop, List.length_cons]; omega)
  rw [List.foldl_append, hfull]
  rintro ⟨packets, hsub, htaken, -⟩
  simp only [List.foldl_cons, List.foldl_nil, History.next, injectEvent, readInto, List.take,
    List.drop, hdropped, List.nil_append, List.cons_append] at hsub htaken
  rcases packets with _ | ⟨p, packets⟩
  · cases List.prefix_nil.mp htaken
  have hp : p = [9, 0, 0] ∨ p = [8, 1, 1] := by
    rcases List.mem_cons.mp (hsub.subset List.mem_cons_self) with hp | hp
    · exact .inl hp
    rcases List.mem_append.mp hp with hp | hp
    · exact .inr (hmoved p hp)
    · exact .inr (List.mem_singleton.mp hp)
  rcases hp with rfl | rfl <;> simp [List.cons_prefix_cons] at htaken

/-- A button is pressed and the mouse moves until the queue is full; one byte is read, the mouse
moves once more, and two further bytes are read. -/
def tornHistory : List Call :=
  .inject 0 0 1 :: List.replicate 4095 (.inject 1 1 0) ++ [.read 1, .inject 1 1 0, .read 2]

/-- **A packet that is torn.** The three bytes that are read are no packet. -/
theorem reads_torn_packet : ¬ (tornHistory.foldl History.next .new).InPackets := by
  have hpressed : History.new.next (.inject 0 0 1) = ⟨[9, 0, 0], [[9, 0, 0]], []⟩ :=
    foldl_inject 0 0 1 1 .new (by decide)
  have hmoves : (List.replicate 4095 (packet 1 1 0)).flatten =
      [8, 1, 1] ++ (List.replicate 4094 (packet 1 1 0)).flatten := by
    rw [List.replicate_succ, List.flatten_cons]
    rfl
  have hwhole : ∀ p ∈ List.replicate 4094 (packet 1 1 0), p.length = PACKET_LEN := by
    intro p hp
    rw [List.eq_of_mem_replicate hp]
    rfl
  refine torn_of_full (List.replicate 4094 (packet 1 1 0)).flatten
    (List.replicate 4095 (packet 1 1 0)) ?_ ?_ fun p hp => List.eq_of_mem_replicate hp
  · rw [List.foldl_cons, hpressed, foldl_inject _ _ _ _ _ (by decide), hmoves]
    rfl
  · rw [length_flatten hwhole, List.length_replicate]
    rfl

end Mouse

end PosixKernel
