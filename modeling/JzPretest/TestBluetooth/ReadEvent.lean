import JzPretest.Semantics.ByteIO
import JzPretest.TestBluetooth.Event

set_option relaxedAutoImplicit false
set_option autoImplicit false

/-!
# `read_event`

`read_event` stores an event of the UART in the buffer. Each of its two loops calls `read` until as
many bytes have arrived as it waits for: the three bytes of the header, and then as many as the
third of them says.

## Main definitions

* `JzPretest.Bluetooth.readLoop` — either loop.
* `JzPretest.Bluetooth.readEvent`, `JzPretest.Bluetooth.readEvents` — the function, and successive
  calls of it.

## Main results

* `JzPretest.Bluetooth.ends_readLoop` — the loop stores as many bytes as it waits for.
* `JzPretest.Bluetooth.ends_readEvents` — successive calls take a stream of events apart, however
  it is cut into reads.
-/

namespace JzPretest.Bluetooth

/-! ## The function -/

/-- The variables of `read_event` and the UART. -/
structure ReadState where
  i : ℤ
  len : ℤ
  buffer : Buffer
  uart : Source

/-- The bytes that `read` stores at `buffer[i]`. -/
def storeAt (buffer : Buffer) (i : ℤ) (bytes : List UInt8) : Except Fault Buffer :=
  if bytes = [] then .ok buffer
  else if i < 0 then .error (.outOfBounds i)
  else buffer.storeAll i.toNat bytes

/-- One pass of a loop of `read_event`; it leaves with `count`. -/
def readPass (s : ReadState) : Prog Fault (Pass ReadState (ℤ × ReadState)) :=
  match s.uart.read s.len.toNat with
  | (none, uart) =>
    -- `read` has returned -1
    if -1 < s.len then return .again { s with i := s.i - 1, len := s.len + 1, uart := uart }
    else return .leave (-1, { s with uart := uart })
  | (some bytes, uart) => do
    let buffer ← storeAt s.buffer s.i bytes
    if bytes.length < s.len then
      return .again ⟨s.i + bytes.length, s.len - bytes.length, buffer, uart⟩
    else return .leave (bytes.length, ⟨s.i, s.len, buffer, uart⟩)

/-- Either loop of `read_event`: `count`, and the variables after it. -/
def readLoop (s : ReadState) : Prog Fault (ℤ × ReadState) := Prog.loop readPass s

/-- `read_event`: the returned value, the buffer and the UART. -/
def readEvent (buffer : Buffer) (uart : Source) : Prog Fault (ℤ × Buffer × Source) := do
  let (count, s) ← readLoop ⟨0, 3, buffer, uart⟩
  let i := s.i + count
  let len ← s.buffer.load 2
  let (count, s) ← readLoop ⟨i, len.toNat, s.buffer, s.uart⟩
  return (count + s.i, s.buffer, s.uart)

/-- Successive calls of `read_event`: what each returns, with the buffer after it, and the UART. -/
def readEvents : ℕ → Buffer → Source → Prog Fault (List (ℤ × Buffer) × Source)
  | 0, _, uart => return ([], uart)
  | k + 1, buffer, uart => do
    let (count, buffer, uart) ← readEvent buffer uart
    let (rest, uart) ← readEvents k buffer uart
    return ((count, buffer) :: rest, uart)

/-! ## The loop -/

/-- What a loop that waits for `len` bytes has done when `n` of them have arrived at `pos`. -/
structure Arrived (buffer : Buffer) (uart : Source) (pos len n : ℕ) (s : ReadState) : Prop where
  i : s.i = (pos + n : ℕ)
  le : n ≤ len
  left : s.len = (len - n : ℕ)
  size : s.buffer.size = buffer.size
  bytes : slice s.buffer.byte pos n = slice uart.content uart.pos n
  /-- Nothing before them has changed. -/
  before : ∀ j < pos, s.buffer.byte j = buffer.byte j
  uart : s.uart = { uart with pos := uart.pos + n, calls := s.uart.calls }

/-- After the bytes that one more call of `read` has delivered.

**Proof sketch.** The bytes are stored behind those that have arrived; the bytes before the window
and those that have arrived stay as they are. -/
lemma Arrived.next {buffer : Buffer} {uart : Source} {pos len n m : ℕ} {s : ReadState}
    (h : Arrived buffer uart pos len n s) (hm : n + m ≤ len) (hsize : pos + len ≤ buffer.size) :
    ∃ buffer', storeAt s.buffer s.i (slice s.uart.content s.uart.pos m) = .ok buffer' ∧
      Arrived buffer uart pos len (n + m) ⟨s.i + m, s.len - m, buffer', s.uart.advance m⟩ := by
  have hbytes : slice s.uart.content s.uart.pos m = slice uart.content (uart.pos + n) m := by
    rw [h.uart]
  have hi : s.i.toNat = pos + n := by
    rw [h.i]
    rfl
  refine ⟨s.buffer.overlay (pos + n) (slice uart.content (uart.pos + n) m), ?_,
    ⟨?_, hm, ?_, h.size, ?_, fun j hj => ?_, ?_⟩⟩
  · rw [hbytes, storeAt, hi]
    split_ifs with hnil hneg
    · rw [hnil, Buffer.overlay_nil]
    · rw [h.i] at hneg
      omega
    · apply Buffer.storeAll_eq
      rw [length_slice, h.size]
      omega
  · rw [h.i]
    push_cast
    omega
  · have hleft := h.left
    have hle := h.le
    dsimp only
    omega
  · have hnew := Buffer.slice_overlay s.buffer (pos + n) (slice uart.content (uart.pos + n) m)
    rw [length_slice] at hnew
    rw [slice_add, slice_add, hnew, ← h.bytes]
    congr 1
    exact slice_congr fun j hj => Buffer.overlay_byte_of_lt _ _ (by omega)
  · rw [Buffer.overlay_byte_of_lt _ _ (by omega), h.before j hj]
  · rw [h.uart]
    simp only [Source.advance, Nat.add_assoc]

/-- What a loop that waits for `len` bytes has done when it leaves with `count`. -/
structure Stored (buffer : Buffer) (uart : Source) (pos len : ℕ) (count : ℤ) (s : ReadState) :
    Prop where
  i : s.i + count = (pos + len : ℕ)
  size : s.buffer.size = buffer.size
  bytes : slice s.buffer.byte pos len = slice uart.content uart.pos len
  before : ∀ j < pos, s.buffer.byte j = buffer.byte j
  uart : s.uart = { uart with pos := uart.pos + len, calls := s.uart.calls }

/-- **One pass of the loop**: some of the missing bytes arrive, or all of them.

**Proof sketch.** A productive and reliable read delivers some of the missing bytes; `Arrived.next`
stores them, and the number of missing bytes decreases. -/
theorem ends_readPass {buffer : Buffer} {uart : Source} {pos len n : ℕ} {s : ReadState}
    (hprod : uart.schedule.Productive) (hrel : uart.schedule.Reliable)
    (huart : ∀ k, uart.size = some k → uart.pos + len ≤ k) (hsize : pos + len ≤ buffer.size)
    (h : Arrived buffer uart pos len n s) :
    (readPass s).Ends (Prog.orAgain
      (fun s' => (∃ n', Arrived buffer uart pos len n' s') ∧ s'.len.toNat < s.len.toNat)
      (fun x => ∃ count s', x = .ok (count, s') ∧ Stored buffer uart pos len count s')) := by
  have hleft := h.left
  have hle := h.le
  have hq : ∀ k, s.uart.size = some k → s.uart.pos + s.len.toNat ≤ k := by
    rw [h.uart, hleft]
    intro k hk
    have := huart k hk
    change uart.pos + n + (len - n) ≤ k
    omega
  obtain ⟨m, hm, hpos, hread⟩ := Source.read_of_le (by rw [h.uart]; exact hprod)
    (by rw [h.uart]; exact hrel) hq
  obtain ⟨buffer', hstore, hnext⟩ := h.next (show n + m ≤ len by omega) hsize
  unfold readPass
  rw [hread]
  dsimp only
  rw [Prog.ends_bind, Prog.ends_liftM, hstore, Prog.andThen_ok, length_slice]
  by_cases hlt : (m : ℤ) < s.len
  · rw [if_pos hlt]
    exact (Prog.ends_pure _).mpr ⟨⟨n + m, hnext⟩, by dsimp only; omega⟩
  · rw [if_neg hlt]
    obtain rfl : len = n + m := by omega
    refine (Prog.ends_pure _).mpr ⟨m, _, rfl, ?_, hnext.size, hnext.bytes, hnext.before, hnext.uart⟩
    exact hnext.i

/-- **The loop** ends; the bytes it waits for are stored, and no others are read. -/
theorem ends_readLoop {buffer : Buffer} {uart : Source} (pos len : ℕ)
    (hprod : uart.schedule.Productive) (hrel : uart.schedule.Reliable)
    (huart : ∀ k, uart.size = some k → uart.pos + len ≤ k) (hsize : pos + len ≤ buffer.size) :
    (readLoop ⟨pos, len, buffer, uart⟩).Ends
      fun x => ∃ count s', x = .ok (count, s') ∧ Stored buffer uart pos len count s' := by
  refine Prog.ends_loop_of_variant (I := fun s => ∃ n, Arrived buffer uart pos len n s)
    (fun s => s.len.toNat) ?_ ⟨0, rfl, Nat.zero_le _, rfl, rfl, rfl, fun _ _ => rfl, rfl⟩
  rintro s ⟨n, h⟩
  exact ends_readPass hprod hrel huart hsize h

/-! ## Events -/

/-- **A call of `read_event`**, when the UART goes on with an event: it returns the length of the
event, which stands at the beginning of the buffer, and reads nothing behind it.

**Proof sketch.** `ends_readLoop` for the three bytes of the header, then for as many as its third
byte says. The two windows follow each other, so together they hold the event. -/
theorem ends_readEvent {buffer : Buffer} {uart : Source} {e : List UInt8} (he : IsEvent e)
    (hprod : uart.schedule.Productive) (hrel : uart.schedule.Reliable) (hgo : uart.GoesOn e)
    (hbuffer : buffer.size = 1024) :
    (readEvent buffer uart).Ends fun x => ∃ buffer' uart', x = .ok (e.length, buffer', uart') ∧
      buffer'.size = buffer.size ∧ slice buffer'.byte 0 e.length = e ∧
      uart' = { uart with pos := uart.pos + e.length, calls := uart'.calls } := by
  obtain ⟨hbytes, havail⟩ := hgo
  have h3 := he.header
  have hlen := he.length
  have hbyte := (e.getD 2 0).toNat_lt
  have hload : uart.content (uart.pos + 2) = e.getD 2 0 := by
    rw [← getD_slice uart.content uart.pos (show 2 < e.length by omega), hbytes]
  unfold readEvent
  rw [Prog.ends_bind]
  apply (ends_readLoop 0 3 hprod hrel (fun k hk => by have := havail k hk; omega) (by omega)).imp
  rintro _ ⟨count, s₁, rfl, header⟩
  have hthird : s₁.buffer.byte 2 = e.getD 2 0 := by
    rw [← hload, ← getD_slice uart.content uart.pos (show 2 < 3 by omega), ← header.bytes,
      getD_slice _ _ (by omega)]
  have hlen₂ : s₁.buffer.load 2 = .ok (e.getD 2 0) := by
    rw [Buffer.load_eq (by decide) (by rw [header.size, hbuffer]; decide), ← hthird]
    rfl
  have hpos : s₁.i + count = ((3 : ℕ) : ℤ) := header.i
  have huart : s₁.uart.pos = uart.pos + 3 := by rw [header.uart]
  have hcontent : s₁.uart.content = uart.content := by rw [header.uart]
  rw [Prog.andThen_ok]
  dsimp only
  rw [Prog.ends_bind, Prog.ends_liftM, hlen₂, Prog.andThen_ok, hpos, Prog.ends_bind]
  apply (ends_readLoop 3 (e.getD 2 0).toNat (by rw [header.uart]; exact hprod)
    (by rw [header.uart]; exact hrel) (fun k hk => ?_) (by rw [header.size]; omega)).imp
  · rintro _ ⟨count₂, s₂, rfl, payload⟩
    rw [Prog.andThen_ok]
    refine (Prog.ends_pure _).mpr ⟨s₂.buffer, s₂.uart, ?_, payload.size.trans header.size, ?_, ?_⟩
    · have hsum : count₂ + s₂.i = e.length := by
        have := payload.i
        omega
      rw [← hsum]
    · rw [hlen, slice_add, Nat.zero_add, payload.bytes, hcontent, huart,
        slice_congr (fun j hj => payload.before (0 + j) (by omega)), header.bytes, ← slice_add,
        ← hlen, hbytes]
    · rw [payload.uart, header.uart, hlen]
      simp only [Nat.add_assoc]
  · rw [header.uart] at hk
    have := havail k hk
    omega

/-- **Successive calls of `read_event`** take a stream of events apart, however the reads cut it:
each call stores the next event at the beginning of the buffer and returns its length, and behind
the last event nothing is read.

**Proof sketch.** Induction on the events. A call leaves the UART where the next event begins
(`ends_readEvent`). -/
theorem ends_readEvents (events : List (List UInt8)) : ∀ (buffer : Buffer) (uart : Source),
    (∀ e ∈ events, IsEvent e) → uart.schedule.Productive → uart.schedule.Reliable →
    uart.GoesOn events.flatten → buffer.size = 1024 →
    (readEvents events.length buffer uart).Ends fun x => ∃ results uart', x = .ok (results, uart') ∧
      results.map Prod.fst = events.map (fun e => ((3 + (e.getD 2 0).toNat : ℕ) : ℤ)) ∧
      results.map (fun r => slice r.2.byte 0 r.1.toNat) = events ∧
      uart'.pos = uart.pos + events.flatten.length := by
  induction events with
  | nil =>
    intro buffer uart _ _ _ _ _
    exact (Prog.ends_pure _).mpr ⟨[], uart, rfl, rfl, rfl, rfl⟩
  | cons e events ih =>
    intro buffer uart hevents hprod hrel hgo hbuffer
    obtain ⟨he, hevents⟩ := List.forall_mem_cons.mp hevents
    rw [List.flatten_cons] at hgo
    obtain ⟨hfirst, hrest⟩ := hgo.append
    rw [List.length_cons, readEvents, Prog.ends_bind]
    apply (ends_readEvent he hprod hrel hfirst hbuffer).imp
    rintro _ ⟨buffer₁, uart₁, rfl, hsize, hslice, huart⟩
    have hnext : uart₁.GoesOn events.flatten := by
      rw [huart]
      exact hrest
    rw [Prog.andThen_ok]
    dsimp only
    rw [Prog.ends_bind]
    apply (ih buffer₁ uart₁ hevents (by rw [huart]; exact hprod) (by rw [huart]; exact hrel) hnext
      (hsize.trans hbuffer)).imp
    rintro _ ⟨results, uart', rfl, hcounts, hcontents, hpos⟩
    rw [Prog.andThen_ok]
    refine (Prog.ends_pure _).mpr ⟨_, uart', rfl, ?_, ?_, ?_⟩
    · rw [List.map_cons, List.map_cons, hcounts, ← he.length]
    · rw [List.map_cons, hcontents, Int.toNat_natCast, hslice]
    · rw [hpos, huart, List.flatten_cons, List.length_append, Nat.add_assoc]

/-- Two events, the first one without a payload, in reads of one byte; a third one begins behind
them.

**Proof sketch.** `ends_readEvents` for these two events: both are events, the schedule is
productive, and nine bytes are enough for them. -/
theorem ends_readEvents_two :
    (readEvents 2 ⟨1024, fun _ => 0⟩
      (Source.ofFile [4, 14, 0, 4, 5, 2, 7, 8, 4] (Schedule.atMost 1))).Ends
      fun x => ∃ results uart', x = .ok (results, uart') ∧ results.map Prod.fst = [3, 5] ∧
        results.map (fun r => slice r.2.byte 0 r.1.toNat) = [[4, 14, 0], [4, 5, 2, 7, 8]] ∧
        uart'.pos = 8 := by
  apply (ends_readEvents [[4, 14, 0], [4, 5, 2, 7, 8]] ⟨1024, fun _ => 0⟩
    (Source.ofFile [4, 14, 0, 4, 5, 2, 7, 8, 4] (Schedule.atMost 1)) ?_
    (Schedule.atMost_productive (by decide)) (Schedule.atMost_reliable 1) ⟨rfl, ?_⟩ rfl).imp
  · rintro x ⟨results, uart', rfl, hcounts, hcontents, hpos⟩
    exact ⟨results, uart', rfl, hcounts, hcontents, hpos⟩
  · rintro e he
    rcases List.mem_cons.mp he with rfl | he
    · exact ⟨by decide, rfl⟩
    · obtain rfl := List.mem_singleton.mp he
      exact ⟨by decide, rfl⟩
  · rintro k hk
    obtain rfl : 9 = k := Option.some.inj hk
    decide

end JzPretest.Bluetooth
