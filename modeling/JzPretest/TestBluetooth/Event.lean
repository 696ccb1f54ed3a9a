import JzPretest.Semantics.Prog
import Mathlib.Data.List.GetD

set_option relaxedAutoImplicit false
set_option autoImplicit false

/-!
# Reading an HCI event

An event on the UART is three bytes, of which the third is the length of what follows, and that
many bytes more. `read_event` reads the three bytes and then the rest, each with as many calls of
`read` as it takes.

## Main definitions

* `JzPretest.Bluetooth.IsEvent` — an event is as long as its third byte says.
* `JzPretest.Bluetooth.Reading` — where `read_event` is.

## Main results

* `JzPretest.Bluetooth.IsEvent.append_inj` — a stream begins with at most one event.
* `JzPretest.Bluetooth.Reading.Valid.next_cases` — what is read in the end is an event.
* `JzPretest.Bluetooth.Reading.Valid.length_le` — the buffer of 1024 bytes is large enough.
-/

namespace JzPretest.Bluetooth

/-- An event is as long as its third byte says. -/
structure IsEvent (e : List UInt8) : Prop where
  header : 3 ≤ e.length
  length : e.length = 3 + (e.getD 2 0).toNat

/-- **Framing**: the event at the beginning of a stream is determined. -/
theorem IsEvent.append_inj {e e' rest rest' : List UInt8} (h : IsEvent e) (h' : IsEvent e')
    (heq : e ++ rest = e' ++ rest') : e = e' ∧ rest = rest' := by
  have hlen : (e.getD 2 0).toNat = (e'.getD 2 0).toNat := by
    have hget := congrArg (fun l : List UInt8 => (l.getD 2 0).toNat) heq
    simpa only [List.getD_append _ _ _ _ h.header, List.getD_append _ _ _ _ h'.header] using hget
  exact List.append_inj heq (by rw [h.length, h'.length, hlen])

/-- Where `read_event` is: the bytes in the buffer, `len`, and in which of its two loops. -/
structure Reading where
  got : List UInt8
  len : ℕ
  header : Bool
  deriving DecidableEq, Repr

namespace Reading

/-- The beginning of `read_event`. -/
def start : Reading := ⟨[], 3, true⟩

/-- After a call of `read` that has delivered these bytes: `read_event` goes on, or returns with
the event in the buffer. -/
def next (r : Reading) (bytes : List UInt8) : Pass Reading (List UInt8) :=
  let got := r.got ++ bytes
  if bytes.length < r.len then .again ⟨got, r.len - bytes.length, r.header⟩
  else if r.header then .again ⟨got, (got.getD 2 0).toNat, false⟩
  else .leave got

/-- `len` is what is missing: of the first three bytes, or of the whole event. -/
structure Valid (r : Reading) : Prop where
  header : r.header = true → r.got.length + r.len = 3
  payload : r.header = false → 3 ≤ r.got.length ∧ r.got.length + r.len = 3 + (r.got.getD 2 0).toNat

/-- Three bytes are missing at the beginning. -/
theorem valid_start : start.Valid := ⟨fun _ => rfl, fun h => absurd h Bool.true_eq_false.mp⟩

namespace Valid

variable {r : Reading}

/-- **A call of `read`** leaves `len` what is missing; when `read_event` returns, there is an event
in the buffer.

**Proof sketch.** If fewer bytes have come than are missing, the rest are still missing. Otherwise
the header is complete, and its third byte says how many bytes are missing now, or so is the
payload, and with it the event. -/
theorem next_cases (h : r.Valid) {bytes : List UInt8} (hlen : bytes.length ≤ r.len) :
    (∃ r', r.next bytes = .again r' ∧ r'.got = r.got ++ bytes ∧ r'.Valid) ∨
    (r.next bytes = .leave (r.got ++ bytes) ∧ IsEvent (r.got ++ bytes)) := by
  have hgot : 3 ≤ r.got.length → (r.got ++ bytes).getD 2 0 = r.got.getD 2 0 :=
    fun h3 => List.getD_append _ _ _ _ h3
  unfold next
  by_cases hlt : bytes.length < r.len
  · rw [if_pos hlt]
    refine Or.inl ⟨_, rfl, rfl, fun hh => ?_, fun hh => ?_⟩
    · have := h.header hh
      dsimp only
      rw [List.length_append]
      omega
    · obtain ⟨h3, hsum⟩ := h.payload hh
      dsimp only
      rw [hgot h3, List.length_append]
      omega
  · rw [if_neg hlt]
    cases hh : r.header with
    | true =>
      have := h.header hh
      refine Or.inl ⟨_, rfl, rfl, fun hf => absurd hf Bool.false_eq_true.mp, fun _ => ?_⟩
      dsimp only
      rw [List.length_append]
      omega
    | false =>
      obtain ⟨h3, hsum⟩ := h.payload hh
      refine Or.inr ⟨rfl, ?_, ?_⟩
      · rw [List.length_append]
        omega
      · rw [hgot h3, List.length_append]
        omega

/-- **The buffer is large enough**: `read_event` never asks for bytes past its 1024 bytes. -/
theorem length_le (h : r.Valid) : r.got.length + r.len ≤ 1024 := by
  cases hh : r.header with
  | true =>
    have := h.header hh
    omega
  | false =>
    obtain ⟨-, hsum⟩ := h.payload hh
    have := (r.got.getD 2 0).toNat_lt
    omega

end Valid

end Reading

end JzPretest.Bluetooth
