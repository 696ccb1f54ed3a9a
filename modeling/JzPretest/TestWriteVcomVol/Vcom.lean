import JzPretest.Semantics.ByteIO
import JzPretest.Semantics.Prog
import JzPretest.Semantics.Scanf
import Mathlib.Data.List.GetD

set_option relaxedAutoImplicit false
set_option autoImplicit false

/-!
# The VCOM tool

`vcom.c` reads the partition table of the eMMC, line by line, into the entries of the array `pinfo`,
and then writes its argument at the offset of every entry among the first five whose name begins
with `battery`. The entries are memory that is accessed at any index; the indices are recorded, and
so are the writes to the block device.

## Main definitions

* `JzPretest.Vcom.scanPartitionInfoEmmc`, `JzPretest.Vcom.writeVcomVoltage` — the two steps.
* `JzPretest.Vcom.main` — the program.

## Main results

* `JzPretest.Vcom.startsWith_strncpy` — the beginning of a name that has been copied.
* `JzPretest.Vcom.writeDataEmmc_cases` — everything a write to the block device can do.
-/

namespace JzPretest.Vcom

/-- The bytes of a string literal. -/
def ascii (s : String) : List UInt8 := s.toList.map fun c => UInt8.ofNat c.toNat

/-! ## The array of partitions -/

/-- `struct partition`; its size is never set. -/
structure Partition where
  name : ℕ → UInt8
  offset : UInt32
  type : Int32

/-- After `memset`. -/
def Partition.zero : Partition := ⟨fun _ => 0, 0, 0⟩

/-- `strncpy`. -/
def strncpy (dst : ℕ → UInt8) (src : List UInt8) (n : ℕ) : ℕ → UInt8 :=
  fun j => if j < n then src.getD j 0 else dst j

/-- The three assignments to an entry. -/
def Partition.set (p : Partition) (src : List UInt8) (n : ℕ) (offset : UInt32) (type : Int32) :
    Partition :=
  ⟨strncpy p.name src n, offset, type⟩

/-- `!strncmp(name, s, strlen(s))`. -/
def startsWith (name : ℕ → UInt8) (s : List UInt8) : Bool := slice name 0 s.length == s

/-- Whether the name of an entry begins with `battery`. -/
def Partition.isBattery (p : Partition) : Bool := startsWith p.name (ascii "battery")

/-- The state of the tool: the memory at the entries of `pinfo`, and what has been done to it and to
the block device. -/
structure State where
  pinfo : ℤ → Partition
  /-- The indices of `pinfo` that have been read or written. -/
  touched : List ℤ
  /-- What has been written to the block device, with the positions. -/
  writes : List (ℕ × List UInt8)
  /-- How many times the block device has been opened. -/
  opens : ℕ

/-- Reading an entry. -/
def State.touch (v : State) (i : ℤ) : State := { v with touched := v.touched ++ [i] }

/-- Writing an entry. -/
def State.modify (v : State) (i : ℤ) (f : Partition → Partition) : State :=
  { v.touch i with pinfo := fun j => if j = i then f (v.pinfo i) else v.pinfo j }

/-- What the calls of the tool return. The functions take the number of an `open` of the block
device, or of what follows it. -/
structure Env where
  /-- `malloc` of the line buffer succeeds. -/
  lineBuffer : Bool
  openTable : Bool
  /-- The bytes of the table that can be read; `none` when `read` fails. -/
  readTable : Option ℕ
  /-- `errno` when `read` fails. -/
  errno : ℕ
  errno_pos : 0 < errno
  openDevice : ℕ → Bool
  lseek : ℕ → Bool
  /-- The bytes that can be written; `none` when `write` fails. -/
  write : ℕ → Option ℕ

/-! ## Reading the table -/

/-- What `sscanf` converts. -/
structure Entry where
  partName : List UInt8
  partSaddr : UInt32
  partSize : UInt32
  partType : Int32
  deriving DecidableEq, Repr

/-- `"%s %x %x %d\n"`. The white space at its end converts nothing. -/
def entry : Reader Entry := do
  let partName ← Reader.skipping (Reader.word 32)
  let partSaddr ← Reader.skipping Reader.hexInt
  let partSize ← Reader.skipping Reader.hexInt
  let partType ← Reader.skipping Reader.decInt
  pure ⟨partName, partSaddr, partSize, partType⟩

/-- `sscanf`: the four values if there are four matches. -/
def sscanf (s : List UInt8) : Except Undefined (Option Entry) :=
  (entry s).map fun r => r.map Prod.fst

/-- `wifimac_offset`, which nothing sets. -/
def wifimacOffset : UInt32 := 0

/-- `btmac_offset`, which nothing sets. -/
def btmacOffset : UInt32 := 0

/-- What the loop does when there are four matches. -/
def storeEntry (partsAlloc : ℤ) (e : Entry) (v : State) : State :=
  if ascii "device_id" <+: e.partName then
    let v := v.modify 0 fun p => p.set e.partName 10 e.partSaddr e.partType
    let v := v.modify 1 fun p =>
      p.set (ascii "wifi_mac") 9 (e.partSaddr + wifimacOffset) e.partType
    v.modify 2 fun p => p.set (ascii "bt_mac") 7 (e.partSaddr + btmacOffset) e.partType
  else if ascii "battery" <+: e.partName then
    v.modify (partsAlloc - 1) fun p => p.set e.partName 8 e.partSaddr e.partType
  else v

/-- "Eat the line". -/
def eatLine (buf : List UInt8) : List UInt8 := (buf.dropWhile (· ≠ 10)).tail

/-- `LARGE_BUF_LEN`. -/
def largeBufLen : ℕ := 512

/-- One pass of the loop, on the `nbytes` bytes at `buf`. They are followed by `past` up to the end
of the line buffer. -/
def scanPass (partsAlloc : ℤ) (past : List UInt8) :
    List UInt8 × State → Prog Undefined (Pass (List UInt8 × State) State)
  | ([], v) => pure (.leave v)
  | (c :: buf, v) => do
    let s ← cString (c :: buf ++ past)
    match ← (sscanf s : Except Undefined (Option Entry)) with
    | some e => return .again (eatLine (c :: buf), storeEntry partsAlloc e v)
    | none => return .again (eatLine (c :: buf), v)

/-- `scan_partition_info_emmc`. -/
def scanPartitionInfoEmmc (env : Env) (table : List UInt8) (partsAlloc : ℤ) (v : State) :
    Prog Undefined (ℤ × State) :=
  if env.lineBuffer = false then return (-12, v)
  else if env.openTable = false then return (0, v)
  else
    match env.readTable with
    | none => return (env.errno, v)
    | some n => do
      let buf := table.take (min n largeBufLen)
      let v ← Prog.loop (scanPass partsAlloc (List.replicate (largeBufLen - buf.length) 0)) (buf, v)
      return (0, (List.range partsAlloc.toNat).foldl (fun v i => v.touch i) v)

/-! ## Writing the voltage -/

/-- Where the `i`-th write begins: an `lseek` that fails leaves the position at 0, and it fails when
the offset does not fit an `off_t`. -/
def position (env : Env) (i : ℕ) (offset : UInt32) : ℕ :=
  if env.lseek i = true ∧ offset.toNat < 2 ^ 31 then offset.toNat else 0

/-- `write_data_emmc`. -/
def writeDataEmmc (env : Env) (pinfo : Option Partition) (buf : List UInt8) (size : ℕ) (v : State) :
    ℤ × State :=
  match pinfo with
  | none => (-22, v)
  | some p =>
    let i := v.opens
    let v := { v with opens := i + 1 }
    if env.openDevice i = false then (0, v)
    else
      match env.write i with
      | none => (-1, v)
      | some n =>
        let done := (buf.take size).take n
        (done.length, { v with writes := v.writes ++ [(position env i p.offset, done)] })

/-- The loop of `write_vcom_voltage`, for these values of `i`. The size is that of the pointer
`buf`. -/
def writeVcomFrom (env : Env) (buf : List UInt8) : List ℤ → State → ℤ × State
  | [], v => (0, v)
  | i :: is, v =>
    if (v.pinfo i).isBattery then
      let (ret, v) := writeDataEmmc env (some (v.pinfo i)) buf 4 (v.touch i)
      if ret < 0 then (ret, v) else writeVcomFrom env buf is v
    else writeVcomFrom env buf is (v.touch i)

/-- `write_vcom_voltage`. -/
def writeVcomVoltage (env : Env) (buf : List UInt8) (v : State) : ℤ × State :=
  writeVcomFrom env buf [0, 1, 2, 3, 4] v

/-- The two steps of `main`. -/
def scanAndWrite (env : Env) (table : List UInt8) (partsAlloc : ℤ) (buf : List UInt8) (v : State) :
    Prog Undefined (ℤ × State) := do
  let (ret, v) ← scanPartitionInfoEmmc env table partsAlloc v
  if ret < 0 then return (ret, v) else return writeVcomVoltage env buf v

/-! ## The program -/

/-- A command line argument with the four characters that `main` reads. -/
structure Argument where
  chars : List UInt8
  four_le : 4 ≤ chars.length

/-- `buf` in `main`: the first four characters of the argument, and zeros. -/
def Argument.buf (arg : Argument) : List UInt8 :=
  arg.chars.take 4 ++ List.replicate (largeBufLen - 4) 0

/-- `parts_alloc`: the code that would set it is not compiled. -/
def partsAlloc : ℤ := 0

/-- The state after `pinfo` has been allocated and cleared, in a memory that holds `memory` at the
other indices. -/
def allocate (partsAlloc : ℤ) (memory : ℤ → Partition) : State :=
  ⟨fun i => if 0 ≤ i ∧ i < partsAlloc then Partition.zero else memory i, [], [], 0⟩

/-- `main`. -/
def main (env : Env) (table : List UInt8) (arg : Argument) (memory : ℤ → Partition) :
    Prog Undefined (ℤ × State) :=
  scanAndWrite env table partsAlloc arg.buf (allocate partsAlloc memory)

/-! ## What the operations do -/

/-- One more entry has been touched. -/
@[simp] theorem touch_touched (v : State) (i : ℤ) : (v.touch i).touched = v.touched ++ [i] := rfl

/-- The entry is changed. -/
theorem modify_pinfo_self (v : State) (i : ℤ) (f : Partition → Partition) :
    (v.modify i f).pinfo i = f (v.pinfo i) := if_pos rfl

/-- The others are not. -/
theorem modify_pinfo_of_ne (v : State) {i j : ℤ} (h : j ≠ i) (f : Partition → Partition) :
    (v.modify i f).pinfo j = v.pinfo j := if_neg h

/-- **The beginning of a name that has been copied** is that of the copied string, where it is as
long as what has been copied.

**Proof sketch.** What is compared has been copied. A string shorter than the compared one would
have a zero in the place of a character. -/
theorem startsWith_strncpy {s : List UInt8} {n : ℕ} (h0 : 0 ∉ s) (hn : s.length ≤ n)
    (dst : ℕ → UInt8) (src : List UInt8) :
    startsWith (strncpy dst src n) s = true ↔ s <+: src := by
  have hcopied :
      slice (strncpy dst src n) 0 s.length = slice (fun j => src.getD j 0) 0 s.length := by
    apply slice_congr
    intro i hi
    exact if_pos (by omega)
  rw [startsWith, hcopied, beq_iff_eq]
  constructor
  · intro heq
    have hlen : s.length ≤ src.length := by
      by_contra hlt
      apply h0
      rw [← heq, slice, List.mem_map]
      refine ⟨src.length, List.mem_range.mpr (by omega), ?_⟩
      rw [List.getD_eq_default _ _ (by omega)]
    rw [← heq, ← slice_getD src]
    simpa only [length_slice, slice_getD] using
      slice_prefix_slice (fun j => src.getD j 0) 0 hlen
  · rintro ⟨t, rfl⟩
    rw [← slice_getD s, length_slice]
    apply slice_congr
    intro i hi
    simp only [slice_getD]
    rw [List.getD_append _ _ _ _ (by omega)]

/-- Without a line buffer nothing is done. -/
theorem scanAndWrite_of_no_buffer {env : Env} (h : env.lineBuffer = false) (table : List UInt8)
    (partsAlloc : ℤ) (buf : List UInt8) (v : State) :
    scanAndWrite env table partsAlloc buf v = pure (-12, v) := by
  rw [scanAndWrite, scanPartitionInfoEmmc, if_pos h, pure_bind]
  exact if_pos (by decide)

/-- **Everything a write to the block device can do**: the device is not opened, the write fails, or
a beginning of the bytes is written.

**Proof sketch.** By whether the device is opened, and by what the write returns. -/
theorem writeDataEmmc_cases (env : Env) (p : Partition) (buf : List UInt8) (size : ℕ) (v : State) :
    (env.openDevice v.opens = false ∧
      writeDataEmmc env (some p) buf size v = (0, { v with opens := v.opens + 1 })) ∨
    (env.openDevice v.opens = true ∧ env.write v.opens = none ∧
      writeDataEmmc env (some p) buf size v = (-1, { v with opens := v.opens + 1 })) ∨
    ∃ n, env.openDevice v.opens = true ∧ env.write v.opens = some n ∧
      writeDataEmmc env (some p) buf size v = ((((buf.take size).take n).length : ℤ),
        { v with
          opens := v.opens + 1
          writes := v.writes ++
            [(position env v.opens p.offset, (buf.take size).take n)] }) := by
  rw [writeDataEmmc]
  dsimp only
  cases hopen : env.openDevice v.opens with
  | false => exact Or.inl ⟨rfl, if_pos rfl⟩
  | true =>
    rw [if_neg (by decide)]
    cases hwrite : env.write v.opens with
    | none => exact Or.inr (Or.inl ⟨rfl, rfl, rfl⟩)
    | some n => exact Or.inr (Or.inr ⟨n, rfl, rfl, rfl⟩)

end JzPretest.Vcom
