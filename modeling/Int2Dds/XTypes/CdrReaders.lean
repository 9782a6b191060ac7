import Int2Dds.XTypes.Xcdr1

/-!
# The readers under the encodings

`CdrDeserializer` reads a slice or a chain of fragments, `Xcdr2Deserializer` a slice, through the same operations. They
differ in where alignments count from, and in the size in front of a collection of strings. Positions count from the end
of the encapsulation header.
-/

namespace Int2Dds.XTypes.Cdr

open Lib List

/-- `CdrInput`, by what the readers use of it. -/
structure Input where
  len : Nat
  /-- `copy_to` and what rests on it: so many bytes, checked to be there, from an offset on. -/
  copyTo : Nat → Nat → Bytes

namespace Input

def contiguous (data : Bytes) : Input := ⟨data.length, fun offset n => (data.drop offset).take n⟩

/-- The loop over the chunks: the next starts at `chunkStart`, and `n` bytes from `pos` are missing. -/
def gather : List Bytes → Nat → Nat → Nat → Bytes
  | [], _, _, _ => []
  | chunk :: chunks, chunkStart, pos, n =>
    if n = 0 then []
    else if pos < chunkStart + chunk.length then
      let within := pos - chunkStart
      let taken := min (chunk.length - within) n
      (chunk.drop within).take taken ++ gather chunks (chunkStart + chunk.length) (pos + taken) (n - taken)
    else gather chunks (chunkStart + chunk.length) pos n

/-- `skip` bytes in front are hidden. -/
def chained (chunks : List Bytes) (skip : Nat) : Input :=
  ⟨(chunks.map length).sum - skip, fun offset n => gather chunks 0 (offset + skip) n⟩

end Input

structure Deserializer where
  endianness : Endianness
  input : Input
  /-- Alignments count from so many bytes before the body. -/
  headerSize : Nat
  isXcdr2 : Bool
  /-- Whether a collection of strings has its size in front. -/
  dheaders : Bool

/-- A result or an error, and in both cases the position then. -/
abbrev Reading := ExceptT CdrError (StateM Nat)

namespace Deserializer

variable (d : Deserializer)

def align (a : Nat) : Reading Unit :=
  modify fun p => alignUp (if d.isXcdr2 then min a 4 else a) (p + d.headerSize) - d.headerSize

def checkAvailable (n : Nat) : Reading Unit := do
  if d.input.len < (← get) + n then throw .insufficientData

def next (n : Nat) : Reading Bytes := do
  d.checkAvailable n
  let p ← get
  set (p + n)
  return d.input.copyTo p n

def number (a w : Nat) : Reading Nat := do
  d.align a
  return d.endianness.get (← d.next w)

def deserializeString : Reading String := do
  let length ← d.number 4 4
  if length = 0 then return ""
  let data ← d.next length
  match ofUtf8 (if data.getLast? = some 0 then data.dropLast else data) with
  | some v => return v
  | none => throw .invalidString

def deserializeWstring16 : Reading String := do
  let byteLen ← d.number 4 4
  if byteLen % 2 ≠ 0 then throw .invalidString
  d.align 2
  d.checkAvailable (byteLen / 2 * 2)
  let units ← (replicate (byteLen / 2) ()).mapM fun _ => d.number 2 2
  match ofUtf16 units with
  | some v => return String.ofList v
  | none => throw .invalidWideCharacter

/-- An empty run is not aligned. -/
def readPrimRun (w count : Nat) : Reading (List Nat) := do
  if count = 0 then return []
  d.align w
  let bs ← d.next (count * w)
  return (range count).map fun i => d.endianness.get (slot w bs i)

def readStrings (count : Nat) : Reading (List String) := do
  d.checkAvailable (count * 4)
  (replicate count ()).mapM fun _ => d.deserializeString

def readParameterHeader : Reading PlCdrMemberHeader := do
  d.align 4
  let bytes ← d.next 4
  let pid := d.endianness.get (bytes.take 2)
  let mustUnderstand := decide (pid / 0x4000 % 2 = 1)
  if pid % 0x4000 = pidSentinel then return .sentinel
  if pid % 0x4000 = pidExtended then
    let more ← d.next 8
    return .long (d.endianness.get (more.take 4)) (d.endianness.get (more.drop 4)) mustUnderstand
  return .short (pid % 0x4000) (d.endianness.get (bytes.drop 2)) mustUnderstand

/-- The elements of an array, or of a sequence behind their number. -/
def count : Option Nat → Reading Nat
  | some size => return size
  | none => d.number 4 4

end Deserializer

/-! ## Operations -/

inductive Value where
  | numbers (ns : List Nat)
  | texts (vs : List String)
  | header (h : PlCdrMemberHeader)

/-- The reads of both readers. Characters and truth values are numbers that are looked at afterwards. -/
inductive Read where
  /-- Of so many bytes. -/
  | primitive (w : Nat)
  | string
  | wstring16
  | primitives (w : Nat) (size : Option Nat)
  | octets (size : Option Nat)
  | strings (size : Option Nat)

inductive Op where
  | read (r : Read)
  | align (a : Nat)
  | skip (n : Nat)
  | parameterHeader
  | isAtSentinel

section

variable (d : Deserializer)

def Read.run : Read → Reading Value
  | .primitive w => return .numbers [← d.number (min w 8) w]
  | .string => return .texts [← d.deserializeString]
  | .wstring16 => return .texts [← d.deserializeWstring16]
  | .primitives w size => return .numbers (← d.readPrimRun w (← d.count size))
  | .octets size => return .numbers ((← d.next (← d.count size)).map BitVec.toNat)
  | .strings size => do
    if d.dheaders then discard (d.number 4 4)
    return .texts (← d.readStrings (← d.count size))

def Op.run : Op → Reading Value
  | .read r => r.run d
  | .align a => do
    d.align a
    return .numbers []
  | .skip n => do
    d.checkAvailable n
    modify (· + n)
    return .numbers []
  | .parameterHeader => return .header (← d.readParameterHeader)
  | .isAtSentinel => do
    let p ← get
    let pid := d.endianness.get (d.input.copyTo p 2)
    return .numbers [if p + 4 ≤ d.input.len ∧ pid % 0x4000 = pidSentinel then 1 else 0]

/-- What each operation returns, and the position then. -/
def trace : List Op → Nat → List (Except CdrError Value × Nat)
  | [], _ => []
  | op :: ops, p =>
    let r := (op.run d).run.run p
    r :: trace ops r.2

end

/-! ## The readers -/

def cdrEndianness (id : Nat) : Except CdrError Endianness :=
  if id = 0 ∨ id = 2 then .ok .big else if id = 1 ∨ id = 3 then .ok .little else .error (.invalidEncapsulation id)

/-- `CdrDeserializer::new`. -/
def new (data : Bytes) : Except CdrError Deserializer :=
  if data.length < 4 then .error .insufficientData
  else (cdrEndianness (Endianness.big.get (data.take 2))).map fun e => ⟨e, .contiguous (data.drop 4), 0, false, false⟩

/-- `CdrDeserializer::new_chained`. -/
def newChained (chunks : List Bytes) : Except CdrError Deserializer :=
  if (chunks.map length).sum < 4 then .error .insufficientData
  else (cdrEndianness (Endianness.big.get (((Input.chained chunks 0).copyTo 0 4).take 2))).map fun e =>
    ⟨e, .chained chunks 4, 0, false, false⟩

/-- `Xcdr2Deserializer::new`. -/
def newXcdr2 (data : Bytes) : Except CdrError Deserializer :=
  if data.length < 4 then .error .insufficientData
  else
    match parseEncapsulationHeader (Endianness.big.get (data.take 2)) with
    | some e => .ok ⟨e, .contiguous (data.drop 4), 4, true, true⟩
    | none => (cdrEndianness (Endianness.big.get (data.take 2))).map fun e =>
      ⟨e, .contiguous (data.drop 4), 4, false, true⟩

/-! ## Chains -/

theorem gather_eq {chunks : List Bytes} {start pos n : Nat} (h : start ≤ pos) :
    Input.gather chunks start pos n = (chunks.flatten.drop (pos - start)).take n := by
  induction chunks generalizing start pos n with
  | nil => simp [Input.gather]
  | cons chunk chunks ih =>
    rw [Input.gather, flatten_cons]
    split_ifs with hn hlt
    · rw [hn, take_zero]
    · dsimp only
      rw [drop_append_of_le_length (by omega), take_append, length_drop]
      rcases Nat.le_total n (chunk.length - (pos - start)) with hle | hle
      · rw [Nat.min_eq_right hle, Nat.sub_self, Nat.sub_eq_zero_of_le hle, take_zero]
        cases chunks <;> rw [Input.gather]
        rw [if_pos rfl]
      · have hnext : pos + (chunk.length - (pos - start)) = start + chunk.length := by omega
        have hall : (chunk.drop (pos - start)).length ≤ n := by rwa [length_drop]
        rw [Nat.min_eq_left hle, hnext, ih (Nat.le_refl _), Nat.sub_self, drop_zero, ← length_drop, take_length,
          take_of_length_le hall]
    · have hskip : pos - start = chunk.length + (pos - (start + chunk.length)) := by omega
      rw [ih (by omega), hskip, ← drop_drop, drop_left]

theorem chained_eq (chunks : List Bytes) (skip : Nat) :
    Input.chained chunks skip = .contiguous (chunks.flatten.drop skip) := by
  unfold Input.chained
  congr 1
  · rw [length_drop, length_flatten]
  · funext offset n
    rw [gather_eq (Nat.zero_le _), drop_drop, Nat.sub_zero, Nat.add_comm]

/-- **Reading across fragments.** A chain is read as its bytes in one piece would be. -/
theorem chained_reads_alike (chunks : List Bytes) (ops : List Op) :
    (newChained chunks).map (fun d => trace d ops 0) = (new chunks.flatten).map fun d => trace d ops 0 := by
  have hheader : ((Input.chained chunks 0).copyTo 0 4).take 2 = chunks.flatten.take 2 := by
    rw [chained_eq]
    exact take_take
  unfold newChained new
  rw [hheader, chained_eq, length_flatten]

/-! ## Version 1 in the reader of version 2 -/

/-- No alignment to eight bytes, and no collection of strings. -/
def Read.Plain : Read → Prop
  | .primitive w => w ∣ 4
  | .primitives w size => w ∣ 4 ∨ size = some 0
  | .strings _ => False
  | _ => True

theorem alignUp_add_four {a : Nat} (ha : a ∣ 4) (p : Nat) : alignUp a (p + 4) - 4 = alignUp a p := by
  obtain ⟨k, hk⟩ := ha
  have hpos : 0 < a := by
    rcases Nat.eq_zero_or_pos a with rfl | h
    · omega
    · exact h
  unfold alignUp
  rw [show p + 4 + a - 1 = p + a - 1 + a * k by omega, Nat.add_mul_div_left _ _ hpos, Nat.add_mul, Nat.mul_comm k,
    ← hk, Nat.add_sub_cancel]

theorem run_of_plain {r : Read} (h : r.Plain) (e : Endianness) (input : Input) :
    r.run ⟨e, input, 4, false, true⟩ = r.run ⟨e, input, 0, false, false⟩ := by
  have halign {a : Nat} (ha : a ∣ 4) : Deserializer.align ⟨e, input, 4, false, true⟩ a =
      Deserializer.align ⟨e, input, 0, false, false⟩ a := by
    unfold Deserializer.align
    simp only [Bool.false_eq_true, if_false, alignUp_add_four ha]
    rfl
  have hnumber {a : Nat} (ha : a ∣ 4) (w : Nat) : Deserializer.number ⟨e, input, 4, false, true⟩ a w =
      Deserializer.number ⟨e, input, 0, false, false⟩ a w := by
    unfold Deserializer.number
    rw [halign ha]
    rfl
  have h4 := hnumber (Nat.dvd_refl 4) 4
  have h2 : 2 ∣ 4 := by decide
  cases r with
  | primitive w =>
    have hw : min w 8 ∣ 4 := by rwa [Nat.min_eq_left ((Nat.le_of_dvd (by decide) h).trans (by decide))]
    simp only [Read.run, hnumber hw]
  | string =>
    simp only [Read.run, Deserializer.deserializeString, h4]
    rfl
  | wstring16 =>
    simp only [Read.run, Deserializer.deserializeWstring16, h4, hnumber h2, halign h2]
    rfl
  | primitives w size =>
    rcases h with h | rfl
    · cases size <;> simp only [Read.run, Deserializer.readPrimRun, Deserializer.count, h4, halign h] <;> rfl
    · rfl
  | octets size => cases size <;> simp only [Read.run, Deserializer.count, h4] <;> rfl
  | strings => cases h

/-- **Version 1 in the reader of version 2.** Alignments count from the start of the payload and not of the body: no
difference to reads aligned to four bytes at most. A collection of strings is taken for one with a size in front. -/
theorem xcdr2_reads_xcdr1 (data : Bytes) (hid : Endianness.big.get (data.take 2) ≤ 3) (reads : List Read)
    (hplain : ∀ r ∈ reads, r.Plain) :
    (newXcdr2 data).map (fun d => trace d (reads.map .read) 0) =
      (new data).map fun d => trace d (reads.map .read) 0 := by
  have hold : parseEncapsulationHeader (Endianness.big.get (data.take 2)) = none := by
    unfold parseEncapsulationHeader
    rw [if_neg (by omega), if_neg (by omega)]
  have htrace (e : Endianness) (input : Input) (p : Nat) : trace ⟨e, input, 4, false, true⟩ (reads.map .read) p =
      trace ⟨e, input, 0, false, false⟩ (reads.map .read) p := by
    induction reads generalizing p with
    | nil => rfl
    | cons r reads ih =>
      rw [map_cons, trace, Op.run, run_of_plain (hplain r mem_cons_self) e input]
      exact congrArg _ (ih (forall_mem_cons.1 hplain).2 _)
  unfold newXcdr2 new
  rw [hold]
  split_ifs
  · rfl
  · cases cdrEndianness (Endianness.big.get (data.take 2)) with
    | error => rfl
    | ok e => exact congrArg Except.ok (htrace e _ 0)

/-- A text of six bytes, and a number that is aligned after it. -/
def textAndNumber : Bytes := [0, 1, 0, 0] ++ [2, 0, 0, 0, 0x61, 0] ++ [0, 0] ++ [5, 0, 0, 0]

theorem xcdr2_reads_xcdr1_aligned :
    (new textAndNumber).map (fun d => trace d [.read .string, .read (.primitive 4)] 0) =
        .ok [(.ok (.texts ["a"]), 6), (.ok (.numbers [5]), 12)] ∧
      (newXcdr2 textAndNumber).map (fun d => trace d [.read .string, .read (.primitive 4)] 0) =
        (new textAndNumber).map fun d => trace d [.read .string, .read (.primitive 4)] 0 :=
  ⟨rfl, xcdr2_reads_xcdr1 textAndNumber (by decide) [.string, .primitive 4] (by simp [Read.Plain])⟩

/-- Eight bytes are looked for four bytes too far on, and an empty sequence of strings taken for the size of one. -/
theorem xcdr2_misreads_xcdr1 :
    (new ([0, 1, 0, 0] ++ zeros 8)).map (fun d => trace d [.read (.primitive 8)] 0) = .ok [(.ok (.numbers [0]), 8)] ∧
      (newXcdr2 ([0, 1, 0, 0] ++ zeros 8)).map (fun d => trace d [.read (.primitive 8)] 0) =
        .ok [(.error .insufficientData, 4)] ∧
      (new ([0, 1, 0, 0] ++ zeros 4)).map (fun d => trace d [.read (.strings none)] 0) = .ok [(.ok (.texts []), 4)] ∧
      (newXcdr2 ([0, 1, 0, 0] ++ zeros 4)).map (fun d => trace d [.read (.strings none)] 0) =
        .ok [(.error .insufficientData, 4)] := ⟨rfl, rfl, rfl, rfl⟩

end Int2Dds.XTypes.Cdr
