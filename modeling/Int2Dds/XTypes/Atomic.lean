import Int2Dds.XTypes.DynamicData

/-!
# Values without parts

The part of the serializer and the deserializer that the two versions of the encoding share: numbers, strings, enums,
bitmasks and bitsets, in a `Coding` that says how they are aligned.
-/

namespace Int2Dds.XTypes

open Lib Lib.Encoder Lib.Cursor List DynamicValue BitVec

/-! ## Errors -/

mutual

inductive CdrError where
  | insufficientData
  | invalidEncapsulation (id : Nat)
  | invalidString
  | invalidCharacter
  | invalidWideCharacter
  /-- With the text of the error. -/
  | serializationError (e : DdsError)
  | deserializationError (text : String)
  | invalidMemberHeader
  | invalidMemberId (id : Nat)

/-- `DdsError::Error`, with a text of its own or that of a CDR error. -/
inductive DdsError where
  | error (text : String)
  | cdr (e : CdrError)

end

abbrev Ser := Encoder DdsError Unit

abbrev De := Decoder Cursor DdsError

def fail {σ α : Type} (text : String) : Decoder σ DdsError α := Decoder.lift (Outcome.error (.error text))

def failCdr {σ α : Type} (e : CdrError) : Decoder σ DdsError α := Decoder.lift (Outcome.error (.cdr e))

/-! ## Numbers -/

variable (c : Coding) (v : String)

/-- `serialize_u8`, `serialize_u16`, `serialize_u32` and `serialize_u64`; the casts to them wrap. -/
def serializeWord (w n : Nat) : Ser := put c w w n

def deserializeWord (w : Nat) : De Nat := Cursor.get (.cdr .insufficientData) c w w

def serializeBool (v : Bool) : Ser := serializeWord c 1 v.toNat

def deserializeBool : De Bool := do
  let n ← deserializeWord c 1
  pure (decide (n ≠ 0))

/-! ## binary128 -/

namespace Float128

/-- Shift right to the nearest, ties to even. -/
def roundShift (value shift : Nat) : Nat :=
  let q := value >>> shift
  let rem := value % 2 ^ shift
  let half := 2 ^ (shift - 1)
  if half < rem ∨ (rem = half ∧ q % 2 = 1) then q + 1 else q

/-- Nearest `f64`, ties to even. -/
def toF64 (v : BitVec 128) : BitVec 64 :=
  let sign := v.toNat / 2 ^ 127 * 2 ^ 63
  let exp := v.toNat / 2 ^ 112 % 2 ^ 15
  let mant := v.toNat % 2 ^ 112
  if exp = 0x7FFF then
    let m := mant / 2 ^ 60
    BitVec.ofNat 64 (sign + 0x7FF * 2 ^ 52 + if mant ≠ 0 ∧ m = 0 then 2 ^ 51 else m)
  else if exp = 0 then BitVec.ofNat 64 sign
  else if exp > 16383 + 1023 then BitVec.ofNat 64 (sign + 0x7FF * 2 ^ 52)
  else if exp + 1022 ≥ 16383 then BitVec.ofNat 64 (sign + (exp + 1023 - 16383) * 2 ^ 52 + roundShift mant 60)
  else
    let shift := 16383 - exp - 962
    BitVec.ofNat 64 (sign + if shift ≥ 128 then 0 else roundShift (2 ^ 112 + mant) shift)

/-- Exact widening of an `f64`. -/
def ofF64 (v : BitVec 64) : BitVec 128 :=
  let sign := v.toNat / 2 ^ 63
  let exp := v.toNat / 2 ^ 52 % 2 ^ 11
  let mant := v.toNat % 2 ^ 52
  if exp = 0 ∧ mant = 0 then BitVec.ofNat 128 (sign * 2 ^ 127)
  else if exp = 0 then
    -- `leading_zeros` less 12
    let lz := 51 - Nat.log2 mant
    BitVec.ofNat 128 (sign * 2 ^ 127 + (15360 - lz) * 2 ^ 112 + mant * 2 ^ (lz + 1) % 2 ^ 52 * 2 ^ 60)
  else if exp = 0x7FF then BitVec.ofNat 128 (sign * 2 ^ 127 + 0x7FFF * 2 ^ 112 + mant * 2 ^ 60)
  else BitVec.ofNat 128 (sign * 2 ^ 127 + (exp + 16383 - 1023) * 2 ^ 112 + mant * 2 ^ 60)

end Float128

/-! ## Writing -/

/-- The length counts the terminator. -/
def serializeString : Ser := do
  serializeWord c 4 ((utf8 v).length + 1)
  push (utf8 v)
  push [0]

/-- The length is in bytes, and there is no terminator. -/
def serializeWstring16 : Ser := do
  serializeWord c 4 ((utf16 v.toList).length * 2)
  align c 2
  push ((utf16 v.toList).flatMap (c.endianness.put 2))

def enumBitBound : DynamicTypeKind → Option Nat
  | .enum d => some d.bitBound
  | .typeRef ⟨_, .enum d, _⟩ => some d.bitBound
  | _ => none

def serializeEnumValue (value : BitVec 32) (bitBound : Nat) : Ser :=
  serializeWord c (enumWireWidth bitBound) value.toNat

def serializePacked (bits : BitVec 64) (width : Nat) : Ser := serializeWord c width bits.toNat

def serializeAtomicValue (serializeNestedStruct : DynamicData → Ser) :
    DynamicValue → DynamicTypeKind → Ser
  | .boolean v, _ => serializeBool c v
  | .int8 v, _ => serializeWord c 1 v.toNat
  | .int16 v, _ => serializeWord c 2 v.toNat
  | .int32 v, _ => serializeWord c 4 v.toNat
  | .int64 v, _ => serializeWord c 8 v.toNat
  | .uint8 v, _ => serializeWord c 1 v.toNat
  | .uint16 v, _ => serializeWord c 2 v.toNat
  | .uint32 v, _ => serializeWord c 4 v.toNat
  | .uint64 v, _ => serializeWord c 8 v.toNat
  | .float32 v, _ => serializeWord c 4 v.toNat
  -- an f64 set on a float128 member is widened
  | .float64 v, kind =>
    match kind.resolvedKind with
    | .primitive .float128 => put c 8 16 (Float128.ofF64 v).toNat
    | _ => serializeWord c 8 v.toNat
  | .float128 v, kind =>
    match kind.resolvedKind with
    | .primitive .float64 => serializeWord c 8 (Float128.toF64 v).toNat
    | _ => put c 8 16 v.toNat
  | .char8 v, kind =>
    match kind.resolvedKind with
    | .primitive .char16 => serializeWord c 2 v.toNat
    | _ => serializeWord c 1 v.toNat
  | .byte v, _ => serializeWord c 1 v.toNat
  | .string v, _ => serializeString c v
  | .wstring v, _ => serializeWstring16 c v
  | .enum _ value, kind => serializeEnumValue c value ((enumBitBound kind).getD 32)
  | .struct inner, _ => serializeNestedStruct inner
  | .bitmask bits, kind =>
    match kind.resolvedKind with
    | .bitmask bitBound => serializePacked c bits (packedWireWidth bitBound)
    | _ => serializePacked c bits 8
  | .bitset bits, kind =>
    match kind.resolvedKind with
    | .bitset totalBits => serializePacked c bits (packedWireWidth totalBits)
    | _ => serializePacked c bits 8
  | .null, _ => pure ()
  | .union .., _ => fail "serialize_atomic_value called with union; use format-specific path"
  | .sequence _, _ | .array _, _ | .map _, _ | .optional _, _ =>
    fail "serialize_atomic_value called with collection/optional; use format-specific path"

/-! ## Reading -/

def deserializeString : De String := do
  let length ← deserializeWord c 4
  if length = 0 then pure ""
  else
    let data ← take (.cdr .insufficientData) length
    let bytes := if data.getLast? = some 0 then data.dropLast else data
    match ofUtf8 bytes with
    | some v => pure v
    | none => failCdr .invalidString

def deserializeWstring16 : De String := do
  let byteLen ← deserializeWord c 4
  if byteLen % 2 ≠ 0 then failCdr .invalidString
  else
    align c 2
    ensure (.cdr .insufficientData) (byteLen / 2 * 2)
    let units ← Decoder.times (byteLen / 2) (deserializeWord c 2)
    match ofUtf16 units with
    | some v => pure (String.ofList v)
    | none => failCdr .invalidWideCharacter

inductive BoundFit where
  | keep
  | trim (max : Nat)
  | default

/-- What becomes of an object longer than the local bound. -/
def fitBound {σ : Type} (len : Nat) (bound : Option Nat) (tc : TryConstructKind) (what : String) :
    Decoder σ DdsError BoundFit :=
  match bound with
  | none => pure .keep
  | some max =>
    if max < len then
      match tc with
      | .trim => pure (.trim max)
      | .useDefault => pure .default
      | .discard => fail s!"{what} length {len} exceeds bound {max}"
    else pure .keep

/-- `len` entries, then what the bound makes of them. -/
def readBounded {α : Type} (len : Nat) (bound : Option Nat) (tc : TryConstructKind) (what : String) (read : De α) :
    De (List α) := do
  let fit ← fitBound len bound tc what
  let items ← Decoder.times len read
  match fit with
  | .keep => pure items
  | .trim max => pure (items.take max)
  | .default => pure []

/-- Sign-extended from its wire width. -/
def deserializeEnumValue (bitBound : Nat) : De (BitVec 32) := do
  let n ← deserializeWord c (enumWireWidth bitBound)
  pure ((BitVec.ofNat (8 * enumWireWidth bitBound) n).signExtend 32)

/-- The literal of the value read; without one, the default literal if the member asks for it. -/
def deserializeEnum (d : EnumDescriptor) (tc : TryConstructKind) : De DynamicValue := do
  let value ← deserializeEnumValue c d.bitBound
  match d.getLiteralByValue value with
  | some l => pure (.enum l.name l.value)
  | none =>
    if tc = .useDefault then
      match d.defaultLiteral.or d.literals.head? with
      | some l => pure (.enum l.name l.value)
      | none => fail "enum has no literals"
    else fail s!"enum value {value.toInt} has no literal"

def deserializePacked (width : Nat) : De (BitVec 64) := do
  let n ← deserializeWord c width
  pure (BitVec.ofNat 64 n)

def deserializePrimitive : PrimitiveKind → De DynamicValue
  | .boolean => do return .boolean (← deserializeBool c)
  | .int8 => do return .int8 (BitVec.ofNat 8 (← deserializeWord c 1))
  | .int16 => do return .int16 (BitVec.ofNat 16 (← deserializeWord c 2))
  | .int32 => do return .int32 (BitVec.ofNat 32 (← deserializeWord c 4))
  | .int64 => do return .int64 (BitVec.ofNat 64 (← deserializeWord c 8))
  | .uint8 => do return .uint8 (BitVec.ofNat 8 (← deserializeWord c 1))
  | .uint16 => do return .uint16 (BitVec.ofNat 16 (← deserializeWord c 2))
  | .uint32 => do return .uint32 (BitVec.ofNat 32 (← deserializeWord c 4))
  | .uint64 => do return .uint64 (BitVec.ofNat 64 (← deserializeWord c 8))
  | .float32 => do return .float32 (BitVec.ofNat 32 (← deserializeWord c 4))
  | .float64 => do return .float64 (BitVec.ofNat 64 (← deserializeWord c 8))
  | .float128 => do return .float128 (BitVec.ofNat 128 (← Cursor.get (.cdr .insufficientData) c 8 16))
  | .char8 => do return .char8 (Char.ofNat (← deserializeWord c 1))
  | .char16 => do
    let unit ← deserializeWord c 2
    return .char8 (if unit < 0xD800 ∨ 0xDFFF < unit then Char.ofNat unit else Char.ofNat 0xFFFD)
  | .byte => do return .byte (BitVec.ofNat 8 (← deserializeWord c 1))

def stringFit : BoundFit → String
  | .keep => v
  | .trim max => String.ofList (v.toList.take max)
  | .default => ""

/-- The text of the first `max` units, a surrogate without its other half replaced. -/
def ofUtf16Lossy : List Nat → List Char
  | [] => []
  | [u] => [if u < 0xD800 ∨ 0xDFFF < u then Char.ofNat u else Char.ofNat 0xFFFD]
  | u :: v :: us =>
    if u < 0xD800 ∨ 0xDFFF < u then Char.ofNat u :: ofUtf16Lossy (v :: us)
    else if u < 0xDC00 ∧ 0xDC00 ≤ v ∧ v ≤ 0xDFFF then
      Char.ofNat (0x10000 + (u - 0xD800) * 0x400 + (v - 0xDC00)) :: ofUtf16Lossy us
    else Char.ofNat 0xFFFD :: ofUtf16Lossy (v :: us)

def wstringFit : BoundFit → String
  | .keep => v
  | .trim max => String.ofList (ofUtf16Lossy ((utf16 v.toList).take max))
  | .default => ""

def nestedStructDeserializationError (members : List MemberDescriptor) : String :=
  let name := (members.head?.map fun m => m.name).getD "anonymous struct"
  "Nested struct deserialization is not supported yet for '" ++ name ++
    "': runtime nested type metadata is unavailable"

def deserializeAtomicValue (kind : DynamicTypeKind) (tc : TryConstructKind) : De DynamicValue :=
  match kind with
  | .primitive kind => deserializePrimitive c kind
  | .string bound => do
    let value ← deserializeString c
    let fit ← fitBound value.length bound tc "string"
    pure (.string (stringFit value fit))
  | .wstring bound => do
    let value ← deserializeWstring16 c
    let fit ← fitBound (utf16 value.toList).length bound tc "wstring"
    pure (.wstring (wstringFit value fit))
  | .enum d => deserializeEnum c d tc
  | .struct members => fail (nestedStructDeserializationError members)
  | .bitmask bitBound => do return .bitmask (← deserializePacked c (packedWireWidth bitBound))
  | .bitset totalBits => do return .bitset (← deserializePacked c (packedWireWidth totalBits))
  | .union .. => fail "Union must be handled by the format-specific deserialization path"
  | .typeRef _ => fail "TypeRef must be handled by the format-specific deserialization path"
  | .externalType => fail "External type deserialization is not supported yet"
  | .sequence .. | .array .. | .map .. =>
    fail "deserialize_atomic_value called with collection; use format-specific path"

/-! ## Round trips -/

section RoundTrip

variable {c : Coding} {k : Nat}

/-- A number of `w` bytes at the position `k`, with its padding. -/
def wordAt (c : Coding) (k w n : Nat) : Bytes := zeros (c.padding w k) ++ c.endianness.put w n

@[simp] theorem length_wordAt (c : Coding) (k w n : Nat) : (wordAt c k w n).length = c.padding w k + w := by
  rw [wordAt, length_append, length_zeros, Endianness.length_put]

variable {w n : Nat} {bound : Option Nat} {v : String}

theorem length_wordAt_lt (hc : c.Standard) (k n : Nat) (hw : 0 < w) : (wordAt c k w n).length < 2 * w := by
  have := Coding.padding_lt k hw hc.pos
  rw [length_wordAt]
  omega

def IsWidth (w : Nat) : Prop := w = 1 ∨ w = 2 ∨ w = 4 ∨ w = 8

theorem codes_word (hc : c.Standard) (hw : IsWidth w) (hn : n < 256 ^ w) :
    Codes c k (serializeWord c w n) (deserializeWord c w) (wordAt c k w n) n := codes_put _ (hc.fits hw) hn

theorem writes_word (hc : c.Standard) (hw : IsWidth w) (n : Nat) :
    Writes c k (serializeWord c w n) (wordAt c k w n) := writes_put (hc.fits hw) w n

theorem codes_bitVec (hc : c.Standard) (hw : IsWidth w) (v : BitVec (8 * w)) (g : BitVec (8 * w) → DynamicValue) :
    Codes c k (serializeWord c w v.toNat) (deserializeWord c w >>= fun n => pure (g (BitVec.ofNat (8 * w) n)))
      (wordAt c k w v.toNat) (g v) := by
  have hlt : v.toNat < 256 ^ w := by
    have := v.isLt
    rwa [Nat.pow_mul] at this
  have h := (codes_word (k := k) hc hw hlt).map (fun n => g (BitVec.ofNat (8 * w) n))
  rwa [ofNat_toNat, setWidth_eq] at h

theorem codes_bool (hc : c.Standard) (v : Bool) :
    Codes c k (serializeBool c v) (deserializeBool c) (wordAt c k 1 v.toNat) v := by
  have h := (codes_word (k := k) hc (.inl rfl) (Nat.lt_of_lt_of_le (Bool.toNat_lt v) (by decide))).map
    (fun n => decide (n ≠ 0))
  cases v <;> exact h

theorem reads_fitBound {len : Nat} (h : WithinBound bound len) (tc : TryConstructKind) (what : String) :
    Reads c k (fitBound len bound tc what : De BoundFit) [] .keep := by
  unfold fitBound
  cases bound with
  | none => exact reads_pure _
  | some max =>
    have hle : ¬ max < len := Nat.not_lt.2 (h max rfl)
    dsimp only
    rw [if_neg hle]
    exact reads_pure _

/-- What is written at `k` reads back as `a`, takes at most `size` bytes, and none only if `hollow`. -/
def Coded {α : Type} (c : Coding) (k : Nat) (w : Ser) (r : De α) (a : α) (hollow : Prop) (size : Nat) : Prop :=
  ∃ chunk, Codes c k w r chunk a ∧ (chunk = [] ↔ hollow) ∧ chunk.length ≤ size

section Coded

variable {α β : Type} {w v : Ser} {r : De α} {a : α} {b : β} {hollow hollow' : Prop} {size size' : Nat}

theorem coded_pure (a : α) : Coded c k (pure ()) (pure a) a True 0 :=
  ⟨[], codes_pure, iff_of_true rfl trivial, Nat.le_refl 0⟩

section

variable (h : Coded c k w r a hollow size)
include h

theorem Coded.mono (hhollow : hollow ↔ hollow') (hsize : size ≤ size') : Coded c k w r a hollow' size' := by
  obtain ⟨chunk, hcodes, hnil, hlen⟩ := h
  exact ⟨chunk, hcodes, hnil.trans hhollow, hlen.trans hsize⟩

theorem Coded.map (g : α → β) : Coded c k w (r >>= fun x => pure (g x)) (g a) hollow size := by
  obtain ⟨chunk, hcodes, hnil, hlen⟩ := h
  exact ⟨chunk, hcodes.map g, hnil, hlen⟩

theorem Coded.bind {f : α → De β} (h' : ∀ k', k ≤ k' → Coded c k' v (f a) b hollow' size') :
    Coded c k (w >>= fun _ => v) (r >>= f) b (hollow ∧ hollow') (size + size') := by
  obtain ⟨chunk, hcodes, hnil, hlen⟩ := h
  obtain ⟨rest, hcodes', hnil', hlen'⟩ := h' (k + chunk.length) (Nat.le_add_right k _)
  refine ⟨chunk ++ rest, hcodes.bind hcodes', ?_, ?_⟩
  · rw [append_eq_nil_iff, hnil, hnil']
  · rw [length_append]
    omega

end

theorem Coded.after {r' : De β} {f : β → De α} (hr : Reads c k r' [] b) (h : Coded c k w (f b) a hollow size) :
    Coded c k w (r' >>= f) a hollow size := by
  obtain ⟨chunk, hcodes, hnil, hlen⟩ := h
  exact ⟨chunk, ⟨hcodes.writes, hr.bind_nil hcodes.reads⟩, hnil, hlen⟩

theorem Coded.before {f : α → De β} (h : Coded c k w r a hollow size) (hf : ∀ k', Reads c k' (f a) [] b) :
    Coded c k w (r >>= f) b hollow size := by
  obtain ⟨chunk, hcodes, hnil, hlen⟩ := h
  refine ⟨chunk, ⟨hcodes.writes, ?_⟩, hnil, hlen⟩
  rw [← append_nil chunk]
  exact hcodes.reads.bind (hf _)

theorem coded_each {ser : α → Ser} {r : De β} {back : α → β} {sizeOf : α → Nat} {hollow : α → Prop} {as : List α}
    (h : ∀ a ∈ as, ∀ k, c.origin ≤ k → Coded c k (ser a) r (back a) (hollow a) (sizeOf a)) (hk : c.origin ≤ k) :
    Coded c k (each ser as) (Decoder.times as.length r) (as.map back) (∀ a ∈ as, hollow a) (as.map sizeOf).sum := by
  induction as generalizing k with
  | nil => exact (coded_pure []).mono (iff_of_true trivial nofun) (Nat.le_refl 0)
  | cons a as ih =>
    have htail (k' : Nat) (hk' : k ≤ k') := (ih (forall_mem_cons.1 h).2 (hk.trans hk')).map
      (back a :: ·)
    exact ((h a mem_cons_self k hk).bind htail).mono forall_mem_cons.symm (Nat.le_refl _)

theorem coded_readBounded {r : De α} {as : List α} {bound : Option Nat} {n : Nat}
    (h : Coded c k w (Decoder.times n r) as hollow size) (hbound : WithinBound bound n) (tc : TryConstructKind)
    (what : String) : Coded c k w (readBounded n bound tc what r) as hollow size :=
  (h.map id).after (reads_fitBound hbound tc what)

end Coded

theorem coded_of_wordAt {α : Type} {size : Nat} {rest : Bytes} {wr : Ser} {r : De α} {a : α}
    (h : Codes c k wr r (wordAt c k w n ++ rest) a) (hw : 0 < w) (hsize : (wordAt c k w n ++ rest).length ≤ size) :
    Coded c k wr r a False size := by
  refine ⟨_, h, iff_of_false (fun hnil => ?_) id, hsize⟩
  have hlen := congrArg length hnil
  rw [length_append, length_wordAt, length_nil] at hlen
  omega

theorem coded_of_word {α : Type} {wr : Ser} {r : De α} {a : α} (h : Codes c k wr r (wordAt c k w n) a)
    (hc : c.Standard) (hw : IsWidth w) {size : Nat} (hsize : 2 * w ≤ size + 1) : Coded c k wr r a False size := by
  have hlt := length_wordAt_lt hc k n (show 0 < w by rcases hw with rfl | rfl | rfl | rfl <;> decide)
  rw [← append_nil (wordAt c k w n)] at h
  refine coded_of_wordAt h (by rcases hw with rfl | rfl | rfl | rfl <;> decide) ?_
  rw [append_nil]
  omega

section

variable (hc : c.Standard)
include hc

theorem coded_length (hn : n < 2 ^ 32) : Coded c k (serializeWord c 4 n) (deserializeWord c 4) n False 8 := by
  have hlt := length_wordAt_lt hc k n (show 0 < 4 by decide)
  have h := codes_word (k := k) hc (.inr (.inr (.inl rfl))) (show n < 256 ^ 4 from hn)
  rw [← append_nil (wordAt c k 4 n)] at h
  refine coded_of_wordAt h (by decide) ?_
  rw [append_nil]
  omega

theorem coded_bool (v : Bool) : Coded c k (serializeBool c v) (deserializeBool c) v False 2 := by
  have hlt := length_wordAt_lt hc k v.toNat (show 0 < 1 by decide)
  have h := codes_bool (k := k) hc v
  rw [← append_nil (wordAt c k 1 v.toNat)] at h
  refine coded_of_wordAt h (by decide) ?_
  rw [append_nil]
  omega

theorem coded_primitive (nested : DynamicData → Ser) {p : PrimitiveKind} {v : DynamicValue}
    (h : Typed (.primitive p) v) :
    Coded c k (serializeAtomicValue c nested v (.primitive p)) (deserializePrimitive c p) v False v.weight := by
  have h1 : IsWidth 1 := .inl rfl
  have h2 : IsWidth 2 := .inr (.inl rfl)
  have h4 : IsWidth 4 := .inr (.inr (.inl rfl))
  have h8 : IsWidth 8 := .inr (.inr (.inr rfl))
  cases h with
  | boolean v => exact coded_of_word ((codes_bool hc v).map boolean) hc h1 (by simp [DynamicValue.weight])
  | byte v | int8 v | uint8 v => exact coded_of_word (codes_bitVec hc h1 v _) hc h1 (by simp [DynamicValue.weight])
  | int16 v | uint16 v => exact coded_of_word (codes_bitVec hc h2 v _) hc h2 (by simp [DynamicValue.weight])
  | int32 v | uint32 v | float32 v => exact coded_of_word (codes_bitVec hc h4 v _) hc h4 (by simp [DynamicValue.weight])
  | int64 v | uint64 v | float64 v => exact coded_of_word (codes_bitVec hc h8 v _) hc h8 (by simp [DynamicValue.weight])
  | float128 v =>
    have hword := (codes_put (k := k) (DdsError.cdr .insufficientData) (hc.fits h8)
      (show v.toNat < 256 ^ 16 from v.isLt)).map (fun n => DynamicValue.float128 (BitVec.ofNat 128 n))
    rw [ofNat_toNat] at hword
    have hpad := Coding.padding_lt k (show 0 < 8 by decide) hc.pos
    refine ⟨_, hword, iff_of_false (fun hnil => ?_) id, ?_⟩
    · have hlen := congrArg length hnil
      rw [length_append, Endianness.length_put, length_nil] at hlen
      omega
    · rw [length_append, Endianness.length_put, length_zeros, DynamicValue.weight]
      omega
  | char8 v hv =>
    have hword := (codes_word (k := k) hc h1 (show v.toNat < 256 ^ 1 from hv)).map
      (fun n => char8 (Char.ofNat n))
    rw [Char.ofNat_toNat] at hword
    exact coded_of_word hword hc h1 (by simp [DynamicValue.weight])

theorem coded_string (hlen : (utf8 v).length + 1 < 2 ^ 32) :
    Coded c k (serializeString c v) (deserializeString c) v False ((utf8 v).length + 8) := by
  have hcodes : Codes c k (serializeString c v) (deserializeString c)
      (wordAt c k 4 ((utf8 v).length + 1) ++ (utf8 v ++ [0])) v := by
    refine (codes_word hc (.inr (.inr (.inl rfl))) hlen).bind ⟨(writes_push _).bind (writes_push _), ?_⟩
    have htake : (utf8 v ++ [0]).length = (utf8 v).length + 1 := length_append
    rw [← append_nil (utf8 v ++ [0])]
    refine (reads_take _ htake).bind ?_
    dsimp only
    rw [getLast?_concat, if_pos rfl, dropLast_concat, ofUtf8_utf8]
    exact reads_pure v
  have hlt := length_wordAt_lt hc k ((utf8 v).length + 1) (show 0 < 4 by decide)
  refine coded_of_wordAt hcodes (by decide) ?_
  rw [length_append, length_append, length_singleton]
  omega

theorem coded_atomicString (hbound : WithinBound bound v.length) (hlen : (utf8 v).length + 1 < 2 ^ 32)
    (tc : TryConstructKind) :
    Coded c k (serializeString c v) (deserializeAtomicValue c (.string bound) tc) (.string v) False
      ((utf8 v).length + 8) :=
  (coded_string hc hlen).before fun _ =>
    (reads_fitBound hbound tc "string").bind_pure fun fit => string (stringFit v fit)

theorem codes_units (hk : c.origin ≤ k) (hpad : c.padding 2 k = 0) {units : List Nat}
    (hunits : ∀ u ∈ units, u < 2 ^ 16) :
    Reads c k (Decoder.times units.length (deserializeWord c 2)) (units.flatMap (c.endianness.put 2)) units := by
  induction units generalizing k with
  | nil => exact reads_pure []
  | cons u units ih =>
    have hdvd : min 2 c.maxAlign ∣ 2 := by rcases hc with h | h <;> rw [h] <;> decide
    have hword : Reads c k (deserializeWord c 2) (c.endianness.put 2 u) u := by
      have h := (codes_word (k := k) hc (.inr (.inl rfl)) (hunits u mem_cons_self)).reads
      rwa [wordAt, hpad] at h
    have hnext : c.padding 2 (k + (c.endianness.put 2 u).length) = 0 := by
      rw [Endianness.length_put, Coding.padding_add hk hdvd, hpad]
    have htail := ih (hk.trans (Nat.le_add_right _ _)) hnext (forall_mem_cons.1 hunits).2
    exact hword.bind (htail.bind_pure (u :: ·))

end

theorem utf16_lt {s : List Char} {u : Nat} (hu : u ∈ utf16 s) : u < 2 ^ 16 := by
  obtain ⟨_, -, hu⟩ := mem_flatMap.1 hu
  exact utf16Units_lt hu

theorem length_flatMap_put (e : Endianness) (units : List Nat) :
    (units.flatMap (e.put 2)).length = units.length * 2 := by
  induction units with
  | nil => rfl
  | cons u units ih => rw [flatMap_cons, length_append, Endianness.length_put, length_cons]; omega

theorem coded_wstring (hc : c.Standard) (hk : c.origin ≤ k) (hlen : (utf16 v.toList).length * 2 < 2 ^ 32) :
    Coded c k (serializeWstring16 c v) (deserializeWstring16 c) v False ((utf16 v.toList).length * 2 + 10) := by
  have hlt := length_wordAt_lt hc k ((utf16 v.toList).length * 2) (show 0 < 4 by decide)
  have hk' : c.origin ≤ k + (wordAt c k 4 ((utf16 v.toList).length * 2)).length := hk.trans (Nat.le_add_right _ _)
  have hpad := Coding.padding_lt (c := c) (k + (wordAt c k 4 ((utf16 v.toList).length * 2)).length)
    (show 0 < 2 by decide) hc.pos
  have hfits : c.Fits 2 := hc.fits (.inr (.inl rfl))
  have hword := codes_word (k := k) hc (.inr (.inr (.inl rfl))) hlen
  have hcodes : Codes c k (serializeWstring16 c v) (deserializeWstring16 c)
      (wordAt c k 4 ((utf16 v.toList).length * 2) ++
        (zeros (c.padding 2 (k + (wordAt c k 4 ((utf16 v.toList).length * 2)).length)) ++
          (utf16 v.toList).flatMap (c.endianness.put 2))) v := by
    refine hword.bind ⟨(writes_align hfits).bind (writes_push _), ?_⟩
    have heven : ¬ (utf16 v.toList).length * 2 % 2 ≠ 0 := by
      rw [Nat.mul_mod_left]
      exact not_not.2 rfl
    rw [if_neg heven, Nat.mul_div_cancel _ (by decide)]
    refine (reads_align hfits).bind (Reads.ensure _ (length_flatMap_put _ _).ge ?_)
    rw [← append_nil ((utf16 v.toList).flatMap _), length_zeros]
    refine (codes_units hc (hk'.trans (Nat.le_add_right _ _)) (Coding.padding_padding hk' (by decide) hc.pos)
      (fun u hu => utf16_lt hu)).bind ?_
    rw [ofUtf16_utf16]
    dsimp only
    rw [String.ofList_toList]
    exact reads_pure v
  refine coded_of_wordAt hcodes (by decide) ?_
  rw [length_append, length_append, length_zeros, length_flatMap_put]
  omega

theorem coded_atomicWstring (hc : c.Standard) (hk : c.origin ≤ k) (hbound : WithinBound bound (utf16 v.toList).length)
    (hlen : (utf16 v.toList).length * 2 < 2 ^ 32) (tc : TryConstructKind) :
    Coded c k (serializeWstring16 c v) (deserializeAtomicValue c (.wstring bound) tc) (.wstring v) False
      ((utf16 v.toList).length * 2 + 10) :=
  (coded_wstring hc hk hlen).before fun _ =>
    (reads_fitBound hbound tc "wstring").bind_pure fun fit => wstring (wstringFit v fit)

theorem isWidth_enumWireWidth (bitBound : Nat) : IsWidth (enumWireWidth bitBound) := by
  unfold enumWireWidth IsWidth
  split_ifs <;> decide

theorem isWidth_packedWireWidth (bits : Nat) : IsWidth (packedWireWidth bits) := by
  unfold packedWireWidth IsWidth
  split_ifs <;> decide

theorem signExtend_setWidth (hpos : 0 < w) (hw : w ≤ 32) {v : BitVec 32} (h1 : -(2 ^ (w - 1) : Int) ≤ v.toInt)
    (h2 : v.toInt < 2 ^ (w - 1)) : (v.setWidth w).signExtend 32 = v := by
  apply eq_of_toInt_eq
  rw [toInt_signExtend_of_le hw, toInt_setWidth, Int.bmod_eq_iff (Nat.two_pow_pos w)]
  have hpow : ((2 ^ w : Nat) : Int) = 2 * 2 ^ (w - 1) := by
    rw [← pow_succ', Nat.sub_add_cancel hpos]
    norm_cast
  refine ⟨by omega, by omega, ?_⟩
  have hdvd : ((2 ^ w : Nat) : Int) ∣ ((2 ^ 32 : Nat) : Int) := Int.natCast_dvd_natCast.2 (Nat.pow_dvd_pow 2 hw)
  rw [toInt_eq_toNat_cond]
  split_ifs
  · rw [sub_self]
    exact dvd_zero _
  · rw [sub_sub_cancel_left]
    exact (Int.dvd_neg).2 hdvd

theorem serializeWord_mod : serializeWord c w (n % 256 ^ w) = serializeWord c w n := by
  unfold serializeWord put
  rw [Endianness.put_mod]

theorem coded_enum (hc : c.Standard) {d : EnumDescriptor} {l : EnumLiteralDescriptor}
    (hl : d.getLiteralByValue l.value = some l) (hfits : FitsEnum d.bitBound l.value) (tc : TryConstructKind) :
    Coded c k (serializeEnumValue c l.value d.bitBound) (deserializeEnum c d tc) (.enum l.name l.value) False 7 := by
  have hw := isWidth_enumWireWidth d.bitBound
  have hle : 8 * enumWireWidth d.bitBound ≤ 32 := by
    unfold enumWireWidth
    split_ifs <;> decide
  have hpos : 0 < enumWireWidth d.bitBound := by
    unfold enumWireWidth
    split_ifs <;> decide
  have hword := codes_word (k := k) hc hw (Nat.mod_lt l.value.toNat (Nat.pow_pos (show 0 < 256 by decide)))
  rw [serializeWord_mod] at hword
  have hvalue := hword.map fun n => (BitVec.ofNat (8 * enumWireWidth d.bitBound) n).signExtend 32
  have hback : (BitVec.ofNat (8 * enumWireWidth d.bitBound)
      (l.value.toNat % 256 ^ enumWireWidth d.bitBound)).signExtend 32 = l.value := by
    have hset : BitVec.ofNat (8 * enumWireWidth d.bitBound) (l.value.toNat % 256 ^ enumWireWidth d.bitBound) =
        l.value.setWidth (8 * enumWireWidth d.bitBound) := by
      apply eq_of_toNat_eq
      rw [toNat_ofNat, toNat_setWidth, Nat.pow_mul]
      exact Nat.mod_mod _ _
    rw [hset, signExtend_setWidth (by omega) hle hfits.1 hfits.2]
  rw [hback] at hvalue
  have hcodes : Codes c k (serializeEnumValue c l.value d.bitBound) (deserializeEnum c d tc)
      (wordAt c k (enumWireWidth d.bitBound) (l.value.toNat % 256 ^ enumWireWidth d.bitBound) ++ [])
        (.enum l.name l.value) := by
    refine ⟨by rw [append_nil]; exact hvalue.writes, hvalue.reads.bind ?_⟩
    rw [hl]
    exact reads_pure _
  rw [append_nil] at hcodes
  exact coded_of_word hcodes hc hw (by omega)

theorem coded_packed (hc : c.Standard) {bits : Nat} {v : BitVec 64} (hv : FitsPacked bits v)
    (g : BitVec 64 → DynamicValue) :
    Coded c k (serializePacked c v (packedWireWidth bits))
      (deserializePacked c (packedWireWidth bits) >>= fun b => pure (g b)) (g v) False 15 := by
  have hword := ((codes_word (k := k) hc (isWidth_packedWireWidth bits) hv).map (BitVec.ofNat 64)).map g
  rw [ofNat_toNat] at hword
  have hle : packedWireWidth bits ≤ 8 := by
    unfold packedWireWidth
    split_ifs <;> decide
  exact coded_of_word hword hc (isWidth_packedWireWidth bits) (by omega)

end RoundTrip

end Int2Dds.XTypes
