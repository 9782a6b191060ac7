import Int2Dds.XTypes.Xcdr2

/-!
# XCDR version 1

`DynamicData` in the first version of the encoding: alignments of up to eight bytes, counted from the end of the
encapsulation header, no headers around objects and collections, and a parameter list for the members of a mutable
struct, which ends with a sentinel. An optional member of another struct is a parameter of its own, of length zero where
the member is absent.
-/

namespace Int2Dds.XTypes

open Lib Lib.Encoder Lib.Cursor

variable (c : Coding) (e : Endianness) (readers : List (MemberDescriptor × De DynamicValue)) (memberId : Nat)
  (mustUnderstand : Bool)

/-- Positions count the encapsulation header, alignments do not. -/
def xcdr1 : Coding := ⟨e, 8, 4⟩

/-! ## Writing -/

def pidSentinel : Nat := 0x3F02

def pidExtended : Nat := 0x3F01

def maxShortMemberId : Nat := 0x3F00

def maxShortLength : Nat := 0xFFFF

/-- Alignment in the buffer, header included. -/
def alignBuffer (alignment : Nat) : Ser := fun buf =>
  pure ((), if buf.length % alignment = 0 then buf else buf ++ zeros (alignment - buf.length % alignment))

def overwriteAt (pos : Nat) (bs : Bytes) : Ser := fun buf => pure ((), overwrite buf pos bs)

def spliceAt (pos n : Nat) : Ser := fun buf => pure ((), buf.take pos ++ (zeros n ++ buf.drop pos))

def endMutableStruct : Ser := do
  alignBuffer 4
  push (c.endianness.put 2 pidSentinel ++ c.endianness.put 2 0)

/-- The flag of a member that must be understood. -/
def pidFlags : Nat := mustUnderstand.toNat * 0x4000

def shortHeader (len : Nat) : Bytes :=
  c.endianness.put 2 (pidFlags mustUnderstand + memberId) ++ c.endianness.put 2 len

def extendedHeader (len : Nat) : Bytes :=
  c.endianness.put 2 (pidFlags mustUnderstand + pidExtended) ++
    (c.endianness.put 2 8 ++ (c.endianness.put 4 memberId ++ c.endianness.put 4 (len % 2 ^ 32)))

/-- A short header grows by the part that an extended one has more. -/
def extendHeader (headerPos memberId : Nat) : Ser :=
  if memberId ≤ maxShortMemberId then spliceAt (headerPos + 4) 8 else pure ()

/-- The header goes in front once the length is known; a short one may make room for an extended one. -/
def writeMemberWithV1 (w : Ser) : Ser := do
  alignBuffer 4
  let headerPos ← size
  push (zeros (if memberId ≤ maxShortMemberId then 4 else 12))
  let contentStart ← size
  asMemberError w
  let stop ← size
  let contentLen := stop - contentStart
  if memberId ≤ maxShortMemberId ∧ contentLen ≤ maxShortLength then
    overwriteAt headerPos (shortHeader c memberId mustUnderstand contentLen)
  else do
    extendHeader headerPos memberId
    overwriteAt headerPos (extendedHeader c memberId mustUnderstand contentLen)

section Serialize

variable (c : Coding) (nested : DynamicData → Ser)

mutual

def serializeValueCdr : DynamicValue → DynamicTypeKind → Ser
  | .sequence items, kind =>
    match kind with
    | .sequence elementType _ => do
      serializeWord c 4 items.length
      serializeItemsCdr items elementType
    | _ => fail "type mismatch: expected Sequence"
  | .array items, kind =>
    match kind with
    | .array elementType _ => serializeItemsCdr items elementType
    | _ => fail "type mismatch: expected Array"
  | .optional (some inner), kind => do
    serializeBool c true
    serializeValueCdr inner kind
  | .optional none, _ => serializeBool c false
  | .union discriminator value, kind =>
    match asUnionKind kind with
    | none => fail "type mismatch: expected Union"
    | some (discType, _, members, _) => do
      serializeValueCdr discriminator discType
      let m ← selectUnionMember members discriminator
      serializeValueCdr value m.memberType
  | .map entries, kind =>
    match kind with
    | .map keyType valueType _ => do
      serializeWord c 4 entries.length
      serializeEntriesCdr entries keyType valueType
    | _ => fail "type mismatch: expected Map"
  | other, kind => serializeAtomicValue c nested other kind

def serializeItemsCdr : List DynamicValue → DynamicTypeKind → Ser
  | [], _ => pure ()
  | v :: items, kind => do
    serializeValueCdr v kind
    serializeItemsCdr items kind

def serializeEntriesCdr : List (DynamicValue × DynamicValue) → DynamicTypeKind → DynamicTypeKind → Ser
  | [], _, _ => pure ()
  | (k, v) :: entries, keyType, valueType => do
    serializeValueCdr k keyType
    serializeValueCdr v valueType
    serializeEntriesCdr entries keyType valueType

end

end Serialize

/-- The parameters of a mutable struct; what is absent is left out. -/
def serializeMembersCdrMutable (c : Coding) (value : DynamicValue → DynamicTypeKind → Ser) (d : DynamicData) :
    List MemberDescriptor → Ser
  | [] => endMutableStruct c
  | m :: members => do
    match memberValueOrDefault d m with
    | some v => writeMemberWithV1 c m.memberId m.isMustUnderstand (value v m.memberType)
    | none => pure ()
    serializeMembersCdrMutable c value d members

/-- One member of a struct that is not mutable; an optional one is a parameter, empty where absent. -/
def serializeMemberCdr (value : DynamicValue → DynamicTypeKind → Ser) (d : DynamicData) (m : MemberDescriptor) : Ser :=
  if m.isOptional then
    writeMemberWithV1 c m.memberId m.isMustUnderstand
      (match d.getValue m.name with
      | some v => value v m.memberType
      | none => pure ())
  else
    match memberValueOrDefault d m with
    | some v => value v m.memberType
    | none => pure ()

def serializeMembersCdr (c : Coding) (value : DynamicValue → DynamicTypeKind → Ser) (d : DynamicData) :
    List MemberDescriptor → Ser
  | [] => pure ()
  | m :: members => do
    serializeMemberCdr c value d m
    serializeMembersCdr c value d members

def serializeStructCdr (c : Coding) : Nat → DynamicData → Ser
  | 0, _ => Decoder.lift Outcome.panic
  | n + 1, d =>
    let value := serializeValueCdr c (serializeStructCdr c n)
    match d.dynamicType.kind with
    | .union discType _ members => do
      let (discriminator, m, v) ← unionParts d members
      value discriminator discType
      value v m.memberType
    | .struct members =>
      if d.dynamicType.extensibility = .mutable then serializeMembersCdrMutable c value d members
      else serializeMembersCdr c value d members
    | _ => fail "Expected struct type"

/-- `CdrSerializer` leaves the extensibility of its header at `Appendable`. -/
def cdrEncodingKind : Nat :=
  match e with
  | .big => 0
  | .little => 1

def serializeCdr (d : DynamicData) : Outcome DdsError Bytes := do
  let (_, bytes) ← serializeStructCdr (xcdr1 e) d.depth d (encapsulationHeader (cdrEncodingKind e))
  pure bytes

/-! ## Reading -/

inductive PlCdrMemberHeader where
  | short (pid length : Nat) (mustUnderstand : Bool)
  | long (memberId length : Nat) (mustUnderstand : Bool)
  | sentinel
deriving DecidableEq

def readParameterHeader : De PlCdrMemberHeader := do
  align c 4
  let bytes ← take (.cdr .insufficientData) 4
  let pid := c.endianness.get (bytes.take 2)
  let length := c.endianness.get (bytes.drop 2)
  let rawPid := pid % 0x4000
  let mustUnderstand := decide (pid / 0x4000 % 2 = 1)
  if rawPid = pidSentinel then pure .sentinel
  else if rawPid = pidExtended then do
    let more ← take (.cdr .insufficientData) 8
    pure (.long (c.endianness.get (more.take 4)) (c.endianness.get (more.drop 4)) mustUnderstand)
  else pure (.short rawPid length mustUnderstand)

/-- Whether the next four bytes are a sentinel, which stays unread. The position is not aligned. -/
def isAtSentinel : De Bool := fun s =>
  pure (if s.data.length < s.position + 4 then false
    else decide (c.endianness.get ((s.data.drop s.position).take 2) % 0x4000 = pidSentinel), s)

/-- The value of a parameter, if its id is known. -/
def readParameterValue (memberLength : Nat) (mustUnderstand : Bool) (values : List (String × DynamicValue)) :
    De (List (String × DynamicValue)) :=
  match findReader readers memberId with
  | some (m, read) => do
    let v ← read
    pure (insertValue values m.name v)
  | none =>
    if mustUnderstand then fail s!"Unknown required member with id {memberId}"
    else do
      skip memberLength
      pure values

/-- Whatever the value left of its parameter is skipped. -/
def skipUnread (memberStart memberLength : Nat) : De Unit := do
  let stop ← current
  if stop - memberStart < memberLength then skip (memberLength - (stop - memberStart)) else pure ()

def deserializeParameterCdr (memberLength : Nat) (mustUnderstand : Bool) (values : List (String × DynamicValue)) :
    De (List (String × DynamicValue)) := do
  let memberStart ← current
  let values ← readParameterValue readers memberId memberLength mustUnderstand values
  skipUnread memberStart memberLength
  pure values

/-- The parameters of a mutable struct. The loop ends at a sentinel that it sees, and leaves, or reads. Every other
turn reads a header of at least four bytes. -/
def deserializeStructMembersMutableCdr (c : Coding) (readers : List (MemberDescriptor × De DynamicValue)) :
    Nat → List (String × DynamicValue) → De (List (String × DynamicValue))
  | 0, _ => Decoder.lift Outcome.panic
  | fuel + 1, values => do
    let atSentinel ← isAtSentinel c
    if atSentinel then pure values
    else do
      let header ← readParameterHeader c
      match header with
      | .sentinel => pure values
      | .short pid length mustUnderstand => do
        let values ← deserializeParameterCdr readers pid length mustUnderstand values
        deserializeStructMembersMutableCdr c readers fuel values
      | .long memberId length mustUnderstand => do
        let values ← deserializeParameterCdr readers memberId length mustUnderstand values
        deserializeStructMembersMutableCdr c readers fuel values

def deserializeMemberCdr (m : MemberDescriptor) (read : De DynamicValue) : De (Option DynamicValue) :=
  if m.isOptional then do
    let header ← readParameterHeader c
    match header with
    | .short _ 0 _ => pure none
    | .long _ 0 _ => pure none
    | .short .. => do
      let v ← read
      pure (some v)
    | .long .. => do
      let v ← read
      pure (some v)
    | .sentinel => fail ("Unexpected PID_SENTINEL while reading optional field \x60" ++ m.name ++ "\x60")
  else do
    let v ← read
    pure (some v)

def deserializeStructMembersCdr (c : Coding) :
    List (MemberDescriptor × De DynamicValue) → List (String × DynamicValue) → De (List (String × DynamicValue))
  | [], values => pure values
  | (m, read) :: readers, values => do
    let v ← deserializeMemberCdr c m read
    deserializeStructMembersCdr c readers (v.elim values (insertValue values m.name))

/-- Turns enough for all the bytes. -/
def readMutableCdr :
    De (List (String × DynamicValue)) := fun s =>
  deserializeStructMembersMutableCdr c readers (s.data.length + 1) [] s

def readStructCdr (t : DynamicType) (readers : List (MemberDescriptor × De DynamicValue)) : De DynamicData := do
  let values ← if t.extensibility = .mutable then readMutableCdr c readers
    else deserializeStructMembersCdr c readers []
  pure ⟨t, values⟩

section Deserialize

variable (c : Coding)

mutual

/-- `tc` applies to this value only; elements and entries are discarded. -/
def deserializeValueCdr : DynamicTypeKind → TryConstructKind → De DynamicValue
  | .sequence elementType bound, tc => do
    let len ← deserializeWord c 4
    let items ← readBounded len bound tc "sequence" (deserializeValueCdr elementType .discard)
    pure (.sequence items)
  | .array elementType dimensions, _ => do
    let total ← checkedArrayLen dimensions
    let items ← Decoder.times total (deserializeValueCdr elementType .discard)
    pure (.array items)
  | .map keyType valueType bound, tc => do
    let len ← deserializeWord c 4
    let entries ← readBounded len bound tc "map" do
      let key ← deserializeValueCdr keyType .discard
      let value ← deserializeValueCdr valueType .discard
      pure (key, value)
    pure (.map entries)
  | .typeRef ⟨name, .struct members, e⟩, _ => do
    let inner ← readStructCdr c ⟨name, .struct members, e⟩ (memberReadersCdr members)
    pure (.struct inner)
  | .typeRef ⟨_, .enum d, _⟩, tc => deserializeEnum c d tc
  | .typeRef ⟨_, .union discType discTc members, _⟩, _ =>
    readUnionParts (deserializeValueCdr discType discTc) (unionReadersCdr members)
  | .typeRef ⟨_, kind, _⟩, tc => deserializeAtomicValue c kind tc
  | kind, tc => deserializeAtomicValue c kind tc

def memberReadersCdr : List MemberDescriptor → List (MemberDescriptor × De DynamicValue)
  | [] => []
  | ⟨name, id, kind, isKey, isOptional, must, tc⟩ :: members =>
    (⟨name, id, kind, isKey, isOptional, must, tc⟩, deserializeValueCdr kind tc) :: memberReadersCdr members

def unionReadersCdr : List UnionMemberDescriptor → List (UnionMemberDescriptor × De DynamicValue)
  | [] => []
  | ⟨name, id, kind, labels, isDefault, tc⟩ :: members =>
    (⟨name, id, kind, labels, isDefault, tc⟩, deserializeValueCdr kind tc) :: unionReadersCdr members

end

end Deserialize

def deserializeStructCdr (t : DynamicType) : De DynamicData :=
  match t.kind with
  | .union discType discTc members => do
    let value ← readUnionParts (deserializeValueCdr c discType discTc) (unionReadersCdr c members)
    let values ← unionValues members value
    pure ⟨t, values⟩
  | .struct members => readStructCdr c t (memberReadersCdr c members)
  | _ => fail "Expected struct type"

def deserializeCdr (bytes : Bytes) (t : DynamicType) : Outcome DdsError DynamicData :=
  let id := Endianness.big.get (bytes.take 2)
  if id = 0 ∨ id = 2 then (deserializeStructCdr (xcdr1 .big) t).runOn ⟨bytes, 4⟩
  else if id = 1 ∨ id = 3 then (deserializeStructCdr (xcdr1 .little) t).runOn ⟨bytes, 4⟩
  else Outcome.error (.cdr (.invalidEncapsulation id))

end Int2Dds.XTypes
