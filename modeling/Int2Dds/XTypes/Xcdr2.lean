import Int2Dds.XTypes.Atomic

/-!
# XCDR version 2

`DynamicData` in the second version of the encoding: alignments of at most four bytes, a DHEADER with the size in front
of appendable and mutable objects and of collections of non-primitive elements, and a member header with id and length
in front of every member of a mutable object.

`serializeStructXcdr` and `deserializeStructXcdr` are the two walks, over a value and over a type; `serializeXcdr` and
`deserializeDynamicData` add the encapsulation header. A nested struct is written by the function passed down as
`nested`; the recursion over nested structs counts down from the depth of the value.

`memberHeader_exact_iff` : which member headers announce the length of their member.
-/

namespace Int2Dds.XTypes

open Lib Lib.Encoder Lib.Cursor

/-- Positions count the encapsulation header, whose four bytes keep every alignment. -/
def xcdr2 (e : Endianness) : Coding := ⟨e, 4, 0⟩

/-! ## Writing -/

variable (c : Coding) (extensibility : ExtensibilityKind) (readDiscriminator : De DynamicValue)
  (readers : List (UnionMemberDescriptor × De DynamicValue))

def writeCollectionFramed (framed : Bool) (w : Ser) : Ser := if framed then delimited c w else w

def insertNextintSlotAt (pos : Nat) : Ser := fun buf => pure ((), buf.take pos ++ (zeros 4 ++ buf.drop pos))

/-- An error of the value, as the error of its member. -/
def asMemberError (w : Ser) : Ser := fun buf =>
  match (w buf).result with
  | .ok r => ⟨.ok r, (w buf).requests⟩
  | .error e => ⟨.error (.cdr (.serializationError e)), (w buf).requests⟩
  | .panic => ⟨.panic, (w buf).requests⟩

def selectLc (len : Nat) : Nat :=
  if len = 1 then 0 else if len = 2 then 1 else if len = 4 then 2 else if len = 8 then 3 else 4

/-- EMHEADER1: the must-understand bit, the length code and the id. -/
def emHeader (memberId : Nat) (mustUnderstand : Bool) (lc : Nat) : Nat :=
  mustUnderstand.toNat * 2 ^ 31 + lc * 2 ^ 28 + memberId

/-- The header goes in front once the length is known, with a NEXTINT if no length code says it. -/
def writeMemberWith (memberId : Nat) (mustUnderstand : Bool) (w : Ser) : Ser :=
  if 0x0FFFFFFF < memberId then failCdr (.invalidMemberId memberId)
  else do
    align c 4
    push (zeros 4)
    let start ← size
    asMemberError w
    let stop ← size
    let len := (stop - start) % 2 ^ 32
    if selectLc len = 4 then
      insertNextintSlotAt start
      patch c (start - 4) (emHeader memberId mustUnderstand 4)
      patch c start len
    else patch c (start - 4) (emHeader memberId mustUnderstand (selectLc len))

def writeUnion (m : UnionMemberDescriptor) (discriminator value : Ser) : Ser :=
  match extensibility with
  | .final => do
    discriminator
    value
  | .appendable => delimited c do
    discriminator
    value
  | .mutable => delimited c do
    writeMemberWith c 0 false discriminator
    writeMemberWith c m.memberId false value

/-- The parts of a union kind, and the extensibility that frames it. -/
def asUnionKind : DynamicTypeKind →
    Option (DynamicTypeKind × TryConstructKind × List UnionMemberDescriptor × ExtensibilityKind)
  | .union kind tc members => some (kind, tc, members, .final)
  | .typeRef ⟨_, .union kind tc members, e⟩ => some (kind, tc, members, e)
  | _ => none

def selectUnionMember {σ : Type} (members : List UnionMemberDescriptor) (discriminator : DynamicValue) :
    Decoder σ DdsError UnionMemberDescriptor :=
  match discriminator.discriminatorAsI64 with
  | none => fail s!"invalid union discriminator value: {discriminator.typeKind}"
  | some i =>
    match selectMember members i with
    | none => fail s!"no union member matches discriminator {i}"
    | some m => pure m

section Serialize

variable (c : Coding) (nested : DynamicData → Ser)

mutual

def serializeValueXcdr2 : DynamicValue → DynamicTypeKind → Ser
  | .sequence items, kind =>
    match kind with
    | .sequence elementType _ => writeCollectionFramed c (!elementType.isPrimitiveKind) do
      serializeWord c 4 items.length
      serializeItemsXcdr2 items elementType
    | _ => fail "type mismatch: expected Sequence"
  | .array items, kind =>
    match kind with
    | .array elementType _ =>
      writeCollectionFramed c (!elementType.isPrimitiveKind) (serializeItemsXcdr2 items elementType)
    | _ => fail "type mismatch: expected Array"
  | .optional (some inner), kind => do
    serializeBool c true
    serializeValueXcdr2 inner kind
  | .optional none, _ => serializeBool c false
  | .union discriminator value, kind =>
    match asUnionKind kind with
    | none => fail "type mismatch: expected Union"
    | some (discType, _, members, e) => do
      let m ← selectUnionMember members discriminator
      writeUnion c e m (serializeValueXcdr2 discriminator discType) (serializeValueXcdr2 value m.memberType)
  | .map entries, kind =>
    match kind with
    | .map keyType valueType _ =>
      writeCollectionFramed c (!(keyType.isPrimitiveKind && valueType.isPrimitiveKind)) do
        serializeWord c 4 entries.length
        serializeEntriesXcdr2 entries keyType valueType
    | _ => fail "type mismatch: expected Map"
  | other, kind => serializeAtomicValue c nested other kind

def serializeItemsXcdr2 : List DynamicValue → DynamicTypeKind → Ser
  | [], _ => pure ()
  | v :: items, kind => do
    serializeValueXcdr2 v kind
    serializeItemsXcdr2 items kind

def serializeEntriesXcdr2 : List (DynamicValue × DynamicValue) → DynamicTypeKind → DynamicTypeKind → Ser
  | [], _, _ => pure ()
  | (k, v) :: entries, keyType, valueType => do
    serializeValueXcdr2 k keyType
    serializeValueXcdr2 v valueType
    serializeEntriesXcdr2 entries keyType valueType

end

end Serialize

def memberValueOrDefault (d : DynamicData) (m : MemberDescriptor) : Option DynamicValue :=
  match d.getValue m.name with
  | some v => some v
  | none => if m.isOptional then none else some (.defaultForKind m.memberType)

/-- One member of a final or appendable struct; an optional one stands behind a presence flag. -/
def serializeMemberInline (value : DynamicValue → DynamicTypeKind → Ser) (d : DynamicData)
    (m : MemberDescriptor) : Ser :=
  if m.isOptional then
    match d.getValue m.name with
    | some v => do
      serializeBool c true
      value v m.memberType
    | none => serializeBool c false
  else
    match memberValueOrDefault d m with
    | some v => value v m.memberType
    | none => pure ()

def serializeMembersXcdr2Inline (c : Coding) (value : DynamicValue → DynamicTypeKind → Ser) (d : DynamicData) :
    List MemberDescriptor → Ser
  | [] => pure ()
  | m :: members => do
    serializeMemberInline c value d m
    serializeMembersXcdr2Inline c value d members

/-- Members behind their headers; what is absent is left out. -/
def serializeMembersXcdr2Mutable (c : Coding) (value : DynamicValue → DynamicTypeKind → Ser) (d : DynamicData) :
    List MemberDescriptor → Ser
  | [] => pure ()
  | m :: members => do
    match memberValueOrDefault d m with
    | some v => writeMemberWith c m.memberId m.isMustUnderstand (value v m.memberType)
    | none => pure ()
    serializeMembersXcdr2Mutable c value d members

def unionParts {σ : Type} (d : DynamicData) (members : List UnionMemberDescriptor) :
    Decoder σ DdsError (DynamicValue × UnionMemberDescriptor × DynamicValue) :=
  match d.getValue unionDiscriminatorField with
  | none => fail "union discriminator not set"
  | some discriminator => do
    let m ← selectUnionMember members discriminator
    pure (discriminator, m, (d.getValue m.name).getD (.defaultForKind m.memberType))

def serializeStructXcdr (c : Coding) : Nat → DynamicData → Ser
  | 0, _ => Decoder.lift Outcome.panic
  | n + 1, d =>
    let value := serializeValueXcdr2 c (serializeStructXcdr c n)
    match d.dynamicType.kind with
    | .union discType _ members => do
      let (discriminator, m, v) ← unionParts d members
      writeUnion c d.dynamicType.extensibility m (value discriminator discType) (value v m.memberType)
    | .struct members =>
      match d.dynamicType.extensibility with
      | .final => serializeMembersXcdr2Inline c value d members
      | .appendable => delimited c (serializeMembersXcdr2Inline c value d members)
      | .mutable => delimited c (serializeMembersXcdr2Mutable c value d members)
    | _ => fail "Expected struct type"

/-- `EncodingKind` of a version 2 encoding. -/
def encodingKind (e : Endianness) : Nat :=
  match extensibility, e with
  | .final, .big => 6
  | .final, .little => 7
  | .appendable, .big => 8
  | .appendable, .little => 9
  | .mutable, .big => 0x0A
  | .mutable, .little => 0x0B

/-- The encoding identifier, big-endian, and no options. -/
def encapsulationHeader (id : Nat) : Bytes := Endianness.big.put 2 id ++ zeros 2

def serializeXcdr (e : Endianness) (extensibility : ExtensibilityKind) (d : DynamicData) : Outcome DdsError Bytes := do
  let (_, bytes) ← serializeStructXcdr (xcdr2 e) d.depth d (encapsulationHeader (encodingKind extensibility e))
  pure bytes

/-! ## Reading -/

/-- Four bytes as a number, left unread. -/
def peekNextint : De Nat := fun s =>
  if s.position + 4 ≤ s.data.length then
    pure (c.endianness.get ((s.data.drop s.position).take 4), s)
  else Outcome.error (.cdr .insufficientData)

def skip (n : Nat) : De Unit := do
  let _ ← take (.cdr .insufficientData) n
  pure ()

/-- The DHEADER of a collection, which is not used. -/
def readCollectionDheader (framed : Bool) : De Unit :=
  if framed then do
    let _ ← deserializeWord c 4
    pure ()
  else pure ()

/-- The size announced by a DHEADER, and where the object starts. -/
def beginStruct : De (Nat × Nat) := do
  let size ← deserializeWord c 4
  let start ← current
  pure (size, start)

/-- What is left of the object is skipped. -/
def endStruct (objectSize start : Nat) : De Unit := do
  let position ← current
  if position - start < objectSize then skip (objectSize - (position - start))
  else if objectSize < position - start then
    failCdr (.deserializationError
      s!"Object size mismatch: read {position - start} bytes but DHEADER indicates {objectSize} bytes")
  else pure ()

/-- What `read` makes of the inside of an object, given its end. -/
def readDelimited {α : Type} (c : Coding) (read : Nat → De α) : De α := do
  let (objectSize, start) ← beginStruct c
  let a ← read (start + objectSize)
  endStruct objectSize start
  pure a

/-- `MemberHeader::read`: id, length and must-understand bit. -/
def readMemberHeaderFull : De (Nat × Nat × Bool) := do
  align c 4
  let bytes ← take (.cdr .insufficientData) 4
  let header := c.endianness.get bytes
  let memberId := header % 2 ^ 28
  let mustUnderstand := decide (header / 2 ^ 31 % 2 = 1)
  match header / 2 ^ 28 % 8 with
  | 0 => pure (memberId, 1, mustUnderstand)
  | 1 => pure (memberId, 2, mustUnderstand)
  | 2 => pure (memberId, 4, mustUnderstand)
  | 3 => pure (memberId, 8, mustUnderstand)
  | 4 => do
    let next ← take (.cdr .insufficientData) 4
    pure (memberId, c.endianness.get next, mustUnderstand)
  | lc => do
    -- NEXTINT is part of the value
    let next ← peekNextint c
    let unit := if lc = 5 then 1 else if lc = 6 then 4 else 8
    let bytes ← Decoder.lift (Outcome.checked 32 (unit * next))
    let length ← Decoder.lift (Outcome.checked 32 (4 + bytes))
    pure (memberId, length, mustUnderstand)

def deserializeMemberInline (m : MemberDescriptor) (read : De DynamicValue) : De (Option DynamicValue) :=
  if m.isOptional then do
    let present ← deserializeBool c
    if present then do
      let v ← read
      pure (some v)
    else pure none
  else do
    let v ← read
    pure (some v)

/-- The members of a final or appendable struct. Behind the end of an appendable object they take their default. -/
def deserializeStructMembersXcdr2 (c : Coding) (objectEnd : Option Nat) :
    List (MemberDescriptor × De DynamicValue) → List (String × DynamicValue) → De (List (String × DynamicValue))
  | [], values => pure values
  | (m, read) :: readers, values => do
    let position ← current
    if objectEnd.any fun stop => decide (stop ≤ position) then
      deserializeStructMembersXcdr2 c objectEnd readers
        (if m.isOptional then values else insertValue values m.name (.defaultForKind m.memberType))
    else do
      let v ← deserializeMemberInline c m read
      deserializeStructMembersXcdr2 c objectEnd readers (v.elim values (insertValue values m.name))

/-- `get_member_by_id`, with the function that reads the member. -/
def findReader (readers : List (MemberDescriptor × De DynamicValue)) (id : Nat) :
    Option (MemberDescriptor × De DynamicValue) := readers.reverse.find? fun r => r.1.memberId = id

def deserializeMutableMemberXcdr2 (readers : List (MemberDescriptor × De DynamicValue))
    (values : List (String × DynamicValue)) : De (List (String × DynamicValue)) := do
  let (id, length, mustUnderstand) ← readMemberHeaderFull c
  match findReader readers id with
  | some (m, read) => do
    let v ← read
    pure (insertValue values m.name v)
  | none =>
    if mustUnderstand then fail s!"Unknown required member with id {id}"
    else do
      skip length
      pure values

/-- The members of a mutable struct, until its end. Every turn reads a header of at least four bytes. -/
def deserializeMutableMembersXcdr2 (c : Coding) (readers : List (MemberDescriptor × De DynamicValue))
    (objectEnd : Nat) :
    Nat → List (String × DynamicValue) → De (List (String × DynamicValue))
  | 0, _ => Decoder.lift Outcome.panic
  | fuel + 1, values => do
    let position ← current
    if position < objectEnd then do
      let values ← deserializeMutableMemberXcdr2 c readers values
      deserializeMutableMembersXcdr2 c readers objectEnd fuel values
    else pure values

def readStructXcdr (t : DynamicType) (readers : List (MemberDescriptor × De DynamicValue)) : De DynamicData := do
  let values ← match t.extensibility with
    | .final => deserializeStructMembersXcdr2 c none readers []
    | .appendable =>
      readDelimited c fun objectEnd => deserializeStructMembersXcdr2 c (some objectEnd) readers []
    | .mutable =>
      readDelimited c fun objectEnd => deserializeMutableMembersXcdr2 c readers objectEnd (objectEnd + 1) []
  pure ⟨t, values⟩

/-- `select_union_member`, with the function that reads the branch. -/
def selectReader (discriminator : DynamicValue) : De (UnionMemberDescriptor × De DynamicValue) :=
  match discriminator.discriminatorAsI64 with
  | none => fail s!"invalid union discriminator value: {discriminator.typeKind}"
  | some i =>
    match (readers.find? fun r => r.1.labels.any fun l => l.toInt = i).or (readers.find? fun r => r.1.isDefault) with
    | none => fail s!"no union member matches discriminator {i}"
    | some r => pure r

def readUnionParts : De DynamicValue := do
  let discriminator ← readDiscriminator
  let (_, read) ← selectReader readers discriminator
  let value ← read
  pure (.union discriminator value)

/-- The same, each part behind a member header. -/
def readUnionMembers : De DynamicValue := do
  let (discId, _, _) ← readMemberHeaderFull c
  if discId ≠ 0 then fail s!"expected union discriminator member id 0, got {discId}"
  else do
    let discriminator ← readDiscriminator
    let (_, read) ← selectReader readers discriminator
    let _ ← readMemberHeaderFull c
    let value ← read
    pure (.union discriminator value)

def readUnionXcdr2 : De DynamicValue :=
  match extensibility with
  | .final => readUnionParts readDiscriminator readers
  | .appendable => readDelimited c fun _ => readUnionParts readDiscriminator readers
  | .mutable => readDelimited c fun _ => readUnionMembers c readDiscriminator readers

/-- The number of elements; the product is checked to fit 32 bits. -/
def checkedArrayLen {σ : Type} (dimensions : List Nat) : Decoder σ DdsError Nat :=
  match dimensions.foldlM (fun acc d => if acc * d < 2 ^ 32 then some (acc * d) else none) 1 with
  | some n => pure n
  | none => fail s!"array dimensions overflow element count: {dimensions}"

section Deserialize

variable (c : Coding)

mutual

/-- `tc` applies to this value only; elements and entries are discarded. -/
def deserializeValueXcdr2 : DynamicTypeKind → TryConstructKind → De DynamicValue
  | .sequence elementType bound, tc => do
    readCollectionDheader c (!elementType.isPrimitiveKind)
    let len ← deserializeWord c 4
    let items ← readBounded len bound tc "sequence" (deserializeValueXcdr2 elementType .discard)
    pure (.sequence items)
  | .array elementType dimensions, _ => do
    readCollectionDheader c (!elementType.isPrimitiveKind)
    let total ← checkedArrayLen dimensions
    let items ← Decoder.times total (deserializeValueXcdr2 elementType .discard)
    pure (.array items)
  | .map keyType valueType bound, tc => do
    readCollectionDheader c (!(keyType.isPrimitiveKind && valueType.isPrimitiveKind))
    let len ← deserializeWord c 4
    let entries ← readBounded len bound tc "map" do
      let key ← deserializeValueXcdr2 keyType .discard
      let value ← deserializeValueXcdr2 valueType .discard
      pure (key, value)
    pure (.map entries)
  | .typeRef ⟨name, .struct members, e⟩, _ => do
    let inner ← readStructXcdr c ⟨name, .struct members, e⟩ (memberReadersXcdr2 members)
    pure (.struct inner)
  | .typeRef ⟨_, .enum d, _⟩, tc => deserializeEnum c d tc
  | .typeRef ⟨_, .union discType discTc members, e⟩, _ =>
    readUnionXcdr2 c e (deserializeValueXcdr2 discType discTc) (unionReadersXcdr2 members)
  | .typeRef ⟨_, kind, _⟩, tc => deserializeAtomicValue c kind tc
  | kind, tc => deserializeAtomicValue c kind tc

def memberReadersXcdr2 : List MemberDescriptor → List (MemberDescriptor × De DynamicValue)
  | [] => []
  | ⟨name, id, kind, isKey, isOptional, must, tc⟩ :: members =>
    (⟨name, id, kind, isKey, isOptional, must, tc⟩, deserializeValueXcdr2 kind tc) :: memberReadersXcdr2 members

def unionReadersXcdr2 : List UnionMemberDescriptor → List (UnionMemberDescriptor × De DynamicValue)
  | [] => []
  | ⟨name, id, kind, labels, isDefault, tc⟩ :: members =>
    (⟨name, id, kind, labels, isDefault, tc⟩, deserializeValueXcdr2 kind tc) :: unionReadersXcdr2 members

end

end Deserialize

def unionValues (members : List UnionMemberDescriptor) (value : DynamicValue) : De (List (String × DynamicValue)) :=
  match value with
  | .union discriminator value => do
    let m ← selectUnionMember members discriminator
    pure (insertValue [(unionDiscriminatorField, discriminator)] m.name value)
  | _ => fail "type mismatch: expected Union"

def deserializeStructXcdr (t : DynamicType) : De DynamicData :=
  match t.kind with
  | .union discType discTc members => do
    let value ← readUnionXcdr2 c t.extensibility (deserializeValueXcdr2 c discType discTc) (unionReadersXcdr2 c members)
    let values ← unionValues members value
    pure ⟨t, values⟩
  | .struct members => readStructXcdr c t (memberReadersXcdr2 c members)
  | _ => fail "Expected struct type"

/-- The byte order of a version 2 encoding. -/
def parseEncapsulationHeader (id : Nat) : Option Endianness :=
  if id = 6 ∨ id = 8 ∨ id = 0x0A then some .big else if id = 7 ∨ id = 9 ∨ id = 0x0B then some .little else none

def deserializeXcdr (bytes : Bytes) (t : DynamicType) : Outcome DdsError DynamicData :=
  match parseEncapsulationHeader (Endianness.big.get (bytes.take 2)) with
  | some e => (deserializeStructXcdr (xcdr2 e) t).runOn ⟨bytes, 4⟩
  | none => Outcome.error (.cdr (.invalidEncapsulation (Endianness.big.get (bytes.take 2))))

/-! ## What a member header announces -/

/-- The length of the payload that an LC and a NEXTINT stand for. -/
def announcedLength (next : Nat) : Nat → Nat
  | 0 => 1
  | 1 => 2
  | 2 => 4
  | 3 => 8
  | 4 => next
  | 5 => 4 + next
  | 6 => 4 + 4 * next
  | _ => 4 + 8 * next

def headerStart (s : Cursor) : Nat := s.position + c.padding 4 s.position

def peekWord (data : Bytes) (position : Nat) : Nat := c.endianness.get ((data.drop position).take 4)

def headerLc (s : Cursor) : Nat := peekWord c s.data (headerStart c s) / 2 ^ 28 % 8

def headerLength (s : Cursor) : Nat := announcedLength (peekWord c s.data (headerStart c s + 4)) (headerLc c s)

/-- Where the payload of a member starts: NEXTINT is only a part of the header if LC is 4. -/
def payloadStart (s : Cursor) : Nat := headerStart c s + if headerLc c s = 4 then 8 else 4

theorem result_nextint {α : Type} (s : Cursor) (unit : Nat) (f : Nat → α) :
    ((do
      let next ← peekNextint c
      let bytes ← Decoder.lift (Outcome.checked 32 (unit * next))
      let length ← Decoder.lift (Outcome.checked 32 (4 + bytes))
      pure (f length) : De α) s).result =
      if s.data.length < s.position + 4 then .error (.cdr .insufficientData)
      else if 2 ^ 32 ≤ 4 + unit * peekWord c s.data s.position then .panic
      else .ok (f (4 + unit * peekWord c s.data s.position), s) := by
  rw [Decoder.bind_apply, peekNextint]
  by_cases hshort : s.data.length < s.position + 4
  · rw [if_pos hshort, if_neg (by omega)]
    rfl
  rw [if_neg hshort, if_pos (by omega)]
  show ((Outcome.checked 32 (unit * peekWord c s.data s.position) >>= fun n => pure (n, s)) >>= fun _ => _).result = _
  unfold Outcome.checked
  by_cases hproduct : unit * peekWord c s.data s.position < 2 ^ 32
  · rw [if_pos hproduct]
    show (((if 4 + unit * peekWord c s.data s.position < 2 ^ 32 then _ else _ : Outcome DdsError Nat) >>=
      fun n => pure (n, s)) >>= fun _ => _).result = _
    split_ifs
    · omega
    · rfl
    · rfl
    · omega
  · rw [if_neg hproduct, if_pos (by omega)]
    rfl

theorem result_readMemberHeaderFull (s : Cursor) :
    (readMemberHeaderFull c s).result =
      if s.data.length < headerStart c s + 4 ∨ 4 ≤ headerLc c s ∧ s.data.length < headerStart c s + 8 then
        .error (.cdr .insufficientData)
      else if 5 ≤ headerLc c s ∧ 2 ^ 32 ≤ headerLength c s then .panic
      else .ok ((peekWord c s.data (headerStart c s) % 2 ^ 28, headerLength c s,
        decide (peekWord c s.data (headerStart c s) / 2 ^ 31 % 2 = 1)), ⟨s.data, payloadStart c s⟩) := by
  have hlc : headerLc c s < 8 := Nat.mod_lt _ (by decide)
  show (take _ 4 ⟨s.data, headerStart c s⟩ >>= _).result = _
  by_cases hword : s.data.length < headerStart c s + 4
  · rw [if_pos (.inl hword), take_of_lt hword]
    rfl
  rw [take_of_le (Nat.le_of_not_lt hword)]
  simp only [or_iff_right hword]
  show ((match headerLc c s with
    | 0 => _ | 1 => _ | 2 => _ | 3 => _ | 4 => _ | _ => _ : De (Nat × Nat × Bool)) _).result = _
  rw [headerLength, payloadStart]
  generalize headerLc c s = lc at *
  match lc, hlc with
  | 0, _ | 1, _ | 2, _ | 3, _ => rfl
  | 4, _ =>
    show (take _ 4 ⟨s.data, headerStart c s + 4⟩ >>= _).result = _
    by_cases hnext : s.data.length < headerStart c s + 8
    · rw [if_pos ⟨le_rfl, hnext⟩, take_of_lt hnext]
      rfl
    · rw [if_neg (fun h => hnext h.2), take_of_le (Nat.le_of_not_lt hnext)]
      rfl
  | 5, _ | 6, _ | 7, _ =>
    refine (result_nextint c _ _ _).trans ?_
    simp only [announcedLength, Nat.reduceLeDiff, Nat.reduceEqDiff, if_true, if_false,
      true_and, one_mul]
    split_ifs <;> rfl

theorem headerLength_lt (s : Cursor) (h : headerLc c s < 5) : headerLength c s < 2 ^ 32 := by
  have hnext : peekWord c s.data (headerStart c s + 4) < 2 ^ 32 :=
    (c.endianness.get_lt _).trans_le (Nat.pow_le_pow_right (by decide) (List.length_take_le 4 _))
  rw [headerLength]
  generalize headerLc c s = lc at h
  match lc, h with
  | 0, _ | 1, _ | 2, _ | 3, _ => simp [announcedLength]
  | 4, _ => exact hnext

/-- Every header is refused or announces the exact length of its member, and skipping it ends where the member ends;
except that the length behind an LC of 5, 6 or 7 is computed in 32 bits. -/
theorem memberHeader_exact_iff (s : Cursor) :
    ((readMemberHeaderFull c s).result ≠ .panic ∧
      ∀ id length must s', (readMemberHeaderFull c s).result = .ok ((id, length, must), s') →
        length = headerLength c s ∧ length < 2 ^ 32 ∧
          (skip length s').result = if payloadStart c s + headerLength c s ≤ s.data.length then
            .ok ((), ⟨s.data, payloadStart c s + headerLength c s⟩) else .error (.cdr .insufficientData)) ↔
      headerLc c s < 5 ∨ s.data.length < headerStart c s + 8 ∨ headerLength c s < 2 ^ 32 := by
  have hlt := headerLength_lt c s
  rw [result_readMemberHeaderFull]
  by_cases hshort : s.data.length < headerStart c s + 4 ∨ 4 ≤ headerLc c s ∧ s.data.length < headerStart c s + 8
  · rw [if_pos hshort]
    exact iff_of_true ⟨nofun, nofun⟩ (by omega)
  by_cases hpanic : 5 ≤ headerLc c s ∧ 2 ^ 32 ≤ headerLength c s
  · rw [if_neg hshort, if_pos hpanic]
    exact iff_of_false (fun h => h.1 rfl) (by omega)
  rw [if_neg hshort, if_neg hpanic]
  refine iff_of_true ⟨nofun, fun id length must s' h => ?_⟩ (by omega)
  cases h
  refine ⟨rfl, by omega, ?_⟩
  rw [skip, Decoder.bind_apply, take]
  split_ifs <;> rfl

/-- An LC of 5 and a NEXTINT of 2³² - 4. -/
theorem memberHeader_overflow : (readMemberHeaderFull (xcdr2 .little)
    ⟨[7, 0, 0, 0x50, 0xfc, 0xff, 0xff, 0xff], 0⟩).result = .panic := rfl

end Int2Dds.XTypes
