import Int2Dds.XTypes.Xcdr2
import Mathlib.Data.List.Sort

/-!
# Keys

The key of a sample, as `serialize_key_cdr` writes it and `deserialize_key_cdr` reads it: the key members in the order
of their ids, big-endian, in version 2 of the encoding, without headers. A nested struct is reduced to its own key
members, or kept as a whole if it has none, and is written as a final one whatever its type says.

The writer reduces the structs it finds anywhere in a value. The reader does so for the structs it reaches through
structs and arrays; behind a sequence, a map or a union it reads whole structs.
-/

namespace Int2Dds.XTypes

open Lib Lib.Encoder Lib.Cursor

def keyOrder (members : List MemberDescriptor) : List MemberDescriptor :=
  (members.filter fun m => m.isKey).insertionSort fun a b => a.memberId ≤ b.memberId

def keyMembersOrdered (t : DynamicType) : List MemberDescriptor :=
  match t.kind with
  | .struct members => keyOrder members
  | _ => []

def isSingleStringKey : List MemberDescriptor → Bool
  | [m] =>
    match m.memberType.resolvedKind with
    | .string _ => true
    | _ => false
  | _ => false

/-! ## Writing -/

/-- Key members stand behind each other, optional ones without a flag. -/
def serializeKeyMembers (value : DynamicValue → DynamicTypeKind → Ser) (d : DynamicData) : List MemberDescriptor → Ser
  | [] => pure ()
  | m :: members =>
    match memberValueOrDefault d m with
    | none => fail ("Missing key member value for '" ++ m.name ++ "'")
    | some v => do
      value v m.memberType
      serializeKeyMembers value d members

def serializeKeyHolderStruct (c : Coding) : Nat → DynamicData → Ser
  | 0, _ => Decoder.lift Outcome.panic
  | n + 1, d =>
    let value := serializeValueXcdr2 c (serializeKeyHolderStruct c n)
    match keyMembersOrdered d.dynamicType with
    | [] =>
      match d.dynamicType.kind with
      | .struct members => serializeMembersXcdr2Inline c value d members
      | _ => fail "Expected struct type"
    | m :: members => serializeKeyMembers value d (m :: members)

/-- Drop zeros from the front while another one follows. -/
def dropZeros : Bytes → Bytes
  | a :: b :: bs => if a = 0 ∧ b = 0 then dropZeros (b :: bs) else a :: b :: bs
  | bs => bs

/-- Of several zeros at the end, one stays. -/
def trimTerminators (bs : Bytes) : Bytes := (dropZeros bs.reverse).reverse

/-- The bytes of the key, and whether it is a single string. The header is written only for the alignment. -/
def serializeKeyCdr (d : DynamicData) : Outcome DdsError (Bytes × Bool) :=
  match keyMembersOrdered d.dynamicType with
  | [] => pure ([], false)
  | m :: members => do
    let (_, bytes) ←
      serializeKeyMembers (serializeValueXcdr2 (xcdr2 .big) (serializeKeyHolderStruct (xcdr2 .big) d.depth))
      d (m :: members) (encapsulationHeader (encodingKind .final .big))
    pure (if isSingleStringKey (m :: members) then trimTerminators (bytes.drop 4) else bytes.drop 4,
      isSingleStringKey (m :: members))

/-! ## Reading -/

/-- `key_members_ordered`, with the functions that read the members. -/
def keyReadersOrdered (readers : List (MemberDescriptor × De DynamicValue)) :
    List (MemberDescriptor × De DynamicValue) :=
  (readers.filter fun r => r.1.isKey).insertionSort fun a b => a.1.memberId ≤ b.1.memberId

def deserializeKeyMembers :
    List (MemberDescriptor × De DynamicValue) → List (String × DynamicValue) → De (List (String × DynamicValue))
  | [], values => pure values
  | (m, read) :: readers, values => do
    let v ← read
    deserializeKeyMembers readers (insertValue values m.name v)

/-- Without key members, all members are read as those of a final struct. -/
def readKeyHolderStruct (c : Coding) (t : DynamicType) (readers : List (MemberDescriptor × De DynamicValue)) :
    De DynamicData := do
  let values ← match keyReadersOrdered readers with
    | [] => deserializeStructMembersXcdr2 c none readers []
    | r :: keyReaders => deserializeKeyMembers (r :: keyReaders) []
  pure ⟨t, values⟩

section Deserialize

variable (c : Coding)

mutual

def deserializeKeyHolderValue : DynamicTypeKind → De DynamicValue
  | .typeRef ⟨name, .struct members, e⟩ => do
    let inner ← readKeyHolderStruct c ⟨name, .struct members, e⟩ (keyReaders members)
    pure (.struct inner)
  | .array elementType dimensions => do
    readCollectionDheader c (!elementType.isPrimitiveKind)
    let count ← checkedArrayLen dimensions
    let items ← Decoder.times count (deserializeKeyHolderValue elementType)
    pure (.array items)
  | kind => deserializeValueXcdr2 c kind .discard

def keyReaders : List MemberDescriptor → List (MemberDescriptor × De DynamicValue)
  | [] => []
  | ⟨name, id, kind, isKey, isOptional, must, tc⟩ :: members =>
    (⟨name, id, kind, isKey, isOptional, must, tc⟩, deserializeKeyHolderValue kind) :: keyReaders members

end

end Deserialize

def deserializeKeyHolderStruct (c : Coding) (t : DynamicType) : De DynamicData :=
  match t.kind with
  | .struct members => readKeyHolderStruct c t (keyReaders c members)
  | _ => fail "Expected struct type"

def deserializeKeyCdr (bytes : Bytes) (t : DynamicType) : Outcome DdsError DynamicData :=
  (deserializeKeyHolderStruct (xcdr2 .big) t).runOn ⟨bytes, 0⟩

/-! ## The key of a value -/

/-- The fields that are part of the key, in the order of the key members. -/
def keyFields (t : DynamicType) (values : List (String × DynamicValue)) : List (String × DynamicValue) :=
  match keyMembersOrdered t with
  | [] => values
  | m :: members => (m :: members).filterMap fun m => (values.lookup m.name).map fun v => (m.name, v)

namespace DynamicValue

mutual

def keyProjection : DynamicValue → DynamicValue
  | .struct ⟨t, values⟩ => .struct ⟨t, keyFields t (keyProjectionFields values)⟩
  | .union discriminator value => .union discriminator (keyProjection value)
  | .sequence items => .sequence (keyProjectionItems items)
  | .array items => .array (keyProjectionItems items)
  | .map entries => .map (keyProjectionEntries entries)
  | v => v

def keyProjectionFields : List (String × DynamicValue) → List (String × DynamicValue)
  | [] => []
  | (name, v) :: fields => (name, keyProjection v) :: keyProjectionFields fields

def keyProjectionItems : List DynamicValue → List DynamicValue
  | [] => []
  | v :: items => keyProjection v :: keyProjectionItems items

def keyProjectionEntries : List (DynamicValue × DynamicValue) → List (DynamicValue × DynamicValue)
  | [] => []
  | (k, v) :: entries => (keyProjection k, keyProjection v) :: keyProjectionEntries entries

end

end DynamicValue

def DynamicData.keyProjection (d : DynamicData) : DynamicData :=
  ⟨d.dynamicType, keyFields d.dynamicType (DynamicValue.keyProjectionFields d.values)⟩

/-! ## Where the two sides agree -/

/-- A struct type that is its own key holder: a final one with no key members, or with key members only, none
optional, in the order of their ids. -/
def DynamicType.isKeyHolder (t : DynamicType) : Bool :=
  match t.kind with
  | .struct members => t.extensibility = .final &&
      ((members.all fun m => !m.isKey) ||
        ((members.all fun m => m.isKey && !m.isOptional) &&
          decide (members.Pairwise fun a b => a.memberId ≤ b.memberId)))
  | _ => false

namespace DynamicValue

mutual

/-- Every struct in the value is its own key holder. -/
def keptWhole : DynamicValue → Bool
  | .struct ⟨t, values⟩ => t.isKeyHolder && keptWholeFields values
  | .union _ value => keptWhole value
  | .sequence items => keptWholeItems items
  | .array items => keptWholeItems items
  | .map entries => keptWholeEntries entries
  | _ => true

def keptWholeFields : List (String × DynamicValue) → Bool
  | [] => true
  | (_, v) :: fields => keptWhole v && keptWholeFields fields

def keptWholeItems : List DynamicValue → Bool
  | [] => true
  | v :: items => keptWhole v && keptWholeItems items

def keptWholeEntries : List (DynamicValue × DynamicValue) → Bool
  | [] => true
  | (k, v) :: entries => keptWhole k && keptWhole v && keptWholeEntries entries

end

def inKey (t : DynamicType) (name : String) : Bool :=
  (keyMembersOrdered t).isEmpty || (keyMembersOrdered t).any fun m => m.name = name

mutual

/-- The key members are set, and the structs behind sequences, maps and unions are their own key holders. -/
def keyReadable : DynamicValue → Bool
  | .struct ⟨t, values⟩ =>
    ((keyMembersOrdered t).all fun m => (values.lookup m.name).isSome) && keyReadableFields t values
  | .array items => keyReadableItems items
  | v => v.keptWhole

def keyReadableFields (t : DynamicType) : List (String × DynamicValue) → Bool
  | [] => true
  | (name, v) :: fields => (!inKey t name || keyReadable v) && keyReadableFields t fields

def keyReadableItems : List DynamicValue → Bool
  | [] => true
  | v :: items => keyReadable v && keyReadableItems items

end

end DynamicValue

/-- A single string is not written with a terminator of its own. -/
def keyStringKept (t : DynamicType) (values : List (String × DynamicValue)) : Bool :=
  match keyMembersOrdered t with
  | [m] =>
    match values.lookup m.name with
    | some (.string v) => decide ((utf8 v).getLast? ≠ some 0)
    | _ => true
  | _ => true

/-- The key can be read from its bytes. -/
def DynamicData.keyReadable (d : DynamicData) : Bool :=
  DynamicValue.keyReadable (.struct d) && keyStringKept d.dynamicType d.values

end Int2Dds.XTypes
