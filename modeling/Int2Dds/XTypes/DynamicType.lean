import Int2Dds.Lib.Stream

/-!
# Dynamic types

The types that `DynamicData` is described by at run time. A nested struct, union, enum, bitmask or bitset stands behind
a `typeRef`; the descriptors index their members by name and by id with hash maps, in which a later entry replaces an
earlier one with the same key.
-/

namespace Int2Dds.XTypes

inductive ExtensibilityKind where
  | final
  | appendable
  | mutable
deriving DecidableEq

/-- What is done with a received value that cannot construct the local one. -/
inductive TryConstructKind where
  | discard
  | useDefault
  | trim
deriving DecidableEq

inductive PrimitiveKind where
  | boolean
  | byte
  | int8
  | int16
  | int32
  | int64
  | uint8
  | uint16
  | uint32
  | uint64
  | float32
  | float64
  | float128
  | char8
  | char16
deriving DecidableEq

structure EnumLiteralDescriptor where
  name : String
  value : BitVec 32
  isDefault : Bool
deriving DecidableEq

structure EnumDescriptor where
  literals : List EnumLiteralDescriptor
  bitBound : Nat
deriving DecidableEq

mutual

inductive DynamicTypeKind where
  | primitive (kind : PrimitiveKind)
  | string (bound : Option Nat)
  | wstring (bound : Option Nat)
  | struct (members : List MemberDescriptor)
  | enum (descriptor : EnumDescriptor)
  | union (discriminatorType : DynamicTypeKind) (discriminatorTryConstruct : TryConstructKind)
      (members : List UnionMemberDescriptor)
  | bitmask (bitBound : Nat)
  | bitset (totalBits : Nat)
  | sequence (elementType : DynamicTypeKind) (bound : Option Nat)
  | array (elementType : DynamicTypeKind) (dimensions : List Nat)
  | map (keyType valueType : DynamicTypeKind) (bound : Option Nat)
  /-- A type that could not be resolved. -/
  | externalType
  | typeRef (type : DynamicType)

structure MemberDescriptor where
  name : String
  memberId : Nat
  memberType : DynamicTypeKind
  isKey : Bool
  isOptional : Bool
  isMustUnderstand : Bool
  tryConstruct : TryConstructKind

structure UnionMemberDescriptor where
  name : String
  memberId : Nat
  memberType : DynamicTypeKind
  labels : List (BitVec 32)
  isDefault : Bool
  tryConstruct : TryConstructKind

structure DynamicType where
  typeName : String
  kind : DynamicTypeKind
  extensibility : ExtensibilityKind

end

namespace EnumDescriptor

def getLiteralByValue (d : EnumDescriptor) (value : BitVec 32) : Option EnumLiteralDescriptor :=
  d.literals.reverse.find? fun l => l.value = value

def defaultLiteral (d : EnumDescriptor) : Option EnumLiteralDescriptor := d.literals.find? fun l => l.isDefault

end EnumDescriptor

/-- `StructDescriptor::get_member_by_id`. -/
def getMemberById (members : List MemberDescriptor) (id : Nat) : Option MemberDescriptor :=
  members.reverse.find? fun m => m.memberId = id

/-- `UnionDescriptor::select_member`: the member with the label, else the default one. -/
def selectMember (members : List UnionMemberDescriptor) (discriminator : Int) : Option UnionMemberDescriptor :=
  (members.find? fun m => m.labels.any fun l => l.toInt = discriminator).or (members.find? fun m => m.isDefault)

theorem mem_of_selectMember {members : List UnionMemberDescriptor} {discriminator : Int} {m : UnionMemberDescriptor}
    (h : selectMember members discriminator = some m) : m ∈ members := by
  unfold selectMember at h
  cases hlabel : members.find? fun m => m.labels.any fun l => l.toInt = discriminator with
  | some m' =>
    rw [hlabel] at h
    exact List.mem_of_find?_eq_some (hlabel.trans h)
  | none =>
    rw [hlabel] at h
    exact List.mem_of_find?_eq_some h

namespace DynamicTypeKind

/-- XTypes primitive kinds only. -/
def isPrimitiveKind : DynamicTypeKind → Bool
  | .primitive _ => true
  | .typeRef ⟨_, kind, _⟩ => isPrimitiveKind kind
  | .string _ | .wstring _ | .struct _ | .enum _ | .union .. | .bitmask _ | .bitset _ | .sequence .. | .array ..
  | .map .. | .externalType => false

def resolvedKind : DynamicTypeKind → DynamicTypeKind
  | .typeRef t => t.kind
  | kind => kind

end DynamicTypeKind

/-! ## Wire widths -/

/-- Wire width in bytes of a bitmask or bitset of `bits` bits. -/
def packedWireWidth (bits : Nat) : Nat := if bits ≤ 8 then 1 else if bits ≤ 16 then 2 else if bits ≤ 32 then 4 else 8

def enumWireWidth (bitBound : Nat) : Nat := if bitBound ≤ 8 then 1 else if bitBound ≤ 16 then 2 else 4

end Int2Dds.XTypes
