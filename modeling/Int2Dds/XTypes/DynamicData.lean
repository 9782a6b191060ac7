import Int2Dds.Lib.Text
import Int2Dds.XTypes.DynamicType

/-!
# Dynamic values

Values of dynamic types, floats as their bits. The fields of a `DynamicData` are a hash map in the source; here they are
listed, each name once. `Typed kind v` says that `v` is a value of the kind within its bounds, and `Populated` that the
fields of a struct are all there, listed in the order of its members.
-/

namespace Int2Dds.XTypes

open Lib List

/-! Functions over the parts of a value recurse through lists of them. -/

section Parts

variable {α β : Type}

theorem eq_map_of_cons {f : α → β} {F : List α → List β} (hnil : F [] = [])
    (hcons : ∀ a as, F (a :: as) = f a :: F as) (as : List α) : F as = as.map f := by
  induction as with
  | nil => rw [hnil, map_nil]
  | cons a as ih => rw [hcons, map_cons, ih]

theorem eq_all_of_cons {p : α → Bool} {F : List α → Bool} (hnil : F [] = true)
    (hcons : ∀ a as, F (a :: as) = (p a && F as)) (as : List α) : F as = as.all p := by
  induction as with
  | nil => rw [hnil, all_nil]
  | cons a as ih => rw [hcons, all_cons, ih]

theorem of_mem_of_all_cons {p : α → Bool} {F : List α → Bool} (hnil : F [] = true)
    (hcons : ∀ a as, F (a :: as) = (p a && F as)) {as : List α} (h : F as = true) {a : α} (ha : a ∈ as) :
    p a = true := by
  rw [eq_all_of_cons hnil hcons, all_eq_true] at h
  exact h a ha

theorem le_of_mem_of_cons {f : α → Nat} {F : List α → Nat}
    (hcons : ∀ a as, f a ≤ F (a :: as) ∧ F as ≤ F (a :: as)) {as : List α} {a : α} (h : a ∈ as) : f a ≤ F as := by
  induction as with
  | nil => cases h
  | cons b as ih =>
    rcases mem_cons.1 h with rfl | h
    · exact (hcons _ _).1
    · exact (ih h).trans (hcons _ _).2

end Parts

mutual

inductive DynamicValue where
  | boolean (v : Bool)
  | int8 (v : BitVec 8)
  | int16 (v : BitVec 16)
  | int32 (v : BitVec 32)
  | int64 (v : BitVec 64)
  | uint8 (v : BitVec 8)
  | uint16 (v : BitVec 16)
  | uint32 (v : BitVec 32)
  | uint64 (v : BitVec 64)
  | float32 (bits : BitVec 32)
  | float64 (bits : BitVec 64)
  | float128 (bits : BitVec 128)
  | char8 (v : Char)
  | byte (v : BitVec 8)
  | string (v : String)
  | wstring (v : String)
  | enum (name : String) (value : BitVec 32)
  | union (discriminator value : DynamicValue)
  | bitmask (bits : BitVec 64)
  | bitset (bits : BitVec 64)
  | struct (data : DynamicData)
  | sequence (items : List DynamicValue)
  | array (items : List DynamicValue)
  | map (entries : List (DynamicValue × DynamicValue))
  | optional (v : Option DynamicValue)
  | null

structure DynamicData where
  dynamicType : DynamicType
  values : List (String × DynamicValue)

end

namespace DynamicData

def getValue (d : DynamicData) (field : String) : Option DynamicValue := d.values.lookup field

end DynamicData

/-- `HashMap::insert`. -/
def insertValue (values : List (String × DynamicValue)) (name : String) (v : DynamicValue) :
    List (String × DynamicValue) :=
  if values.any fun e => e.1 = name then values.map fun e => if e.1 = name then (name, v) else e
  else values ++ [(name, v)]

variable {values : List (String × DynamicValue)} {P : MemberDescriptor → DynamicValue → Prop}
  {members : List MemberDescriptor}

theorem insertValue_of_notMem {name : String} (v : DynamicValue) (h : name ∉ values.map Prod.fst) :
    insertValue values name v = values ++ [(name, v)] := by
  have hnone : ¬ (values.any fun e => e.1 = name) = true := by
    intro hany
    obtain ⟨e, he, heq⟩ := any_eq_true.1 hany
    exact h (mem_map.2 ⟨e, he, of_decide_eq_true heq⟩)
  rw [insertValue, if_neg hnone]

namespace DynamicValue

def typeKind : DynamicValue → String
  | .boolean _ => "Boolean"
  | .int8 _ => "Int8"
  | .int16 _ => "Int16"
  | .int32 _ => "Int32"
  | .int64 _ => "Int64"
  | .uint8 _ => "Uint8"
  | .uint16 _ => "Uint16"
  | .uint32 _ => "Uint32"
  | .uint64 _ => "Uint64"
  | .float32 _ => "Float32"
  | .float64 _ => "Float64"
  | .float128 _ => "Float128"
  | .char8 _ => "Char8"
  | .byte _ => "Byte"
  | .string _ => "String"
  | .wstring _ => "WString"
  | .enum .. => "Enum"
  | .union .. => "Union"
  | .bitmask _ => "Bitmask"
  | .bitset _ => "Bitset"
  | .struct _ => "Struct"
  | .sequence _ => "Sequence"
  | .array _ => "Array"
  | .map _ => "Map"
  | .optional _ => "Optional"
  | .null => "Null"

def defaultForPrimitive : PrimitiveKind → DynamicValue
  | .boolean => .boolean false
  | .int8 => .int8 0
  | .int16 => .int16 0
  | .int32 => .int32 0
  | .int64 => .int64 0
  | .uint8 => .uint8 0
  | .uint16 => .uint16 0
  | .uint32 => .uint32 0
  | .uint64 => .uint64 0
  | .float32 => .float32 0
  | .float64 => .float64 0
  | .float128 => .float128 0
  | .char8 => .char8 '\x00'
  | .char16 => .char8 '\x00'
  | .byte => .byte 0

/-- A struct or a union has no default without a selection: it is `null`. -/
def defaultForKind : DynamicTypeKind → DynamicValue
  | .primitive p => defaultForPrimitive p
  | .string _ => .string ""
  | .wstring _ => .wstring ""
  | .sequence .. => .sequence []
  | .map .. => .map []
  | .array elementType dimensions => .array (List.replicate dimensions.prod (defaultForKind elementType))
  | .struct _ => .null
  | .enum _ => .enum "" 0
  | .union .. => .null
  | .bitmask _ => .bitmask 0
  | .bitset _ => .bitset 0
  | .externalType => .null
  | .typeRef ⟨_, .enum _, _⟩ => .enum "" 0
  | .typeRef ⟨_, .bitmask _, _⟩ => .bitmask 0
  | .typeRef ⟨_, .bitset _, _⟩ => .bitset 0
  | .typeRef _ => .null

/-- The integer that a union discriminator stands for. -/
def discriminatorAsI64 : DynamicValue → Option Int
  | .boolean v => some (if v then 1 else 0)
  | .int8 v => some v.toInt
  | .int16 v => some v.toInt
  | .int32 v => some v.toInt
  | .int64 v => some v.toInt
  | .uint8 v => some v.toNat
  | .uint16 v => some v.toNat
  | .uint32 v => some v.toNat
  | .uint64 v => some v.toInt
  | .char8 v => some v.toNat
  | .byte v => some v.toNat
  | .enum _ v => some v.toInt
  | .bitmask v => some v.toInt
  | _ => none

/-! ## Nesting of structs -/

mutual

def depth : DynamicValue → Nat
  | .struct ⟨_, values⟩ => depthFields values + 1
  | .union discriminator value => max (depth discriminator) (depth value)
  | .sequence items => depthItems items
  | .array items => depthItems items
  | .map entries => depthEntries entries
  | .optional (some v) => depth v
  | _ => 0

def depthFields : List (String × DynamicValue) → Nat
  | [] => 0
  | (_, v) :: fields => max (depth v) (depthFields fields)

def depthItems : List DynamicValue → Nat
  | [] => 0
  | v :: items => max (depth v) (depthItems items)

def depthEntries : List (DynamicValue × DynamicValue) → Nat
  | [] => 0
  | (k, v) :: entries => max (max (depth k) (depth v)) (depthEntries entries)

end

end DynamicValue

def DynamicData.depth (d : DynamicData) : Nat := DynamicValue.depthFields d.values + 1

/-! ## Room on the wire -/

def DynamicTypeKind.memberCount : DynamicTypeKind → Nat
  | .struct members => members.length
  | _ => 0

namespace DynamicValue

mutual

/-- Room enough for the value in every encoding, with its padding and its headers: a word of `w` bytes has less than
`w` bytes of padding. -/
def weight : DynamicValue → Nat
  | .boolean _ | .int8 _ | .uint8 _ | .char8 _ | .byte _ => 1
  | .int16 _ | .uint16 _ => 3
  | .int32 _ | .uint32 _ | .float32 _ | .enum _ _ => 7
  | .int64 _ | .uint64 _ | .float64 _ | .bitmask _ | .bitset _ => 15
  | .float128 _ => 23
  | .string v => (utf8 v).length + 32
  | .wstring v => (utf16 v.toList).length * 2 + 32
  | .struct ⟨t, values⟩ => 32 * t.kind.memberCount + weightFields values + 32
  | .union discriminator value => weight discriminator + weight value + 96
  | .sequence items => weightItems items + 32
  | .array items => weightItems items + 32
  | .map entries => weightEntries entries + 32
  | .optional (some v) => weight v + 32
  | .optional none | .null => 32

def weightFields : List (String × DynamicValue) → Nat
  | [] => 0
  | (_, v) :: fields => weight v + weightFields fields

def weightItems : List DynamicValue → Nat
  | [] => 0
  | v :: items => weight v + weightItems items

def weightEntries : List (DynamicValue × DynamicValue) → Nat
  | [] => 0
  | (k, v) :: entries => weight k + weight v + weightEntries entries

end

theorem weight_pos (v : DynamicValue) : 0 < v.weight := by
  unfold weight
  split <;> omega

section Sized

variable {items : List DynamicValue} {entries : List (DynamicValue × DynamicValue)}
  {entry : DynamicValue × DynamicValue}
  {fields : List (String × DynamicValue)} {name : String} {v : DynamicValue} {n w count : Nat}

theorem depth_le_depthItems (hv : v ∈ items) : v.depth ≤ depthItems items :=
  le_of_mem_of_cons (fun _ _ => by rw [depthItems]; omega) hv

theorem depth_le_depthEntries (h : entry ∈ entries) :
    entry.1.depth ≤ depthEntries entries ∧ entry.2.depth ≤ depthEntries entries :=
  max_le_iff.1 (le_of_mem_of_cons (f := fun entry => max entry.1.depth entry.2.depth)
    (fun _ _ => by rw [depthEntries]; omega) h)

theorem depth_le_depthFields (h : (name, v) ∈ fields) : v.depth ≤ depthFields fields :=
  le_of_mem_of_cons (f := fun field => field.2.depth) (fun _ _ => by rw [depthFields]; omega) h

/-! What bounds the depth and the weight of a value bounds those of its parts. -/

theorem sized_item (hv : v ∈ items) (hn : depthItems items ≤ n) (hw : weightItems items + 32 < w) :
    v.depth ≤ n ∧ v.weight < w := by
  have hweight : v.weight ≤ weightItems items := le_of_mem_of_cons (fun _ _ => by rw [weightItems]; omega) hv
  exact ⟨(depth_le_depthItems hv).trans hn, by omega⟩

theorem sized_entry (h : entry ∈ entries) (hn : depthEntries entries ≤ n) (hw : weightEntries entries + 32 < w) :
    (entry.1.depth ≤ n ∧ entry.1.weight < w) ∧ entry.2.depth ≤ n ∧ entry.2.weight < w := by
  have hdepth := depth_le_depthEntries h
  have hweight : entry.1.weight + entry.2.weight ≤ weightEntries entries :=
    le_of_mem_of_cons (f := fun entry => entry.1.weight + entry.2.weight) (fun _ _ => by rw [weightEntries]; omega) h
  omega

theorem sized_field (h : (name, v) ∈ fields) (hn : depthFields fields ≤ n) (hw : count + weightFields fields + 32 < w) :
    v.depth ≤ n ∧ v.weight < w := by
  have hweight : v.weight ≤ weightFields fields :=
    le_of_mem_of_cons (f := fun field => field.2.weight) (fun _ _ => by rw [weightFields]; omega) h
  exact ⟨(depth_le_depthFields h).trans hn, by omega⟩

end Sized

theorem weightItems_eq (items : List DynamicValue) : weightItems items = (items.map weight).sum := by
  induction items with
  | nil => rw [weightItems, map_nil, sum_nil]
  | cons v items ih => rw [weightItems, map_cons, sum_cons, ih]

theorem weightEntries_eq (entries : List (DynamicValue × DynamicValue)) :
    weightEntries entries = (entries.map fun e => e.1.weight + e.2.weight).sum := by
  induction entries with
  | nil => rw [weightEntries, map_nil, sum_nil]
  | cons e entries ih => rw [weightEntries, map_cons, sum_cons, ih]

theorem length_le_weightItems (items : List DynamicValue) : items.length ≤ weightItems items := by
  induction items with
  | nil => exact Nat.zero_le _
  | cons v items ih =>
    have := weight_pos v
    rw [weightItems, length_cons]
    omega

theorem length_le_weightEntries (entries : List (DynamicValue × DynamicValue)) :
    entries.length ≤ weightEntries entries := by
  induction entries with
  | nil => exact Nat.zero_le _
  | cons e entries ih =>
    have := weight_pos e.1
    rw [weightEntries, length_cons]
    omega

end DynamicValue

def DynamicData.weight (d : DynamicData) : Nat :=
  32 * d.dynamicType.kind.memberCount + DynamicValue.weightFields d.values + 32

/-! ## Values of a kind -/

def WithinBound (bound : Option Nat) (n : Nat) : Prop := ∀ max ∈ bound, n ≤ max

/-- An enum value is kept by the wire width of its bit bound. -/
def FitsEnum (bitBound : Nat) (v : BitVec 32) : Prop :=
  -(2 ^ (8 * enumWireWidth bitBound - 1) : Int) ≤ v.toInt ∧ v.toInt < 2 ^ (8 * enumWireWidth bitBound - 1)

/-- A bitmask or bitset value is kept by its wire width. -/
def FitsPacked (bits : Nat) (v : BitVec 64) : Prop := v.toNat < 256 ^ packedWireWidth bits

/-- The type rules for the members of a struct: distinct names, and for a mutable one distinct ids of 28 bits. -/
structure MembersOk (extensibility : ExtensibilityKind) (members : List MemberDescriptor) : Prop where
  names : (members.map fun m => m.name).Nodup
  ids : extensibility = .mutable → (members.map fun m => m.memberId).Nodup ∧ ∀ m ∈ members, m.memberId < 2 ^ 28

mutual

/-- `v` is a value of the kind, within its bounds. Composite kinds stand behind a `typeRef`. -/
inductive Typed : DynamicTypeKind → DynamicValue → Prop
  | boolean (v : Bool) : Typed (.primitive .boolean) (.boolean v)
  | byte (v : BitVec 8) : Typed (.primitive .byte) (.byte v)
  | int8 (v : BitVec 8) : Typed (.primitive .int8) (.int8 v)
  | int16 (v : BitVec 16) : Typed (.primitive .int16) (.int16 v)
  | int32 (v : BitVec 32) : Typed (.primitive .int32) (.int32 v)
  | int64 (v : BitVec 64) : Typed (.primitive .int64) (.int64 v)
  | uint8 (v : BitVec 8) : Typed (.primitive .uint8) (.uint8 v)
  | uint16 (v : BitVec 16) : Typed (.primitive .uint16) (.uint16 v)
  | uint32 (v : BitVec 32) : Typed (.primitive .uint32) (.uint32 v)
  | uint64 (v : BitVec 64) : Typed (.primitive .uint64) (.uint64 v)
  | float32 (v : BitVec 32) : Typed (.primitive .float32) (.float32 v)
  | float64 (v : BitVec 64) : Typed (.primitive .float64) (.float64 v)
  | float128 (v : BitVec 128) : Typed (.primitive .float128) (.float128 v)
  | char8 (v : Char) (h : v.toNat < 256) : Typed (.primitive .char8) (.char8 v)
  | string (bound : Option Nat) (v : String) (h : WithinBound bound v.length) : Typed (.string bound) (.string v)
  | wstring (bound : Option Nat) (v : String) (h : WithinBound bound (utf16 v.toList).length) :
      Typed (.wstring bound) (.wstring v)
  | enum (name : String) (d : EnumDescriptor) (e : ExtensibilityKind) (l : EnumLiteralDescriptor)
      (hl : d.getLiteralByValue l.value = some l) (hfits : FitsEnum d.bitBound l.value) :
      Typed (.typeRef ⟨name, .enum d, e⟩) (.enum l.name l.value)
  | bitmask (name : String) (bitBound : Nat) (e : ExtensibilityKind) (v : BitVec 64) (h : FitsPacked bitBound v) :
      Typed (.typeRef ⟨name, .bitmask bitBound, e⟩) (.bitmask v)
  | bitset (name : String) (totalBits : Nat) (e : ExtensibilityKind) (v : BitVec 64) (h : FitsPacked totalBits v) :
      Typed (.typeRef ⟨name, .bitset totalBits, e⟩) (.bitset v)
  | sequence (elementType : DynamicTypeKind) (bound : Option Nat) (items : List DynamicValue)
      (hbound : WithinBound bound items.length) (hitems : TypedItems elementType items) :
      Typed (.sequence elementType bound) (.sequence items)
  | array (elementType : DynamicTypeKind) (dimensions : List Nat) (items : List DynamicValue)
      (hpos : ∀ n ∈ dimensions, 1 ≤ n) (hlen : items.length = dimensions.prod)
      (hitems : TypedItems elementType items) : Typed (.array elementType dimensions) (.array items)
  | map (keyType valueType : DynamicTypeKind) (bound : Option Nat) (entries : List (DynamicValue × DynamicValue))
      (hbound : WithinBound bound entries.length) (hentries : TypedEntries keyType valueType entries) :
      Typed (.map keyType valueType bound) (.map entries)
  | struct (name : String) (members : List MemberDescriptor) (e : ExtensibilityKind)
      (values : List (String × DynamicValue)) (hok : MembersOk e members) (hvalues : Populated members values) :
      Typed (.typeRef ⟨name, .struct members, e⟩) (.struct ⟨⟨name, .struct members, e⟩, values⟩)
  | union (name : String) (kind : DynamicTypeKind) (tc : TryConstructKind) (members : List UnionMemberDescriptor)
      (e : ExtensibilityKind) (discriminator value : DynamicValue) (i : Int) (m : UnionMemberDescriptor)
      (hdiscriminator : Typed kind discriminator) (hi : discriminator.discriminatorAsI64 = some i)
      (hm : selectMember members i = some m) (hid : e = .mutable → m.memberId < 2 ^ 28)
      (hvalue : Typed m.memberType value) :
      Typed (.typeRef ⟨name, .union kind tc members, e⟩) (.union discriminator value)

inductive TypedItems : DynamicTypeKind → List DynamicValue → Prop
  | nil (kind : DynamicTypeKind) : TypedItems kind []
  | cons (kind : DynamicTypeKind) (v : DynamicValue) (items : List DynamicValue) (hv : Typed kind v)
      (hitems : TypedItems kind items) : TypedItems kind (v :: items)

inductive TypedEntries : DynamicTypeKind → DynamicTypeKind → List (DynamicValue × DynamicValue) → Prop
  | nil (keyType valueType : DynamicTypeKind) : TypedEntries keyType valueType []
  | cons (keyType valueType : DynamicTypeKind) (k v : DynamicValue) (entries : List (DynamicValue × DynamicValue))
      (hk : Typed keyType k) (hv : Typed valueType v) (hentries : TypedEntries keyType valueType entries) :
      TypedEntries keyType valueType ((k, v) :: entries)

/-- The fields of a struct in the order of its members: all not optional, each a value of its kind. -/
inductive Populated : List MemberDescriptor → List (String × DynamicValue) → Prop
  | nil : Populated [] []
  | set (m : MemberDescriptor) (members : List MemberDescriptor) (v : DynamicValue)
      (values : List (String × DynamicValue)) (hv : Typed m.memberType v) (hvalues : Populated members values) :
      Populated (m :: members) ((m.name, v) :: values)
  | absent (m : MemberDescriptor) (members : List MemberDescriptor) (values : List (String × DynamicValue))
      (hm : m.isOptional = true) (hvalues : Populated members values) : Populated (m :: members) values

end

/-- Fields in the order of the members, each with `P`. -/
inductive Fields (P : MemberDescriptor → DynamicValue → Prop) :
    List MemberDescriptor → List (String × DynamicValue) → Prop
  | nil : Fields P [] []
  | set (m : MemberDescriptor) (members : List MemberDescriptor) (v : DynamicValue)
      (values : List (String × DynamicValue)) (hv : P m v) (hvalues : Fields P members values) :
      Fields P (m :: members) ((m.name, v) :: values)
  | absent (m : MemberDescriptor) (members : List MemberDescriptor) (values : List (String × DynamicValue))
      (hm : m.isOptional = true) (hvalues : Fields P members values) : Fields P (m :: members) values

@[elab_as_elim]
theorem Typed.induct {motive : ∀ kind v, Typed kind v → Prop}
    (primitive : ∀ p v (h : Typed (.primitive p) v), motive _ _ h)
    (string : ∀ bound v h, motive _ _ (.string bound v h))
    (wstring : ∀ bound v h, motive _ _ (.wstring bound v h))
    (enum : ∀ name d e l hl hfits, motive _ _ (.enum name d e l hl hfits))
    (bitmask : ∀ name bitBound e v h, motive _ _ (.bitmask name bitBound e v h))
    (bitset : ∀ name totalBits e v h, motive _ _ (.bitset name totalBits e v h))
    (sequence : ∀ kind bound items hbound hitems, (∀ v ∈ items, ∃ h, motive kind v h) →
      motive _ _ (.sequence kind bound items hbound hitems))
    (array : ∀ kind dimensions items hpos hlen hitems, (∀ v ∈ items, ∃ h, motive kind v h) →
      motive _ _ (.array kind dimensions items hpos hlen hitems))
    (map : ∀ keyType valueType bound entries hbound hentries,
      (∀ entry ∈ entries, (∃ h, motive keyType entry.1 h) ∧ ∃ h, motive valueType entry.2 h) →
      motive _ _ (.map keyType valueType bound entries hbound hentries))
    (struct : ∀ name members e values hok hvalues,
      Fields (fun m v => ∃ h, motive m.memberType v h) members values →
      motive _ _ (.struct name members e values hok hvalues))
    (union : ∀ name kind tc members e discriminator value i m hdiscriminator hi hm hid hvalue,
      motive kind discriminator hdiscriminator → motive m.memberType value hvalue →
      motive _ _ (.union name kind tc members e discriminator value i m hdiscriminator hi hm hid hvalue))
    {kind : DynamicTypeKind} {v : DynamicValue} (h : Typed kind v) : motive kind v h := by
  refine @Typed.rec motive (fun kind items _ => ∀ v ∈ items, ∃ h, motive kind v h)
    (fun keyType valueType entries _ => ∀ entry ∈ entries, (∃ h, motive keyType entry.1 h) ∧
      ∃ h, motive valueType entry.2 h)
    (fun members values _ => Fields (fun m v => ∃ h, motive m.memberType v h) members values)
    ?_ ?_ ?_ ?_ ?_ ?_ ?_ ?_ ?_ ?_ ?_ ?_ ?_ ?_ string wstring enum bitmask bitset sequence array map struct union
    ?itemsNil ?itemsCons ?entriesNil ?entriesCons .nil ?set ?absent kind v h
  case itemsNil => exact nofun
  case itemsCons => exact fun _ _ _ hv _ hhead htail => forall_mem_cons.2 ⟨⟨hv, hhead⟩, htail⟩
  case entriesNil => exact nofun
  case entriesCons =>
    exact fun _ _ _ _ _ hk hv _ hkey hvalue htail => forall_mem_cons.2 ⟨⟨⟨hk, hkey⟩, ⟨hv, hvalue⟩⟩, htail⟩
  case set => exact fun m members v values hv _ hhead htail => .set m members v values ⟨hv, hhead⟩ htail
  case absent => exact fun m members values hm _ htail => .absent m members values hm htail
  all_goals intros; exact primitive _ _ _

section

variable (h : Fields P members values)
include h

theorem Fields.imp {Q : MemberDescriptor → DynamicValue → Prop} (hPQ : ∀ m v, (m.name, v) ∈ values → P m v → Q m v) :
    Fields Q members values := by
  induction h with
  | nil => exact .nil
  | set m members v values hv hvalues ih =>
    exact .set m members v values (hPQ m v mem_cons_self hv)
      (ih fun m' v' hmem => hPQ m' v' (mem_cons_of_mem _ hmem))
  | absent m members values hm hvalues ih => exact .absent m members values hm (ih hPQ)

theorem Fields.of_mem {f : String × DynamicValue} (hf : f ∈ values) : ∃ m ∈ members, P m f.2 := by
  induction h with
  | nil => cases hf
  | set m members v values hv hvalues ih =>
    rcases mem_cons.1 hf with rfl | hf
    · exact ⟨m, mem_cons_self, hv⟩
    · obtain ⟨m', hm', hP⟩ := ih hf
      exact ⟨m', mem_cons_of_mem _ hm', hP⟩
  | absent m members values hm hvalues ih =>
    obtain ⟨m', hm', hP⟩ := ih hf
    exact ⟨m', mem_cons_of_mem _ hm', hP⟩

theorem Fields.mem_names {name : String} (hname : name ∈ values.map Prod.fst) :
    name ∈ members.map fun m => m.name := by
  induction h with
  | nil => exact hname
  | set m members v values hv hvalues ih =>
    rcases mem_cons.1 hname with rfl | hname
    · exact mem_cons_self
    · exact mem_cons_of_mem _ (ih hname)
  | absent m members values hm hvalues ih => exact mem_cons_of_mem _ (ih hname)

end

/-- While the members of `d` are walked: `values` are the fields of those to come, `acc` those of the others. -/
structure Pending (d : DynamicData) (members : List MemberDescriptor) (values acc : List (String × DynamicValue)) :
    Prop where
  names : (members.map fun m => m.name).Nodup
  get : ∀ m ∈ members, d.getValue m.name = values.lookup m.name
  fresh : ∀ m ∈ members, m.name ∉ acc.map Prod.fst

section Pending

variable {d : DynamicData} {m : MemberDescriptor} {members : List MemberDescriptor} {v : DynamicValue}
  {values acc : List (String × DynamicValue)}

theorem pending_start {t : DynamicType} (h : (members.map fun m => m.name).Nodup) :
    Pending ⟨t, values⟩ members values [] := ⟨h, fun _ _ => rfl, fun _ _ => not_mem_nil⟩

theorem Pending.get_set (h : Pending d (m :: members) ((m.name, v) :: values) acc) : d.getValue m.name = some v := by
  rw [h.get m mem_cons_self, lookup_cons_self]

theorem Pending.notMem (h : Pending d (m :: members) values acc) : ∀ m' ∈ members, m'.name ≠ m.name := by
  intro m' hm' heq
  exact (nodup_cons.1 h.names).1 (mem_map.2 ⟨m', hm', heq⟩)

theorem fresh_insert (hnames : ((m :: members).map fun m => m.name).Nodup)
    (hfresh : ∀ m' ∈ m :: members, m'.name ∉ acc.map Prod.fst) (v : DynamicValue) :
    ∀ m' ∈ members, m'.name ∉ (insertValue acc m.name v).map Prod.fst := by
  intro m' hm' hmem
  rw [insertValue_of_notMem v (hfresh m mem_cons_self), map_append, mem_append] at hmem
  rcases hmem with hmem | hmem
  · exact hfresh m' (mem_cons_of_mem _ hm') hmem
  · exact (nodup_cons.1 hnames).1 (mem_map.2 ⟨m', hm', mem_singleton.1 hmem⟩)

theorem insertValue_append (hfresh : m.name ∉ acc.map Prod.fst) (rest : List (String × DynamicValue)) :
    insertValue acc m.name v ++ rest = acc ++ (m.name, v) :: rest := by
  rw [insertValue_of_notMem v hfresh, append_assoc, singleton_append]

theorem Pending.insert_append (h : Pending d (m :: members) values acc) (rest : List (String × DynamicValue)) :
    insertValue acc m.name v ++ rest = acc ++ (m.name, v) :: rest :=
  insertValue_append (h.fresh m mem_cons_self) rest

theorem Pending.set (h : Pending d (m :: members) ((m.name, v) :: values) acc) (a : DynamicValue) :
    Pending d members values (insertValue acc m.name a) := by
  refine ⟨(nodup_cons.1 h.names).2, fun m' hm' => ?_, fresh_insert h.names h.fresh a⟩
  have hne : (m'.name == m.name) = false := beq_eq_false_iff_ne.2 (h.notMem m' hm')
  rw [h.get m' (mem_cons_of_mem _ hm'), lookup_cons, hne]

variable (h : Pending d (m :: members) values acc)
include h

theorem Pending.name_notMem {P : MemberDescriptor → DynamicValue → Prop} (hvalues : Fields P members values) :
    m.name ∉ values.map Prod.fst :=
  fun hmem => (nodup_cons.1 h.names).1 (hvalues.mem_names hmem)

theorem Pending.get_absent {P : MemberDescriptor → DynamicValue → Prop} (hvalues : Fields P members values) :
    d.getValue m.name = none := by
  rw [h.get m mem_cons_self, lookup_eq_none_iff]
  intro p hp
  exact bne_iff_ne.2 fun heq => h.name_notMem hvalues (mem_map.2 ⟨p, hp, heq.symm⟩)

theorem Pending.absent : Pending d members values acc :=
  ⟨(nodup_cons.1 h.names).2, (forall_mem_cons.1 h.get).2,
    fun m' hm' => h.fresh m' (mem_cons_of_mem _ hm')⟩

end Pending

theorem Populated.fields (h : Populated members values) : Fields (fun m v => Typed m.memberType v) members values := by
  induction members generalizing values with
  | nil =>
    cases h
    exact .nil
  | cons m members ih =>
    cases h with
    | set _ _ v values hv hvalues => exact .set m members v values hv (ih hvalues)
    | absent _ _ _ hm hvalues => exact .absent m members values hm (ih hvalues)

/-! ## Data of a type -/

/-- The name of the discriminator among the fields of union-typed data. -/
def unionDiscriminatorField : String := "discriminator"

theorem DynamicData.weight_struct (name : String) (e : ExtensibilityKind) (values : List (String × DynamicValue)) :
    (mk ⟨name, .struct members, e⟩ values).weight = 32 * members.length + DynamicValue.weightFields values + 32 := rfl

/-- Data of a struct type or a union type, fully populated. -/
inductive WellFormed : DynamicData → Prop
  | struct (name : String) (members : List MemberDescriptor) (e : ExtensibilityKind)
      (values : List (String × DynamicValue)) (hok : MembersOk e members) (hvalues : Populated members values) :
      WellFormed ⟨⟨name, .struct members, e⟩, values⟩
  | union (name : String) (kind : DynamicTypeKind) (tc : TryConstructKind) (members : List UnionMemberDescriptor)
      (e : ExtensibilityKind) (discriminator value : DynamicValue) (i : Int) (m : UnionMemberDescriptor)
      (hdiscriminator : Typed kind discriminator) (hi : discriminator.discriminatorAsI64 = some i)
      (hm : selectMember members i = some m) (hid : e = .mutable → m.memberId < 2 ^ 28)
      (hvalue : Typed m.memberType value) (hname : m.name ≠ unionDiscriminatorField) :
      WellFormed ⟨⟨name, .union kind tc members, e⟩, [(unionDiscriminatorField, discriminator), (m.name, value)]⟩

end Int2Dds.XTypes
