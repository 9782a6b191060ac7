import Int2Dds.XTypes.Xcdr1RoundTrip

/-!
# Serialized data, read back

`serialize_dynamic_data` writes either version of the encoding, and `deserialize_dynamic_data` tells from the
encapsulation header which one it has.
-/

namespace Int2Dds.XTypes

open Lib

inductive SerializationFormat where
  | cdr
  | xcdr (extensibility : ExtensibilityKind)

/-- The source writes little-endian. -/
def serializeDynamicData (e : Endianness) (d : DynamicData) : SerializationFormat → Outcome DdsError Bytes
  | .cdr => serializeCdr e d
  | .xcdr extensibility => serializeXcdr e extensibility d

def deserializeDynamicData (bytes : Bytes) (t : DynamicType) : Outcome DdsError DynamicData :=
  if bytes.length < 4 then Outcome.error (.error "Insufficient data for encapsulation header")
  else
    let id := Endianness.big.get (bytes.take 2)
    if 6 ≤ id ∧ id ≤ 0x0B then deserializeXcdr bytes t else deserializeCdr bytes t

def roundTrip (e : Endianness) (d : DynamicData) (format : SerializationFormat) : Outcome DdsError DynamicData := do
  let bytes ← serializeDynamicData e d format
  deserializeDynamicData bytes d.dynamicType

/-! ## Version 2 -/

theorem deserializeDynamicData_header {id : Nat} (hid : id < 256 ^ 2) (chunk : Bytes) (t : DynamicType) :
    deserializeDynamicData (encapsulationHeader id ++ chunk) t =
      if 6 ≤ id ∧ id ≤ 0x0B then deserializeXcdr (encapsulationHeader id ++ chunk) t
      else deserializeCdr (encapsulationHeader id ++ chunk) t := by
  have hlen : ¬ (encapsulationHeader id ++ chunk).length < 4 := by
    rw [List.length_append, length_encapsulationHeader]
    omega
  unfold deserializeDynamicData
  rw [if_neg hlen, take_encapsulationHeader hid]

theorem result_roundTrip_xcdr {d : DynamicData} (e : Endianness) (ext : ExtensibilityKind) (h : WellFormed d)
    (hw : d.weight < 2 ^ 32) : (roundTrip e d (.xcdr ext)).result = .ok d.readBack := by
  obtain ⟨chunk, hser, hde⟩ := deserializeXcdr_serializeXcdr (e := e) ext h hw
  have hid : 6 ≤ encodingKind ext e ∧ encodingKind ext e ≤ 0x0B := by cases ext <;> cases e <;> decide
  unfold roundTrip serializeDynamicData
  rw [Outcome.result_bind_of_ok hser, deserializeDynamicData_header (encodingKind_lt ext), if_pos hid]
  exact hde

/-- Version 2 returns what was written exactly when no appendable struct ends in members that take no bytes. -/
theorem xcdr2_round_trip_iff {d : DynamicData} (e : Endianness) (ext : ExtensibilityKind) (h : WellFormed d)
    (hw : d.weight < 2 ^ 32) : (roundTrip e d (.xcdr ext)).result = .ok d ↔ d.endsSolid = true := by
  rw [result_roundTrip_xcdr e ext h hw, ← readBack_data_eq_iff h, Result.ok.injEq]

def plainMember (name : String) (id : Nat) (kind : DynamicTypeKind) : MemberDescriptor :=
  ⟨name, id, kind, false, false, false, .discard⟩

def emptyType : DynamicType := ⟨"Empty", .struct [], .final⟩

/-- A number, then a struct that takes no bytes. -/
def emptyLast : DynamicData :=
  ⟨⟨"EmptyLast", .struct [plainMember "a" 0 (.primitive .int32), plainMember "empty" 1 (.typeRef emptyType)],
    .appendable⟩,
    [("a", .int32 7), ("empty", .struct ⟨emptyType, []⟩)]⟩

def emptyFirst : DynamicData :=
  ⟨⟨"EmptyFirst", .struct [plainMember "empty" 0 (.typeRef emptyType), plainMember "a" 1 (.primitive .int32)],
    .appendable⟩,
    [("empty", .struct ⟨emptyType, []⟩), ("a", .int32 7)]⟩

theorem typed_empty : Typed (.typeRef emptyType) (.struct ⟨emptyType, []⟩) :=
  .struct _ _ _ _ ⟨List.nodup_nil, by rintro ⟨⟩⟩ .nil

theorem wellFormed_emptyLast : WellFormed emptyLast :=
  .struct _ _ _ _ ⟨by decide, by rintro ⟨⟩⟩ (.set _ _ _ _ (.int32 7) (.set _ _ _ _ typed_empty .nil))

theorem wellFormed_emptyFirst : WellFormed emptyFirst :=
  .struct _ _ _ _ ⟨by decide, by rintro ⟨⟩⟩ (.set _ _ _ _ typed_empty (.set _ _ _ _ (.int32 7) .nil))

theorem xcdr2_round_trip_emptyFirst : (roundTrip .little emptyFirst (.xcdr .appendable)).result = .ok emptyFirst :=
  (xcdr2_round_trip_iff .little .appendable wellFormed_emptyFirst (by decide +kernel)).2 (by decide +kernel)

/-- The last member comes back as nothing. -/
theorem xcdr2_emptyLast_lost : WellFormed emptyLast ∧
    (roundTrip .little emptyLast (.xcdr .appendable)).result =
      .ok ⟨emptyLast.dynamicType, [("a", .int32 7), ("empty", .null)]⟩ := by
  refine ⟨wellFormed_emptyLast, ?_⟩
  rw [result_roundTrip_xcdr .little .appendable wellFormed_emptyLast (by decide +kernel)]
  rfl

/-! ## Version 1 -/

/-- Version 1 returns what was written where no sentinel is left in front of anything. -/
theorem xcdr1_round_trip {d : DynamicData} (e : Endianness) (h : WellFormed d)
    (hne : d.dynamicType.kind.structsNonEmpty = true) (hw : d.weight < 2 ^ 32) (hs : d.sentinelsRead = true) :
    (roundTrip e d .cdr).result = .ok d := by
  obtain ⟨chunk, hser, hde⟩ := deserializeCdr_serializeCdr (e := e) h hne hw hs
  have hid : cdrEncodingKind e < 256 ^ 2 ∧ ¬ (6 ≤ cdrEncodingKind e ∧ cdrEncodingKind e ≤ 0x0B) := by
    cases e <;> decide
  unfold roundTrip serializeDynamicData
  rw [Outcome.result_bind_of_ok hser, deserializeDynamicData_header hid.1, if_neg hid.2]
  exact hde

/-- A final struct of a mutable one and a number behind it. -/
def innerType (members : List MemberDescriptor) : DynamicType := ⟨"Inner", .struct members, .mutable⟩

def outerData (members : List MemberDescriptor) (values : List (String × DynamicValue)) : DynamicData :=
  ⟨⟨"Outer", .struct [plainMember "inner" 0 (.typeRef (innerType members)), plainMember "b" 1 (.primitive .int32)],
    .final⟩,
    [("inner", .struct ⟨innerType members, values⟩), ("b", .int32 2)]⟩

theorem wellFormed_outerData {members : List MemberDescriptor} {values : List (String × DynamicValue)}
    (hok : MembersOk .mutable members) (hvalues : Populated members values) : WellFormed (outerData members values) :=
  .struct _ _ _ _ ⟨show ["inner", "b"].Nodup by decide, by rintro ⟨⟩⟩
    (.set _ _ _ _ (.struct _ _ _ _ hok hvalues) (.set _ _ _ _ (.int32 2) .nil))

/-- The inner struct ends behind a single byte, so that its sentinel is padded and read. -/
theorem xcdr1_round_trip_padded :
    (roundTrip .little (outerData [plainMember "a" 0 (.primitive .uint8)] [("a", .uint8 1)]) .cdr).result =
      .ok (outerData [plainMember "a" 0 (.primitive .uint8)] [("a", .uint8 1)]) :=
  xcdr1_round_trip .little
    (wellFormed_outerData ⟨by decide, fun _ => ⟨by decide, by decide⟩⟩ (.set _ _ _ _ (.uint8 1) .nil))
    (by decide +kernel) (by decide +kernel) (by decide +kernel)

/-- The inner struct ends on a multiple of four: its sentinel is read as the number behind it. -/
theorem xcdr1_sentinel_left :
    WellFormed (outerData [plainMember "a" 0 (.primitive .int32)] [("a", .int32 1)]) ∧
    (roundTrip .little (outerData [plainMember "a" 0 (.primitive .int32)] [("a", .int32 1)]) .cdr).result ≠
      .ok (outerData [plainMember "a" 0 (.primitive .int32)] [("a", .int32 1)]) := by
  have hread : (roundTrip .little (outerData [plainMember "a" 0 (.primitive .int32)] [("a", .int32 1)])
      .cdr).result.ok?.bind (fun d => (d.getValue "b").bind DynamicValue.discriminatorAsI64) = some 0x3F02 := by
    decide +kernel
  refine ⟨wellFormed_outerData ⟨by decide, fun _ => ⟨by decide, by decide⟩⟩ (.set _ _ _ _ (.int32 1) .nil), fun h => ?_⟩
  rw [h] at hread
  exact absurd hread (by decide +kernel)

end Int2Dds.XTypes
