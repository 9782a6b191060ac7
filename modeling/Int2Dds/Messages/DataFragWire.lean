import Int2Dds.Messages.Data

/-!
# DATA_FRAG on the wire

`DataFrag.writeTo` writes the fixed fields, the inline QoS, the payload and zeros up to the next multiple of four.
`DataFrag.deserialize` reads back what it wrote (`deserialize_writeTo`), without the padding, for every submessage
that carries all the octets of the fragments it names.
-/

namespace Int2Dds.Messages

open Lib Rtps Outcome List

/-! ## Parameter lists -/

/-- What a value lacks to a multiple of four octets. -/
def alignmentPadding (length : Nat) : Nat := if length % 4 = 0 then 0 else 4 - length % 4

theorem alignmentPadding_le (length : Nat) : alignmentPadding length ≤ 3 := by
  unfold alignmentPadding
  split_ifs <;> omega

def Parameter.writeTo (e : Endianness) (p : Parameter) : Bytes :=
  let pad := alignmentPadding p.value.length
  writeU16 e p.parameterId ++ (writeU16 e (BitVec.ofNat 16 (p.value.length + pad)) ++ (p.value ++ List.replicate pad 0))

namespace ParameterList

def writeTo (e : Endianness) (l : ParameterList) : Bytes :=
  l.flatMap (Parameter.writeTo e) ++ (writeU16 e ParameterId.sentinel ++ writeU16 e 0)

/-- The octets that the parameters before the sentinel take, and the sentinel. -/
def totalLength : ParameterList → Nat
  | [] => 4
  | p :: ps =>
    if p.parameterId = ParameterId.sentinel then 4
    else 4 + p.value.length + alignmentPadding p.value.length + totalLength ps

end ParameterList

namespace DataFrag

/-! ## Writing -/

/-- The sum that the length of the body is; the lengths of its parts are cut off to 16 bits. -/
def lengthSum (inlineQos : Option ParameterList) (payloadLength : Nat) : Nat :=
  fixedBodyLen + inlineQos.elim 0 (fun l => l.totalLength % 2 ^ 16) + payloadLength % 2 ^ 16

/-- The length of the body without padding, in 16 bits. -/
def unpaddedBodyLength (d : DataFrag) : Outcome RtpsError Nat :=
  checked 16 (lengthSum d.inlineQos d.serializedData.length)

/-- `extraFlags` to `sampleSize`, with the inline QoS right after them. -/
def fixedFields (e : Endianness) (d : DataFrag) : List Bytes :=
  [writeU16 e 0, writeU16 e 28, writeEntityId d.readerId, writeEntityId d.writerId, writeU32 e d.writerSn.high,
    writeU32 e d.writerSn.low, writeU32 e d.fragmentStartingNum, writeU16 e d.fragmentsInSubmessage,
    writeU16 e d.fragmentSize, writeU32 e d.sampleSize]

def writeInlineQos (e : Endianness) (d : DataFrag) : Bytes := d.inlineQos.elim [] (ParameterList.writeTo e)

def writeTo (e : Endianness) (d : DataFrag) : Outcome RtpsError Bytes := do
  let bodyLength ← d.unpaddedBodyLength
  pure ((d.fixedFields e).flatten ++
    (d.writeInlineQos e ++ (d.serializedData ++ List.replicate (alignmentPadding bodyLength) 0)))

/-! ## The fixed fields -/

variable {e : Endianness} {d : DataFrag} {body : Bytes} {h : SubmessageHeader}

theorem wordAt_field {segs : List Bytes} {i off k w : Nat} {v : BitVec w} (hw : w ≤ 8 * k)
    (hseg : segs[i]? = some (e.put k v.toNat)) (hoff : ((segs.take i).map length).sum = off) (rest : Bytes) :
    wordAt e (segs.flatten ++ rest) off k w = v := by
  obtain ⟨hi, hget⟩ := List.getElem?_eq_some_iff.1 hseg
  have hsplit : segs.flatten ++ rest =
      (segs.take i).flatten ++ (e.put k v.toNat ++ ((segs.drop (i + 1)).flatten ++ rest)) := by
    conv_lhs => rw [← take_append_drop i segs, drop_eq_getElem_cons hi, hget]
    rw [flatten_append, flatten_cons, append_assoc, append_assoc]
  have hv : v.toNat < 256 ^ k := by
    calc v.toNat < 2 ^ w := v.isLt
      _ ≤ 2 ^ (8 * k) := Nat.pow_le_pow_right (by decide) hw
      _ = 256 ^ k := by rw [Nat.pow_mul]
  rw [wordAt, hsplit, drop_left' (by rw [length_flatten, hoff]), take_left' (e.length_put k _),
    e.get_put_of_lt hv, BitVec.ofNat_toNat, BitVec.setWidth_eq]

section Fields

variable (e : Endianness) (d : DataFrag) (rest : Bytes)

theorem length_fixedFields : (d.fixedFields e).flatten.length = fixedBodyLen := by
  simp [fixedFields, writeU16, writeU32, writeEntityId, writeOctets, fixedBodyLen]

theorem octetsToInlineQos_fixedFields : octetsToInlineQos e ((d.fixedFields e).flatten ++ rest) = 28 :=
  wordAt_field (i := 1) (by decide) rfl (by simp [fixedFields, writeU16]) rest

theorem readerId_fixedFields : wordAt .big ((d.fixedFields e).flatten ++ rest) 4 4 32 = d.readerId :=
  wordAt_field (i := 2) (by decide) rfl (by simp [fixedFields, writeU16]) rest

theorem writerId_fixedFields : wordAt .big ((d.fixedFields e).flatten ++ rest) 8 4 32 = d.writerId :=
  wordAt_field (i := 3) (by decide) rfl (by simp [fixedFields, writeU16, writeEntityId, writeOctets]) rest

theorem writerSn_fixedFields : writerSnAt e ((d.fixedFields e).flatten ++ rest) = d.writerSn := by
  have hhigh : wordAt e ((d.fixedFields e).flatten ++ rest) 12 4 32 = d.writerSn.high :=
    wordAt_field (i := 4) (by decide) rfl (by simp [fixedFields, writeU16, writeEntityId, writeOctets]) rest
  have hlow : wordAt e ((d.fixedFields e).flatten ++ rest) 16 4 32 = d.writerSn.low :=
    wordAt_field (i := 5) (by decide) rfl (by simp [fixedFields, writeU16, writeU32, writeEntityId, writeOctets]) rest
  rw [writerSnAt, hhigh, hlow]

theorem fragments_fixedFields :
    wordAt e ((d.fixedFields e).flatten ++ rest) 20 4 32 = d.fragmentStartingNum ∧
      wordAt e ((d.fixedFields e).flatten ++ rest) 24 2 16 = d.fragmentsInSubmessage ∧
      wordAt e ((d.fixedFields e).flatten ++ rest) 26 2 16 = d.fragmentSize ∧
      wordAt e ((d.fixedFields e).flatten ++ rest) 28 4 32 = d.sampleSize := by
  refine ⟨wordAt_field (i := 6) (by decide) rfl ?_ rest, wordAt_field (i := 7) (by decide) rfl ?_ rest,
    wordAt_field (i := 8) (by decide) rfl ?_ rest, wordAt_field (i := 9) (by decide) rfl ?_ rest⟩ <;>
  simp [fixedFields, writeU16, writeU32, writeEntityId, writeOctets]

end Fields

/-! ## Reading back -/

/-- `d` names fragments of a sample that the receiver takes, and carries all of their octets. -/
structure Carries (d : DataFrag) : Prop where
  starting_pos : 0 < d.fragmentStartingNum.toNat
  count_pos : 0 < d.fragmentsInSubmessage.toNat
  size_pos : 0 < d.fragmentSize.toNat
  size_le : d.fragmentSize.toNat ≤ d.sampleSize.toNat
  total_le : slotCount d.fragmentSize.toNat d.sampleSize.toNat ≤ maxFragmentsPerSample
  last_le : d.fragmentStartingNum.toNat - 1 + d.fragmentsInSubmessage.toNat ≤
    slotCount d.fragmentSize.toNat d.sampleSize.toNat
  length_data : d.serializedData.length = min (d.fragmentsInSubmessage.toNat * d.fragmentSize.toNat)
    (d.sampleSize.toNat - (d.fragmentStartingNum.toNat - 1) * d.fragmentSize.toNat)

theorem Carries.claimable (h : d.Carries) {padding : Bytes} (hpadding : padding.length ≤ 3) :
    Claimable d.fragmentStartingNum.toNat d.fragmentsInSubmessage.toNat d.fragmentSize.toNat d.sampleSize.toNat
      (d.serializedData ++ padding).length := by
  obtain ⟨hstart, hcount, hsize, hle, htotal, hlast, hdata⟩ := h
  -- the last fragment named starts inside the sample
  have hinside : (d.fragmentStartingNum.toNat - 1) * d.fragmentSize.toNat +
      (d.fragmentsInSubmessage.toNat - 1) * d.fragmentSize.toNat < d.sampleSize.toNat := by
    rw [← Nat.add_mul]
    exact (lt_slotCount_iff hsize).1 (by omega)
  have hfull : (d.fragmentsInSubmessage.toNat - 1) * d.fragmentSize.toNat <
      d.fragmentsInSubmessage.toNat * d.fragmentSize.toNat := Nat.mul_lt_mul_of_pos_right (by omega) hsize
  have hlen : (d.serializedData ++ padding).length = d.serializedData.length + padding.length := length_append
  exact ⟨hstart, hcount, hsize, hle, htotal, by omega, by omega, by omega⟩

theorem checkFragments_eq (h : d.Carries) {padding : Bytes} (hpadding : padding.length ≤ 3) :
    checkFragments d.fragmentStartingNum.toNat d.fragmentsInSubmessage.toNat d.fragmentSize.toNat d.sampleSize.toNat
      (d.serializedData ++ padding) = pure d.serializedData := by
  rcases checkFragments_cases (BitVec.isLt _) (BitVec.isLt _) (BitVec.isLt _) (BitVec.isLt _)
    (d.serializedData ++ padding) with ⟨-, heq⟩ | ⟨hnot, -⟩
  · rw [heq, ← h.length_data, length_append, Nat.min_eq_right (Nat.le_add_right _ _), take_left]
  · exact absurd (h.claimable hpadding) hnot

theorem writeTo_of_lt (h : lengthSum d.inlineQos d.serializedData.length < 2 ^ 16) :
    ∃ body, d.writeTo e = pure body := by
  rw [writeTo, unpaddedBodyLength, checked_of_lt h]
  exact ⟨_, rfl⟩

theorem writeTo_of_le (h : 2 ^ 16 ≤ lengthSum d.inlineQos d.serializedData.length) :
    (d.writeTo e).result = .panic := by
  rw [writeTo, unpaddedBodyLength, checked, if_neg (Nat.not_lt.2 h)]
  rfl

/-- The inline QoS of `d` is read back from what it is written as. -/
def QosReadsBack (e : Endianness) (d : DataFrag) : Prop :=
  ∀ l ∈ d.inlineQos, (ParameterList.readFrom e).Decodes (ParameterList.writeTo e l) l

theorem readInlineQos_fixedFields (hqos : d.QosReadsBack e) (rest : Bytes) :
    (readInlineQos e d.inlineQos.isSome ((d.fixedFields e).flatten ++ (d.writeInlineQos e ++ rest))).result =
      .ok (d.inlineQos, fixedBodyLen + (d.writeInlineQos e).length) := by
  unfold readInlineQos writeInlineQos
  rw [octetsToInlineQos_fixedFields]
  cases hd : d.inlineQos with
  | none => rfl
  | some l =>
    have hread := hqos l (by rw [hd]; rfl) rest
    have hcursor :
        ((d.fixedFields e).flatten ++ (ParameterList.writeTo e l ++ rest)).drop (4 + (28 : BitVec 16).toNat) =
        ParameterList.writeTo e l ++ rest := drop_left' (length_fixedFields e d)
    dsimp only [Option.elim_some]
    rw [hcursor]
    refine result_bind_eq_ok.2 ⟨_, hread, ?_⟩
    show Result.ok (some l, ((d.fixedFields e).flatten ++ (ParameterList.writeTo e l ++ rest)).length - rest.length) = _
    rw [length_append, length_append, length_fixedFields, ← Nat.add_assoc, Nat.add_sub_cancel]

theorem readPayload_fixedFields (qos payload : Bytes) :
    readPayload e ((d.fixedFields e).flatten ++ (qos ++ payload)) d.inlineQos (fixedBodyLen + qos.length) = (do
      let serializedData ← checkFragments d.fragmentStartingNum.toNat d.fragmentsInSubmessage.toNat d.fragmentSize.toNat
        d.sampleSize.toNat payload
      pure { d with serializedData := serializedData }) := by
  obtain ⟨hstarting, hcount, hsize, hsample⟩ := fragments_fixedFields e d (qos ++ payload)
  have hdrop : ((d.fixedFields e).flatten ++ (qos ++ payload)).drop (fixedBodyLen + qos.length) = payload := by
    rw [← length_fixedFields e d, ← length_append, ← append_assoc, drop_left]
  have hlen : fixedBodyLen + qos.length ≤ ((d.fixedFields e).flatten ++ (qos ++ payload)).length := by
    rw [length_append, length_fixedFields, length_append]
    omega
  unfold readPayload
  rw [hstarting, hcount, hsize, hsample, readerId_fixedFields, writerId_fixedFields, writerSn_fixedFields]
  rw [require_of (Nat.not_lt.2 hlen), pure_bind, slice_of_le ⟨hlen, le_refl _⟩, pure_bind,
    take_length, hdrop]

/-- The header says whether there is inline QoS, and the inline QoS is read back. -/
structure Announced (h : SubmessageHeader) (d : DataFrag) : Prop where
  kind : h.kind = some .dataFrag
  inlineQosFlag : h.hasFlag 0x02 = d.inlineQos.isSome
  writerSn : IsSampleSn d.writerSn
  qos : d.QosReadsBack h.byteOrder

/-- Reading what was written comes down to the checks of the payload with its padding. -/
theorem deserialize_written (hd : d.Announced h) (hbody : (d.writeTo h.byteOrder).result = .ok body) :
    ∃ padding : Bytes, padding.length ≤ 3 ∧ (deserialize body h).result = (do
      let serializedData ← checkFragments d.fragmentStartingNum.toNat d.fragmentsInSubmessage.toNat d.fragmentSize.toNat
        d.sampleSize.toNat (d.serializedData ++ padding)
      pure { d with serializedData := serializedData }).result := by
  obtain ⟨n, -, hpure⟩ := result_bind_eq_ok.1 hbody
  cases hpure
  refine ⟨replicate (alignmentPadding n) 0, ?_, ?_⟩
  · rw [length_replicate]
    exact alignmentPadding_le n
  have hinline : h.inlineQosFlag = some d.inlineQos.isSome := by
    rw [SubmessageHeader.inlineQosFlag, hd.kind, ← hd.inlineQosFlag]
  generalize d.serializedData ++ replicate (alignmentPadding n) 0 = payload
  have hlen :
      fixedBodyLen ≤ ((d.fixedFields h.byteOrder).flatten ++ (d.writeInlineQos h.byteOrder ++ payload)).length := by
    rw [length_append, length_fixedFields]
    omega
  unfold deserialize
  rw [SubmessageHeader.endiannessFlag_of_kind hd.kind, hinline]
  show (require _ _ >>= _).result = _
  rw [require_of hlen, pure_bind, require_of (by rw [writerSn_fixedFields]; exact hd.writerSn), pure_bind,
    result_bind_of_ok (readInlineQos_fixedFields hd.qos payload)]
  show (readPayload _ _ d.inlineQos (fixedBodyLen + _)).result = _
  rw [readPayload_fixedFields]

theorem deserialize_writeTo (hd : d.Announced h) (hcarries : d.Carries)
    (hbody : (d.writeTo h.byteOrder).result = .ok body) : (deserialize body h).result = .ok d := by
  obtain ⟨padding, hpadding, hread⟩ := deserialize_written hd hbody
  rw [hread, checkFragments_eq hcarries hpadding]
  rfl

/-! ## What is accepted -/

/-- What the checks of `deserialize` leave of the fragments a submessage names. -/
structure Accepted (d : DataFrag) : Prop where
  writerSn : IsSampleSn d.writerSn
  starting_pos : 0 < d.fragmentStartingNum.toNat
  count_pos : 0 < d.fragmentsInSubmessage.toNat
  size_pos : 0 < d.fragmentSize.toNat
  size_le : d.fragmentSize.toNat ≤ d.sampleSize.toNat

theorem readPayload_ok {buffer : Bytes} {inlineQos : Option ParameterList} {startPos : Nat}
    (h : (readPayload e buffer inlineQos startPos).result = .ok d) :
    d.writerSn = writerSnAt e buffer ∧ ∃ length, Claimable d.fragmentStartingNum.toNat d.fragmentsInSubmessage.toNat
      d.fragmentSize.toNat d.sampleSize.toNat length := by
  obtain ⟨_, -, h⟩ := result_bind_eq_ok.1 h
  obtain ⟨payload, -, h⟩ := result_bind_eq_ok.1 h
  obtain ⟨data, hcheck, h⟩ := result_bind_eq_ok.1 h
  cases h
  rcases checkFragments_cases (BitVec.isLt _) (BitVec.isLt _) (BitVec.isLt _) (BitVec.isLt _) payload with
    ⟨hclaim, -⟩ | ⟨-, _, herror⟩
  · exact ⟨rfl, _, hclaim⟩
  · rw [herror] at hcheck
    cases hcheck

theorem claimable_of_deserialize (hd : (deserialize body h).result = .ok d) : IsSampleSn d.writerSn ∧
    ∃ length,
      Claimable d.fragmentStartingNum.toNat d.fragmentsInSubmessage.toNat d.fragmentSize.toNat d.sampleSize.toNat
      length := by
  obtain ⟨e, -, hd⟩ := result_bind_eq_ok.1 hd
  obtain ⟨flag, -, hd⟩ := result_bind_eq_ok.1 hd
  obtain ⟨_, -, hd⟩ := result_bind_eq_ok.1 hd
  obtain ⟨_, hsn, hd⟩ := result_bind_eq_ok.1 hd
  obtain ⟨p, -, hd⟩ := result_bind_eq_ok.1 hd
  rw [result_require] at hsn
  obtain ⟨hwriter, hclaim⟩ := readPayload_ok hd
  exact ⟨hwriter ▸ hsn, hclaim⟩

end DataFrag

end Int2Dds.Messages
