import Int2Dds.XTypes.Xcdr1
import Int2Dds.XTypes.Xcdr2RoundTrip

/-!
# What XCDR version 1 reads back

A mutable struct ends with a sentinel. Its reader looks for one before every member: one that it sees it leaves unread,
and one that it runs into behind padding it reads. So after a mutable struct whose members end on a multiple of four,
the sentinel is still there, and whatever follows is read from the wrong place. Inside a parameter nothing follows: its
length says where the next one starts.

`landStruct` follows a value through the encoding, modulo four, and fails where a sentinel is left in front of
something; where it does not fail, the value is read back.
-/

namespace Int2Dds.XTypes

open Lib Lib.Encoder DynamicValue Endianness DynamicTypeKind List Option

/-! ## Where values end -/

/-- The position, modulo four, behind a number of `w` bytes written at `r`. -/
def wordEnd (w r : Nat) : Nat := if w = 1 then (r + 1) % 4 else if w = 2 then ((r + 1) / 2 * 2 + 2) % 4 else 0

/-- The position, modulo four, behind a value without parts. -/
def landAtomic : DynamicValue → DynamicTypeKind → Nat → Nat
  | .boolean _, _, r => wordEnd 1 r
  | .int8 _, _, r => wordEnd 1 r
  | .uint8 _, _, r => wordEnd 1 r
  | .byte _, _, r => wordEnd 1 r
  | .char8 _, _, r => wordEnd 1 r
  | .int16 _, _, r => wordEnd 2 r
  | .uint16 _, _, r => wordEnd 2 r
  | .string v, _, _ => ((utf8 v).length + 1) % 4
  | .wstring v, _, _ => (utf16 v.toList).length * 2 % 4
  | .enum .., kind, r => wordEnd (enumWireWidth ((enumBitBound kind).getD 32)) r
  | .bitmask _, .typeRef ⟨_, .bitmask bits, _⟩, r => wordEnd (packedWireWidth bits) r
  | .bitset _, .typeRef ⟨_, .bitset bits, _⟩, r => wordEnd (packedWireWidth bits) r
  | _, _, _ => 0

section Land

variable (nested : Bool → DynamicData → Nat → Option Nat)

mutual

/-- The position, modulo four, behind a value written at `r`; `more` says whether anything is read behind it. -/
def land (more : Bool) : DynamicValue → DynamicTypeKind → Nat → Option Nat
  | .sequence items, kind, _ =>
    match kind with
    | .sequence elementType _ => landItems more items elementType 0
    | _ => none
  | .array items, kind, r =>
    match kind with
    | .array elementType _ => landItems more items elementType r
    | _ => none
  | .map entries, kind, _ =>
    match kind with
    | .map keyType valueType _ => landEntries more entries keyType valueType 0
    | _ => none
  | .union discriminator value, kind, r =>
    match asUnionKind kind with
    | none => none
    | some (discType, _, members, _) =>
      match discriminator.discriminatorAsI64.bind (selectMember members) with
      | none => none
      | some m => (land true discriminator discType r).bind (land more value m.memberType)
  | .struct d, _, r => nested more d r
  | v, kind, r => some (landAtomic v kind r)

def landItems (more : Bool) : List DynamicValue → DynamicTypeKind → Nat → Option Nat
  | [], _, r => some r
  | v :: items, kind, r => (land (more || !items.isEmpty) v kind r).bind (landItems more items kind)

def landEntries (more : Bool) : List (DynamicValue × DynamicValue) → DynamicTypeKind → DynamicTypeKind → Nat →
    Option Nat
  | [], _, _, r => some r
  | (k, v) :: entries, keyType, valueType, r =>
    ((land true k keyType r).bind (land (more || !entries.isEmpty) v valueType)).bind
      (landEntries more entries keyType valueType)

end

end Land

/-- One member of a struct that is not mutable. The header of a parameter is aligned. -/
def landMember (value : Bool → DynamicValue → DynamicTypeKind → Nat → Option Nat) (more : Bool) (d : DynamicData)
    (m : MemberDescriptor) (r : Nat) : Option Nat :=
  match d.getValue m.name with
  | some v => value more v m.memberType (if m.isOptional then 0 else r)
  | none => some 0

def landMembers (value : Bool → DynamicValue → DynamicTypeKind → Nat → Option Nat) (more : Bool) (d : DynamicData) :
    List MemberDescriptor → Nat → Option Nat
  | [], r => some r
  | m :: members, r =>
    (landMember value (more || !members.isEmpty) d m r).bind (landMembers value more d members)

/-- Behind the last parameter of a mutable struct. -/
def landParameters (value : Bool → DynamicValue → DynamicTypeKind → Nat → Option Nat) (d : DynamicData) :
    List MemberDescriptor → Nat → Option Nat
  | [], r => some r
  | m :: members, r =>
    match d.getValue m.name with
    | some v => (value false v m.memberType 0).bind (landParameters value d members)
    | none => landParameters value d members r

/-- A mutable struct with something behind it must not end on a multiple of four. -/
def landStruct : Nat → Bool → DynamicData → Nat → Option Nat
  | 0, _, _, _ => none
  | n + 1, more, d, r =>
    match d.dynamicType.kind with
    | .struct members =>
      if d.dynamicType.extensibility = .mutable then
        (landParameters (land (landStruct n)) d members r).bind fun stop =>
          if more = true ∧ stop = 0 then none else some 0
      else landMembers (land (landStruct n)) more d members r
    | .union discType _ members =>
      match d.getValue unionDiscriminatorField with
      | none => none
      | some discriminator => land (landStruct n) more (.union discriminator
          (((discriminator.discriminatorAsI64.bind (selectMember members)).bind fun m => d.getValue m.name).getD .null))
          (.union discType .discard members) r
    | _ => none

/-- No sentinel is left in front of anything that is read. -/
def DynamicData.sentinelsRead (d : DynamicData) : Bool := (landStruct d.depth false d 0).isSome

/-! ## Coded values -/

/-- What is written at `k` ends at `stop` modulo four, takes at most `size` bytes, none only if `hollow`, and is read
as `a`, the whole of it if `whole`. -/
def CodedCdr {α : Type} (whole : Bool) (e : Endianness) (k : Nat) (w : Ser) (r : De α) (a : α) (stop : Nat)
    (hollow : Prop) (size : Nat) : Prop :=
  ∃ chunk, (Writes (xcdr1 e) k w chunk ∧ ReadsUpTo whole (xcdr1 e) k r chunk a) ∧ (k + chunk.length) % 4 = stop ∧
    (chunk = [] → hollow) ∧ chunk.length ≤ size

section CodedCdr

variable {α β : Type} {whole : Bool} {e : Endianness} {k stop stop' : Nat} {w v : Ser} {r : De α} {a : α} {b : β}
  {hollow hollow' : Prop} {size size' : Nat} {chunk : Bytes}

theorem codedCdr_pure (whole : Bool) (a : α) : CodedCdr whole e k (pure ()) (pure a) a (k % 4) True 0 :=
  ⟨[], ⟨writes_pure, (reads_pure a).upTo⟩, rfl, fun _ => trivial, Nat.le_refl 0⟩

theorem CodedCdr.mono (h : CodedCdr whole e k w r a stop hollow size) (hhollow : hollow → hollow')
    (hsize : size ≤ size') :
    CodedCdr whole e k w r a stop hollow' size' := by
  obtain ⟨chunk, hcodes, hstop, hnil, hlen⟩ := h
  exact ⟨chunk, hcodes, hstop, fun h => hhollow (hnil h), hlen.trans hsize⟩

theorem CodedCdr.before {f : α → De β} (h : CodedCdr whole e k w r a stop hollow size) (hf : f a = pure b) :
    CodedCdr whole e k w (r >>= f) b stop hollow size := by
  obtain ⟨chunk, ⟨hwrites, hreads⟩, hrest⟩ := h
  exact ⟨chunk, ⟨hwrites, hreads.before hf⟩, hrest⟩

theorem CodedCdr.map (h : CodedCdr whole e k w r a stop hollow size) (g : α → β) :
    CodedCdr whole e k w (r >>= fun x => pure (g x)) (g a) stop hollow size := h.before rfl

/-- Only the last of several parts may leave something unread. -/
theorem CodedCdr.bind {f : α → De β} (h : CodedCdr true e k w r a stop hollow size)
    (h' : ∀ k', k ≤ k' → k' % 4 = stop → CodedCdr whole e k' v (f a) b stop' hollow' size') :
    CodedCdr whole e k (w >>= fun _ => v) (r >>= f) b stop' (hollow ∧ hollow') (size + size') := by
  obtain ⟨chunk, ⟨hwrites, hreads⟩, hstop, hnil, hlen⟩ := h
  obtain ⟨rest, ⟨hwrites', hreads'⟩, hstop', hnil', hlen'⟩ := h' (k + chunk.length) (Nat.le_add_right k _) hstop
  refine ⟨chunk ++ rest, ⟨hwrites.bind hwrites', hreads.reads.bindUpTo hreads'⟩, ?_, fun h => ?_, ?_⟩
  · rw [length_append, ← Nat.add_assoc]
    exact hstop'
  · rw [append_eq_nil_iff] at h
    exact ⟨hnil h.1, hnil' h.2⟩
  · rw [length_append]
    omega

theorem CodedCdr.after {r' : De β} {f : β → De α} (hr : Reads (xcdr1 e) k r' [] b)
    (h : CodedCdr whole e k w (f b) a stop hollow size) : CodedCdr whole e k w (r' >>= f) a stop hollow size := by
  obtain ⟨chunk, ⟨hwrites, hreads⟩, hrest⟩ := h
  exact ⟨chunk, ⟨hwrites, hr.bindUpTo hreads⟩, hrest⟩

theorem Coded.cdr (h : Coded (xcdr1 e) k w r a hollow size) (hk : 4 ≤ k) (hw : Writes (xcdr1 e) k w chunk)
    (hstop : (k + chunk.length) % 4 = stop) : CodedCdr whole e k w r a stop hollow size := by
  obtain ⟨chunk', hcodes, hnil, hlen⟩ := h
  have heq : chunk' = chunk := hcodes.writes.unique hk hw
  subst heq
  exact ⟨chunk', ⟨hw, hcodes.reads.upTo⟩, hstop, hnil.1, hlen⟩

theorem standard_xcdr1 (e : Endianness) : (xcdr1 e).Standard := .inr rfl

theorem padding_xcdr1 {a n : Nat} (ha : a ≤ 8) : (xcdr1 e).padding a n = (a - (n - 4) % a) % a := by
  show alignUp (min a 8) (n - 4) - (n - 4) = _
  rw [Nat.min_eq_left ha, alignUp_sub]

theorem wordEnd_eq {w n : Nat} (hw : IsWidth w) (hn : 4 ≤ n) :
    (n + ((xcdr1 e).padding w n + w)) % 4 = wordEnd w (n % 4) := by
  rcases hw with rfl | rfl | rfl | rfl <;> rw [padding_xcdr1 (by decide)] <;> unfold wordEnd
  · rw [if_pos rfl]
    omega
  · rw [if_neg (by decide), if_pos rfl]
    omega
  · rw [if_neg (by decide), if_neg (by decide)]
    omega
  · rw [if_neg (by decide), if_neg (by decide)]
    omega

theorem Coded.cdr_word {width n : Nat} (h : Coded (xcdr1 e) k (serializeWord (xcdr1 e) width n) r a hollow size)
    (hwidth : IsWidth width) (hk : 4 ≤ k) (whole : Bool) :
    CodedCdr whole e k (serializeWord (xcdr1 e) width n) r a (wordEnd width (k % 4)) hollow size := by
  refine h.cdr hk (writes_word (standard_xcdr1 e) hwidth n) ?_
  rw [length_wordAt]
  exact wordEnd_eq hwidth hk

end CodedCdr

/-! ## Parameters -/

variable {readers : List (MemberDescriptor × De DynamicValue)}

section Parameters

variable {e : Endianness} {k id len : Nat} {must : Bool} {w : Ser} {chunk : Bytes}

theorem writes_alignBuffer : Writes (xcdr1 e) k (alignBuffer 4) (zeros ((xcdr1 e).padding 4 k)) := by
  intro buf hbuf
  have hle : 4 ≤ buf.length := hbuf.right
  rw [← hbuf.padding_eq ((standard_xcdr1 e).fits isWidth_four), padding_xcdr1 (by decide)]
  show Result.ok ((), if buf.length % 4 = 0 then buf else buf ++ zeros (4 - buf.length % 4)) = _
  split_ifs with h
  · rw [show (4 - (buf.length - 4) % 4) % 4 = 0 by omega]
    exact congrArg (fun bs => Result.ok ((), bs)) (append_nil buf).symm
  · rw [show (4 - (buf.length - 4) % 4) % 4 = 4 - buf.length % 4 by omega]

def parameterHeader (c : Coding) (id : Nat) (must : Bool) (len : Nat) : Bytes :=
  if id ≤ maxShortMemberId ∧ len ≤ maxShortLength then shortHeader c id must len else extendedHeader c id must len

variable (c : Coding)

section

variable (id : Nat) (must : Bool) (len : Nat)

theorem length_shortHeader : (shortHeader c id must len).length = 4 := by
  simp only [shortHeader, length_append, length_put]

theorem length_extendedHeader : (extendedHeader c id must len).length = 12 := by
  simp only [extendedHeader, length_append, length_put]

theorem length_parameterHeader :
    (parameterHeader c id must len).length = 4 ∨ (parameterHeader c id must len).length = 12 := by
  unfold parameterHeader
  split_ifs
  · exact .inl (length_shortHeader c id must len)
  · exact .inr (length_extendedHeader c id must len)

end

/-- The room left for a header before the length is known. -/
def headerRoom (id : Nat) : Nat := if id ≤ maxShortMemberId then 4 else 12

theorem writes_memberWithV1 (must : Bool) (hw : Writes (xcdr1 e) (k + (xcdr1 e).padding 4 k + headerRoom id) w chunk) :
    Writes (xcdr1 e) k (writeMemberWithV1 (xcdr1 e) id must w)
      (zeros ((xcdr1 e).padding 4 k) ++ (parameterHeader (xcdr1 e) id must chunk.length ++ chunk)) := by
  intro buf hbuf
  have hstart : (xcdr1 e).Alike (k + (xcdr1 e).padding 4 k + headerRoom id)
      (buf ++ zeros ((xcdr1 e).padding 4 k) ++ zeros (headerRoom id)).length := by
    rw [length_append, length_append, length_zeros, length_zeros]
    exact (hbuf.add _).add _
  unfold writeMemberWithV1
  rw [Decoder.bind_apply, Outcome.result_bind_of_ok (writes_alignBuffer buf hbuf)]
  show ((asMemberError w >>= fun _ => _) (buf ++ zeros ((xcdr1 e).padding 4 k) ++ zeros (headerRoom id))).result = _
  rw [Decoder.bind_apply, Outcome.result_bind_of_ok (writes_asMemberError hw _ hstart)]
  rw [← append_assoc]
  generalize buf ++ zeros ((xcdr1 e).padding 4 k) = front at *
  have hdiff : (front ++ zeros (headerRoom id) ++ chunk).length - (front ++ zeros (headerRoom id)).length =
      chunk.length := by
    rw [length_append, Nat.add_sub_cancel_left]
  show ((if id ≤ maxShortMemberId ∧ (front ++ zeros (headerRoom id) ++ chunk).length -
      (front ++ zeros (headerRoom id)).length ≤ maxShortLength then
      overwriteAt front.length (shortHeader (xcdr1 e) id must ((front ++ zeros (headerRoom id) ++ chunk).length -
        (front ++ zeros (headerRoom id)).length))
    else extendHeader front.length id >>= fun _ =>
      overwriteAt front.length (extendedHeader (xcdr1 e) id must ((front ++ zeros (headerRoom id) ++ chunk).length -
        (front ++ zeros (headerRoom id)).length)) : Ser) (front ++ zeros (headerRoom id) ++ chunk)).result = _
  rw [hdiff]
  unfold parameterHeader extendHeader
  split_ifs with hboth hid
  · show Result.ok ((), overwrite _ front.length _) = _
    rw [headerRoom, if_pos hboth.1, append_assoc,
      overwrite_append _ _ _ _ (by rw [length_shortHeader, length_zeros])]
  · show Result.ok ((), overwrite (take (front.length + 4) _ ++ (zeros 8 ++ drop (front.length + 4) _))
      front.length _) = _
    have hsplit : front.length + 4 = (front ++ zeros 4).length := by rw [length_append, length_zeros]
    rw [headerRoom, if_pos hid, hsplit, take_left, drop_left, append_assoc, ← append_assoc (zeros 4),
      overwrite_append _ _ _ _ (by rw [length_extendedHeader, length_append, length_zeros, length_zeros])]
  · show Result.ok ((), overwrite _ front.length _) = _
    rw [headerRoom, if_neg hid, append_assoc,
      overwrite_append _ _ _ _ (by rw [length_extendedHeader, length_zeros])]

def headerOf (id : Nat) (must : Bool) (len : Nat) : PlCdrMemberHeader :=
  if id ≤ maxShortMemberId ∧ len ≤ maxShortLength then .short id len must else .long (id % 2 ^ 32) len must

variable {pid : Nat}

theorem pidFlags_mod (hpid : pid < 0x4000) : (pidFlags must + pid) % 0x4000 = pid := by
  unfold pidFlags
  omega

theorem pidFlags_div (hpid : pid < 0x4000) : decide ((pidFlags must + pid) / 0x4000 % 2 = 1) = must := by
  unfold pidFlags
  cases must with
  | false => rw [decide_eq_false_iff_not, Bool.toNat_false]; omega
  | true => rw [decide_eq_true_eq, Bool.toNat_true]; omega

theorem pidFlags_lt (hpid : pid < 0x4000) : pidFlags must + pid < 256 ^ 2 := by
  have := must.toNat_lt
  unfold pidFlags
  omega

theorem take_put_append (w n : Nat) (rest : Bytes) :
    (c.endianness.put w n ++ rest).take w = c.endianness.put w n := take_left' (length_put _ _ _)

theorem drop_put_append (w n : Nat) (rest : Bytes) : (c.endianness.put w n ++ rest).drop w = rest :=
  drop_left' (length_put _ _ _)

theorem reads_parameterHeader (hlen : len < 2 ^ 32) :
    Reads (xcdr1 e) k (readParameterHeader (xcdr1 e))
      (zeros ((xcdr1 e).padding 4 k) ++ parameterHeader (xcdr1 e) id must len) (headerOf id must len) := by
  refine (reads_align ((standard_xcdr1 e).fits isWidth_four)).bind ?_
  unfold parameterHeader headerOf
  split_ifs with hshort
  · have hpid : id < 0x4000 := Nat.lt_of_le_of_lt hshort.1 (by decide)
    rw [← append_nil (shortHeader _ _ _ _)]
    refine (reads_take _ (length_shortHeader _ _ _ _)).bind ?_
    dsimp only
    rw [shortHeader, take_put_append, drop_put_append, get_put_of_lt _ (pidFlags_lt hpid),
      get_put_of_lt _ (Nat.lt_of_le_of_lt hshort.2 (by decide)), pidFlags_mod hpid, pidFlags_div hpid]
    have hne : id ≠ pidSentinel ∧ id ≠ pidExtended := by
      simp only [maxShortMemberId, pidSentinel, pidExtended] at *
      omega
    rw [if_neg hne.1, if_neg hne.2]
    exact reads_pure _
  · unfold extendedHeader
    rw [← append_assoc]
    refine (reads_take _ (by simp only [length_append, length_put])).bind ?_
    dsimp only
    rw [take_put_append, get_put_of_lt _ (pidFlags_lt (by decide)), pidFlags_mod (by decide),
      pidFlags_div (by decide), ← append_nil (Endianness.put _ 4 id ++ _)]
    refine (reads_take _ (by simp only [length_append, length_put])).bind ?_
    rw [take_put_append, drop_put_append, get_put, Nat.mod_eq_of_lt hlen,
      get_put_of_lt _ (show len < 256 ^ 4 from hlen)]
    exact reads_pure _

/-- Behind the header, the content of a parameter stands as where it was written. -/
theorem alike_parameterHeader (hk : 4 ≤ k) :
    (xcdr1 e).Alike (k + (xcdr1 e).padding 4 k + headerRoom id)
      (k + (zeros ((xcdr1 e).padding 4 k) ++ parameterHeader (xcdr1 e) id must len).length) := by
  have hle : (xcdr1 e).origin ≤ k := hk
  rw [length_append, length_zeros]
  unfold parameterHeader headerRoom
  by_cases hid : id ≤ maxShortMemberId
  · by_cases hlen : len ≤ maxShortLength
    · rw [if_pos hid, if_pos ⟨hid, hlen⟩, length_shortHeader]
      exact Coding.Alike.refl (by omega)
    · rw [if_pos hid, if_neg (fun h => hlen h.2), length_extendedHeader]
      exact ⟨by omega, by omega, Nat.add_mod_right (k + (xcdr1 e).padding 4 k + 4) 8⟩
  · rw [if_neg hid, if_neg (fun h => hid h.1), length_extendedHeader]
    exact Coding.Alike.refl (by omega)

/-! ### The sentinel -/

/-- Padding hides what follows it. -/
theorem isAtSentinel_padded {pad : Nat} (hpos : 0 < pad) (before rest : Bytes) :
    isAtSentinel c ⟨before ++ (zeros pad ++ rest), before.length⟩ =
      pure (false, ⟨before ++ (zeros pad ++ rest), before.length⟩) := by
  have hpid (b : Byte) : c.endianness.get [0, b] % 0x4000 ≠ pidSentinel := by
    cases c.endianness <;>
      simp only [Endianness.get, reverse_cons, reverse_nil, nil_append, singleton_append, ofLeBytes,
        pidSentinel, BitVec.ofNat_eq_ofNat, BitVec.toNat_ofNat] <;>
      omega
  unfold isAtSentinel
  dsimp only
  rw [drop_left]
  split_ifs with hlen
  · rfl
  · rw [length_append, length_append, length_zeros] at hlen
    obtain ⟨pad, rfl⟩ := Nat.exists_eq_succ_of_ne_zero (Nat.ne_of_gt hpos)
    obtain ⟨b, bs, hbs⟩ : ∃ b bs, zeros pad ++ rest = b :: bs := by
      cases hcases : zeros pad ++ rest with
      | nil =>
        have := congrArg length hcases
        rw [length_append, length_zeros, length_nil] at this
        omega
      | cons b bs => exact ⟨b, bs, rfl⟩
    have htake : (zeros (pad + 1) ++ rest).take 2 = [0, b] := by
      show ((0 : Byte) :: (zeros pad ++ rest)).take 2 = _
      rw [hbs]
      rfl
    rw [htake, decide_eq_false (hpid b)]

theorem isAtSentinel_aligned (hpid : pid < 256 ^ 2) (before rest : Bytes) (hrest : 2 ≤ rest.length) :
    isAtSentinel c ⟨before ++ (c.endianness.put 2 pid ++ rest), before.length⟩ =
      pure (decide (pid % 0x4000 = pidSentinel), ⟨before ++ (c.endianness.put 2 pid ++ rest), before.length⟩) := by
  have hlen : ¬ (before ++ (c.endianness.put 2 pid ++ rest)).length < before.length + 4 := by
    rw [length_append, length_append, length_put]
    omega
  unfold isAtSentinel
  rw [if_neg hlen, drop_left, take_put_append, get_put_of_lt _ hpid]

theorem skipUnread_of_le {data : Bytes} {start p n : Nat} (hle : start ≤ p) (hpe : p ≤ start + n)
    (hdata : start + n ≤ data.length) : (skipUnread start n ⟨data, p⟩).result = .ok ((), ⟨data, start + n⟩) := by
  show ((if p - start < n then skip (n - (p - start)) else pure ()) (⟨data, p⟩ : Cursor)).result = _
  split_ifs with h
  · have htake : (Cursor.take (DdsError.cdr .insufficientData) (n - (p - start)) ⟨data, p⟩).result =
        .ok ((data.drop p).take (n - (p - start)), ⟨data, p + (n - (p - start))⟩) :=
      congrArg Outcome.result (if_pos (by show p + (n - (p - start)) ≤ data.length; omega))
    rw [skip, Decoder.bind_apply, Outcome.result_bind_of_ok htake, show p + (n - (p - start)) = start + n by omega]
    rfl
  · rw [show p = start + n by omega]
    rfl

/-- What is left of a parameter is skipped. -/
theorem reads_parameter {c : Coding} {m : MemberDescriptor}
    {read : De DynamicValue} {a : DynamicValue} (hfind : findReader readers id = some (m, read))
    (h : ReadsUpTo false c k read chunk a) (acc : List (String × DynamicValue)) :
    Reads c k (deserializeParameterCdr readers id chunk.length must acc) chunk (insertValue acc m.name a) := by
  intro before after hbefore
  obtain ⟨p, hle, hpe, -, hread⟩ := h.bind_pure (insertValue acc m.name) before after hbefore
  have hvalue :
      (readParameterValue readers id chunk.length must acc ⟨before ++ (chunk ++ after), before.length⟩).result =
      .ok (insertValue acc m.name a, ⟨before ++ (chunk ++ after), p⟩) := by
    unfold readParameterValue
    rw [hfind]
    exact hread
  show ((readParameterValue readers id chunk.length must acc >>= fun values => skipUnread before.length chunk.length >>=
    fun _ => pure values) _).result = _
  rw [Decoder.bind_apply, Outcome.result_bind_of_ok hvalue, Decoder.bind_apply,
    Outcome.result_bind_of_ok (skipUnread_of_le hle hpe (by rw [length_append, length_append]; omega))]
  rfl

section

variable (e : Endianness)

theorem add_padding_four (hk : 4 ≤ k) : (k + (xcdr1 e).padding 4 k) % 4 = 0 := by
  rw [padding_xcdr1 (by decide)]
  omega

theorem parameterStart_mod (hk : 4 ≤ k) (id : Nat) :
    (k + (xcdr1 e).padding 4 k + headerRoom id) % 4 = 0 := by
  have := add_padding_four e hk
  unfold headerRoom
  split_ifs <;> omega

/-- Padding and header of a parameter of `len` bytes. -/
def parameterHead (e : Endianness) (k id : Nat) (must : Bool) (len : Nat) : Bytes :=
  zeros ((xcdr1 e).padding 4 k) ++ parameterHeader (xcdr1 e) id must len

theorem length_parameterHead :
    4 ≤ (parameterHead e k id must len).length ∧ (parameterHead e k id must len).length ≤ 15 := by
  have hpad := Coding.padding_lt (c := xcdr1 e) k (show 0 < 4 by decide) (show 0 < 8 by decide)
  rw [parameterHead, length_append, length_zeros]
  rcases length_parameterHeader (xcdr1 e) id must len with h | h <;> omega

theorem parameterHead_mod (hk : 4 ≤ k) (id : Nat) (must : Bool) (len : Nat) :
    (k + (parameterHead e k id must len).length) % 4 = 0 := by
  have := add_padding_four e hk
  rw [parameterHead, length_append, length_zeros]
  rcases length_parameterHeader (xcdr1 e) id must len with h | h <;> omega

theorem isAtSentinel_parameterHead (before rest : Bytes) :
    isAtSentinel (xcdr1 e) ⟨before ++ (parameterHead e k id must len ++ rest), before.length⟩ =
      pure (false, ⟨before ++ (parameterHead e k id must len ++ rest), before.length⟩) := by
  unfold parameterHead
  rw [append_assoc]
  by_cases hpad : (xcdr1 e).padding 4 k = 0
  · rw [hpad]
    show isAtSentinel (xcdr1 e) ⟨before ++ (parameterHeader (xcdr1 e) id must len ++ rest), _⟩ =
      pure (false, ⟨before ++ (parameterHeader (xcdr1 e) id must len ++ rest), _⟩)
    unfold parameterHeader
    split_ifs with hshort
    · have hpid : id < 0x4000 := Nat.lt_of_le_of_lt hshort.1 (by decide)
      have hne : id ≠ pidSentinel := by
        simp only [maxShortMemberId, pidSentinel] at *
        omega
      rw [shortHeader, append_assoc, isAtSentinel_aligned _ (pidFlags_lt hpid), pidFlags_mod hpid,
        decide_eq_false hne]
      rw [length_append, length_put]
      omega
    · rw [extendedHeader, append_assoc, isAtSentinel_aligned _ (pidFlags_lt (by decide)),
        pidFlags_mod (by decide), decide_eq_false (by decide)]
      simp only [length_append, length_put]
      omega
  · exact isAtSentinel_padded _ (Nat.pos_of_ne_zero hpad) _ _

end

end Parameters

/-! ## Members -/

section Members

variable {e : Endianness} {k stop : Nat} {more whole : Bool} {value : DynamicValue → DynamicTypeKind → Ser}
  {read : MemberDescriptor → De DynamicValue} {landing : Bool → DynamicValue → DynamicTypeKind → Nat → Option Nat}
  {d : DynamicData} {m : MemberDescriptor} {members : List MemberDescriptor} {v : DynamicValue}
  {values acc : List (String × DynamicValue)}

/-- Where a value lands somewhere, it is read back from there. -/
def Lands (e : Endianness) (value : DynamicValue → DynamicTypeKind → Ser) (read : De DynamicValue)
    (landing : Bool → DynamicValue → DynamicTypeKind → Nat → Option Nat) (kind : DynamicTypeKind)
      (v : DynamicValue) : Prop :=
  ∀ more k stop, 4 ≤ k → landing more v kind (k % 4) = some stop →
    CodedCdr more e k (value v kind) read v stop False v.weight

theorem readsUpTo_notAtSentinel {α : Type} {c : Coding} {chunk : Bytes} {a : α} {r s : De α}
    (hnot : ∀ before after : Bytes, c.Alike k before.length →
      isAtSentinel c ⟨before ++ (chunk ++ after), before.length⟩ =
      pure (false, ⟨before ++ (chunk ++ after), before.length⟩)) (h : ReadsUpTo whole c k r chunk a) :
    ReadsUpTo whole c k (isAtSentinel c >>= fun atSentinel => if atSentinel then s else r) chunk a := by
  intro before after hbefore
  obtain ⟨p, hle, hpe, hwhole, hr⟩ := h before after hbefore
  refine ⟨p, hle, hpe, hwhole, ?_⟩
  rw [Decoder.bind_apply, hnot before after hbefore]
  exact hr

/-- The sentinel stays unread if it stands right behind the last parameter. -/
theorem readsUpTo_sentinel (hk : 4 ≤ k) (fuel : Nat)
    (hwhole : whole = true → k % 4 ≠ 0) :
    ReadsUpTo whole (xcdr1 e) k (deserializeStructMembersMutableCdr (xcdr1 e) readers (fuel + 1) acc)
      (zeros ((xcdr1 e).padding 4 k) ++ (e.put 2 pidSentinel ++ e.put 2 0)) acc := by
  by_cases hpad : (xcdr1 e).padding 4 k = 0
  · have hzero : k % 4 = 0 := by
      have := add_padding_four e hk
      omega
    intro before after hbefore
    refine ⟨before.length, Nat.le_refl _, Nat.le_add_right _ _, fun h => absurd hzero (hwhole h), ?_⟩
    have hdata : zeros 0 ++ (e.put 2 pidSentinel ++ e.put 2 0) ++ after =
        (xcdr1 e).endianness.put 2 pidSentinel ++ ((xcdr1 e).endianness.put 2 0 ++ after) :=
      append_assoc (e.put 2 pidSentinel) (e.put 2 0) after
    rw [hpad, hdata, deserializeStructMembersMutableCdr, Decoder.bind_apply, isAtSentinel_aligned _ (by decide)]
    · rfl
    · rw [length_append, length_put]
      omega
  · refine readsUpTo_notAtSentinel (fun before after _ => ?_) (Reads.upTo ?_)
    · rw [append_assoc]
      exact isAtSentinel_padded _ (Nat.pos_of_ne_zero hpad) _ _
    · have hheader : Reads (xcdr1 e) k (readParameterHeader (xcdr1 e))
          (zeros ((xcdr1 e).padding 4 k) ++ (e.put 2 pidSentinel ++ e.put 2 0)) .sentinel := by
        refine (reads_align ((standard_xcdr1 e).fits isWidth_four)).bind ?_
        rw [← append_nil (_ ++ _)]
        refine (reads_take _ (by simp only [length_append, length_put])).bind ?_
        rw [show e.put 2 pidSentinel = (xcdr1 e).endianness.put 2 pidSentinel from rfl, take_put_append,
          get_put_of_lt _ (by decide)]
        exact reads_pure _
      rw [← append_nil (_ ++ _)]
      exact hheader.bind (reads_pure acc)

theorem codedCdr_memberWith {w : Ser} {id size : Nat} {r : De DynamicValue} {a : DynamicValue} {hollow : Prop}
    (must : Bool)
    (hk : 4 ≤ k) (h : CodedCdr whole e (k + (xcdr1 e).padding 4 k + headerRoom id) w r a stop hollow size)
    (hsize : size < 2 ^ 32) :
    ∃ head inner, Writes (xcdr1 e) k (writeMemberWithV1 (xcdr1 e) id must w) (head ++ inner) ∧
      Reads (xcdr1 e) k (readParameterHeader (xcdr1 e)) head (headerOf id must inner.length) ∧
      ReadsUpTo whole (xcdr1 e) (k + head.length) r inner a ∧ (4 ≤ head.length ∧ head.length ≤ 15) ∧
      (k + (head ++ inner).length) % 4 = stop ∧ (inner = [] → hollow) ∧ inner.length ≤ size ∧
      ∀ before rest, isAtSentinel (xcdr1 e) ⟨before ++ (head ++ rest), before.length⟩ =
        pure (false, ⟨before ++ (head ++ rest), before.length⟩) := by
  obtain ⟨inner, ⟨hwrite, hread⟩, hstop, hnil, hlen⟩ := h
  have hmember := writes_memberWithV1 must hwrite
  have hstart := parameterStart_mod e hk id
  have hmod := parameterHead_mod e hk id must inner.length
  rw [← append_assoc] at hmember
  refine ⟨parameterHead e k id must inner.length, inner, hmember, reads_parameterHeader (by omega),
    hread.alike (alike_parameterHeader hk), length_parameterHead e, ?_, hnil,
    hlen, isAtSentinel_parameterHead e⟩
  rw [length_append]
  omega

/-- Each turn of the reader's loop takes one parameter; the last one may leave the sentinel. -/
theorem codedCdr_parameters
    (h : Fields (fun m v => Lands e value (read m) landing m.memberType v) members values)
    (hd : Pending d members values acc)
    (hreaders : ∀ m ∈ members, findReader readers m.memberId = some (m, read m))
    (hids : ∀ m ∈ members, m.memberId < 2 ^ 28) (hk : 4 ≤ k)
    (hland : landParameters landing d members (k % 4) = some stop)
    (hsize : 16 * members.length + weightFields values < 2 ^ 32) :
    ∃ chunk, Writes (xcdr1 e) k (serializeMembersCdrMutable (xcdr1 e) value d members) chunk ∧
      (∀ fuel whole, chunk.length < fuel → (whole = true → stop ≠ 0) → ReadsUpTo whole (xcdr1 e) k
        (deserializeStructMembersMutableCdr (xcdr1 e) readers fuel acc) chunk (acc ++ values)) ∧
      (k + chunk.length) % 4 = 0 ∧ 0 < chunk.length ∧
      chunk.length ≤ 16 * members.length + weightFields values + 8 := by
  induction h generalizing acc k with
  | nil =>
    have hpad := Coding.padding_lt (c := xcdr1 e) k (show 0 < 4 by decide) (show 0 < 8 by decide)
    have hmod := add_padding_four e hk
    have hstop : k % 4 = stop := some.inj hland
    refine ⟨_, writes_alignBuffer.bind (writes_push _), fun fuel whole hfuel hwhole => ?_, ?_, ?_, ?_⟩
    · obtain ⟨fuel, rfl⟩ := Nat.exists_eq_succ_of_ne_zero (Nat.ne_zero_of_lt hfuel)
      rw [append_nil]
      exact readsUpTo_sentinel hk fuel (fun h => by rw [hstop]; exact hwhole h)
    all_goals
      rw [length_append, length_append, length_zeros, length_put, length_put]
      omega
  | set m members v values hv hvalues ih =>
    rw [weightFields, length_cons] at hsize
    rw [landParameters, hd.get_set] at hland
    obtain ⟨middle, hmiddle, hland⟩ := bind_eq_some_iff.1 hland
    rw [← parameterStart_mod e hk m.memberId] at hmiddle
    obtain ⟨head, inner, hmember, hheader, hread, hhead, hnext, -, hlen, hnot⟩ :=
      codedCdr_memberWith m.isMustUnderstand hk (hv false _ middle (by omega) hmiddle) (by omega)
    rw [← hnext] at hland
    obtain ⟨rest, hwrites, hreads, hend, -, hrest⟩ := ih (k := k + (head ++ inner).length) (hd.set v)
      (forall_mem_cons.1 hreaders).2 (forall_mem_cons.1 hids).2
      (by omega) hland (by omega)
    refine ⟨head ++ inner ++ rest, ?_, fun fuel whole hfuel hwhole => ?_, ?_, ?_, ?_⟩
    · rw [serializeMembersCdrMutable, memberValueOrDefault_of_some hd.get_set]
      exact hmember.bind hwrites
    · obtain ⟨fuel, rfl⟩ := Nat.exists_eq_succ_of_ne_zero (Nat.ne_zero_of_lt hfuel)
      rw [length_append, length_append] at hfuel
      have hfind : findReader readers m.memberId = some (m, read m) := hreaders m mem_cons_self
      have hid : m.memberId % 2 ^ 32 = m.memberId := Nat.mod_eq_of_lt ((hids m mem_cons_self).trans (by decide))
      have htail := hreads fuel whole (by omega) hwhole
      rw [hd.insert_append, length_append, ← Nat.add_assoc] at htail
      have hturn : ReadsUpTo whole (xcdr1 e) (k + head.length)
          (deserializeParameterCdr readers m.memberId inner.length m.isMustUnderstand acc >>= fun values =>
            deserializeStructMembersMutableCdr (xcdr1 e) readers fuel values) (inner ++ rest)
          (acc ++ (m.name, v) :: values) :=
        (reads_parameter hfind hread acc).bindUpTo htail
      rw [append_assoc head]
      refine readsUpTo_notAtSentinel (fun before after _ => ?_) (hheader.bindUpTo ?_)
      · rw [append_assoc head]
        exact hnot before _
      · unfold headerOf
        split_ifs
        · exact hturn
        · rw [hid]
          exact hturn
    · rw [length_append, ← Nat.add_assoc]
      exact hend
    · rw [length_append, length_append]
      omega
    · rw [length_append, length_append, weightFields, length_cons]
      omega
  | absent m members values hm hvalues ih =>
    rw [length_cons] at hsize
    rw [landParameters, hd.get_absent hvalues] at hland
    obtain ⟨rest, hwrites, hreads, hend, hpos, hrest⟩ := ih (k := k) hd.absent
      (forall_mem_cons.1 hreaders).2 (forall_mem_cons.1 hids).2
      hk hland (by omega)
    refine ⟨rest, ?_, hreads, hend, hpos, by rw [length_cons]; omega⟩
    rw [serializeMembersCdrMutable, memberValueOrDefault_of_absent (hd.get_absent hvalues) hm]
    exact writes_pure.bind hwrites

/-! ### Members in place -/

theorem CodedCdr.step {α β γ : Type} {w w' : Ser} {r : De α} {f : α → De β} {a : α} {b : β}
    {stop stop' size size' : Nat}
    {hollow hollow' : Prop} {rest : List γ} (h : CodedCdr (more || !rest.isEmpty) e k w r a stop hollow size)
    (hlast : rest = [] → w' = pure () ∧ f a = pure b ∧ stop' = stop ∧ hollow')
    (h' : ∀ k', k ≤ k' → k' % 4 = stop → CodedCdr more e k' w' (f a) b stop' hollow' size') :
    CodedCdr more e k (w >>= fun _ => w') (r >>= f) b stop' (hollow ∧ hollow') (size + size') := by
  cases rest with
  | cons c rest =>
    rw [isEmpty_cons, Bool.not_false, Bool.or_true] at h
    exact h.bind h'
  | nil =>
    rw [isEmpty_nil, Bool.not_true, Bool.or_false] at h
    obtain ⟨rfl, hf, rfl, hhollow⟩ := hlast rfl
    obtain ⟨chunk, ⟨hwrites, hreads⟩, hstop, hnil, hlen⟩ := h.before hf
    refine ⟨chunk, ⟨?_, hreads⟩, hstop, fun h => ⟨hnil h, hhollow⟩, hlen.trans (Nat.le_add_right _ _)⟩
    rw [← append_nil chunk]
    exact hwrites.bind writes_pure

theorem codedCdr_member_set (hv : Lands e value (read m) landing m.memberType v) (hk : 4 ≤ k)
    (hget : d.getValue m.name = some v) (hland : landMember landing more d m (k % 4) = some stop)
    (hsize : v.weight < 2 ^ 32) :
    CodedCdr more e k (serializeMemberCdr (xcdr1 e) value d m) (deserializeMemberCdr (xcdr1 e) m (read m)) (some v) stop
      False (v.weight + 15) := by
  rw [landMember, hget] at hland
  unfold serializeMemberCdr deserializeMemberCdr
  cases hopt : m.isOptional with
  | false =>
    rw [hopt] at hland
    rw [memberValueOrDefault_of_some hget]
    exact ((hv more k stop hk hland).map some).mono id (Nat.le_add_right _ _)
  | true =>
    rw [hopt, ← parameterStart_mod e hk m.memberId] at hland
    rw [hget]
    obtain ⟨head, inner, hmember, hheader, hread, hhead, hstop, hnil, hlen, -⟩ :=
      codedCdr_memberWith m.isMustUnderstand hk (hv more _ stop (by omega) hland) hsize
    refine ⟨head ++ inner, ⟨hmember, hheader.bindUpTo ?_⟩, hstop, fun h => hnil (append_eq_nil_iff.1 h).2, ?_⟩
    · obtain ⟨b, bs, hinner⟩ := exists_cons_of_ne_nil hnil
      have hsome := hread.bind_pure some
      have hsucc : inner.length = bs.length + 1 := by rw [hinner, length_cons]
      unfold headerOf
      rw [hsucc]
      split_ifs <;> exact hsome
    · rw [length_append]
      omega

theorem codedCdr_member_absent (hk : 4 ≤ k) (hget : d.getValue m.name = none) (hopt : m.isOptional = true)
    (hland : landMember landing more d m (k % 4) = some stop) :
    CodedCdr more e k (serializeMemberCdr (xcdr1 e) value d m) (deserializeMemberCdr (xcdr1 e) m (read m)) none stop
      False 15 := by
  rw [landMember, hget] at hland
  obtain rfl : 0 = stop := some.inj hland
  unfold serializeMemberCdr deserializeMemberCdr
  rw [if_pos hopt, if_pos hopt, hget]
  have hpure := codedCdr_pure (e := e) (k := k + (xcdr1 e).padding 4 k + headerRoom m.memberId) more DynamicValue.null
  rw [parameterStart_mod e hk] at hpure
  obtain ⟨head, inner, hmember, hheader, -, hhead, hend, -, hlen, -⟩ :=
    codedCdr_memberWith m.isMustUnderstand hk hpure (by decide)
  obtain rfl := eq_nil_of_length_eq_zero (Nat.le_zero.1 hlen)
  refine ⟨head ++ [], ⟨hmember, (hheader.bind ?_).upTo⟩, hend, fun h => ?_, ?_⟩
  · unfold headerOf
    split_ifs <;> exact reads_pure none
  · rw [(append_eq_nil_iff.1 h).1] at hhead
    exact absurd hhead.1 (by decide)
  · rw [append_nil]
    exact hhead.2

theorem codedCdr_members (h : Fields (fun m v => Lands e value (read m) landing m.memberType v) members values)
    (hd : Pending d members values acc) (hk : 4 ≤ k) (hland : landMembers landing more d members (k % 4) = some stop)
    (hsize : weightFields values < 2 ^ 32) :
    CodedCdr more e k (serializeMembersCdr (xcdr1 e) value d members)
      (deserializeStructMembersCdr (xcdr1 e) (members.map fun m => (m, read m)) acc) (acc ++ values) stop (members = [])
      (15 * members.length + weightFields values) := by
  -- what `step` asks of the last member
  have hlast {acc : List (String × DynamicValue)} {middle : Nat}
    (h : landMembers landing more d [] middle = some stop) :
      serializeMembersCdr (xcdr1 e) value d [] = pure () ∧
        deserializeStructMembersCdr (xcdr1 e) ([].map fun m => (m, read m)) acc = pure (acc ++ []) ∧ stop = middle ∧
          ([] : List MemberDescriptor) = [] := by
    refine ⟨rfl, ?_, (some.inj h).symm, rfl⟩
    rw [append_nil]
    rfl
  induction h generalizing acc k with
  | nil =>
    have hstop : k % 4 = stop := some.inj hland
    rw [append_nil, ← hstop]
    exact (codedCdr_pure more acc).mono (fun _ => rfl) (Nat.zero_le _)
  | set m members v values hv hvalues ih =>
    rw [weightFields] at hsize
    obtain ⟨middle, hmiddle, hland⟩ := bind_eq_some_iff.1 hland
    have hmember := codedCdr_member_set hv hk hd.get_set hmiddle (by omega)
    have hboth := hmember.step (f := fun v => deserializeStructMembersCdr (xcdr1 e) (members.map fun m => (m, read m))
      (v.elim acc (insertValue acc m.name))) (fun hnil => by cases hvalues <;> cases hnil; exact hlast hland)
      fun k' hk' hmod => ih (k := k') (hd.set v) (by omega) (by rw [hmod]; exact hland) (by omega)
    rw [weightFields, length_cons, ← hd.insert_append]
    exact hboth.mono (fun h => h.1.elim) (by omega)
  | absent m members values hm hvalues ih =>
    obtain ⟨middle, hmiddle, hland⟩ := bind_eq_some_iff.1 hland
    have hmember :
        CodedCdr _ e k (serializeMemberCdr (xcdr1 e) value d m) (deserializeMemberCdr (xcdr1 e) m (read m)) none
        middle False 15 := codedCdr_member_absent hk (hd.get_absent hvalues) hm hmiddle
    have hboth := hmember.step (f := fun v => deserializeStructMembersCdr (xcdr1 e) (members.map fun m => (m, read m))
      (v.elim acc (insertValue acc m.name))) (fun hnil => by cases hvalues <;> cases hnil; exact hlast hland)
      fun k' hk' hmod => ih (k := k') hd.absent (by omega) (by rw [hmod]; exact hland) hsize
    rw [length_cons]
    exact hboth.mono (fun h => h.1.elim) (by omega)

end Members

/-! ## Values -/

/-- Where `v` lands, what is written for it is read back. -/
def RoundTripsCdr (e : Endianness) (n : Nat) (kind : DynamicTypeKind) (v : DynamicValue) : Prop :=
  ∀ tc, Lands e (serializeValueCdr (xcdr1 e) (serializeStructCdr (xcdr1 e) n)) (deserializeValueCdr (xcdr1 e) kind tc)
    (land (landStruct n)) kind v

theorem memberReadersCdr_eq (c : Coding) (members : List MemberDescriptor) :
    memberReadersCdr c members = members.map fun m => (m, deserializeValueCdr c m.memberType m.tryConstruct) :=
  eq_map_of_cons rfl (fun m _ => by cases m; rfl) members

theorem unionReadersCdr_eq (c : Coding) (members : List UnionMemberDescriptor) :
    unionReadersCdr c members = members.map fun m => (m, deserializeValueCdr c m.memberType m.tryConstruct) :=
  eq_map_of_cons rfl (fun m _ => by cases m; rfl) members

section Values

variable {e : Endianness} {n k stop : Nat} {more : Bool} {kind keyType valueType : DynamicTypeKind} {v : DynamicValue}
  {items : List DynamicValue} {entries : List (DynamicValue × DynamicValue)} {bound : Option Nat} {name : String}
  {ext : ExtensibilityKind}

theorem roundTripsCdr_primitive {p : PrimitiveKind} (h : Typed (.primitive p) v) :
    RoundTripsCdr e n (.primitive p) v := by
  intro tc more k stop hk hland
  have hcoded := coded_primitive (k := k) (standard_xcdr1 e) (serializeStructCdr (xcdr1 e) n) h
  have h1 : IsWidth 1 := .inl rfl
  have h2 : IsWidth 2 := .inr (.inl rfl)
  have h8 : IsWidth 8 := .inr (.inr (.inr rfl))
  have hstop : landAtomic v (.primitive p) (k % 4) = stop := by cases h <;> exact some.inj hland
  subst hstop
  cases h with
  | boolean | byte | int8 | uint8 | char8 => exact hcoded.cdr_word h1 hk more
  | int16 | uint16 => exact hcoded.cdr_word h2 hk more
  | int32 | uint32 | float32 => exact hcoded.cdr_word isWidth_four hk more
  | int64 | uint64 | float64 => exact hcoded.cdr_word h8 hk more
  | float128 v =>
    refine hcoded.cdr hk (writes_put ((standard_xcdr1 e).fits h8) 16 v.toNat) ?_
    have hword : (k + ((xcdr1 e).padding 8 k + 8)) % 4 = 0 := wordEnd_eq h8 hk
    rw [length_append, length_zeros, length_put]
    show _ = 0
    omega

theorem roundTripsCdr_string {v : String} (hbound : WithinBound bound v.length)
    (hw : (DynamicValue.string v).weight < 2 ^ 32) : RoundTripsCdr e n (.string bound) (.string v) := by
  intro tc more k stop hk hland
  have hweight : (DynamicValue.string v).weight = (utf8 v).length + 32 := by rw [DynamicValue.weight]
  have hcoded := coded_atomicString (k := k) (standard_xcdr1 e) hbound (show (utf8 v).length + 1 < 2 ^ 32 by omega) tc
  have hword : (k + ((xcdr1 e).padding 4 k + 4)) % 4 = 0 := wordEnd_eq isWidth_four hk
  have hstop : ((utf8 v).length + 1) % 4 = stop := some.inj hland
  refine ((hcoded.mono Iff.rfl (by omega)).cdr hk ((writes_word (standard_xcdr1 e) isWidth_four _).bind
    ((writes_push (utf8 v)).bind (writes_push [0]))) ?_)
  rw [length_append, length_append, length_wordAt, length_singleton]
  omega

theorem roundTripsCdr_wstring {v : String} (hbound : WithinBound bound (utf16 v.toList).length)
    (hw : (DynamicValue.wstring v).weight < 2 ^ 32) : RoundTripsCdr e n (.wstring bound) (.wstring v) := by
  intro tc more k stop hk hland
  have hweight : (DynamicValue.wstring v).weight = (utf16 v.toList).length * 2 + 32 := by rw [DynamicValue.weight]
  have hcoded := coded_atomicWstring (k := k) (standard_xcdr1 e) hk hbound
    (show (utf16 v.toList).length * 2 < 2 ^ 32 by omega) tc
  have hword : (k + ((xcdr1 e).padding 4 k + 4)) % 4 = 0 := wordEnd_eq isWidth_four hk
  have hstop : (utf16 v.toList).length * 2 % 4 = stop := some.inj hland
  refine ((hcoded.mono Iff.rfl (by omega)).cdr hk ((writes_word (standard_xcdr1 e) isWidth_four _).bind
    ((writes_align ((standard_xcdr1 e).fits (.inr (.inl rfl)))).bind (writes_push _))) ?_)
  rw [length_append, length_append, length_wordAt, length_zeros, length_flatMap_put,
    padding_xcdr1 (a := 2) (by decide)]
  omega

theorem roundTripsCdr_enum {d : EnumDescriptor} {l : EnumLiteralDescriptor} (hl : d.getLiteralByValue l.value = some l)
    (hfits : FitsEnum d.bitBound l.value) :
    RoundTripsCdr e n (.typeRef ⟨name, .enum d, ext⟩) (.enum l.name l.value) := by
  intro tc more k stop hk hland
  obtain rfl := some.inj hland
  exact ((coded_enum (k := k) (standard_xcdr1 e) hl hfits tc).mono Iff.rfl
    (by simp [DynamicValue.weight])).cdr_word (isWidth_enumWireWidth _) hk more

theorem roundTripsCdr_packed {bits : Nat} {v : BitVec 64} (hv : FitsPacked bits v) :
    RoundTripsCdr e n (.typeRef ⟨name, .bitmask bits, ext⟩) (.bitmask v) ∧
      RoundTripsCdr e n (.typeRef ⟨name, .bitset bits, ext⟩) (.bitset v) := by
  have hcoded (k : Nat) (g : BitVec 64 → DynamicValue) := coded_packed (k := k) (standard_xcdr1 e) hv g
  constructor <;> intro tc more k stop hk hland <;> obtain rfl := some.inj hland
  · exact ((hcoded k .bitmask).mono Iff.rfl (by simp [DynamicValue.weight])).cdr_word
      (isWidth_packedWireWidth _) hk more
  · exact ((hcoded k .bitset).mono Iff.rfl (by simp [DynamicValue.weight])).cdr_word (isWidth_packedWireWidth _) hk more

/-! ### Collections -/

theorem codedCdr_items (h : ∀ v ∈ items, RoundTripsCdr e n kind v) (hk : 4 ≤ k)
    (hland : landItems (landStruct n) more items kind (k % 4) = some stop) :
    CodedCdr more e k (serializeItemsCdr (xcdr1 e) (serializeStructCdr (xcdr1 e) n) items kind)
      (Decoder.times items.length (deserializeValueCdr (xcdr1 e) kind .discard)) items stop (items = [])
      (weightItems items) := by
  induction items generalizing k with
  | nil =>
    obtain rfl := some.inj hland
    exact (codedCdr_pure more []).mono (fun _ => rfl) (Nat.zero_le _)
  | cons v items ih =>
    obtain ⟨middle, hmiddle, hland⟩ := bind_eq_some_iff.1 hland
    have hboth := (h v mem_cons_self .discard _ k middle hk hmiddle).step
      (f := fun a => Decoder.times items.length (deserializeValueCdr (xcdr1 e) kind .discard) >>=
        fun as => pure (a :: as))
      ?_ fun k' hk' hmod => (ih (k := k') (forall_mem_cons.1 h).2 (by omega)
        (by rw [hmod]; exact hland)).map (v :: ·)
    · exact hboth.mono (fun h => h.1.elim) (Nat.le_refl _)
    · rintro rfl
      exact ⟨rfl, rfl, (some.inj hland).symm, rfl⟩

theorem codedCdr_entries
    (h : ∀ entry ∈ entries, RoundTripsCdr e n keyType entry.1 ∧ RoundTripsCdr e n valueType entry.2)
    (hk : 4 ≤ k) (hland : landEntries (landStruct n) more entries keyType valueType (k % 4) = some stop) :
    CodedCdr more e k (serializeEntriesCdr (xcdr1 e) (serializeStructCdr (xcdr1 e) n) entries keyType valueType)
      (Decoder.times entries.length do
        let key ← deserializeValueCdr (xcdr1 e) keyType .discard
        let value ← deserializeValueCdr (xcdr1 e) valueType .discard
        pure (key, value)) entries stop (entries = []) (weightEntries entries) := by
  induction entries generalizing k with
  | nil =>
    obtain rfl := some.inj hland
    exact (codedCdr_pure more []).mono (fun _ => rfl) (Nat.zero_le _)
  | cons entry entries ih =>
    obtain ⟨middle, hentry, hland⟩ := bind_eq_some_iff.1 hland
    obtain ⟨split, hkey, hvalue⟩ := bind_eq_some_iff.1 hentry
    obtain ⟨hk1, hv1⟩ := h entry mem_cons_self
    have hhead := (hk1 .discard true k split hk hkey).bind (f := fun key =>
      deserializeValueCdr (xcdr1 e) valueType .discard >>= fun value => pure (key, value))
      fun k' hk' hmod => (hv1 .discard _ k' middle (by omega) (by rw [hmod]; exact hvalue)).map (entry.1, ·)
    have hboth := hhead.step (f := fun a => Decoder.times entries.length _ >>= fun as => pure (a :: as))
      ?_ fun k' hk' hmod => (ih (k := k') (forall_mem_cons.1 h).2 (by omega)
        (by rw [hmod]; exact hland)).map (entry :: ·)
    · rw [serializeEntriesCdr, ← Decoder.bind_assoc]
      exact hboth.mono (fun h => h.1.1.elim) (Nat.le_refl _)
    · rintro rfl
      exact ⟨rfl, rfl, (some.inj hland).symm, rfl⟩

theorem CodedCdr.readBounded {α : Type} {w : Ser} {r : De α} {as : List α} {len size : Nat} {hollow : Prop}
    (h : CodedCdr more e k w (Decoder.times len r) as stop hollow size) (hbound : WithinBound bound len)
    (tc : TryConstructKind) (what : String) :
    CodedCdr more e k w (readBounded len bound tc what r) as stop hollow size :=
  (h.map id).after (reads_fitBound hbound tc what)

theorem roundTripsCdr_sequence (hbound : WithinBound bound items.length)
    (hitems : ∀ v ∈ items, RoundTripsCdr e n kind v)
    (hw : (DynamicValue.sequence items).weight < 2 ^ 32) :
    RoundTripsCdr e n (.sequence kind bound) (.sequence items) := by
  intro tc more k stop hk hland
  rw [DynamicValue.weight] at hw ⊢
  have hlength := length_le_weightItems items
  have hlen :=
    (coded_length (k := k) (standard_xcdr1 e) (show items.length < 2 ^ 32 by omega)).cdr_word isWidth_four hk true
  exact (hlen.bind fun k' hk' hmod =>
    ((codedCdr_items hitems (by omega) (by rw [hmod]; exact hland)).readBounded hbound tc
    "sequence").map DynamicValue.sequence).mono (fun h => h.1) (by omega)

theorem roundTripsCdr_array {dimensions : List Nat} (hpos : ∀ d ∈ dimensions, 1 ≤ d)
    (hlen : items.length = dimensions.prod) (hitems : ∀ v ∈ items, RoundTripsCdr e n kind v)
    (hw : (DynamicValue.array items).weight < 2 ^ 32) : RoundTripsCdr e n (.array kind dimensions) (.array items) := by
  intro tc more k stop hk hland
  rw [DynamicValue.weight] at hw ⊢
  have hlength := length_le_weightItems items
  have hprod : 1 ≤ dimensions.prod := one_le_prod_of_one_le hpos
  have hnonempty : items ≠ [] := by
    rintro rfl
    rw [length_nil] at hlen
    omega
  exact (((codedCdr_items hitems hk hland).map DynamicValue.array).after
    (f := fun total => Decoder.times total (deserializeValueCdr (xcdr1 e) kind .discard) >>= fun items =>
      pure (DynamicValue.array items)) (hlen ▸ reads_checkedArrayLen hpos (by omega))).mono hnonempty (by omega)

theorem roundTripsCdr_map (hbound : WithinBound bound entries.length)
    (hentries : ∀ entry ∈ entries, RoundTripsCdr e n keyType entry.1 ∧ RoundTripsCdr e n valueType entry.2)
    (hw : (DynamicValue.map entries).weight < 2 ^ 32) :
    RoundTripsCdr e n (.map keyType valueType bound) (.map entries) := by
  intro tc more k stop hk hland
  rw [DynamicValue.weight] at hw ⊢
  have hlength := length_le_weightEntries entries
  have hlen :=
    (coded_length (k := k) (standard_xcdr1 e) (show entries.length < 2 ^ 32 by omega)).cdr_word isWidth_four hk
    true
  exact (hlen.bind fun k' hk' hmod =>
    ((codedCdr_entries hentries (by omega) (by rw [hmod]; exact hland)).readBounded hbound
    tc "map").map DynamicValue.map).mono (fun h => h.1) (by omega)

/-! ### Structs and unions -/

section Structs

variable {members : List MemberDescriptor} {values : List (String × DynamicValue)}

/-- Behind a mutable struct the sentinel may be left, if nothing is read there. -/
theorem codedCdr_struct (hok : MembersOk ext members) (hne : members ≠ [])
    (h : Fields (fun m v => RoundTripsCdr e n m.memberType v) members values)
    (hw : (DynamicData.mk ⟨name, .struct members, ext⟩ values).weight < 2 ^ 32) (hk : 4 ≤ k)
    (hland : landStruct (n + 1) more ⟨⟨name, .struct members, ext⟩, values⟩ (k % 4) = some stop) :
    CodedCdr more e k (serializeStructCdr (xcdr1 e) (n + 1) ⟨⟨name, .struct members, ext⟩, values⟩)
      (readStructCdr (xcdr1 e) ⟨name, .struct members, ext⟩ (memberReadersCdr (xcdr1 e) members))
      ⟨⟨name, .struct members, ext⟩, values⟩ stop False
      (DynamicData.mk ⟨name, .struct members, ext⟩ values).weight := by
  have hfields : Fields (fun m v => Lands e (serializeValueCdr (xcdr1 e) (serializeStructCdr (xcdr1 e) n))
      (deserializeValueCdr (xcdr1 e) m.memberType m.tryConstruct) (land (landStruct n)) m.memberType v) members
        values :=
    h.imp fun m _ _ hv => hv m.tryConstruct
  have hd : Pending ⟨⟨name, .struct members, ext⟩, values⟩ members values [] := pending_start hok.names
  rw [DynamicData.weight_struct] at hw ⊢
  rw [memberReadersCdr_eq]
  rw [landStruct] at hland
  dsimp only at hland
  by_cases hext : ext = .mutable
  · subst hext
    obtain ⟨hnodup, hids⟩ := hok.ids rfl
    obtain ⟨last, hlast, hland⟩ := bind_eq_some_iff.1 hland
    split_ifs at hland with hleft
    obtain rfl := some.inj hland
    obtain ⟨chunk, hwrites, hreads, hend, hpos, hlen⟩ := codedCdr_parameters hfields hd
      (fun m hm => findReader_of_mem hnodup hm) hids hk hlast (by omega)
    have hread : ReadsUpTo more (xcdr1 e) k (readMutableCdr (xcdr1 e)
        (members.map fun m => (m, deserializeValueCdr (xcdr1 e) m.memberType m.tryConstruct))) chunk values := by
      intro before after hbefore
      refine hreads _ more ?_ (fun hmore hzero => hleft ⟨hmore, hzero⟩) before after hbefore
      rw [length_append, length_append]
      omega
    exact ⟨chunk, ⟨hwrites, hread.bind_pure (DynamicData.mk ⟨name, .struct members, .mutable⟩)⟩, hend,
      fun h => by rw [h] at hpos; exact absurd hpos (Nat.lt_irrefl 0), by omega⟩
  · rw [if_neg hext] at hland
    have hinline := (codedCdr_members hfields hd hk hland (by omega)).map (DynamicData.mk ⟨name, .struct members, ext⟩)
    unfold serializeStructCdr readStructCdr
    dsimp only
    rw [if_neg hext, if_neg hext]
    exact hinline.mono hne (by omega)

end Structs

section Unions

variable {members : List UnionMemberDescriptor} {m : UnionMemberDescriptor} {disc : DynamicValue} {i : Int}

theorem codedCdr_union (tc : TryConstructKind) (hi : disc.discriminatorAsI64 = some i)
    (hm : selectMember members i = some m)
    (hdisc : RoundTripsCdr e n kind disc) (hv : RoundTripsCdr e n m.memberType v) (hk : 4 ≤ k)
    (hland :
      ((land (landStruct n) true disc kind (k % 4)).bind (land (landStruct n) more v m.memberType)) = some stop) :
    CodedCdr more e k
      (serializeValueCdr (xcdr1 e) (serializeStructCdr (xcdr1 e) n) disc kind >>= fun _ =>
        serializeValueCdr (xcdr1 e) (serializeStructCdr (xcdr1 e) n) v m.memberType)
      (readUnionParts (deserializeValueCdr (xcdr1 e) kind tc) (unionReadersCdr (xcdr1 e) members)) (.union disc v) stop
      False (disc.weight + v.weight) := by
  obtain ⟨middle, hmiddle, hland⟩ := bind_eq_some_iff.1 hland
  have hvalue (k' : Nat) (hk' : k ≤ k') (hmod : k' % 4 = middle) :=
    ((hv m.tryConstruct more k' stop (by omega) (by rw [hmod]; exact hland)).map (DynamicValue.union disc)).after
      (f := fun mr => mr.2 >>= fun v => pure (DynamicValue.union disc v))
      (reads_pure (m, deserializeValueCdr (xcdr1 e) m.memberType m.tryConstruct))
  have hselect :
      selectReader (members.map fun m => (m, deserializeValueCdr (xcdr1 e) m.memberType m.tryConstruct)) disc =
      pure (m, deserializeValueCdr (xcdr1 e) m.memberType m.tryConstruct) := selectReader_eq hi hm
  rw [← hselect] at hvalue
  rw [unionReadersCdr_eq]
  exact ((hdisc tc true k middle hk hmiddle).bind hvalue).mono (fun h => h.1) (Nat.le_refl _)

theorem roundTripsCdr_union {tc : TryConstructKind} (hi : disc.discriminatorAsI64 = some i)
    (hm : selectMember members i = some m)
    (hdisc : RoundTripsCdr e n kind disc) (hv : RoundTripsCdr e n m.memberType v) :
    RoundTripsCdr e n (.typeRef ⟨name, .union kind tc members, ext⟩) (.union disc v) := by
  intro tc' more k stop hk hland
  rw [land, asUnionKind] at hland
  dsimp only at hland
  rw [hi, bind_some, hm] at hland
  rw [serializeValueCdr, asUnionKind, DynamicValue.weight]
  dsimp only
  rw [selectUnionMember_eq hi hm]
  exact (codedCdr_union tc hi hm hdisc hv hk hland).mono id (by omega)

end Unions

/-! ### All values -/

mutual

def DynamicTypeKind.structsNonEmpty : DynamicTypeKind → Bool
  | .struct members => !members.isEmpty && membersNonEmpty members
  | .union discriminatorType _ members => discriminatorType.structsNonEmpty && unionMembersNonEmpty members
  | .sequence elementType _ => elementType.structsNonEmpty
  | .array elementType _ => elementType.structsNonEmpty
  | .map keyType valueType _ => keyType.structsNonEmpty && valueType.structsNonEmpty
  | .typeRef ⟨_, kind, _⟩ => kind.structsNonEmpty
  | _ => true

def membersNonEmpty : List MemberDescriptor → Bool
  | [] => true
  | ⟨_, _, kind, _, _, _, _⟩ :: members => kind.structsNonEmpty && membersNonEmpty members

def unionMembersNonEmpty : List UnionMemberDescriptor → Bool
  | [] => true
  | ⟨_, _, kind, _, _, _⟩ :: members => kind.structsNonEmpty && unionMembersNonEmpty members

end

theorem structsNonEmpty_of_mem {members : List MemberDescriptor} (h : membersNonEmpty members = true)
    {m : MemberDescriptor} (hm : m ∈ members) : m.memberType.structsNonEmpty = true :=
  of_mem_of_all_cons (p := fun m => m.memberType.structsNonEmpty) rfl (fun m _ => by cases m; rfl) h hm

theorem structsNonEmpty_of_mem_union {members : List UnionMemberDescriptor} (h : unionMembersNonEmpty members = true)
    {m : UnionMemberDescriptor} (hm : m ∈ members) : m.memberType.structsNonEmpty = true :=
  of_mem_of_all_cons (p := fun m => m.memberType.structsNonEmpty) rfl (fun m _ => by cases m; rfl) h hm

theorem Fields.and_mem {P : MemberDescriptor → DynamicValue → Prop} {members : List MemberDescriptor}
    {values : List (String × DynamicValue)} (h : Fields P members values) :
    Fields (fun m v => m ∈ members ∧ P m v) members values := by
  induction h with
  | nil => exact .nil
  | set m members v values hv hvalues ih =>
    exact .set m members v values ⟨mem_cons_self, hv⟩ (ih.imp fun m' v' _ h => ⟨mem_cons_of_mem _ h.1, h.2⟩)
  | absent m members values hm hvalues ih =>
    exact .absent m members values hm (ih.imp fun m' v' _ h => ⟨mem_cons_of_mem _ h.1, h.2⟩)

theorem roundTripsCdr_value (h : Typed kind v) (hne : kind.structsNonEmpty = true) (hn : v.depth ≤ n)
    (hw : v.weight < 2 ^ 32) : RoundTripsCdr e n kind v := by
  induction h using Typed.induct generalizing n with
  | primitive p v h => exact roundTripsCdr_primitive h
  | string bound v hbound => exact roundTripsCdr_string hbound hw
  | wstring bound v hbound => exact roundTripsCdr_wstring hbound hw
  | enum name d ext l hl hfits => exact roundTripsCdr_enum hl hfits
  | bitmask name bitBound ext v hv => exact (roundTripsCdr_packed hv).1
  | bitset name totalBits ext v hv => exact (roundTripsCdr_packed hv).2
  | sequence kind bound items hbound hitems ih =>
    refine roundTripsCdr_sequence hbound (fun v hv => ?_) hw
    obtain ⟨hn, hw⟩ := sized_item hv hn hw
    exact (ih v hv).2 hne hn hw
  | array kind dimensions items hpos hlen hitems ih =>
    refine roundTripsCdr_array hpos hlen (fun v hv => ?_) hw
    obtain ⟨hn, hw⟩ := sized_item hv hn hw
    exact (ih v hv).2 hne hn hw
  | map keyType valueType bound entries hbound hentries ih =>
    rw [structsNonEmpty, Bool.and_eq_true] at hne
    refine roundTripsCdr_map hbound (fun entry hentry => ?_) hw
    obtain ⟨hkey, hvalue⟩ := sized_entry hentry hn hw
    exact ⟨(ih entry hentry).1.2 hne.1 hkey.1 hkey.2, (ih entry hentry).2.2 hne.2 hvalue.1 hvalue.2⟩
  | struct name members ext values hok hvalues ih =>
    rw [DynamicValue.depth] at hn
    rw [structsNonEmpty, structsNonEmpty, Bool.and_eq_true, Bool.not_eq_true'] at hne
    obtain ⟨n, rfl⟩ := Nat.exists_eq_succ_of_ne_zero (show n ≠ 0 by omega)
    intro tc more k stop hk hland
    refine (codedCdr_struct hok (isEmpty_eq_false_iff.1 hne.1) (ih.and_mem.imp fun m v hmem ihv => ?_) hw hk
      hland).map DynamicValue.struct
    obtain ⟨hn, hw⟩ := sized_field hmem (Nat.le_of_succ_le_succ hn) hw
    exact ihv.2.2 (structsNonEmpty_of_mem hne.2 ihv.1) hn hw
  | union name kind tc members ext disc v i m hdisc hi hm hid hv ihdisc ihv =>
    rw [DynamicValue.depth] at hn
    rw [structsNonEmpty, structsNonEmpty, Bool.and_eq_true] at hne
    have hweight : disc.weight + v.weight < 2 ^ 32 := by rw [DynamicValue.weight] at hw; omega
    exact roundTripsCdr_union hi hm (ihdisc hne.1 (by omega) (by omega))
      (ihv (structsNonEmpty_of_mem_union hne.2 (mem_of_selectMember hm)) (by omega) (by omega))

end Values

/-! ## Data -/

theorem codedCdr_data {e : Endianness} {k stop : Nat} {more : Bool} {d : DynamicData} (h : WellFormed d)
    (hne : d.dynamicType.kind.structsNonEmpty = true) (hw : d.weight < 2 ^ 32) (hk : 4 ≤ k)
    (hland : landStruct d.depth more d (k % 4) = some stop) :
    CodedCdr more e k (serializeStructCdr (xcdr1 e) d.depth d)
      (deserializeStructCdr (xcdr1 e) d.dynamicType) d stop False
      d.weight := by
  cases h with
  | struct name members ext values hok hvalues =>
    rw [structsNonEmpty, Bool.and_eq_true, Bool.not_eq_true'] at hne
    refine codedCdr_struct hok (isEmpty_eq_false_iff.1 hne.1) (hvalues.fields.and_mem.imp fun m v hmem hv => ?_) hw hk
      hland
    obtain ⟨hn, hw⟩ := sized_field hmem (Nat.le_refl _) hw
    exact roundTripsCdr_value hv.2 (structsNonEmpty_of_mem hne.2 hv.1) hn hw
  | union name kind tc members ext disc v i m hdisc hi hm hid hv hname =>
    rw [structsNonEmpty, Bool.and_eq_true] at hne
    rw [weight_unionData] at hw ⊢
    have hdisc' := roundTripsCdr_value (e := e) hdisc hne.1 (depth_unionData disc v m).1 (by omega)
    have hv' := roundTripsCdr_value (e := e) hv (structsNonEmpty_of_mem_union hne.2 (mem_of_selectMember hm))
      (depth_unionData disc v m).2 (by omega)
    rw [DynamicData.depth, landStruct] at hland
    rw [getValue_discriminator] at hland
    dsimp only at hland
    rw [land, asUnionKind] at hland
    dsimp only at hland
    rw [hi, bind_some, hm] at hland
    dsimp only [bind_some] at hland
    rw [getValue_branch hname] at hland
    have hunion := codedCdr_union tc hi hm hdisc' hv' hk hland
    show CodedCdr more e k (unionParts _ members >>= _) (_ >>= fun value => unionValues members value >>= _) _ _ _ _
    rw [unionParts_eq hi hm hname]
    refine (hunion.before ?_).mono id (by omega)
    rw [unionValues_eq hi hm hname]
    rfl

theorem deserializeCdr_serializeCdr {e : Endianness} {d : DynamicData} (h : WellFormed d)
    (hne : d.dynamicType.kind.structsNonEmpty = true) (hw : d.weight < 2 ^ 32) (hs : d.sentinelsRead = true) :
    ∃ chunk, (serializeCdr e d).result = .ok (encapsulationHeader (cdrEncodingKind e) ++ chunk) ∧
      (deserializeCdr (encapsulationHeader (cdrEncodingKind e) ++ chunk) d.dynamicType).result = .ok d := by
  obtain ⟨stop, hland⟩ := isSome_iff_exists.1 hs
  obtain ⟨chunk, ⟨hwrites, hreads⟩, -⟩ := codedCdr_data (e := e) (k := 4) h hne hw (Nat.le_refl 4) hland
  have halike : (xcdr1 e).Alike 4 (encapsulationHeader (cdrEncodingKind e)).length := by
    exact Coding.Alike.refl (Nat.le_refl 4)
  refine ⟨chunk, ?_, ?_⟩
  · unfold serializeCdr
    rw [Outcome.result_bind_of_ok (hwrites _ halike)]
    rfl
  · obtain ⟨p, -, -, -, hread⟩ := hreads (encapsulationHeader (cdrEncodingKind e)) [] halike
    rw [append_nil] at hread
    cases e with
    | big | little => exact Outcome.result_bind_eq_ok.2 ⟨_, hread, rfl⟩

end Int2Dds.XTypes
