import Int2Dds.XTypes.ReadBack
import Int2Dds.XTypes.Xcdr2
import Mathlib.Algebra.Order.BigOperators.Group.List

/-!
# What XCDR version 2 reads back

Each value is written and read back, one lemma for a kind (`roundTrips_value`); `coded_struct` : the three forms of a
struct, in place, delimited or member by member.
-/

namespace Int2Dds.XTypes

open Lib Lib.Encoder DynamicValue List

variable {e : Endianness} {k : Nat} {chunk : Bytes} {w : Ser}

theorem standard_xcdr2 (e : Endianness) : (xcdr2 e).Standard := .inl rfl

theorem isWidth_four : IsWidth 4 := .inr (.inr (.inl rfl))

theorem alike_add_four : (xcdr2 e).Alike k (k + 4) :=
  ⟨Nat.zero_le _, Nat.zero_le _, Nat.add_mod_right k 4⟩

/-! ## Delimited objects -/

theorem endStruct_of_end (data : Bytes) (start n : Nat) :
    (endStruct n start ⟨data, start + n⟩).result = .ok ((), ⟨data, start + n⟩) := by
  show ((if start + n - start < n then skip (n - (start + n - start))
    else if n < start + n - start then _ else pure ()) (⟨data, start + n⟩ : Cursor)).result = _
  rw [Nat.add_sub_cancel_left, if_neg (Nat.lt_irrefl n), if_neg (Nat.lt_irrefl n)]
  rfl

variable {c : Coding} {id lc : Nat}

theorem reads_readDelimited {α : Type} {r : Nat → De α} {a : α} (hc : c.Standard)
    (hr : ReadsTo c (k + c.padding 4 k + 4) r chunk a) (hlen : chunk.length < 2 ^ 32) :
    Reads c k (readDelimited c r) (wordAt c k 4 chunk.length ++ chunk) a := by
  intro before after hbefore
  have hword := (codes_word (k := k) hc isWidth_four hlen).reads before (chunk ++ after) hbefore
  have hnext : c.Alike (k + c.padding 4 k + 4) (before ++ wordAt c k 4 chunk.length).length := by
    rw [length_append, length_wordAt, Nat.add_assoc]
    exact hbefore.add _
  have hinside := hr (before ++ wordAt c k 4 chunk.length) after hnext
  rw [append_assoc, length_append] at hinside
  have hbegin : (beginStruct c ⟨before ++ (wordAt c k 4 chunk.length ++ (chunk ++ after)), before.length⟩).result =
      .ok ((chunk.length, before.length + (wordAt c k 4 chunk.length).length),
        ⟨before ++ (wordAt c k 4 chunk.length ++ (chunk ++ after)),
          before.length + (wordAt c k 4 chunk.length).length⟩) := by
    unfold beginStruct
    rw [Decoder.bind_apply, Outcome.result_bind_of_ok hword]
    rfl
  unfold readDelimited
  rw [Decoder.bind_apply, append_assoc, Outcome.result_bind_of_ok hbegin]
  show ((r (before.length + (wordAt c k 4 chunk.length).length + chunk.length) >>= fun a =>
    endStruct chunk.length (before.length + (wordAt c k 4 chunk.length).length) >>= fun _ => pure a) _).result = _
  rw [Decoder.bind_apply, Outcome.result_bind_of_ok hinside, Decoder.bind_apply,
    Outcome.result_bind_of_ok (endStruct_of_end _ _ _), length_append, Nat.add_assoc]
  rfl

theorem writes_delimited_wordAt (hc : c.Standard) (hw : Writes c (k + c.padding 4 k + 4) w chunk) :
    Writes c k (delimited c w) (wordAt c k 4 chunk.length ++ chunk) := by
  refine (writes_delimited (hc.fits isWidth_four) hw).congr ?_
  rw [wordAt, append_assoc]

/-! ## Member headers -/

theorem selectLc_cases (len : Nat) :
    (selectLc len = 0 ∧ len = 1) ∨ (selectLc len = 1 ∧ len = 2) ∨ (selectLc len = 2 ∧ len = 4) ∨
      (selectLc len = 3 ∧ len = 8) ∨ selectLc len = 4 := by
  unfold selectLc
  split_ifs <;> simp_all

variable (ext : ExtensibilityKind) (must : Bool)

theorem emHeader_lt (hid : id < 2 ^ 28) (hlc : lc < 8) : emHeader id must lc < 256 ^ 4 := by
  unfold emHeader
  have := must.toNat_lt
  omega

theorem emHeader_mod (hid : id < 2 ^ 28) : emHeader id must lc % 2 ^ 28 = id := by
  unfold emHeader
  omega

theorem emHeader_lc (hid : id < 2 ^ 28) (hlc : lc < 8) : emHeader id must lc / 2 ^ 28 % 8 = lc := by
  unfold emHeader
  omega

theorem emHeader_must (hid : id < 2 ^ 28) (hlc : lc < 8) : decide (emHeader id must lc / 2 ^ 31 % 2 = 1) = must := by
  have hdiv : emHeader id must lc / 2 ^ 31 % 2 = must.toNat := by
    unfold emHeader
    have := must.toNat_lt
    omega
  rw [hdiv]
  cases must <;> rfl

def memberHeaderAt (c : Coding) (k id : Nat) (must : Bool) (len : Nat) : Bytes :=
  wordAt c k 4 (emHeader id must (selectLc len)) ++ if selectLc len = 4 then c.endianness.put 4 len else []

theorem length_memberHeaderAt (c : Coding) (k id : Nat) (must : Bool) (len : Nat) :
    (memberHeaderAt c k id must len).length = c.padding 4 k + 4 ∨
      (memberHeaderAt c k id must len).length = c.padding 4 k + 4 + 4 := by
  unfold memberHeaderAt
  rw [length_append, length_wordAt]
  split_ifs
  · exact .inr (by rw [Endianness.length_put])
  · exact .inl rfl

theorem selectLc_lt (len : Nat) : selectLc len < 8 := by
  rcases selectLc_cases len with ⟨h, -⟩ | ⟨h, -⟩ | ⟨h, -⟩ | ⟨h, -⟩ | h <;> rw [h] <;> decide

theorem reads_memberHeader (hc : c.Standard) {len : Nat} (must : Bool) (hid : id < 2 ^ 28) (hlen : len < 2 ^ 32) :
    Reads c k (readMemberHeaderFull c) (memberHeaderAt c k id must len) (id, len, must) := by
  have hlt := emHeader_lt must hid (selectLc_lt len)
  unfold memberHeaderAt wordAt
  rw [append_assoc]
  refine (reads_align (hc.fits isWidth_four)).bind ((reads_take _ (Endianness.length_put _ _ _)).bind ?_)
  dsimp only
  rw [c.endianness.get_put_of_lt hlt, emHeader_mod must hid, emHeader_lc must hid (selectLc_lt len),
    emHeader_must must hid (selectLc_lt len)]
  rcases selectLc_cases len with ⟨h, rfl⟩ | ⟨h, rfl⟩ | ⟨h, rfl⟩ | ⟨h, rfl⟩ | h
  · exact reads_pure _
  · exact reads_pure _
  · exact reads_pure _
  · exact reads_pure _
  · rw [h]
    have hnext := (reads_take (c := c) (k := k + (zeros (c.padding 4 k)).length +
      (c.endianness.put 4 (emHeader id must 4)).length) (DdsError.cdr .insufficientData)
      (c.endianness.length_put 4 len)).bind_pure fun next => (id, c.endianness.get next, must)
    rwa [c.endianness.get_put_of_lt (show len < 256 ^ 4 from hlen)] at hnext

theorem writes_asMemberError (h : Writes c k w chunk) : Writes c k (asMemberError w) chunk := by
  intro buf hbuf
  unfold asMemberError
  rw [h buf hbuf]

/-- The header is known once the member is written: it goes over the room left for it, and a NEXTINT moves the member
on by four bytes. -/
theorem writes_memberWith (hc : c.Standard) (must : Bool) (hid : id < 2 ^ 28)
    (hw : Writes c (k + c.padding 4 k + 4) w chunk) (hlen : chunk.length < 2 ^ 32) :
    Writes c k (writeMemberWith c id must w) (memberHeaderAt c k id must chunk.length ++ chunk) := by
  intro buf hbuf
  unfold writeMemberWith memberHeaderAt wordAt
  rw [if_neg (by omega)]
  refine (result_reserved (hc.fits isWidth_four) (writes_asMemberError hw) hbuf _).trans ?_
  rw [Nat.add_sub_cancel, Nat.add_sub_cancel_left, Nat.mod_eq_of_lt hlen]
  generalize hfront : buf ++ zeros (c.padding 4 k) = front
  have hover (n : Nat) (rest : Bytes) :
      overwrite (front ++ (zeros 4 ++ rest)) front.length (c.endianness.put 4 n) = front ++
        (c.endianness.put 4 n ++ rest) :=
    overwrite_append _ _ _ _ (by rw [Endianness.length_put, length_zeros])
  split_ifs with h
  · have hsplit : front.length + 4 = (front ++ zeros 4).length := by rw [length_append, length_zeros]
    have hnext : front.length + 4 = (front ++ c.endianness.put 4 (emHeader id must 4)).length := by
      rw [length_append, Endianness.length_put]
    show Result.ok ((), overwrite (overwrite (take _ _ ++ (zeros 4 ++ drop _ _)) _
      (c.endianness.put 4 (emHeader id must 4))) _ (c.endianness.put 4 _)) = _
    rw [← append_assoc front (zeros 4) chunk, hsplit, take_left, drop_left, append_assoc front, hover, ← hsplit, hnext,
      ← append_assoc, overwrite_append _ _ _ _ (by rw [Endianness.length_put, length_zeros]), h]
    simp only [← hfront, append_assoc]
  · show Result.ok ((), overwrite _ _ (c.endianness.put 4 (emHeader id must _))) = _
    rw [hover]
    simp only [← hfront, append_assoc, nil_append]

/-- Behind a member header, a member stands as where it was written. -/
theorem alike_memberHeaderAt (must : Bool) (len : Nat) :
    (xcdr2 e).Alike (k + (xcdr2 e).padding 4 k + 4) (k + (memberHeaderAt (xcdr2 e) k id must len).length) := by
  rcases length_memberHeaderAt (xcdr2 e) k id must len with h | h <;> rw [h]
  · exact Coding.Alike.refl (Nat.zero_le _)
  · exact alike_add_four

theorem length_memberHeaderAt_le (hc : c.Standard) (k id : Nat) (must : Bool) (len : Nat) :
    (memberHeaderAt c k id must len).length ≤ 12 := by
  have := Coding.padding_lt k (show 0 < 4 by decide) hc.pos
  rcases length_memberHeaderAt c k id must len with h | h <;> omega

/-! ## Coded objects -/

/-- `Coded`, for a reader that is told the end of its object. -/
def CodedTo {α : Type} (c : Coding) (k : Nat) (w : Ser) (r : Nat → De α) (a : α) (hollow : Prop) (size : Nat) : Prop :=
  ∃ chunk, (Writes c k w chunk ∧ ReadsTo c k r chunk a) ∧ (chunk = [] ↔ hollow) ∧ chunk.length ≤ size

section Coded

variable {α β : Type} {c : Coding} {v : Ser} {r : De α} {a : α} {b : β} {hollow hollow' : Prop} {size size' : Nat}

theorem Coded.to (h : Coded c k w r a hollow size) : CodedTo c k w (fun _ => r) a hollow size := by
  obtain ⟨chunk, hcodes, hrest⟩ := h
  exact ⟨chunk, ⟨hcodes.writes, hcodes.reads.to⟩, hrest⟩

theorem CodedTo.mono {r : Nat → De α} (h : CodedTo c k w r a hollow size) (hhollow : hollow ↔ hollow')
    (hsize : size ≤ size') : CodedTo c k w r a hollow' size' := by
  obtain ⟨chunk, hcodes, hnil, hlen⟩ := h
  exact ⟨chunk, hcodes, hnil.trans hhollow, hlen.trans hsize⟩

theorem Coded.bindTo {f : Nat → α → De β} (h : Coded c k w r a hollow size)
    (h' : ∀ k', CodedTo c k' v (fun stop => f stop a) b hollow' size') :
    CodedTo c k (w >>= fun _ => v) (fun stop => r >>= f stop) b (hollow ∧ hollow') (size + size') := by
  obtain ⟨chunk, hcodes, hnil, hlen⟩ := h
  obtain ⟨rest, ⟨hwrites, hreads⟩, hnil', hlen'⟩ := h' (k + chunk.length)
  refine ⟨chunk ++ rest, ⟨hcodes.writes.bind hwrites, hcodes.reads.bindTo hreads⟩, ?_, ?_⟩
  · rw [append_eq_nil_iff, hnil, hnil']
  · rw [length_append]
    omega

theorem CodedTo.of_current {f : Nat → Nat → De α} {g : Nat → De α} (h : CodedTo c k w g a hollow size)
    (hhollow : ¬ hollow) (hf : ∀ stop p, p < stop → f stop p = g stop) :
    CodedTo c k w (fun stop => Cursor.current >>= f stop) a hollow size := by
  obtain ⟨chunk, ⟨hwrites, hreads⟩, hnil, hlen⟩ := h
  have hpos : 0 < chunk.length := length_pos_iff.2 (fun h => hhollow (hnil.1 h))
  exact ⟨chunk, ⟨hwrites, hreads.of_current fun p => hf _ p (by omega)⟩, hnil, hlen⟩

theorem coded_delimited {r : Nat → De α} (hc : c.Standard) (h : ∀ k, CodedTo c k w r a hollow size)
    (hsize : size < 2 ^ 32) : Coded c k (delimited c w) (readDelimited c r) a False (size + 8) := by
  obtain ⟨chunk, ⟨hwrites, hreads⟩, -, hlen⟩ := h (k + c.padding 4 k + 4)
  have hlt := length_wordAt_lt hc k chunk.length (show 0 < 4 by decide)
  refine coded_of_wordAt ⟨writes_delimited_wordAt hc hwrites, reads_readDelimited hc hreads (by omega)⟩ (by decide) ?_
  rw [length_append]
  omega

theorem coded_framed {framed : Bool} (hc : c.Standard) (h : ∀ k', Coded c k' w r a hollow size)
    (hsize : size < 2 ^ 32) :
    Coded c k (writeCollectionFramed c framed w) (readCollectionDheader c framed >>= fun _ => r) a
      (framed = false ∧ hollow) (size + 8) := by
  cases framed with
  | false =>
    have hcoded : Coded c k w r a (false = false ∧ hollow) (size + 8) := (h k).mono (by simp) (Nat.le_add_right _ _)
    exact hcoded.after (reads_pure ())
  | true =>
    obtain ⟨chunk, hcodes, -, hlen⟩ := h (k + c.padding 4 k + 4)
    have hlt := length_wordAt_lt hc k chunk.length (show 0 < 4 by decide)
    have hheader := (codes_word (k := k) hc isWidth_four (show chunk.length < 256 ^ 4 by omega)).reads.bind_pure
      (fun _ => ())
    have hcoded : Coded c k (writeCollectionFramed c true w) (readCollectionDheader c true >>= fun _ => r) a False
        (size + 8) := by
      refine coded_of_wordAt ⟨writes_delimited_wordAt hc hcodes.writes, hheader.bind ?_⟩ (by decide) ?_
      · rw [length_wordAt]
        exact hcodes.reads
      · rw [length_append]
        omega
    exact hcoded.mono (by simp) (Nat.le_refl _)

end Coded

/-! ## Collections -/

theorem serializeItemsXcdr2_eq (nested : DynamicData → Ser) (items : List DynamicValue) (kind : DynamicTypeKind) :
    serializeItemsXcdr2 c nested items kind = each (fun v => serializeValueXcdr2 c nested v kind) items := by
  induction items with
  | nil => rw [serializeItemsXcdr2, each]
  | cons v items ih => rw [serializeItemsXcdr2, each, ih]

theorem serializeEntriesXcdr2_eq (nested : DynamicData → Ser) (entries : List (DynamicValue × DynamicValue))
    (keyType valueType : DynamicTypeKind) :
    serializeEntriesXcdr2 c nested entries keyType valueType =
      each (fun entry => do
        serializeValueXcdr2 c nested entry.1 keyType
        serializeValueXcdr2 c nested entry.2 valueType) entries := by
  induction entries with
  | nil => rw [serializeEntriesXcdr2, each]
  | cons entry entries ih =>
    rw [serializeEntriesXcdr2, each, ih, Decoder.bind_assoc]

variable {dimensions : List Nat}

theorem foldlM_checked (hpos : ∀ n ∈ dimensions, 1 ≤ n) (acc : Nat)
    (hlt : acc * dimensions.prod < 2 ^ 32) :
    dimensions.foldlM (fun acc d => if acc * d < 2 ^ 32 then some (acc * d) else none) acc =
      some (acc * dimensions.prod) := by
  induction dimensions generalizing acc with
  | nil => rw [prod_nil, Nat.mul_one]; rfl
  | cons d dimensions ih =>
    have hprod : 1 ≤ dimensions.prod := one_le_prod_of_one_le (forall_mem_cons.1 hpos).2
    rw [prod_cons, ← Nat.mul_assoc] at hlt ⊢
    have hfirst : acc * d < 2 ^ 32 := Nat.lt_of_le_of_lt (Nat.le_mul_of_pos_right _ hprod) hlt
    rw [foldlM_cons, if_pos hfirst]
    exact ih (forall_mem_cons.1 hpos).2 (acc * d) hlt

theorem reads_checkedArrayLen (hpos : ∀ n ∈ dimensions, 1 ≤ n)
    (hlt : dimensions.prod < 2 ^ 32) : Reads c k (checkedArrayLen dimensions : De Nat) [] dimensions.prod := by
  unfold checkedArrayLen
  rw [foldlM_checked hpos 1 (by rwa [Nat.one_mul]), Nat.one_mul]
  exact reads_pure _

/-! ## Members -/

section Members

variable {c : Coding} {value : DynamicValue → DynamicTypeKind → Ser} {read : MemberDescriptor → De DynamicValue}
  {d : DynamicData} {m : MemberDescriptor} {members : List MemberDescriptor} {v a : DynamicValue}
  {values acc : List (String × DynamicValue)} {hollow : Prop} {size : Nat}

theorem coded_memberWith {α : Type} {r : De α} {a : α} (must : Bool) (hid : id < 2 ^ 28)
    (h : ∀ k, Coded (xcdr2 e) k w r a hollow size) (hsize : size < 2 ^ 32) :
    ∃ head inner, Writes (xcdr2 e) k (writeMemberWith (xcdr2 e) id must w) (head ++ inner) ∧
      Reads (xcdr2 e) k (readMemberHeaderFull (xcdr2 e)) head (id, inner.length, must) ∧
      Reads (xcdr2 e) (k + head.length) r inner a ∧ (0 < head.length ∧ head.length ≤ 12) ∧ inner.length ≤ size := by
  obtain ⟨inner, hcodes, -, hlen⟩ := h (k + (xcdr2 e).padding 4 k + 4)
  have hinner := hlen.trans_lt hsize
  have hle := length_memberHeaderAt_le (standard_xcdr2 e) k id must inner.length
  have hpos := length_memberHeaderAt (xcdr2 e) k id must inner.length
  exact ⟨_, inner, writes_memberWith (standard_xcdr2 e) must hid hcodes.writes hinner,
    reads_memberHeader (standard_xcdr2 e) must hid hinner,
    hcodes.reads.alike (alike_memberHeaderAt must inner.length), ⟨by omega, hle⟩, hlen⟩

theorem memberValueOrDefault_of_some (h : d.getValue m.name = some v) : memberValueOrDefault d m = some v := by
  unfold memberValueOrDefault
  rw [h]

theorem memberValueOrDefault_of_absent (hget : d.getValue m.name = none) (hm : m.isOptional = true) :
    memberValueOrDefault d m = none := by
  unfold memberValueOrDefault
  rw [hget, hm]
  rfl

theorem coded_memberInline_set (hc : c.Standard) (hget : d.getValue m.name = some v)
    (hv : ∀ k, Coded c k (value v m.memberType) (read m) a hollow size) :
    Coded c k (serializeMemberInline c value d m) (deserializeMemberInline c m (read m)) (some a)
      (m.isOptional = false ∧ hollow) (size + 2) := by
  unfold serializeMemberInline deserializeMemberInline
  cases hopt : m.isOptional with
  | true =>
    rw [hget]
    have hvalue := (coded_bool (k := k) hc true).bind (f := fun present => if present then do
        let v ← read m
        pure (some v)
      else pure none) fun k' _ => (hv k').map some
    exact hvalue.mono (by simp) (by omega)
  | false =>
    rw [memberValueOrDefault_of_some hget]
    exact ((hv k).map some).mono (by simp) (by omega)

theorem coded_memberInline_absent (hc : c.Standard) (hget : d.getValue m.name = none) (hopt : m.isOptional = true) :
    Coded c k (serializeMemberInline c value d m) (deserializeMemberInline c m (read m)) none False 2 := by
  unfold serializeMemberInline deserializeMemberInline
  rw [if_pos hopt, if_pos hopt, hget]
  obtain ⟨chunk, hcodes, hnil, hlen⟩ := coded_bool (k := k) hc false
  refine ⟨chunk, ⟨hcodes.writes, ?_⟩, hnil, hlen⟩
  rw [← append_nil chunk]
  exact hcodes.reads.bind (reads_pure none)

/-- The fields of a struct whose values are read back by `read`. -/
def CodedFields (c : Coding) (value : DynamicValue → DynamicTypeKind → Ser) (read : MemberDescriptor → De DynamicValue)
    (back : DynamicValue → DynamicValue) : List MemberDescriptor → List (String × DynamicValue) → Prop :=
  Fields fun m v => ∀ k, Coded c k (value v m.memberType) (read m) (back v) (m.memberType.hollow = true) v.weight

variable {back : DynamicValue → DynamicValue}

theorem deserializeStructMembersXcdr2_none (read : De DynamicValue)
    (readers : List (MemberDescriptor × De DynamicValue)) (acc : List (String × DynamicValue)) :
    deserializeStructMembersXcdr2 c none ((m, read) :: readers) acc =
      deserializeMemberInline c m read >>= fun v =>
        deserializeStructMembersXcdr2 c none readers (v.elim acc (insertValue acc m.name)) := rfl

theorem coded_inline (hc : c.Standard) (h : CodedFields c value read back members values)
    (hd : Pending d members values acc) :
    Coded c k (serializeMembersXcdr2Inline c value d members)
      (deserializeStructMembersXcdr2 c none (members.map fun m => (m, read m)) acc)
      (acc ++ values.map fun f => (f.1, back f.2)) (hollowMembers members = true)
      (2 * members.length + weightFields values) := by
  induction h generalizing acc k with
  | nil =>
    simp only [map_nil, append_nil]
    exact (coded_pure acc).mono (iff_of_true trivial rfl) (Nat.zero_le _)
  | set m members v values hv hvalues ih =>
    have hmember := coded_memberInline_set (k := k) hc hd.get_set hv
    rw [map_cons, map_cons, ← hd.insert_append, deserializeStructMembersXcdr2_none, hollowMembers_cons,
      MemberDescriptor.hollow, weightFields, length_cons]
    refine (hmember.bind fun k' _ => ih (k := k') (hd.set (back v))).mono ?_ (by omega)
    simp only [Bool.and_eq_true, Bool.not_eq_true']
  | absent m members values hm hvalues ih =>
    have hmember : Coded c k (serializeMemberInline c value d m) (deserializeMemberInline c m (read m)) none False 2 :=
      coded_memberInline_absent hc (hd.get_absent hvalues) hm
    rw [map_cons, deserializeStructMembersXcdr2_none, hollowMembers_cons, MemberDescriptor.hollow, hm,
      length_cons]
    refine (hmember.bind fun k' _ => ih (k := k') hd.absent).mono ?_ (by omega)
    simp

/-- Behind the end of the object, members take their defaults. -/
theorem readsTo_defaults (hhollow : hollowMembers members = true) (hnames : (members.map fun m => m.name).Nodup)
    (hacc : ∀ m ∈ members, m.name ∉ acc.map Prod.fst) :
    ReadsTo c k (fun stop => deserializeStructMembersXcdr2 c (some stop) (members.map fun m => (m, read m)) acc) []
      (acc ++ members.map fun m => (m.name, .null)) := by
  induction members generalizing acc with
  | nil =>
    simp only [map_nil, append_nil]
    exact (reads_pure acc).to
  | cons m members ih =>
    rw [hollowMembers_cons, MemberDescriptor.hollow, Bool.and_eq_true, Bool.and_eq_true, Bool.not_eq_true'] at hhollow
    obtain ⟨⟨hopt, hkind⟩, hrest⟩ := hhollow
    have hvalues : (if m.isOptional then acc else insertValue acc m.name (.defaultForKind m.memberType)) =
        insertValue acc m.name .null := by
      rw [if_neg (by rw [hopt]; exact Bool.false_ne_true), defaultForKind_of_hollow hkind]
    have htail := ih hrest (nodup_cons.1 hnames).2 (fresh_insert hnames hacc .null)
    rw [insertValue_append (hacc m mem_cons_self)] at htail
    refine htail.of_current fun p => ?_
    rw [if_pos (by simp), hvalues]

/-- In an object of a known end, everything is read but the hollow members at its end. -/
theorem codedTo_inline (hc : c.Standard) (h : CodedFields c value read back members values)
    (hd : Pending d members values acc) :
    CodedTo c k (serializeMembersXcdr2Inline c value d members)
      (fun stop => deserializeStructMembersXcdr2 c (some stop) (members.map fun m => (m, read m)) acc)
      (acc ++ cutTail members (values.map fun f => (f.1, back f.2))) (hollowMembers members = true)
      (2 * members.length + weightFields values) := by
  induction h generalizing acc k with
  | nil =>
    simp only [map_nil, cutTail, append_nil]
    exact ((coded_pure acc).mono (iff_of_true trivial rfl) (Nat.zero_le _)).to
  | set m members v values hv hvalues ih =>
    have hall : CodedFields c value read back (m :: members) ((m.name, v) :: values) :=
      .set m members v values hv hvalues
    by_cases hhollow : hollowMembers (m :: members) = true
    · -- nothing is written, so the object ends here
      obtain ⟨chunk, hcodes, hnil, hlen⟩ := coded_inline (k := k) hc hall hd
      have hchunk : chunk = [] := hnil.2 hhollow
      subst hchunk
      rw [cutTail, if_pos hhollow]
      exact ⟨[], ⟨hcodes.writes, readsTo_defaults hhollow hd.names hd.fresh⟩, hnil, hlen⟩
    · have hmember := coded_memberInline_set (k := k) hc hd.get_set hv
      have hboth := hmember.bindTo (f := fun stop v => deserializeStructMembersXcdr2 c (some stop)
        (members.map fun m => (m, read m)) (v.elim acc (insertValue acc m.name)))
        fun k' => ih (k := k') (hd.set (back v))
      simp only [map_cons]
      rw [cutTail_set hhollow, ← hd.insert_append, weightFields, length_cons]
      refine (hboth.mono ?_ (by omega)).of_current hhollow fun stop p hp => ?_
      · rw [hollowMembers_cons, MemberDescriptor.hollow]
        simp only [Bool.and_eq_true, Bool.not_eq_true']
      · rw [if_neg (by simpa using hp)]
  | absent m members values hm hvalues ih =>
    have hmember : Coded c k (serializeMemberInline c value d m) (deserializeMemberInline c m (read m)) none False 2 :=
      coded_memberInline_absent hc (hd.get_absent hvalues) hm
    have hhollow : ¬ hollowMembers (m :: members) = true := not_hollowMembers_of_optional hm
    have hname : m.name ∉ (values.map fun f => (f.1, back f.2)).map Prod.fst := by
      rw [map_map]
      exact hd.name_notMem hvalues
    have hboth := hmember.bindTo (f := fun stop v => deserializeStructMembersXcdr2 c (some stop)
      (members.map fun m => (m, read m)) (v.elim acc (insertValue acc m.name))) fun k' => ih (k := k') hd.absent
    rw [cutTail_absent hhollow hname, length_cons]
    refine (hboth.mono (iff_of_false (fun h => h.1) hhollow) (by omega)).of_current hhollow fun stop p hp => ?_
    rw [if_neg (by simpa using hp)]

theorem getMemberById_of_mem (hids : (members.map fun m => m.memberId).Nodup) (hm : m ∈ members) :
    getMemberById members m.memberId = some m := by
  unfold getMemberById
  cases hfind : members.reverse.find? fun m' => m'.memberId = m.memberId with
  | none => exact absurd (find?_eq_none.1 hfind m (mem_reverse.2 hm)) (by simp)
  | some m' =>
    have hmem := mem_reverse.1 (mem_of_find?_eq_some hfind)
    have hid := find?_some hfind
    rw [inj_on_of_nodup_map hids hmem hm (of_decide_eq_true hid)]

theorem findReader_of_mem (hids : (members.map fun m => m.memberId).Nodup) (hm : m ∈ members) :
    findReader (members.map fun m => (m, read m)) m.memberId = some (m, read m) := by
  have hfind := getMemberById_of_mem hids hm
  unfold findReader
  rw [← map_reverse, find?_map]
  exact Option.map_eq_some_iff.2 ⟨m, hfind, rfl⟩

/-- Each turn of the reader's loop takes one member, in the order they were written. -/
theorem coded_mutable {readers : List (MemberDescriptor × De DynamicValue)}
    (h : CodedFields (xcdr2 e) value read back members values) (hd : Pending d members values acc)
    (hreaders : ∀ m ∈ members, findReader readers m.memberId = some (m, read m))
    (hids : ∀ m ∈ members, m.memberId < 2 ^ 28) (hsize : 12 * members.length + weightFields values < 2 ^ 32) :
    ∃ chunk, Writes (xcdr2 e) k (serializeMembersXcdr2Mutable (xcdr2 e) value d members) chunk ∧
      (∀ fuel, chunk.length < fuel → ReadsTo (xcdr2 e) k
        (fun stop => deserializeMutableMembersXcdr2 (xcdr2 e) readers stop fuel acc) chunk
        (acc ++ values.map fun f => (f.1, back f.2))) ∧
      (chunk = [] ↔ values = []) ∧ chunk.length ≤ 12 * members.length + weightFields values := by
  induction h generalizing acc k with
  | nil =>
    refine ⟨[], writes_pure, fun fuel hfuel => ?_, iff_of_true rfl rfl, Nat.zero_le _⟩
    obtain ⟨fuel, rfl⟩ := Nat.exists_eq_succ_of_ne_zero (Nat.ne_of_gt hfuel)
    simp only [map_nil, append_nil]
    refine (reads_pure acc).to.of_current fun p => ?_
    rw [if_neg (by simp)]
  | set m members v values hv hvalues ih =>
    rw [weightFields, length_cons] at hsize
    obtain ⟨head, inner, hwrite, hheader, hread, hhead, hlen⟩ :=
      coded_memberWith (k := k) m.isMustUnderstand (hids m mem_cons_self) hv (by omega)
    obtain ⟨rest, hwrites, hreads, -, hrest⟩ := ih (k := k + (head ++ inner).length) (hd.set (back v))
      (forall_mem_cons.1 hreaders).2 (forall_mem_cons.1 hids).2
      (by omega)
    refine ⟨head ++ inner ++ rest, ?_, fun fuel hfuel => ?_, iff_of_false (fun hnil => ?_) (cons_ne_nil _ _), ?_⟩
    · rw [serializeMembersXcdr2Mutable, memberValueOrDefault_of_some hd.get_set]
      exact hwrite.bind hwrites
    · obtain ⟨fuel, rfl⟩ := Nat.exists_eq_succ_of_ne_zero (show fuel ≠ 0 by omega)
      have hmember : Reads (xcdr2 e) k (deserializeMutableMemberXcdr2 (xcdr2 e) readers acc) (head ++ inner)
          (insertValue acc m.name (back v)) := by
        refine hheader.bind ?_
        dsimp only
        rw [hreaders m mem_cons_self]
        exact hread.bind_pure (insertValue acc m.name)
      rw [length_append, length_append] at hfuel
      have hturn := hmember.bindTo (f := fun stop values => deserializeMutableMembersXcdr2 (xcdr2 e) readers stop fuel
        values) (hreads fuel (by omega))
      rw [hd.insert_append] at hturn
      refine hturn.of_current fun p => ?_
      rw [if_pos (by rw [length_append, length_append]; omega)]
    · have hlen := congrArg length hnil
      rw [length_append, length_append, length_nil] at hlen
      omega
    · rw [length_append, length_append, weightFields, length_cons]
      omega
  | absent m members values hm hvalues ih =>
    rw [length_cons] at hsize
    obtain ⟨rest, hwrites, hreads, hnil, hrest⟩ := ih (k := k) hd.absent
      (forall_mem_cons.1 hreaders).2 (forall_mem_cons.1 hids).2
      (by omega)
    refine ⟨rest, ?_, hreads, hnil, by rw [length_cons]; omega⟩
    rw [serializeMembersXcdr2Mutable, memberValueOrDefault_of_absent (hd.get_absent hvalues) hm]
    exact writes_pure.bind hwrites

end Members

/-! ## Unions -/

section Unions

variable {members : List UnionMemberDescriptor} {m : UnionMemberDescriptor} {discriminator : DynamicValue} {i : Int}

theorem selectUnionMember_eq {σ : Type} (hi : discriminator.discriminatorAsI64 = some i)
    (hm : selectMember members i = some m) :
    (selectUnionMember members discriminator : Decoder σ DdsError _) = pure m := by
  unfold selectUnionMember
  rw [hi]
  dsimp only
  rw [hm]

theorem selectReader_eq {read : UnionMemberDescriptor → De DynamicValue}
    (hi : discriminator.discriminatorAsI64 = some i) (hm : selectMember members i = some m) :
    selectReader (members.map fun m => (m, read m)) discriminator = pure (m, read m) := by
  have hfind : ((members.map fun m => (m, read m)).find? fun r => r.1.labels.any fun l => l.toInt = i).or
      ((members.map fun m => (m, read m)).find? fun r => r.1.isDefault) = some (m, read m) := by
    rw [find?_map, find?_map, ← Option.map_or]
    exact Option.map_eq_some_iff.2 ⟨m, hm, rfl⟩
  unfold selectReader
  rw [hi]
  dsimp only
  rw [hfind]

variable {read : UnionMemberDescriptor → De DynamicValue} {readDiscriminator : De DynamicValue}
  {wd wv : Ser} {disc v : DynamicValue} {hollow hollow' : Prop} {size size' : Nat}

/-- The discriminator is read first and selects the branch that was written. -/
theorem coded_unionParts {c : Coding} (hi : disc.discriminatorAsI64 = some i) (hm : selectMember members i = some m)
    (hdisc : ∀ k, Coded c k wd readDiscriminator disc hollow size)
    (hvalue : ∀ k, Coded c k wv (read m) v hollow' size') :
    Coded c k (wd >>= fun _ => wv) (readUnionParts readDiscriminator (members.map fun m => (m, read m)))
      (.union disc v) (hollow ∧ hollow') (size + size') := by
  refine (hdisc k).bind fun k' _ => ?_
  rw [selectReader_eq hi hm]
  exact ((hvalue k').map (DynamicValue.union disc)).after (reads_pure (m, read m))

theorem coded_unionMembers (hi : disc.discriminatorAsI64 = some i) (hm : selectMember members i = some m)
    (hid : m.memberId < 2 ^ 28) (hdisc : ∀ k, Coded (xcdr2 e) k wd readDiscriminator disc hollow size)
    (hvalue : ∀ k, Coded (xcdr2 e) k wv (read m) v hollow' size') (hsize : size + size' + 24 < 2 ^ 32) :
    Coded (xcdr2 e) k (writeMemberWith (xcdr2 e) 0 false wd >>= fun _ => writeMemberWith (xcdr2 e) m.memberId false wv)
      (readUnionMembers (xcdr2 e) readDiscriminator (members.map fun m => (m, read m))) (.union disc v) False
      (size + size' + 24) := by
  obtain ⟨head, chunk, hwrite, hheader, hread, hhead, hlen⟩ :=
    coded_memberWith (k := k) false (show 0 < 2 ^ 28 by decide) hdisc (by omega)
  obtain ⟨head', rest, hwrite', hheader', hread', hhead', hlen'⟩ :=
    coded_memberWith (k := k + (head ++ chunk).length) false hid hvalue (by omega)
  refine ⟨head ++ (chunk ++ (head' ++ rest)), ⟨?_, ?_⟩, iff_of_false (fun hnil => ?_) not_false, ?_⟩
  · rw [← append_assoc]
    exact hwrite.bind hwrite'
  · refine hheader.bind ?_
    refine hread.bind ?_
    rw [selectReader_eq hi hm, Nat.add_assoc, ← length_append]
    exact (reads_pure (m, read m)).bind_nil (hheader'.bind (hread'.bind_pure (DynamicValue.union disc)))
  · have hlen := congrArg length hnil
    rw [length_append, length_nil] at hlen
    omega
  · rw [length_append, length_append, length_append]
    omega

theorem coded_union {ext : ExtensibilityKind} (hi : disc.discriminatorAsI64 = some i)
    (hm : selectMember members i = some m) (hid : ext = .mutable → m.memberId < 2 ^ 28)
    (hdisc : ∀ k, Coded (xcdr2 e) k wd readDiscriminator disc False size)
    (hvalue : ∀ k, Coded (xcdr2 e) k wv (read m) v hollow' size') (hsize : size + size' + 24 < 2 ^ 32) :
    Coded (xcdr2 e) k (writeUnion (xcdr2 e) ext m wd wv)
      (readUnionXcdr2 (xcdr2 e) ext readDiscriminator (members.map fun m => (m, read m))) (.union disc v) False
      (size + size' + 32) := by
  have hparts (k : Nat) := (coded_unionParts (k := k) hi hm hdisc hvalue).mono (iff_of_false (fun h => h.1) not_false)
    (Nat.le_refl (size + size'))
  cases ext with
  | final => exact (hparts k).mono Iff.rfl (by omega)
  | appendable => exact (coded_delimited (standard_xcdr2 e) (fun k => (hparts k).to) (by omega)).mono Iff.rfl (by omega)
  | mutable =>
    exact coded_delimited (standard_xcdr2 e) (fun k => (coded_unionMembers hi hm (hid rfl) hdisc hvalue hsize).to) hsize

end Unions

/-! ## Values -/

/-- What is written for `v` is read back as `v.readBack`. -/
def RoundTrips (e : Endianness) (n : Nat) (kind : DynamicTypeKind) (v : DynamicValue) : Prop :=
  ∀ tc k, Coded (xcdr2 e) k (serializeValueXcdr2 (xcdr2 e) (serializeStructXcdr (xcdr2 e) n) v kind)
    (deserializeValueXcdr2 (xcdr2 e) kind tc) v.readBack (kind.hollow = true) v.weight

theorem memberReadersXcdr2_eq (members : List MemberDescriptor) :
    memberReadersXcdr2 c members = members.map fun m => (m, deserializeValueXcdr2 c m.memberType m.tryConstruct) :=
  eq_map_of_cons rfl (fun m _ => by cases m; rfl) members

theorem unionReadersXcdr2_eq (members : List UnionMemberDescriptor) :
    unionReadersXcdr2 c members = members.map fun m => (m, deserializeValueXcdr2 c m.memberType m.tryConstruct) :=
  eq_map_of_cons rfl (fun m _ => by cases m; rfl) members

section Values

variable {n : Nat} {name : String} {members : List MemberDescriptor} {ext : ExtensibilityKind}
  {values : List (String × DynamicValue)}

theorem coded_struct (hok : MembersOk ext members)
    (h : Fields (fun m v => RoundTrips e n m.memberType v) members values)
    (hweight : (DynamicData.mk ⟨name, .struct members, ext⟩ values).weight < 2 ^ 32) :
    Coded (xcdr2 e) k (serializeStructXcdr (xcdr2 e) (n + 1) ⟨⟨name, .struct members, ext⟩, values⟩)
      (readStructXcdr (xcdr2 e) ⟨name, .struct members, ext⟩ (memberReadersXcdr2 (xcdr2 e) members))
      (DynamicData.mk ⟨name, .struct members, ext⟩ values).readBack
      (DynamicTypeKind.hollow (.typeRef ⟨name, .struct members, ext⟩) = true)
      (DynamicData.mk ⟨name, .struct members, ext⟩ values).weight := by
  have hfields : CodedFields (xcdr2 e) (serializeValueXcdr2 (xcdr2 e) (serializeStructXcdr (xcdr2 e) n))
      (fun m => deserializeValueXcdr2 (xcdr2 e) m.memberType m.tryConstruct) DynamicValue.readBack members values :=
    h.imp fun m _ _ hv => hv m.tryConstruct
  have hd : Pending ⟨⟨name, .struct members, ext⟩, values⟩ members values [] := pending_start hok.names
  rw [DynamicData.weight_struct] at hweight ⊢
  rw [memberReadersXcdr2_eq]
  cases ext with
  | final =>
    have hinline := coded_inline (k := k) (standard_xcdr2 e) hfields hd
    rw [← readBackFields_eq] at hinline
    exact (hinline.map (DynamicData.mk ⟨name, .struct members, .final⟩)).mono (by rw [DynamicTypeKind.hollow])
      (by omega)
  | appendable =>
    have hinline (k : Nat) := codedTo_inline (k := k) (standard_xcdr2 e) hfields hd
    simp only [← readBackFields_eq] at hinline
    exact ((coded_delimited (standard_xcdr2 e) hinline (by omega)).map
      (DynamicData.mk ⟨name, .struct members, .appendable⟩)).mono (by simp [DynamicTypeKind.hollow]) (by omega)
  | mutable =>
    obtain ⟨hnodup, hids⟩ := hok.ids rfl
    have hinside (k : Nat) : CodedTo (xcdr2 e) k
        (serializeMembersXcdr2Mutable (xcdr2 e) (serializeValueXcdr2 (xcdr2 e) (serializeStructXcdr (xcdr2 e) n))
          ⟨⟨name, .struct members, .mutable⟩, values⟩ members)
        (fun stop => deserializeMutableMembersXcdr2 (xcdr2 e)
          (members.map fun m => (m, deserializeValueXcdr2 (xcdr2 e) m.memberType m.tryConstruct)) stop (stop + 1) [])
        (readBackFields values) (values = []) (12 * members.length + weightFields values) := by
      obtain ⟨chunk, hwrites, hreads, hrest⟩ := coded_mutable (k := k) hfields hd
        (fun m hm => findReader_of_mem hnodup hm) hids (by omega)
      rw [readBackFields_eq]
      exact ⟨chunk, ⟨hwrites, fun before after hbefore => hreads _ (by omega) before after hbefore⟩, hrest⟩
    exact ((coded_delimited (standard_xcdr2 e) hinside (by omega)).map
      (DynamicData.mk ⟨name, .struct members, .mutable⟩)).mono (by simp [DynamicTypeKind.hollow]) (by omega)

variable {kind keyType valueType : DynamicTypeKind} {v : DynamicValue} {items : List DynamicValue}
  {entries : List (DynamicValue × DynamicValue)} {bound : Option Nat}

theorem roundTrips_primitive {p : PrimitiveKind} (h : Typed (.primitive p) v) : RoundTrips e n (.primitive p) v := by
  intro tc k
  have hcoded := coded_primitive (k := k) (standard_xcdr2 e) (serializeStructXcdr (xcdr2 e) n) h
  have hback : v.readBack = v := by cases h <;> rfl
  have hser : serializeValueXcdr2 (xcdr2 e) (serializeStructXcdr (xcdr2 e) n) v (.primitive p) =
      serializeAtomicValue (xcdr2 e) (serializeStructXcdr (xcdr2 e) n) v (.primitive p) := by cases h <;> rfl
  rw [hback, hser]
  exact hcoded.mono (by simp [DynamicTypeKind.hollow]) (Nat.le_refl _)

theorem roundTrips_string {v : String} (hbound : WithinBound bound v.length)
    (hw : (DynamicValue.string v).weight < 2 ^ 32) :
    RoundTrips e n (.string bound) (.string v) := by
  intro tc k
  have hweight : (DynamicValue.string v).weight = (utf8 v).length + 32 := by rw [DynamicValue.weight]
  have hcoded := coded_atomicString (k := k) (standard_xcdr2 e) hbound (show (utf8 v).length + 1 < 2 ^ 32 by omega) tc
  exact hcoded.mono (by simp [DynamicTypeKind.hollow]) (by omega)

theorem roundTrips_wstring {v : String} (hbound : WithinBound bound (utf16 v.toList).length)
    (hw : (DynamicValue.wstring v).weight < 2 ^ 32) : RoundTrips e n (.wstring bound) (.wstring v) := by
  intro tc k
  have hweight : (DynamicValue.wstring v).weight = (utf16 v.toList).length * 2 + 32 := by rw [DynamicValue.weight]
  have hcoded := coded_atomicWstring (k := k) (standard_xcdr2 e) (Nat.zero_le k) hbound
    (show (utf16 v.toList).length * 2 < 2 ^ 32 by omega) tc
  exact hcoded.mono (by simp [DynamicTypeKind.hollow]) (by omega)

theorem roundTrips_sequence (hbound : WithinBound bound items.length) (hitems : ∀ v ∈ items, RoundTrips e n kind v)
    (hw : (DynamicValue.sequence items).weight < 2 ^ 32) : RoundTrips e n (.sequence kind bound) (.sequence items) := by
  intro tc k
  rw [DynamicValue.weight] at hw ⊢
  have hlength := length_le_weightItems items
  have hinside (k' : Nat) := (coded_length (k := k') (standard_xcdr2 e) (show items.length < 2 ^ 32 by omega)).bind
    (f := fun len => readBounded len bound tc "sequence" (deserializeValueXcdr2 (xcdr2 e) kind .discard) >>=
      fun items =>
      pure (DynamicValue.sequence items))
    fun k' _ => (coded_readBounded (coded_each (fun v hv k _ => hitems v hv .discard k) (Nat.zero_le k')) hbound tc
      "sequence").map DynamicValue.sequence
  rw [← weightItems_eq, ← serializeItemsXcdr2_eq, ← readBackItems_eq] at hinside
  exact (coded_framed (standard_xcdr2 e) hinside (by omega)).mono (by simp [DynamicTypeKind.hollow]) (by omega)

theorem roundTrips_array (hpos : ∀ d ∈ dimensions, 1 ≤ d) (hlen : items.length = dimensions.prod)
    (hitems : ∀ v ∈ items, RoundTrips e n kind v) (hw : (DynamicValue.array items).weight < 2 ^ 32) :
    RoundTrips e n (.array kind dimensions) (.array items) := by
  intro tc k
  rw [DynamicValue.weight] at hw ⊢
  have hlength := length_le_weightItems items
  have hprod : 1 ≤ dimensions.prod := one_le_prod_of_one_le hpos
  have hinside (k' : Nat) := ((coded_each (k := k') (fun v hv k _ => hitems v hv .discard k) (Nat.zero_le k')).map
    DynamicValue.array).after (f := fun total => Decoder.times total (deserializeValueXcdr2 (xcdr2 e) kind .discard) >>=
      fun items => pure (DynamicValue.array items)) (hlen ▸ reads_checkedArrayLen hpos (by omega))
  rw [← weightItems_eq, ← serializeItemsXcdr2_eq, ← readBackItems_eq] at hinside
  refine (coded_framed (standard_xcdr2 e) hinside (by omega)).mono (iff_of_false ?_ Bool.false_ne_true) (by omega)
  rintro ⟨hprimitive, hhollow⟩
  obtain ⟨v, hv⟩ := exists_mem_of_length_pos (show 0 < items.length by omega)
  exact Bool.false_ne_true ((hollow_of_isPrimitiveKind (by simpa using hprimitive)).symm.trans (hhollow v hv))

theorem roundTrips_map (hbound : WithinBound bound entries.length)
    (hentries : ∀ entry ∈ entries, RoundTrips e n keyType entry.1 ∧ RoundTrips e n valueType entry.2)
    (hw : (DynamicValue.map entries).weight < 2 ^ 32) :
    RoundTrips e n (.map keyType valueType bound) (.map entries) := by
  intro tc k
  rw [DynamicValue.weight] at hw ⊢
  have hlength := length_le_weightEntries entries
  have hentry (entry : DynamicValue × DynamicValue) (h : entry ∈ entries) (k : Nat) (_ : (xcdr2 e).origin ≤ k) :=
    ((hentries entry h).1 .discard k).bind (f := fun key => deserializeValueXcdr2 (xcdr2 e) valueType .discard >>=
      fun value => pure (key, value)) fun k' _ => ((hentries entry h).2 .discard k').map (entry.1.readBack, ·)
  have hinside (k' : Nat) := (coded_length (k := k') (standard_xcdr2 e) (show entries.length < 2 ^ 32 by omega)).bind
    (f := fun len => readBounded len bound tc "map" (deserializeValueXcdr2 (xcdr2 e) keyType .discard >>= fun key =>
      deserializeValueXcdr2 (xcdr2 e) valueType .discard >>= fun value => pure (key, value)) >>= fun entries =>
        pure (DynamicValue.map entries))
    fun k' _ => (coded_readBounded (coded_each hentry (Nat.zero_le k')) hbound tc "map").map DynamicValue.map
  rw [← weightEntries_eq, ← serializeEntriesXcdr2_eq, ← readBackEntries_eq] at hinside
  exact (coded_framed (standard_xcdr2 e) hinside (by omega)).mono (by simp [DynamicTypeKind.hollow]) (by omega)

theorem roundTrips_enum {d : EnumDescriptor} {l : EnumLiteralDescriptor} (hl : d.getLiteralByValue l.value = some l)
    (hfits : FitsEnum d.bitBound l.value) : RoundTrips e n (.typeRef ⟨name, .enum d, ext⟩) (.enum l.name l.value) := by
  intro tc k
  exact (coded_enum (k := k) (standard_xcdr2 e) hl hfits tc).mono (by simp [DynamicTypeKind.hollow])
    (by simp [DynamicValue.weight])

theorem roundTrips_packed {bits : Nat} {v : BitVec 64} (hv : FitsPacked bits v) :
    RoundTrips e n (.typeRef ⟨name, .bitmask bits, ext⟩) (.bitmask v) ∧
      RoundTrips e n (.typeRef ⟨name, .bitset bits, ext⟩) (.bitset v) := by
  have hcoded (k : Nat) (g : BitVec 64 → DynamicValue) := coded_packed (k := k) (standard_xcdr2 e) hv g
  constructor
  · intro tc k
    exact (hcoded k .bitmask).mono (by simp [DynamicTypeKind.hollow]) (by simp [DynamicValue.weight])
  · intro tc k
    exact (hcoded k .bitset).mono (by simp [DynamicTypeKind.hollow]) (by simp [DynamicValue.weight])

section

variable {tc : TryConstructKind} {members : List UnionMemberDescriptor} {disc : DynamicValue} {i : Int}
  {m : UnionMemberDescriptor} (hi : disc.discriminatorAsI64 = some i) (hm : selectMember members i = some m)
  (hid : ext = .mutable → m.memberId < 2 ^ 28) (hsolid : kind.hollow = false) (hdisc : RoundTrips e n kind disc)
  (hv : RoundTrips e n m.memberType v)

include hi hm hid hsolid hdisc hv

theorem coded_unionValue (hw : disc.weight + v.weight + 32 < 2 ^ 32) :
    Coded (xcdr2 e) k (writeUnion (xcdr2 e) ext m
        (serializeValueXcdr2 (xcdr2 e) (serializeStructXcdr (xcdr2 e) n) disc kind)
        (serializeValueXcdr2 (xcdr2 e) (serializeStructXcdr (xcdr2 e) n) v m.memberType))
      (readUnionXcdr2 (xcdr2 e) ext (deserializeValueXcdr2 (xcdr2 e) kind tc) (unionReadersXcdr2 (xcdr2 e) members))
      (.union disc.readBack v.readBack) False (disc.weight + v.weight + 32) := by
  have hdisc' (k : Nat) := (hdisc tc k).mono (iff_of_false (by rw [hsolid]; exact Bool.false_ne_true) not_false)
    (Nat.le_refl _)
  rw [unionReadersXcdr2_eq]
  exact coded_union (disc.discriminatorAsI64_readBack.trans hi) hm hid hdisc' (hv m.tryConstruct) (by omega)

theorem roundTrips_union (hw : (DynamicValue.union disc v).weight < 2 ^ 32) :
    RoundTrips e n (.typeRef ⟨name, .union kind tc members, ext⟩) (.union disc v) := by
  intro tc' k
  rw [DynamicValue.weight] at hw ⊢
  rw [serializeValueXcdr2, asUnionKind]
  dsimp only
  rw [selectUnionMember_eq hi hm]
  exact (coded_unionValue hi hm hid hsolid hdisc hv (by omega)).mono (by simp [DynamicTypeKind.hollow]) (by omega)

end

theorem roundTrips_value (h : Typed kind v) (hn : v.depth ≤ n) (hw : v.weight < 2 ^ 32) : RoundTrips e n kind v := by
  induction h using Typed.induct generalizing n with
  | primitive p v h => exact roundTrips_primitive h
  | string bound v hbound => exact roundTrips_string hbound hw
  | wstring bound v hbound => exact roundTrips_wstring hbound hw
  | enum name d ext l hl hfits => exact roundTrips_enum hl hfits
  | bitmask name bitBound ext v hv => exact (roundTrips_packed hv).1
  | bitset name totalBits ext v hv => exact (roundTrips_packed hv).2
  | sequence kind bound items hbound hitems ih =>
    refine roundTrips_sequence hbound (fun v hv => ?_) hw
    obtain ⟨hn, hw⟩ := sized_item hv hn hw
    exact (ih v hv).2 hn hw
  | array kind dimensions items hpos hlen hitems ih =>
    refine roundTrips_array hpos hlen (fun v hv => ?_) hw
    obtain ⟨hn, hw⟩ := sized_item hv hn hw
    exact (ih v hv).2 hn hw
  | map keyType valueType bound entries hbound hentries ih =>
    refine roundTrips_map hbound (fun entry hentry => ?_) hw
    obtain ⟨hkey, hvalue⟩ := sized_entry hentry hn hw
    exact ⟨(ih entry hentry).1.2 hkey.1 hkey.2, (ih entry hentry).2.2 hvalue.1 hvalue.2⟩
  | struct name members ext values hok hvalues ih =>
    rw [DynamicValue.depth] at hn
    obtain ⟨n, rfl⟩ := Nat.exists_eq_succ_of_ne_zero (show n ≠ 0 by omega)
    intro tc k
    refine (coded_struct hok (ih.imp fun m v hmem ihv => ?_) hw).map DynamicValue.struct
    obtain ⟨hn, hw⟩ := sized_field hmem (Nat.le_of_succ_le_succ hn) hw
    exact ihv.2 hn hw
  | union name kind tc members ext disc v i m hdisc hi hm hid hv ihdisc ihv =>
    rw [DynamicValue.depth] at hn
    have hweight : disc.weight + v.weight < 2 ^ 32 := by rw [DynamicValue.weight] at hw; omega
    exact roundTrips_union hi hm hid (hollow_of_discriminator hdisc hi) (ihdisc (by omega) (by omega))
      (ihv (by omega) (by omega)) hw

end Values

/-! ## Data -/

section UnionData

variable {t : DynamicType} {members : List UnionMemberDescriptor} {disc v : DynamicValue} {i : Int}
  {m : UnionMemberDescriptor}

theorem getValue_discriminator :
    DynamicData.getValue ⟨t, [(unionDiscriminatorField, disc), (m.name, v)]⟩ unionDiscriminatorField = some disc :=
  lookup_cons_self

theorem getValue_branch (hname : m.name ≠ unionDiscriminatorField) :
    DynamicData.getValue ⟨t, [(unionDiscriminatorField, disc), (m.name, v)]⟩ m.name = some v := by
  show lookup m.name _ = _
  rw [lookup_cons, beq_eq_false_iff_ne.2 hname, lookup_cons_self]

theorem depth_unionData (disc v : DynamicValue) (m : UnionMemberDescriptor) :
    disc.depth ≤ depthFields [(unionDiscriminatorField, disc), (m.name, v)] ∧
      v.depth ≤ depthFields [(unionDiscriminatorField, disc), (m.name, v)] := by
  rw [depthFields, depthFields]
  omega

theorem weight_unionData {name : String} {kind : DynamicTypeKind} {tc : TryConstructKind} {ext : ExtensibilityKind} :
    (DynamicData.mk ⟨name, .union kind tc members, ext⟩ [(unionDiscriminatorField, disc), (m.name, v)]).weight =
      disc.weight + v.weight + 32 := by
  simp [DynamicData.weight, DynamicTypeKind.memberCount, weightFields]

theorem unionParts_eq {σ : Type} (hi : disc.discriminatorAsI64 = some i) (hm : selectMember members i = some m)
    (hname : m.name ≠ unionDiscriminatorField) :
    (unionParts ⟨t, [(unionDiscriminatorField, disc), (m.name, v)]⟩ members : Decoder σ DdsError _) =
      pure (disc, m, v) := by
  unfold unionParts
  rw [getValue_discriminator]
  dsimp only
  rw [selectUnionMember_eq hi hm, Decoder.pure_bind, getValue_branch hname, Option.getD_some]

theorem unionValues_eq (hi : disc.discriminatorAsI64 = some i) (hm : selectMember members i = some m)
    (hname : m.name ≠ unionDiscriminatorField) :
    unionValues members (.union disc v) = pure [(unionDiscriminatorField, disc), (m.name, v)] := by
  have hfresh : m.name ∉ [(unionDiscriminatorField, disc)].map Prod.fst := by
    rw [map_singleton, mem_singleton]
    exact hname
  unfold unionValues
  dsimp only
  rw [selectUnionMember_eq hi hm, Decoder.pure_bind, insertValue_of_notMem v hfresh]
  rfl

end UnionData

theorem coded_data {d : DynamicData} (h : WellFormed d) (hw : d.weight < 2 ^ 32) :
    ∃ hollow, Coded (xcdr2 e) k (serializeStructXcdr (xcdr2 e) d.depth d)
      (deserializeStructXcdr (xcdr2 e) d.dynamicType)
      d.readBack hollow d.weight := by
  cases h with
  | struct name members ext values hok hvalues =>
    refine ⟨_, coded_struct hok (hvalues.fields.imp fun m v hmem hv => ?_) hw⟩
    obtain ⟨hn, hw⟩ := sized_field hmem (Nat.le_refl _) hw
    exact roundTrips_value hv hn hw
  | union name kind tc members ext disc v i m hdisc hi hm hid hv hname =>
    rw [weight_unionData] at hw ⊢
    have hback : disc.readBack.discriminatorAsI64 = some i := disc.discriminatorAsI64_readBack.trans hi
    have hdisc' := roundTrips_value (e := e) hdisc (depth_unionData disc v m).1 (by omega)
    have hv' := roundTrips_value (e := e) hv (depth_unionData disc v m).2 (by omega)
    refine ⟨False, ?_⟩
    show Coded (xcdr2 e) k (unionParts _ members >>= _) (_ >>= fun value => unionValues members value >>= _) _ _ _
    rw [unionParts_eq hi hm hname]
    refine (coded_unionValue hi hm hid (hollow_of_discriminator hdisc hi) hdisc' hv' hw).before fun k' => ?_
    rw [unionValues_eq hback hm hname]
    exact (reads_pure [(unionDiscriminatorField, disc.readBack), (m.name, v.readBack)]).bind_pure
      (DynamicData.mk ⟨name, .union kind tc members, ext⟩)

theorem length_encapsulationHeader : (encapsulationHeader id).length = 4 := by
  rw [encapsulationHeader, length_append, Endianness.length_put, length_zeros]

theorem take_encapsulationHeader (hid : id < 256 ^ 2) (rest : Bytes) :
    Endianness.big.get ((encapsulationHeader id ++ rest).take 2) = id := by
  have htake : (encapsulationHeader id ++ rest).take 2 = Endianness.big.put 2 id := by
    rw [encapsulationHeader, append_assoc, take_left']
    exact Endianness.length_put _ _ _
  rw [htake, Endianness.get_put_of_lt _ hid]

theorem encodingKind_lt : encodingKind ext e < 256 ^ 2 := by
  cases ext <;> cases e <;> decide

/-- The bytes are the header of their encoding and what the data takes, read as `readBack`. -/
theorem deserializeXcdr_serializeXcdr {d : DynamicData} (h : WellFormed d) (hw : d.weight < 2 ^ 32) :
    ∃ chunk, (serializeXcdr e ext d).result = .ok (encapsulationHeader (encodingKind ext e) ++ chunk) ∧
      (deserializeXcdr (encapsulationHeader (encodingKind ext e) ++ chunk) d.dynamicType).result = .ok d.readBack := by
  obtain ⟨hollow, chunk, hcodes, -⟩ := coded_data (e := e) (k := 4) h hw
  have halike : (xcdr2 e).Alike 4 (encapsulationHeader (encodingKind ext e)).length := by
    exact Coding.Alike.refl (Nat.zero_le _)
  refine ⟨chunk, ?_, ?_⟩
  · unfold serializeXcdr
    rw [Outcome.result_bind_of_ok (hcodes.writes _ halike)]
    rfl
  · have hreads := hcodes.reads (encapsulationHeader (encodingKind ext e)) [] halike
    rw [append_nil] at hreads
    unfold deserializeXcdr
    rw [take_encapsulationHeader (encodingKind_lt ext),
      show parseEncapsulationHeader (encodingKind ext e) = some e by cases ext <;> cases e <;> rfl]
    exact Outcome.result_bind_eq_ok.2 ⟨_, hreads, rfl⟩

end Int2Dds.XTypes
