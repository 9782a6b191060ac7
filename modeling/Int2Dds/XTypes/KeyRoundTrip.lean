import Int2Dds.XTypes.KeyHolder
import Int2Dds.XTypes.Xcdr2RoundTrip

/-!
# The key, read back

A value whose structs are their own key holders is written as it is, so that the reader of whole values reads it back.
From there on, arrays and structs are read by the projecting reader, member by member.
-/

namespace Int2Dds.XTypes

open Lib Lib.Encoder DynamicValue List DynamicData

/-! ## The order of key members -/

section KeyOrder

variable {members : List MemberDescriptor} {m : MemberDescriptor}

theorem keyReadersOrdered_map (read : MemberDescriptor → De DynamicValue) :
    keyReadersOrdered (members.map fun m => (m, read m)) = (keyOrder members).map fun m => (m, read m) := by
  unfold keyReadersOrdered
  rw [filter_map]
  refine Eq.symm (map_insertionSort _ _ (fun m => (m, read m)) (members.filter fun m => m.isKey) ?_)
  exact fun _ _ _ _ => Iff.rfl

theorem mem_keyOrder : m ∈ keyOrder members ↔ m ∈ members ∧ m.isKey = true := by
  unfold keyOrder
  rw [mem_insertionSort, mem_filter]

theorem keyOrder_perm : (keyOrder members).Perm (members.filter fun m => m.isKey) :=
  perm_insertionSort _ _

theorem keyOrder_of_none (h : ∀ m ∈ members, m.isKey = false) : keyOrder members = [] := by
  refine eq_nil_iff_forall_not_mem.2 fun m hm => ?_
  obtain ⟨hmem, hkey⟩ := mem_keyOrder.1 hm
  rw [h m hmem] at hkey
  cases hkey

end KeyOrder

/-! ## Values kept whole -/

section Whole

variable {c : Coding} {value value' : DynamicValue → DynamicTypeKind → Ser} {d : DynamicData}
  {members : List MemberDescriptor} {values acc : List (String × DynamicValue)}

theorem serializeMembersXcdr2Inline_congr
    (h : Fields (fun m v => value v m.memberType = value' v m.memberType) members values)
    (hd : Pending d members values acc) :
    serializeMembersXcdr2Inline c value d members = serializeMembersXcdr2Inline c value' d members := by
  induction h generalizing acc with
  | nil => rfl
  | set m members v values hv hvalues ih =>
    have hmember : serializeMemberInline c value d m = serializeMemberInline c value' d m := by
      unfold serializeMemberInline
      rw [memberValueOrDefault_of_some hd.get_set, hd.get_set]
      dsimp only
      rw [hv]
    rw [serializeMembersXcdr2Inline, serializeMembersXcdr2Inline, hmember, ih (hd.set v)]
  | absent m members values hm hvalues ih =>
    have hmember : serializeMemberInline c value d m = serializeMemberInline c value' d m := by
      unfold serializeMemberInline
      rw [if_pos hm, if_pos hm, hd.get_absent hvalues]
    rw [serializeMembersXcdr2Inline, serializeMembersXcdr2Inline, hmember, ih hd.absent]

theorem serializeKeyMembers_eq_inline (hopt : ∀ m ∈ members, m.isOptional = false)
    (h : Fields (fun m v => value v m.memberType = value' v m.memberType) members values)
    (hd : Pending d members values acc) :
    serializeKeyMembers value d members = serializeMembersXcdr2Inline c value' d members := by
  induction h generalizing acc with
  | nil => rfl
  | set m members v values hv hvalues ih =>
    have hmember : serializeMemberInline c value' d m = value v m.memberType := by
      unfold serializeMemberInline
      rw [if_neg (by rw [hopt m mem_cons_self]; exact Bool.false_ne_true), memberValueOrDefault_of_some hd.get_set]
      exact hv.symm
    rw [serializeKeyMembers, memberValueOrDefault_of_some hd.get_set, serializeMembersXcdr2Inline, hmember]
    rw [ih (forall_mem_cons.1 hopt).2 (hd.set v)]
  | absent m members values hm hvalues ih =>
    rw [hopt m mem_cons_self] at hm
    cases hm

variable {name : String} {ext : ExtensibilityKind}

theorem lookup_eq_none_of_notMem (h : name ∉ values.map Prod.fst) : values.lookup name = none := by
  rw [lookup_eq_none_iff]
  intro f hf
  exact bne_iff_ne.2 fun heq => h (mem_map.2 ⟨f, hf, heq.symm⟩)

variable {P : MemberDescriptor → DynamicValue → Prop}

theorem filterMap_lookup (h : Fields P members values)
    (hnames : (members.map fun m => m.name).Nodup) :
    (members.filterMap fun m => (values.lookup m.name).map fun v => (m.name, v)) = values := by
  induction h with
  | nil => rfl
  | set m members v values hv hvalues ih =>
    obtain ⟨hname, hnames⟩ := nodup_cons.1 hnames
    have hrest : (members.filterMap fun m' => (lookup m'.name ((m.name, v) :: values)).map fun v => (m'.name, v)) =
        members.filterMap fun m' => (values.lookup m'.name).map fun v => (m'.name, v) := by
      refine filterMap_congr fun m' hm' => ?_
      have hne : (m'.name == m.name) = false :=
        beq_eq_false_iff_ne.2 fun heq => hname (mem_map.2 ⟨m', hm', heq⟩)
      rw [lookup_cons, hne]
    rw [filterMap_cons, lookup_cons_self, Option.map_some, hrest, ih hnames]
  | absent m members values hm hvalues ih =>
    obtain ⟨hname, hnames⟩ := nodup_cons.1 hnames
    rw [filterMap_cons, lookup_eq_none_of_notMem fun hmem => hname (hvalues.mem_names hmem), Option.map_none, ih hnames]

theorem each_congr {α : Type} {f g : α → Ser} {as : List α} (h : ∀ a ∈ as, f a = g a) : each f as = each g as := by
  induction as with
  | nil => rfl
  | cons a as ih => rw [each, each, h a mem_cons_self, ih (forall_mem_cons.1 h).2]

namespace DynamicValue

theorem keyProjectionFields_eq (fields : List (String × DynamicValue)) :
    keyProjectionFields fields = fields.map fun f => (f.1, f.2.keyProjection) :=
  eq_map_of_cons rfl (fun _ _ => rfl) fields

theorem keyProjectionItems_eq (items : List DynamicValue) : keyProjectionItems items = items.map keyProjection :=
  eq_map_of_cons rfl (fun _ _ => rfl) items

theorem keyProjectionEntries_eq (entries : List (DynamicValue × DynamicValue)) :
    keyProjectionEntries entries = entries.map fun e => (e.1.keyProjection, e.2.keyProjection) :=
  eq_map_of_cons rfl (fun _ _ => rfl) entries

theorem keptWholeFields_eq (fields : List (String × DynamicValue)) :
    keptWholeFields fields = fields.all fun f => f.2.keptWhole :=
  eq_all_of_cons rfl (fun _ _ => rfl) fields

theorem keptWholeItems_eq (items : List DynamicValue) : keptWholeItems items = items.all keptWhole :=
  eq_all_of_cons rfl (fun _ _ => rfl) items

theorem keptWholeEntries_eq (entries : List (DynamicValue × DynamicValue)) :
    keptWholeEntries entries = entries.all fun e => e.1.keptWhole && e.2.keptWhole :=
  eq_all_of_cons rfl (fun _ _ => rfl) entries

end DynamicValue

/-- The value is its own key, and is written and read as any other. -/
structure KeptAsIs (c : Coding) (n : Nat) (kind : DynamicTypeKind) (v : DynamicValue) : Prop where
  writes :
    serializeValueXcdr2 c (serializeKeyHolderStruct c n) v kind = serializeValueXcdr2 c (serializeStructXcdr c n) v kind
  back : v.readBack = v
  key : v.keyProjection = v

theorem isKeyHolder_cases (h : (DynamicType.mk name (.struct members) ext).isKeyHolder = true) :
    ext = .final ∧ (keyMembersOrdered ⟨name, .struct members, .final⟩ = [] ∨
      keyMembersOrdered ⟨name, .struct members, .final⟩ = members ∧ ∀ m ∈ members, m.isOptional = false) := by
  unfold DynamicType.isKeyHolder at h
  simp only [Bool.and_eq_true, Bool.or_eq_true, decide_eq_true_eq, all_eq_true, Bool.not_eq_true'] at h
  obtain ⟨hext, hnone | ⟨hall, hsorted⟩⟩ := h
  · exact ⟨hext, .inl (keyOrder_of_none hnone)⟩
  · refine ⟨hext, .inr ⟨?_, fun m hm => (hall m hm).2⟩⟩
    show keyOrder members = members
    rw [keyOrder, filter_eq_self.2 fun m hm => (hall m hm).1, hsorted.insertionSort_eq]

theorem map_self_of_forall {values : List (String × DynamicValue)} {f : DynamicValue → DynamicValue}
    (h : ∀ p ∈ values, f p.2 = p.2) : (values.map fun p => (p.1, f p.2)) = values :=
  (map_congr_left fun p hp => by rw [h p hp]; rfl).trans (map_id _)

theorem serializeKeyHolderStruct_of_isKeyHolder {n : Nat} (hok : MembersOk ext members)
    (hholder : (DynamicType.mk name (.struct members) ext).isKeyHolder = true)
    (h : Fields (fun m v => serializeValueXcdr2 c (serializeKeyHolderStruct c n) v m.memberType =
      serializeValueXcdr2 c (serializeStructXcdr c n) v m.memberType) members values) :
    serializeKeyHolderStruct c (n + 1) ⟨⟨name, .struct members, ext⟩, values⟩ =
      serializeStructXcdr c (n + 1) ⟨⟨name, .struct members, ext⟩, values⟩ := by
  have hd : Pending ⟨⟨name, .struct members, ext⟩, values⟩ members values [] := pending_start hok.names
  obtain ⟨rfl, hkeys | ⟨hkeys, hopt⟩⟩ := isKeyHolder_cases hholder
  · rw [serializeKeyHolderStruct, hkeys]
    exact serializeMembersXcdr2Inline_congr h hd
  · rw [serializeKeyHolderStruct, hkeys]
    cases members with
    | nil => exact serializeMembersXcdr2Inline_congr h hd
    | cons m members => exact serializeKeyMembers_eq_inline hopt h hd

theorem keyFields_of_isKeyHolder (hok : MembersOk ext members)
    (hholder : (DynamicType.mk name (.struct members) ext).isKeyHolder = true) (h : Fields P members values) :
    keyFields ⟨name, .struct members, ext⟩ values = values := by
  obtain ⟨rfl, hkeys | ⟨hkeys, hopt⟩⟩ := isKeyHolder_cases hholder
  · rw [keyFields, hkeys]
  · rw [keyFields, hkeys]
    cases members with
    | nil => rfl
    | cons m members => exact filterMap_lookup h hok.names

theorem keptAsIs_value {n : Nat} {kind : DynamicTypeKind} {v : DynamicValue} (h : Typed kind v)
    (hwhole : v.keptWhole = true) (hn : v.depth ≤ n) : KeptAsIs c n kind v := by
  induction h using Typed.induct generalizing n with
  | primitive p v h => exact ⟨by cases h <;> rfl, by cases h <;> rfl, by cases h <;> rfl⟩
  | string | wstring | enum | bitmask | bitset => exact ⟨rfl, rfl, rfl⟩
  | sequence kind _ items _ _ ih | array kind _ items _ _ _ ih =>
    rw [keptWhole, keptWholeItems_eq, all_eq_true] at hwhole
    have hkept (v : DynamicValue) (hv : v ∈ items) : KeptAsIs c n kind v :=
      (ih v hv).2 (hwhole v hv) ((depth_le_depthItems hv).trans hn)
    refine ⟨?_, ?_, ?_⟩
    · rw [serializeValueXcdr2, serializeValueXcdr2, serializeItemsXcdr2_eq, serializeItemsXcdr2_eq,
        each_congr fun v hv => (hkept v hv).writes]
    · rw [DynamicValue.readBack, readBackItems_eq, map_congr_left fun v hv => (hkept v hv).back,
        map_id']
    · rw [DynamicValue.keyProjection, keyProjectionItems_eq,
        map_congr_left fun v hv => (hkept v hv).key, map_id']
  | map keyType valueType bound entries hbound hentries ih =>
    rw [keptWhole, keptWholeEntries_eq, all_eq_true] at hwhole
    have hkept (e : DynamicValue × DynamicValue) (he : e ∈ entries) :
        KeptAsIs c n keyType e.1 ∧ KeptAsIs c n valueType e.2 := by
      obtain ⟨hdepth, hdepth'⟩ := depth_le_depthEntries he
      have hboth := hwhole e he
      rw [Bool.and_eq_true] at hboth
      exact ⟨(ih e he).1.2 hboth.1 (hdepth.trans hn), (ih e he).2.2 hboth.2 (hdepth'.trans hn)⟩
    refine ⟨?_, ?_, ?_⟩
    · rw [serializeValueXcdr2, serializeValueXcdr2, serializeEntriesXcdr2_eq, serializeEntriesXcdr2_eq]
      rw [each_congr fun e he => by rw [(hkept e he).1.writes, (hkept e he).2.writes]]
    · rw [DynamicValue.readBack, readBackEntries_eq,
        map_congr_left fun e he => by rw [(hkept e he).1.back, (hkept e he).2.back], map_id']
    · rw [DynamicValue.keyProjection, keyProjectionEntries_eq,
        map_congr_left fun e he => by rw [(hkept e he).1.key, (hkept e he).2.key], map_id']
  | struct name members ext values hok hvalues ih =>
    rw [DynamicValue.depth] at hn
    rw [keptWhole, Bool.and_eq_true, keptWholeFields_eq, all_eq_true] at hwhole
    obtain ⟨n, rfl⟩ := Nat.exists_eq_succ_of_ne_zero (show n ≠ 0 by omega)
    have hkept : Fields (fun m v => KeptAsIs c n m.memberType v) members values := ih.imp fun m v hmem ihv =>
      ihv.2 (hwhole.2 _ hmem) ((depth_le_depthFields hmem).trans (by omega))
    have hfields (f : String × DynamicValue) (hf : f ∈ values) : f.2.readBack = f.2 ∧ f.2.keyProjection = f.2 := by
      obtain ⟨m, -, hkept⟩ := hkept.of_mem hf
      exact ⟨hkept.back, hkept.key⟩
    refine ⟨?_, ?_, ?_⟩
    · exact serializeKeyHolderStruct_of_isKeyHolder hok hwhole.1 (hkept.imp fun _ _ _ h => h.writes)
    · rw [DynamicValue.readBack, readBackFields_eq, map_self_of_forall fun f hf => (hfields f hf).1]
      obtain ⟨rfl, -⟩ := isKeyHolder_cases hwhole.1
      rfl
    · rw [DynamicValue.keyProjection, keyProjectionFields_eq, map_self_of_forall fun f hf => (hfields f hf).2,
        keyFields_of_isKeyHolder hok hwhole.1 hkept]
  | union name kind tc members ext disc v i m hdisc hi hm hid hv ihdisc ihv =>
    rw [DynamicValue.depth] at hn
    have hdiscWhole : disc.keptWhole = true := by
      cases hdisc with
      | struct | sequence | array | map | union => cases hi
      | _ => rfl
    have hkept := ihv hwhole (show v.depth ≤ n by omega)
    have hkeptDisc := ihdisc hdiscWhole (show disc.depth ≤ n by omega)
    refine ⟨?_, ?_, ?_⟩
    · rw [serializeValueXcdr2, serializeValueXcdr2, asUnionKind]
      dsimp only
      rw [selectUnionMember_eq hi hm, Decoder.pure_bind, Decoder.pure_bind, hkept.writes, hkeptDisc.writes]
    · rw [DynamicValue.readBack, hkept.back, hkeptDisc.back]
    · rw [DynamicValue.keyProjection, hkept.key]

end Whole

/-! ## Values read back from anywhere -/

/-- At every position, what is written is read back as `a` and takes at most `size` bytes. -/
def Trips {α : Type} (c : Coding) (w : Ser) (r : De α) (a : α) (size : Nat) : Prop :=
  ∃ hollow, ∀ k, Coded c k w r a hollow size

section Trips

variable {α β : Type} {c : Coding} {w v : Ser} {r : De α} {a : α} {b : β} {size size' : Nat}

theorem trips_pure : Trips c (pure ()) (pure a) a 0 := ⟨True, fun _ => coded_pure a⟩

theorem Trips.mono (h : Trips c w r a size) (hsize : size ≤ size') : Trips c w r a size' := by
  obtain ⟨hollow, h⟩ := h
  exact ⟨hollow, fun k => (h k).mono Iff.rfl hsize⟩

theorem Trips.map (h : Trips c w r a size) (g : α → β) : Trips c w (r >>= fun x => pure (g x)) (g a) size := by
  obtain ⟨hollow, h⟩ := h
  exact ⟨hollow, fun k => (h k).map g⟩

theorem Trips.bind {f : α → De β} (h : Trips c w r a size) (h' : Trips c v (f a) b size') :
    Trips c (w >>= fun _ => v) (r >>= f) b (size + size') := by
  obtain ⟨hollow, h⟩ := h
  obtain ⟨hollow', h'⟩ := h'
  exact ⟨_, fun k => (h k).bind fun k' _ => h' k'⟩

theorem trips_each {e : Endianness} {ser : α → Ser} {r : De β} {back : α → β} {sizeOf : α → Nat} {as : List α}
    (h : ∀ a ∈ as, Trips (xcdr2 e) (ser a) r (back a) (sizeOf a)) :
    Trips (xcdr2 e) (each ser as) (Decoder.times as.length r) (as.map back) (as.map sizeOf).sum := by
  choose! hollow h using h
  exact ⟨_, fun k => coded_each (fun a ha k _ => h a ha k) (Nat.zero_le k)⟩

end Trips

/-! ## Structs -/

section Structs

variable {c : Coding} {value : DynamicValue → DynamicTypeKind → Ser} {read : MemberDescriptor → De DynamicValue}
  {d : DynamicData} {members ms : List MemberDescriptor} {values acc : List (String × DynamicValue)}
  {back : DynamicValue → DynamicValue}

theorem trips_inline (hc : c.Standard)
    (h : Fields (fun m v => Trips c (value v m.memberType) (read m) (back v) v.weight) members values)
    (hd : Pending d members values acc) :
    Trips c (serializeMembersXcdr2Inline c value d members)
      (deserializeStructMembersXcdr2 c none (members.map fun m => (m, read m)) acc)
      (acc ++ values.map fun f => (f.1, back f.2)) (2 * members.length + weightFields values) := by
  induction h generalizing acc with
  | nil =>
    simp only [map_nil, append_nil]
    exact (trips_pure).mono (Nat.zero_le _)
  | set m members v values hv hvalues ih =>
    obtain ⟨hollow, hv⟩ := hv
    have hmember : Trips c (serializeMemberInline c value d m) (deserializeMemberInline c m (read m)) (some (back v))
        (v.weight + 2) := ⟨_, fun k => coded_memberInline_set hc hd.get_set hv⟩
    rw [map_cons, map_cons, ← hd.insert_append, deserializeStructMembersXcdr2_none, weightFields, length_cons]
    exact (hmember.bind (ih (hd.set (back v)))).mono (by omega)
  | absent m members values hm hvalues ih =>
    have hmember : Trips c (serializeMemberInline c value d m) (deserializeMemberInline c m (read m)) none 2 :=
      ⟨_, fun k => coded_memberInline_absent hc (hd.get_absent hvalues) hm⟩
    rw [map_cons, deserializeStructMembersXcdr2_none, length_cons]
    exact (hmember.bind (ih hd.absent)).mono (by omega)

def fieldWeight (d : DynamicData) (m : MemberDescriptor) : Nat := ((d.getValue m.name).map DynamicValue.weight).getD 0

theorem trips_keyMembers
    (h : ∀ m ∈ ms, ∃ v, d.getValue m.name = some v ∧ Trips c (value v m.memberType) (read m) (back v) v.weight)
    (hnames : (ms.map fun m => m.name).Nodup) (hfresh : ∀ m ∈ ms, m.name ∉ acc.map Prod.fst) :
    Trips c (serializeKeyMembers value d ms) (deserializeKeyMembers (ms.map fun m => (m, read m)) acc)
      (acc ++ ms.filterMap fun m => ((d.getValue m.name).map back).map fun v => (m.name, v))
        (ms.map (fieldWeight d)).sum := by
  induction ms generalizing acc with
  | nil =>
    simp only [filterMap_nil, append_nil]
    exact (trips_pure).mono (Nat.zero_le _)
  | cons m ms ih =>
    obtain ⟨v, hget, hv⟩ := h m mem_cons_self
    have hrest := ih (forall_mem_cons.1 h).2 (nodup_cons.1 hnames).2
      (fresh_insert hnames hfresh (back v))
    rw [insertValue_append (hfresh m mem_cons_self)] at hrest
    have hweight : fieldWeight d m = v.weight := by
      unfold fieldWeight
      rw [hget]
      rfl
    have hwrite :
        serializeKeyMembers value d (m :: ms) = value v m.memberType >>= fun _ => serializeKeyMembers value d ms := by
      rw [serializeKeyMembers, memberValueOrDefault_of_some hget]
    rw [hwrite, map_cons, map_cons, hweight, filterMap_cons, hget]
    exact hv.bind (f := fun v => deserializeKeyMembers (ms.map fun m => (m, read m)) (insertValue acc m.name v)) hrest

variable {P : MemberDescriptor → DynamicValue → Prop}

theorem sum_fieldWeight (h : Fields P members values) (hd : Pending d members values acc) :
    (members.map (fieldWeight d)).sum = weightFields values := by
  induction h generalizing acc with
  | nil => rw [map_nil, sum_nil, weightFields]
  | set m members v values hv hvalues ih =>
    rw [map_cons, sum_cons, ih (hd.set v), fieldWeight, hd.get_set]
    rfl
  | absent m members values hm hvalues ih =>
    rw [map_cons, sum_cons, ih hd.absent, fieldWeight, hd.get_absent hvalues]
    exact Nat.zero_add _

theorem sum_fieldWeight_keyOrder_le (h : Fields P members values) (hd : Pending d members values acc) :
    ((keyOrder members).map (fieldWeight d)).sum ≤ weightFields values := by
  calc ((keyOrder members).map (fieldWeight d)).sum
      = ((members.filter fun m => m.isKey).map (fieldWeight d)).sum := ((keyOrder_perm).map _).sum_eq
    _ ≤ (members.map (fieldWeight d)).sum := (filter_sublist.map _).sum_le_sum (fun _ _ => Nat.zero_le _)
    _ = weightFields values := sum_fieldWeight h hd

theorem Fields.of_lookup (h : Fields P members values) (hnames : (members.map fun m => m.name).Nodup)
    {m : MemberDescriptor} (hm : m ∈ members) {v : DynamicValue} (hv : values.lookup m.name = some v) : P m v := by
  induction h with
  | nil => cases hm
  | set m' members v' values hv' hvalues ih =>
    obtain ⟨hname, hnames⟩ := nodup_cons.1 hnames
    rcases mem_cons.1 hm with rfl | hm
    · rw [lookup_cons_self] at hv
      exact Option.some.inj hv ▸ hv'
    · have hne : (m.name == m'.name) = false := beq_eq_false_iff_ne.2 fun heq => hname (mem_map.2 ⟨m, hm, heq⟩)
      rw [lookup_cons, hne] at hv
      exact ih hnames hm hv
  | absent m' members values hopt hvalues ih =>
    obtain ⟨hname, hnames⟩ := nodup_cons.1 hnames
    rcases mem_cons.1 hm with rfl | hm
    · rw [lookup_eq_none_of_notMem fun hmem => hname (hvalues.mem_names hmem)] at hv
      cases hv
    · exact ih hnames hm hv

theorem lookup_map_snd (f : DynamicValue → DynamicValue) (name : String) (values : List (String × DynamicValue)) :
    (values.map fun p => (p.1, f p.2)).lookup name = (values.lookup name).map f := by
  induction values with
  | nil => rfl
  | cons p values ih =>
    rw [map_cons, lookup_cons, lookup_cons, ih]
    cases name == p.1 <;> rfl

end Structs

/-! ## Keys -/

theorem keyReaders_eq (c : Coding) (members : List MemberDescriptor) :
    keyReaders c members = members.map fun m => (m, deserializeKeyHolderValue c m.memberType) :=
  eq_map_of_cons rfl (fun m _ => by cases m; rfl) members

/-- The key of `v` is read back by the projecting reader. -/
def KeyTrips (e : Endianness) (n : Nat) (kind : DynamicTypeKind) (v : DynamicValue) : Prop :=
  Trips (xcdr2 e) (serializeValueXcdr2 (xcdr2 e) (serializeKeyHolderStruct (xcdr2 e) n) v kind)
    (deserializeKeyHolderValue (xcdr2 e) kind) v.keyProjection v.weight

section Keys

variable {e : Endianness} {n : Nat} {kind : DynamicTypeKind} {v : DynamicValue} {items : List DynamicValue}
  {name : String}
  {ext : ExtensibilityKind} {members : List MemberDescriptor} {values : List (String × DynamicValue)}

theorem keyTrips_of_keptWhole (h : Typed kind v) (hwhole : v.keptWhole = true) (hn : v.depth ≤ n)
    (hw : v.weight < 2 ^ 32)
    (hread : deserializeKeyHolderValue (xcdr2 e) kind = deserializeValueXcdr2 (xcdr2 e) kind .discard) :
    KeyTrips e n kind v := by
  have hkept : KeptAsIs (xcdr2 e) n kind v := keptAsIs_value h hwhole hn
  have htrips := roundTrips_value (e := e) h hn hw .discard
  rw [hkept.back] at htrips
  unfold KeyTrips
  rw [hkept.writes, hkept.key, hread]
  exact ⟨_, htrips⟩

theorem keyTrips_array {dimensions : List Nat} (hpos : ∀ d ∈ dimensions, 1 ≤ d) (hlen : items.length = dimensions.prod)
    (hitems : ∀ v ∈ items, KeyTrips e n kind v) (hw : (array items).weight < 2 ^ 32) :
    KeyTrips e n (.array kind dimensions) (.array items) := by
  have hlength := length_le_weightItems items
  unfold KeyTrips
  rw [DynamicValue.weight] at hw ⊢
  obtain ⟨hollow, hinside⟩ := (trips_each hitems).map array
  rw [← weightItems_eq, ← serializeItemsXcdr2_eq, ← keyProjectionItems_eq] at hinside
  refine ⟨_, fun k => ((coded_framed (standard_xcdr2 e) (fun k' => (hinside k').after
    (f := fun total => Decoder.times total (deserializeKeyHolderValue (xcdr2 e) kind) >>= fun items =>
      pure (array items)) (hlen ▸ reads_checkedArrayLen hpos (by omega))) (by omega)).mono Iff.rfl (by omega))⟩

theorem trips_keyHolderStruct (hok : MembersOk ext members)
    (hset : ∀ m ∈ keyOrder members, (values.lookup m.name).isSome = true)
    (h : Fields (fun m v => inKey ⟨name, .struct members, ext⟩ m.name = true → KeyTrips e n m.memberType v)
      members values) :
    Trips (xcdr2 e) (serializeKeyHolderStruct (xcdr2 e) (n + 1) ⟨⟨name, .struct members, ext⟩, values⟩)
      (readKeyHolderStruct (xcdr2 e) ⟨name, .struct members, ext⟩ (keyReaders (xcdr2 e) members))
      (mk ⟨name, .struct members, ext⟩ values).keyProjection
      (DynamicData.mk ⟨name, .struct members, ext⟩ values).weight := by
  have hd : Pending ⟨⟨name, .struct members, ext⟩, values⟩ members values [] := pending_start hok.names
  have hordered : keyMembersOrdered ⟨name, .struct members, ext⟩ = keyOrder members := rfl
  rw [serializeKeyHolderStruct, DynamicData.keyProjection, keyProjectionFields_eq, weight_struct]
  unfold readKeyHolderStruct keyFields
  rw [keyReaders_eq, keyReadersOrdered_map, hordered]
  unfold inKey at h
  rw [hordered] at h
  have hbound := sum_fieldWeight_keyOrder_le h hd
  cases hkeys : keyOrder members with
  | nil =>
    rw [hkeys] at h
    have hall : Fields (fun m v => Trips (xcdr2 e)
        (serializeValueXcdr2 (xcdr2 e) (serializeKeyHolderStruct (xcdr2 e) n) v m.memberType)
        (deserializeKeyHolderValue (xcdr2 e) m.memberType) v.keyProjection v.weight) members values :=
      h.imp fun _ _ _ hv => hv rfl
    exact ((trips_inline (standard_xcdr2 e) hall hd).map (mk ⟨name, .struct members, ext⟩)).mono (by omega)
  | cons m ms =>
    rw [hkeys] at hset hbound h
    have hmem (m' : MemberDescriptor) (hm' : m' ∈ m :: ms) : m' ∈ members := by
      rw [← hkeys] at hm'
      exact (mem_keyOrder.1 hm').1
    have hms : ∀ m' ∈ m :: ms, ∃ v, getValue ⟨⟨name, .struct members, ext⟩, values⟩ m'.name = some v ∧
        Trips (xcdr2 e) (serializeValueXcdr2 (xcdr2 e) (serializeKeyHolderStruct (xcdr2 e) n) v m'.memberType)
          (deserializeKeyHolderValue (xcdr2 e) m'.memberType) v.keyProjection v.weight := by
      intro m' hm'
      obtain ⟨v, hv⟩ := Option.isSome_iff_exists.1 (hset m' hm')
      refine ⟨v, hv, h.of_lookup hok.names (hmem m' hm') hv ?_⟩
      rw [Bool.or_eq_true, any_eq_true]
      exact .inr ⟨m', hm', decide_eq_true rfl⟩
    have hnodup : ((m :: ms).map fun m => m.name).Nodup := by
      rw [← hkeys]
      exact ((keyOrder_perm).map _).nodup_iff.2 (hok.names.sublist (filter_sublist.map _))
    have hfresh : ∀ m' ∈ m :: ms, m'.name ∉ ([] : List (String × DynamicValue)).map Prod.fst :=
      fun _ _ => not_mem_nil
    have htrips := (trips_keyMembers hms hnodup hfresh).map (mk ⟨name, .struct members, ext⟩)
    simp only [lookup_map_snd]
    exact htrips.mono (by omega)

theorem keyReadableItems_eq : keyReadableItems items = items.all keyReadable :=
  eq_all_of_cons rfl (fun _ _ => rfl) items

theorem keyReadableFields_eq (t : DynamicType) (fields : List (String × DynamicValue)) :
    keyReadableFields t fields = fields.all fun f => !inKey t f.1 || f.2.keyReadable :=
  eq_all_of_cons rfl (fun _ _ => rfl) fields

theorem keyReadable_of_mem {t : DynamicType} (h : keyReadableFields t values = true) {m : String}
    (hmem : (m, v) ∈ values) (hkey : inKey t m = true) : v.keyReadable = true := by
  rw [keyReadableFields_eq, all_eq_true] at h
  have hv := h _ hmem
  rw [hkey] at hv
  exact hv

theorem keyTrips_value (h : Typed kind v) (hread : v.keyReadable = true) (hn : v.depth ≤ n) (hw : v.weight < 2 ^ 32) :
    KeyTrips e n kind v := by
  induction h using Typed.induct generalizing n with
  | primitive p v h => exact keyTrips_of_keptWhole h (by cases h <;> rfl) hn hw rfl
  | string bound v hbound => exact keyTrips_of_keptWhole (.string bound v hbound) rfl hn hw rfl
  | wstring bound v hbound => exact keyTrips_of_keptWhole (.wstring bound v hbound) rfl hn hw rfl
  | enum name d ext l hl hfits => exact keyTrips_of_keptWhole (.enum name d ext l hl hfits) rfl hn hw rfl
  | bitmask name bitBound ext v hv => exact keyTrips_of_keptWhole (.bitmask name bitBound ext v hv) rfl hn hw rfl
  | bitset name totalBits ext v hv => exact keyTrips_of_keptWhole (.bitset name totalBits ext v hv) rfl hn hw rfl
  | sequence kind bound items hbound hitems ih =>
    exact keyTrips_of_keptWhole (.sequence kind bound items hbound hitems) hread hn hw rfl
  | array kind dimensions items hpos hlen hitems ih =>
    rw [DynamicValue.keyReadable, keyReadableItems_eq, all_eq_true] at hread
    refine keyTrips_array hpos hlen (fun v hv => ?_) hw
    obtain ⟨hn, hw⟩ := sized_item hv hn hw
    exact (ih v hv).2 (hread v hv) hn hw
  | map keyType valueType bound entries hbound hentries ih =>
    exact keyTrips_of_keptWhole (.map keyType valueType bound entries hbound hentries) hread hn hw rfl
  | struct name members ext values hok hvalues ih =>
    rw [DynamicValue.keyReadable, Bool.and_eq_true, all_eq_true] at hread
    rw [DynamicValue.depth] at hn
    obtain ⟨n, rfl⟩ := Nat.exists_eq_succ_of_ne_zero (show n ≠ 0 by omega)
    refine (trips_keyHolderStruct hok hread.1 (ih.imp fun m v hmem ihv hkey => ?_)).map struct
    obtain ⟨hn, hw⟩ := sized_field hmem (Nat.le_of_succ_le_succ hn) hw
    exact ihv.2 (keyReadable_of_mem hread.2 hmem hkey) hn hw
  | union name kind tc members ext disc v i m hdisc hi hm hid hv ihdisc ihv =>
    exact keyTrips_of_keptWhole (.union name kind tc members ext disc v i m hdisc hi hm hid hv) hread hn hw rfl

/-! ## The bytes of a key -/

theorem trimTerminators_of_ne {b : Byte} (hb : b ≠ 0) (bs : Bytes) : trimTerminators (bs ++ [b, 0]) = bs ++ [b, 0] := by
  unfold trimTerminators
  rw [reverse_append]
  show (if (0 : Byte) = 0 ∧ b = 0 then dropZeros (b :: bs.reverse) else 0 :: b :: bs.reverse).reverse = _
  rw [if_neg fun h => hb h.2, reverse_cons, reverse_cons, reverse_reverse, append_assoc]
  rfl

/-- A string that does not end in a zero keeps its terminator and nothing else. -/
theorem trimTerminators_string {s : String} (hs : (utf8 s).getLast? ≠ some 0) (k : Nat) :
    trimTerminators (wordAt (xcdr2 .big) k 4 ((utf8 s).length + 1) ++ (utf8 s ++ [0])) =
      wordAt (xcdr2 .big) k 4 ((utf8 s).length + 1) ++ (utf8 s ++ [0]) := by
  rcases eq_nil_or_concat (utf8 s) with hnil | ⟨bs, b, hconcat⟩
  · have hword : wordAt (xcdr2 .big) k 4 1 = zeros ((xcdr2 .big).padding 4 k) ++ [0, 0, 0] ++ [1] := by
      rw [append_assoc]
      rfl
    rw [hnil, length_nil, hword, append_assoc]
    exact trimTerminators_of_ne (by decide) _
  · rw [concat_eq_append] at hconcat
    have hb : b ≠ 0 := by
      rintro rfl
      rw [hconcat] at hs
      exact hs getLast?_concat
    have hsplit : utf8 s ++ [0] = bs ++ [b, 0] := by
      rw [hconcat, append_assoc]
      rfl
    rw [hsplit, ← append_assoc]
    exact trimTerminators_of_ne hb _

theorem typed_string_of_resolvedKind {bound : Option Nat} (h : Typed kind v)
    (hkind : kind.resolvedKind = .string bound) :
    kind = .string bound ∧ ∃ s, v = .string s := by
  cases h with
  | string b s hb =>
    have hb : b = bound := by injection hkind
    exact ⟨by rw [hb], s, rfl⟩
  | _ => cases hkind

theorem isSingleStringKey_cases {ms : List MemberDescriptor} (h : isSingleStringKey ms = true) :
    ∃ m bound, ms = [m] ∧ m.memberType.resolvedKind = .string bound := by
  unfold isSingleStringKey at h
  split at h
  · split at h
    · exact ⟨_, _, rfl, ‹_›⟩
    · cases h
  · cases h

theorem trimTerminators_key {value : DynamicValue → DynamicTypeKind → Ser} {d : DynamicData} {m : MemberDescriptor}
    {chunk : Bytes} (hvalue : ∀ s bound, value (.string s) (.string bound) = serializeString (xcdr2 .big) s)
    (hget : d.getValue m.name = some v) (htyped : Typed m.memberType v) {bound : Option Nat}
    (hkind : m.memberType.resolvedKind = .string bound) (hkept : ∀ s, v = .string s → (utf8 s).getLast? ≠ some 0)
    (hw : Writes (xcdr2 .big) 4 (serializeKeyMembers value d [m]) chunk) : trimTerminators chunk = chunk := by
  obtain ⟨hstring, s, rfl⟩ := typed_string_of_resolvedKind htyped hkind
  have hchunk : Writes (xcdr2 .big) 4 (serializeKeyMembers value d [m])
      (wordAt (xcdr2 .big) 4 4 ((utf8 s).length + 1) ++ (utf8 s ++ [0]) ++ []) := by
    rw [serializeKeyMembers, memberValueOrDefault_of_some hget, hstring]
    dsimp only
    rw [hvalue]
    exact ((writes_word (standard_xcdr2 .big) isWidth_four _).bind ((writes_push _).bind (writes_push _))).bind
      writes_pure
  rw [hw.unique (Nat.zero_le _) hchunk, append_nil]
  exact trimTerminators_string (hkept s rfl) 4

theorem deserializeKeyCdr_serializeKeyCdr (hok : MembersOk ext members) (hvalues : Populated members values)
    (hkeys : keyOrder members ≠ []) (hw : (mk ⟨name, .struct members, ext⟩ values).weight < 2 ^ 32)
    (hread : (mk ⟨name, .struct members, ext⟩ values).keyReadable = true) :
    ∃ bytes, (serializeKeyCdr ⟨⟨name, .struct members, ext⟩, values⟩).result =
        .ok (bytes, isSingleStringKey (keyOrder members)) ∧
      (deserializeKeyCdr bytes ⟨name, .struct members, ext⟩).result =
        .ok (DynamicData.mk ⟨name, .struct members, ext⟩ values).keyProjection := by
  rw [DynamicData.keyReadable, DynamicValue.keyReadable, Bool.and_eq_true, Bool.and_eq_true, all_eq_true] at hread
  obtain ⟨⟨hset, hfields⟩, hstring⟩ := hread
  obtain ⟨hollow, htrips⟩ := trips_keyHolderStruct (e := .big) (n := depthFields values + 1) hok hset
    (hvalues.fields.imp fun m v hmem hv hkey => by
      obtain ⟨hn, hw⟩ := sized_field hmem (Nat.le_succ _) hw
      exact keyTrips_value hv (keyReadable_of_mem hfields hmem hkey) hn hw)
  obtain ⟨chunk, hcodes, -⟩ := htrips 4
  have hordered : keyMembersOrdered ⟨name, .struct members, ext⟩ = keyOrder members := rfl
  obtain ⟨m, ms, hcons⟩ := exists_cons_of_ne_nil hkeys
  have hwrites := hcodes.writes
  rw [serializeKeyHolderStruct] at hwrites
  rw [hordered, hcons] at hwrites
  have hheader : (encapsulationHeader (encodingKind .final .big)).length = 4 := rfl
  have hwritten := hwrites (encapsulationHeader (encodingKind .final .big)) (by
    exact Coding.Alike.refl (Nat.zero_le _))
  have htrim : (if isSingleStringKey (m :: ms) then trimTerminators chunk else chunk) = chunk := by
    split_ifs with hsingle
    · obtain ⟨m', bound, heq, hkind⟩ := isSingleStringKey_cases hsingle
      obtain ⟨rfl, rfl⟩ := cons.inj heq
      obtain ⟨v, hv⟩ := Option.isSome_iff_exists.1 (hset m (by rw [hordered, hcons]; exact mem_cons_self))
      have hmem : m ∈ members := (mem_keyOrder.1 (by rw [hcons]; exact mem_cons_self)).1
      have hget : getValue ⟨⟨name, .struct members, ext⟩, values⟩ m.name = some v := hv
      refine trimTerminators_key (fun _ _ => rfl) hget (hvalues.fields.of_lookup hok.names hmem hv) hkind ?_ hwrites
      rintro s rfl
      unfold keyStringKept at hstring
      rw [hordered, hcons] at hstring
      dsimp only at hstring
      rw [hv] at hstring
      exact of_decide_eq_true hstring
    · rfl
  refine ⟨chunk, ?_, ?_⟩
  · unfold serializeKeyCdr
    rw [hordered, hcons]
    rw [DynamicData.depth, Outcome.result_bind_of_ok hwritten]
    show Result.ok (if isSingleStringKey (m :: ms) then trimTerminators (drop 4 _) else drop 4 _,
      isSingleStringKey (m :: ms)) = _
    rw [drop_left' hheader, htrim]
  · have hreads := hcodes.reads [] [] ⟨Nat.zero_le _, Nat.zero_le _, rfl⟩
    rw [append_nil] at hreads
    exact Outcome.result_bind_eq_ok.2 ⟨_, hreads, rfl⟩

end Keys

/-! ## Samples -/

def keyRoundTrip (d : DynamicData) : Outcome DdsError DynamicData := do
  let (bytes, _) ← serializeKeyCdr d
  deserializeKeyCdr bytes d.dynamicType

theorem result_keyRoundTrip {d : DynamicData} (h : WellFormed d) (hkeys : keyMembersOrdered d.dynamicType ≠ [])
    (hw : d.weight < 2 ^ 32) (hread : d.keyReadable = true) : (keyRoundTrip d).result = .ok d.keyProjection := by
  cases h with
  | struct name members ext values hok hvalues =>
    obtain ⟨bytes, hser, hde⟩ := deserializeKeyCdr_serializeKeyCdr hok hvalues hkeys hw hread
    unfold keyRoundTrip
    rw [Outcome.result_bind_of_ok hser]
    exact hde
  | union => exact absurd rfl hkeys

/-- The key is read back from its bytes, so that samples with the same bytes have the same key. -/
theorem key_cdr_round_trip {d : DynamicData} (h : WellFormed d) (hkeys : keyMembersOrdered d.dynamicType ≠ [])
    (hw : d.weight < 2 ^ 32) (hread : d.keyReadable = true) :
    (keyRoundTrip d).result = .ok d.keyProjection ∧
      ∀ d' : DynamicData, WellFormed d' → d'.dynamicType = d.dynamicType → d'.weight < 2 ^ 32 → d'.keyReadable = true →
        (serializeKeyCdr d').result = (serializeKeyCdr d).result → d'.keyProjection = d.keyProjection := by
  refine ⟨result_keyRoundTrip h hkeys hw hread, fun d' h' htype hw' hread' hbytes => ?_⟩
  have hd := result_keyRoundTrip h hkeys hw hread
  have hd' := result_keyRoundTrip h' (by rw [htype]; exact hkeys) hw' hread'
  obtain ⟨bytes, hser, hde⟩ := Outcome.result_bind_eq_ok.1 hd
  obtain ⟨bytes', hser', hde'⟩ := Outcome.result_bind_eq_ok.1 hd'
  have hsame : bytes' = bytes := Result.ok.inj (hser'.symm.trans (hbytes.trans hser))
  rw [hsame, htype] at hde'
  exact Result.ok.inj (hde'.symm.trans hde)

def keyMember (name : String) (id : Nat) (kind : DynamicTypeKind) : MemberDescriptor :=
  ⟨name, id, kind, true, false, false, .discard⟩

def itemType : DynamicType :=
  ⟨"Item", .struct [keyMember "a" 0 (.primitive .int32), ⟨"b", 1, .primitive .int32, false, false, false, .discard⟩],
    .appendable⟩

def item : DynamicValue := .struct ⟨itemType, [("a", .int32 1), ("b", .int32 2)]⟩

theorem typed_item : Typed (.typeRef itemType) item :=
  .struct _ _ _ _ ⟨by decide, by rintro ⟨⟩⟩ (.set _ _ _ _ (.int32 1) (.set _ _ _ _ (.int32 2) .nil))

def sample (kind : DynamicTypeKind) (v : DynamicValue) : DynamicData :=
  ⟨⟨"Sample", .struct [keyMember "key" 0 kind], .final⟩, [("key", v)]⟩

theorem wellFormed_sample {kind : DynamicTypeKind} {v : DynamicValue} (h : Typed kind v) : WellFormed (sample kind v) :=
  .struct _ _ _ _ ⟨nodup_singleton _, by rintro ⟨⟩⟩ (.set _ _ _ _ h .nil)

theorem typed_items : TypedItems (.typeRef itemType) [item] := .cons _ _ _ typed_item (.nil _)

/-- Behind an array, structs are reduced on both sides. -/
theorem key_cdr_round_trip_array : (keyRoundTrip (sample (.array (.typeRef itemType) [1]) (.array [item]))).result =
    .ok (sample (.array (.typeRef itemType) [1]) (.array [item])).keyProjection :=
  (key_cdr_round_trip (wellFormed_sample (.array _ [1] _ (by decide) rfl typed_items)) (by decide +kernel)
    (by decide +kernel) (by decide +kernel)).1

/-- Behind a sequence, only the writer reduces structs; and a string that ends in a zero loses its terminator. -/
theorem key_cdr_lost :
    (WellFormed (sample (.sequence (.typeRef itemType) none) (.sequence [item])) ∧
      (keyRoundTrip (sample (.sequence (.typeRef itemType) none) (.sequence [item]))).result ≠
        .ok (sample (.sequence (.typeRef itemType) none) (.sequence [item])).keyProjection) ∧
    (WellFormed (sample (.string none) (.string "a\x00")) ∧
      (keyRoundTrip (sample (.string none) (.string "a\x00"))).result ≠
        .ok (sample (.string none) (.string "a\x00")).keyProjection) := by
  have hseq : (keyRoundTrip (sample (.sequence (.typeRef itemType) none) (.sequence [item]))).result.ok?.isNone := by
    decide +kernel
  have hstring : (keyRoundTrip (sample (.string none) (.string "a\x00"))).result.ok?.isNone := by decide +kernel
  refine ⟨⟨wellFormed_sample (.sequence _ _ _ (by rintro _ ⟨⟩) typed_items), fun h => ?_⟩,
    ⟨wellFormed_sample (.string _ _ (by rintro _ ⟨⟩)), fun h => ?_⟩⟩
  · rw [h] at hseq
    cases hseq
  · rw [h] at hstring
    cases hstring

end Int2Dds.XTypes
