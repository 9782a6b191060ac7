import Int2Dds.XTypes.DynamicData

/-!
# What an appendable object gives back

A value of a final struct without members takes no bytes. Where such members stand at the end of an appendable struct,
the object ends before them, and a reader takes them for members that the writer did not have: they get their default,
which for a struct is `null`.

`readBack` is the value after that loss, and `readBack_eq_iff` says for which values there is none.
-/

namespace Int2Dds.XTypes
open DynamicValue List DynamicData Bool

/-! ## Types without bytes -/

mutual

/-- Types whose values take no bytes: final structs with no members, or only with such members. -/
def DynamicTypeKind.hollow : DynamicTypeKind → Bool
  | .typeRef ⟨_, .struct members, .final⟩ => hollowMembers members
  | _ => false

def hollowMembers : List MemberDescriptor → Bool
  | [] => true
  | ⟨_, _, kind, _, isOptional, _, _⟩ :: members => (!isOptional && kind.hollow) && hollowMembers members

end

def MemberDescriptor.hollow (m : MemberDescriptor) : Bool := !m.isOptional && m.memberType.hollow

theorem hollowMembers_cons (m : MemberDescriptor) (members : List MemberDescriptor) :
    hollowMembers (m :: members) = (m.hollow && hollowMembers members) := by
  cases m
  rfl

theorem not_hollowMembers_of_optional {m : MemberDescriptor} {members : List MemberDescriptor}
    (hm : m.isOptional = true) :
    ¬ hollowMembers (m :: members) = true := by
  rw [hollowMembers_cons, MemberDescriptor.hollow, hm]
  exact false_ne_true

variable {kind : DynamicTypeKind}

theorem hollow_of_isPrimitiveKind (h : kind.isPrimitiveKind = true) : kind.hollow = false := by
  unfold DynamicTypeKind.hollow
  split
  · cases h
  · rfl

theorem defaultForKind_of_hollow (h : kind.hollow = true) :
    defaultForKind kind = .null := by
  unfold DynamicTypeKind.hollow at h
  split at h
  · rfl
  · cases h

theorem hollow_of_discriminator {disc : DynamicValue} {i : Int} (h : Typed kind disc)
    (hi : disc.discriminatorAsI64 = some i) : kind.hollow = false := by
  cases h with
  | struct => cases hi
  | _ => rfl

/-! ## Reading back -/

/-- The fields an appendable object gives back: it ends with its last byte, so members without bytes at its end take
their default. -/
def cutTail : List MemberDescriptor → List (String × DynamicValue) → List (String × DynamicValue)
  | [], values => values
  | m :: members, values =>
    if hollowMembers (m :: members) then (m :: members).map fun m => (m.name, .null)
    else if values.head?.map Prod.fst = some m.name then values.take 1 ++ cutTail members values.tail
    else cutTail members values

def keptFields (t : DynamicType) (values : List (String × DynamicValue)) : List (String × DynamicValue) :=
  match t.kind, t.extensibility with
  | .struct members, .appendable => cutTail members values
  | _, _ => values

section CutTail

variable {m : MemberDescriptor} {members : List MemberDescriptor} {v : DynamicValue}
  {values : List (String × DynamicValue)}

theorem cutTail_set (hhollow : ¬ hollowMembers (m :: members) = true) :
    cutTail (m :: members) ((m.name, v) :: values) = (m.name, v) :: cutTail members values := by
  rw [cutTail, if_neg hhollow, head?_cons, Option.map_some, if_pos rfl]
  rfl

theorem cutTail_absent (hhollow : ¬ hollowMembers (m :: members) = true) (hname : m.name ∉ values.map Prod.fst) :
    cutTail (m :: members) values = cutTail members values := by
  have hhead : ¬ values.head?.map Prod.fst = some m.name := by
    intro h
    obtain ⟨f, hf, hfst⟩ := Option.map_eq_some_iff.1 h
    exact hname (mem_map.2 ⟨f, mem_of_head? hf, hfst⟩)
  rw [cutTail, if_neg hhollow, if_neg hhead]

end CutTail

namespace DynamicValue

mutual

def readBack : DynamicValue → DynamicValue
  | .struct ⟨t, values⟩ => .struct ⟨t, keptFields t (readBackFields values)⟩
  | .union discriminator value => .union (readBack discriminator) (readBack value)
  | .sequence items => .sequence (readBackItems items)
  | .array items => .array (readBackItems items)
  | .map entries => .map (readBackEntries entries)
  | v => v

def readBackFields : List (String × DynamicValue) → List (String × DynamicValue)
  | [] => []
  | (name, v) :: fields => (name, readBack v) :: readBackFields fields

def readBackItems : List DynamicValue → List DynamicValue
  | [] => []
  | v :: items => readBack v :: readBackItems items

def readBackEntries : List (DynamicValue × DynamicValue) → List (DynamicValue × DynamicValue)
  | [] => []
  | (k, v) :: entries => (readBack k, readBack v) :: readBackEntries entries

end

theorem readBackFields_eq (fields : List (String × DynamicValue)) :
    readBackFields fields = fields.map fun f => (f.1, f.2.readBack) :=
  eq_map_of_cons rfl (fun _ _ => rfl) fields

theorem readBackItems_eq (items : List DynamicValue) : readBackItems items = items.map readBack :=
  eq_map_of_cons rfl (fun _ _ => rfl) items

theorem readBackEntries_eq (entries : List (DynamicValue × DynamicValue)) :
    readBackEntries entries = entries.map fun e => (e.1.readBack, e.2.readBack) :=
  eq_map_of_cons rfl (fun _ _ => rfl) entries

theorem discriminatorAsI64_readBack (v : DynamicValue) : v.readBack.discriminatorAsI64 = v.discriminatorAsI64 := by
  unfold readBack
  split <;> rfl

end DynamicValue

def DynamicData.readBack (d : DynamicData) : DynamicData :=
  ⟨d.dynamicType, keptFields d.dynamicType (readBackFields d.values)⟩

/-! ## Values without loss -/

/-- An appendable struct whose last member takes no bytes. -/
def DynamicType.endsHollow (t : DynamicType) : Bool :=
  match t.kind, t.extensibility with
  | .struct members, .appendable => members.getLast?.any MemberDescriptor.hollow
  | _, _ => false

namespace DynamicValue

mutual

/-- No struct in the value ends with a member that takes no bytes. -/
def endsSolid : DynamicValue → Bool
  | .struct ⟨t, values⟩ => !t.endsHollow && endsSolidFields values
  | .union discriminator value => endsSolid discriminator && endsSolid value
  | .sequence items => endsSolidItems items
  | .array items => endsSolidItems items
  | .map entries => endsSolidEntries entries
  | _ => true

def endsSolidFields : List (String × DynamicValue) → Bool
  | [] => true
  | (_, v) :: fields => endsSolid v && endsSolidFields fields

def endsSolidItems : List DynamicValue → Bool
  | [] => true
  | v :: items => endsSolid v && endsSolidItems items

def endsSolidEntries : List (DynamicValue × DynamicValue) → Bool
  | [] => true
  | (k, v) :: entries => (endsSolid k && endsSolid v) && endsSolidEntries entries

end

theorem endsSolidFields_eq (fields : List (String × DynamicValue)) :
    endsSolidFields fields = fields.all fun f => f.2.endsSolid :=
  eq_all_of_cons rfl (fun _ _ => rfl) fields

theorem endsSolidItems_eq (items : List DynamicValue) : endsSolidItems items = items.all endsSolid :=
  eq_all_of_cons rfl (fun _ _ => rfl) items

theorem endsSolidEntries_eq (entries : List (DynamicValue × DynamicValue)) :
    endsSolidEntries entries = entries.all fun e => e.1.endsSolid && e.2.endsSolid :=
  eq_all_of_cons rfl (fun _ _ => rfl) entries

end DynamicValue

def DynamicData.endsSolid (d : DynamicData) : Bool :=
  !d.dynamicType.endsHollow && endsSolidFields d.values

section Lossless

variable {m : MemberDescriptor} {members : List MemberDescriptor} {values : List (String × DynamicValue)}

theorem map_eq_self_iff {α : Type} {f : α → α} {l : List α} : l.map f = l ↔ ∀ a ∈ l, f a = a := by
  conv_lhs => rw [← map_id l, map_map]
  exact map_inj_left

theorem hollow_of_hollowMembers (h : hollowMembers members = true) (hm : m ∈ members) : m.hollow = true := by
  induction members with
  | nil => cases hm
  | cons m' members ih =>
    rw [hollowMembers_cons, and_eq_true] at h
    rcases mem_cons.1 hm with rfl | hm
    · exact h.1
    · exact ih h.2 hm

theorem getLast?_any_of_hollowMembers (h : hollowMembers (m :: members) = true) :
    (m :: members).getLast?.any MemberDescriptor.hollow = true := by
  exact hollow_of_hollowMembers h (getLast_mem _)

theorem getLast?_any_cons (h : ¬ hollowMembers (m :: members) = true) :
    (m :: members).getLast?.any MemberDescriptor.hollow = members.getLast?.any MemberDescriptor.hollow := by
  cases members with
  | nil =>
    rw [hollowMembers_cons, hollowMembers, Bool.and_true, Bool.not_eq_true] at h
    exact h
  | cons m' members => rw [getLast?_cons_cons]

theorem ne_null_of_hollow {v : DynamicValue} (h : Typed kind v) (hhollow : kind.hollow = true) :
    v ≠ .null := by
  rintro rfl
  cases h

theorem cutTail_eq_iff {back : DynamicValue → DynamicValue}
    (h : Fields (fun m v => Typed m.memberType v) members values)
    (hnames : (members.map fun m => m.name).Nodup) :
    cutTail members (values.map fun f => (f.1, back f.2)) = values ↔
      members.getLast?.any MemberDescriptor.hollow = false ∧ ∀ f ∈ values, back f.2 = f.2 := by
  induction h with
  | nil => exact iff_of_true rfl ⟨rfl, nofun⟩
  | set m members v values hv hvalues ih =>
    obtain ⟨hname, hnames⟩ := nodup_cons.1 hnames
    by_cases hhollow : hollowMembers (m :: members) = true
    · have hkind : m.memberType.hollow = true := by
        rw [hollowMembers_cons, MemberDescriptor.hollow, and_eq_true, and_eq_true] at hhollow
        exact hhollow.1.2
      refine iff_of_false (fun heq => ?_) (fun hlast => ?_)
      · rw [cutTail, if_pos hhollow, map_cons, cons_eq_cons, Prod.mk.injEq] at heq
        exact ne_null_of_hollow hv hkind heq.1.2.symm
      · rw [getLast?_any_of_hollowMembers hhollow] at hlast
        exact true_eq_false_eq_False hlast.1
    · rw [map_cons, cutTail_set hhollow, cons_eq_cons, Prod.mk.injEq, getLast?_any_cons hhollow,
        forall_mem_cons]
      tauto
  | absent m members values hm hvalues ih =>
    obtain ⟨hname, hnames⟩ := nodup_cons.1 hnames
    have hhollow : ¬ hollowMembers (m :: members) = true := not_hollowMembers_of_optional hm
    have hnotMem : m.name ∉ (values.map fun f => (f.1, back f.2)).map Prod.fst := by
      rw [map_map]
      exact fun hmem => hname (hvalues.mem_names hmem)
    rw [cutTail_absent hhollow hnotMem, getLast?_any_cons hhollow, ih hnames]

theorem keptFields_eq_iff {t : DynamicType} (ht : t.kind = .struct members)
    (h : Fields (fun m v => Typed m.memberType v) members values) (hnames : (members.map fun m => m.name).Nodup) :
    keptFields t (readBackFields values) = values ↔
      t.endsHollow = false ∧ ∀ f ∈ values, f.2.readBack = f.2 := by
  have hfields : readBackFields values = values ↔ ∀ f ∈ values, f.2.readBack = f.2 := by
    rw [readBackFields_eq, map_eq_self_iff]
    exact forall₂_congr fun f _ => ⟨fun heq => congrArg Prod.snd heq, fun heq => by rw [heq]⟩
  unfold keptFields DynamicType.endsHollow
  rw [ht]
  cases t.extensibility with
  | appendable =>
    rw [readBackFields_eq]
    exact cutTail_eq_iff h hnames
  | final | mutable => exact hfields.trans (and_iff_right rfl).symm

theorem readBack_eq_iff {v : DynamicValue} (h : Typed kind v) :
    v.readBack = v ↔ v.endsSolid = true := by
  induction h using Typed.induct with
  | primitive p v h => cases h <;> exact iff_of_true rfl rfl
  | string | wstring | enum | bitmask | bitset => exact iff_of_true rfl rfl
  | sequence kind bound items hbound hitems ih =>
    rw [DynamicValue.readBack, DynamicValue.endsSolid, DynamicValue.sequence.injEq, readBackItems_eq,
      map_eq_self_iff, endsSolidItems_eq, all_eq_true]
    exact forall₂_congr fun v hv => (ih v hv).2
  | array kind dimensions items hpos hlen hitems ih =>
    rw [DynamicValue.readBack, DynamicValue.endsSolid, DynamicValue.array.injEq, readBackItems_eq,
      map_eq_self_iff, endsSolidItems_eq, all_eq_true]
    exact forall₂_congr fun v hv => (ih v hv).2
  | map keyType valueType bound entries hbound hentries ih =>
    rw [DynamicValue.readBack, DynamicValue.endsSolid, DynamicValue.map.injEq, readBackEntries_eq,
      map_eq_self_iff, endsSolidEntries_eq, all_eq_true]
    refine forall₂_congr fun entry hentry => ?_
    rw [and_eq_true, ← (ih entry hentry).1.2, ← (ih entry hentry).2.2]
    exact Prod.mk.injEq .. ▸ Iff.rfl
  | struct name members ext values hok hvalues ih =>
    have hih : (∀ f ∈ values, f.2.readBack = f.2) ↔ ∀ f ∈ values, f.2.endsSolid = true :=
      forall₂_congr fun f hf => (ih.of_mem hf).elim fun _ hm => hm.2.2
    rw [DynamicValue.readBack, DynamicValue.endsSolid, DynamicValue.struct.injEq, DynamicData.mk.injEq,
      keptFields_eq_iff rfl hvalues.fields hok.names, endsSolidFields_eq, and_eq_true,
      not_eq_true', all_eq_true, hih]
    exact and_iff_right rfl
  | union name kind tc members ext disc v i m hdisc hi hm hid hv ihdisc ihv =>
    rw [DynamicValue.readBack, DynamicValue.endsSolid, DynamicValue.union.injEq, Bool.and_eq_true, ihdisc, ihv]

theorem DynamicData.readBack_eq {d : DynamicData} :
    d.readBack = d ↔ keptFields d.dynamicType (readBackFields d.values) = d.values := by
  cases d
  exact ⟨fun h => congrArg values h, fun h => congrArg (mk _) h⟩

theorem readBack_data_eq_iff {d : DynamicData} (h : WellFormed d) : d.readBack = d ↔ d.endsSolid = true := by
  cases h with
  | struct name members e values hok hvalues =>
    have h := readBack_eq_iff (.struct name members e values hok hvalues)
    rwa [DynamicValue.readBack, DynamicValue.struct.injEq] at h
  | union name kind tc members e disc v i m hdisc hi hm hid hv hname =>
    have hfields : readBackFields [(unionDiscriminatorField, disc), (m.name, v)] =
        [(unionDiscriminatorField, disc), (m.name, v)] ↔ disc.readBack = disc ∧ v.readBack = v := by
      simp [readBackFields]
    rw [DynamicData.readBack_eq]
    show readBackFields [(unionDiscriminatorField, disc), (m.name, v)] = _ ↔ _
    rw [hfields, readBack_eq_iff hdisc, readBack_eq_iff hv]
    simp [DynamicData.endsSolid, DynamicType.endsHollow, endsSolidFields]

end Lossless

end Int2Dds.XTypes
