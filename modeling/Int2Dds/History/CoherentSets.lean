import Int2Dds.History.CoherentBuffer

/-!
# Coherent sets are returned whole or not at all

`WriterStream` is what one writer sends: changes outside of sets, and sets of consecutive members with the end
marker at the next sequence number. The arrivals at a reader are any part of the streams of its writers, in the
order of each writer, interleaved in any way.
-/

namespace Int2Dds.History
open Lib Rtps CoherentBuffer List Option CacheChange

/-! ## What a writer sends -/

inductive Segment where
  /-- A change outside of every set. -/
  | single (change : CacheChange)
  /-- A set, with its end marker unless the set is still open. -/
  | set (start : Int) (members : List CacheChange) (marker : Option CacheChange)

def Segment.changes : Segment → List CacheChange
  | single c => [c]
  | set _ members marker => members ++ marker.toList

/-- The changes are `w`'s and take the sequence numbers from `sn` on. -/
def Consecutive (w : Guid) (sn : Int) (changes : List CacheChange) : Prop :=
  ∀ (i : Nat) (c : CacheChange), changes[i]? = some c → c.writerGuid = w ∧ c.sequenceNumber = sn + i

def CacheChange.EndsSet (c : CacheChange) : Prop := c.isCoherentEndMarker = true ∨ c.isEndCoherentSet = true

/-- What writer `w` sends from sequence number `sn` on. Only the last set may lack its marker. -/
def WriterStream (w : Guid) (sn : Int) : List Segment → Prop
  | [] => True
  | .single c :: rest =>
    c.writerGuid = w ∧ c.sequenceNumber = sn ∧ c.coherentSet = none ∧ WriterStream w (sn + 1) rest
  | .set start members marker :: rest =>
    start = sn ∧ members ≠ [] ∧ Consecutive w sn members ∧ (∀ m ∈ members, m.coherentSet = some start) ∧
      match marker with
      | none => rest = []
      | some e => e.writerGuid = w ∧ e.sequenceNumber = sn + members.length ∧ e.EndsSet ∧
          WriterStream w (sn + members.length + 1) rest

theorem Consecutive.bounds {w : Guid} {sn : Int} {changes : List CacheChange} (h : Consecutive w sn changes)
    {c : CacheChange} (hc : c ∈ changes) :
    c.writerGuid = w ∧ sn ≤ c.sequenceNumber ∧ c.sequenceNumber < sn + changes.length := by
  obtain ⟨i, hi⟩ := mem_iff_getElem?.1 hc
  obtain ⟨hw, hsn⟩ := h i c hi
  have hlen : i < changes.length := (List.getElem?_eq_some_iff.1 hi).1
  exact ⟨hw, by omega, by omega⟩

theorem Consecutive.getElem?_of_mem {w : Guid} {sn : Int} {changes : List CacheChange}
    (h : Consecutive w sn changes) {c : CacheChange} (hc : c ∈ changes) {i : Nat} (hi : c.sequenceNumber = sn + i) :
    changes[i]? = some c := by
  obtain ⟨j, hj⟩ := mem_iff_getElem?.1 hc
  obtain ⟨-, hsn⟩ := h j c hj
  obtain rfl : i = j := by omega
  exact hj

section Stream
variable {w : Guid} {sn : Int} {segments : List Segment}

theorem WriterStream.tail {s : Segment} (h : WriterStream w sn (s :: segments)) :
    ∃ sn', sn ≤ sn' ∧ WriterStream w sn' segments ∧
      ∀ c ∈ s.changes, c.writerGuid = w ∧ sn ≤ c.sequenceNumber ∧ c.sequenceNumber < sn' := by
  cases s with
  | single c =>
    obtain ⟨hw, hsn, -, hrest⟩ := h
    refine ⟨sn + 1, by omega, hrest, fun d hd => ?_⟩
    rw [mem_singleton.1 hd]
    exact ⟨hw, by omega, by omega⟩
  | set start members marker =>
    obtain ⟨-, -, hmembers, -, hmarker⟩ := h
    cases marker with
    | none =>
      refine ⟨sn + members.length, by omega, ?_, fun d hd => ?_⟩
      · rw [hmarker]
        trivial
      · exact hmembers.bounds (by simpa [Segment.changes] using hd)
    | some e =>
      obtain ⟨hw, hsn, -, hrest⟩ := hmarker
      refine ⟨_, by omega, hrest, fun d hd => ?_⟩
      rcases mem_append.1 hd with hd | hd
      · obtain ⟨h1, h2, h3⟩ := hmembers.bounds hd
        exact ⟨h1, h2, by omega⟩
      · rw [mem_singleton.1 hd]
        exact ⟨hw, by omega, by omega⟩

variable {c : CacheChange} {marker : Option CacheChange} {members : List CacheChange} {start last : Int}
  {p : PendingCoherentSet} {b : CoherentBuffer}

theorem WriterStream.le_sequenceNumber (h : WriterStream w sn segments) (hc : c ∈ segments.flatMap Segment.changes) :
    sn ≤ c.sequenceNumber := by
  induction segments generalizing sn with
  | nil => cases hc
  | cons s rest ih =>
    obtain ⟨sn', hle, hrest, hs⟩ := h.tail
    rw [flatMap_cons, mem_append] at hc
    rcases hc with hc | hc
    · exact (hs c hc).2.1
    · exact hle.trans (ih hrest hc)

/-- A set of the stream, and where the other changes stand: before the set, at its marker, or after that. -/
structure SetOf (w : Guid) (segments : List Segment) (start : Int) (members : List CacheChange) : Prop where
  nonempty : members ≠ []
  consecutive : Consecutive w start members
  named : ∀ m ∈ members, m.coherentSet = some start
  place : ∀ c ∈ segments.flatMap Segment.changes, c ∈ members ∨ c.sequenceNumber < start ∨
    (c.sequenceNumber = start + members.length ∧ c.EndsSet) ∨ start + members.length < c.sequenceNumber

theorem WriterStream.setOf_head (h : WriterStream w sn (.set start members marker :: segments)) :
    SetOf w (.set start members marker :: segments) start members := by
  obtain ⟨rfl, hne, hmembers, hnamed, hmarker⟩ := h
  refine ⟨hne, hmembers, hnamed, fun c hc => ?_⟩
  rw [flatMap_cons, mem_append, Segment.changes, mem_append] at hc
  cases marker with
  | none =>
    rw [hmarker] at hc
    exact .inl (by simpa using hc)
  | some e =>
    obtain ⟨-, hsn, hends, hrest⟩ := hmarker
    rcases hc with (hc | hc) | hc
    · exact .inl hc
    · rw [mem_singleton.1 hc]
      exact .inr (.inr (.inl ⟨hsn, hends⟩))
    · have := hrest.le_sequenceNumber hc
      exact .inr (.inr (.inr (by omega)))

theorem WriterStream.setOf (h : WriterStream w sn segments) (hset : Segment.set start members marker ∈ segments) :
    sn ≤ start ∧ SetOf w segments start members := by
  induction segments generalizing sn with
  | nil => cases hset
  | cons s rest ih =>
    rcases mem_cons.1 hset with rfl | hset
    · exact ⟨h.1.ge, h.setOf_head⟩
    · obtain ⟨sn', hle, hrest, hs⟩ := h.tail
      obtain ⟨hstart, hof⟩ := ih hrest hset
      refine ⟨hle.trans hstart, hof.nonempty, hof.consecutive, hof.named, fun c hc => ?_⟩
      rw [flatMap_cons, mem_append] at hc
      rcases hc with hc | hc
      · have := (hs c hc).2.2
        exact .inr (.inl (by omega))
      · exact hof.place c hc

theorem WriterStream.set_unique (h : WriterStream w sn segments) {members' : List CacheChange}
    {marker' : Option CacheChange} (hset : Segment.set start members marker ∈ segments)
    (hset' : Segment.set start members' marker' ∈ segments) : members = members' := by
  induction segments generalizing sn with
  | nil => cases hset
  | cons s rest ih =>
    obtain ⟨sn', -, hrest, hs⟩ := h.tail
    -- a set after the first segment starts above it
    have hlater : ∀ {m : List CacheChange} {k : Option CacheChange}, s = .set start m k →
        ∀ {m' : List CacheChange} {k' : Option CacheChange}, Segment.set start m' k' ∈ rest → False := by
      intro m k hs' m' k' hmem
      subst hs'
      obtain ⟨e, he⟩ := exists_mem_of_ne_nil m h.setOf_head.nonempty
      have hlt := (hs e (mem_append_left _ he)).2.2
      have hge := (h.setOf_head.consecutive.bounds he).2.1
      have := (hrest.setOf hmem).1
      omega
    rcases mem_cons.1 hset with heq | hset <;> rcases mem_cons.1 hset' with heq' | hset'
    · rw [← heq] at heq'
      exact (Segment.set.inj heq').2.1.symm
    · exact (hlater heq.symm hset').elim
    · exact (hlater heq'.symm hset).elim
    · exact ih hrest hset hset'

theorem WriterStream.exists_set (h : WriterStream w sn segments) (hc : c ∈ segments.flatMap Segment.changes)
    (hstart : c.coherentSet = some start) :
    c.EndsSet ∨ ∃ members marker, Segment.set start members marker ∈ segments ∧ c ∈ members := by
  induction segments generalizing sn with
  | nil => cases hc
  | cons s rest ih =>
    obtain ⟨sn', -, hrest, -⟩ := h.tail
    rw [flatMap_cons, mem_append] at hc
    rcases hc with hc | hc
    · cases s with
      | single d =>
        rw [mem_singleton.1 hc, h.2.2.1] at hstart
        cases hstart
      | set start' members marker =>
        rcases mem_append.1 hc with hc | hc
        · obtain rfl : start' = start := by
            have := h.setOf_head.named c hc
            rw [hstart] at this
            exact (some.inj this).symm
          exact .inr ⟨members, marker, mem_cons_self, hc⟩
        · cases marker with
          | none => cases hc
          | some e =>
            rw [mem_singleton.1 hc]
            exact .inl h.2.2.2.2.2.2.1
    · rcases ih hrest hc with hends | ⟨members, marker, hset, hmem⟩
      · exact .inl hends
      · exact .inr ⟨members, marker, mem_cons_of_mem _ hset, hmem⟩

/-- A change of the stream after the start of a set and not in it stands at the set's end or after. -/
theorem SetOf.end_le (hof : SetOf w segments start members) (hc : c ∈ segments.flatMap Segment.changes)
    (hlt : start < c.sequenceNumber) (hnot : c ∉ members) :
    start + members.length ≤ c.sequenceNumber ∧ (¬ c.EndsSet → start + members.length < c.sequenceNumber) := by
  rcases hof.place c hc with h | h | ⟨h, hends⟩ | h
  · exact absurd h hnot
  · omega
  · exact ⟨h.ge, fun hn => absurd hends hn⟩
  · exact ⟨h.le, fun _ => h⟩

/-! ## The open set of a writer -/

/-- An open set is one of the stream, and holds some of its members in order, none of them after `last`. -/
structure PendingInv (segments : List Segment) (last : Int) (p : PendingCoherentSet) : Prop where
  isSet : ∃ members marker, Segment.set p.setStartSn members marker ∈ segments ∧ ∀ c ∈ p.changes, c ∈ members
  sorted : p.changes.Pairwise (fun c d => c.sequenceNumber < d.sequenceNumber)
  le_last : ∀ c ∈ p.changes, c.sequenceNumber ≤ last
  start_le : p.setStartSn ≤ last

theorem PendingInv.mono {last' : Int} (h : PendingInv segments last p) (hle : last ≤ last') :
    PendingInv segments last' p :=
  ⟨h.isSet, h.sorted, fun c hc => (h.le_last c hc).trans hle, h.start_le.trans hle⟩

/-- A set found complete up to its end or beyond ended where the writer ended it. -/
theorem changes_eq_members (hmembers : Consecutive w p.setStartSn members) (hsub : ∀ c ∈ p.changes, c ∈ members)
    (hsorted : p.changes.Pairwise (fun c d => c.sequenceNumber < d.sequenceNumber)) {endSn : Int}
    (hend : p.setStartSn + members.length ≤ endSn) (hcomplete : p.isComplete endSn = true) : p.changes = members := by
  have hat : ∀ i < members.length, ∃ c, p.changes[i]? = some c ∧ c.sequenceNumber = p.setStartSn + i := by
    intro i hi
    have hcheck := all_eq_true.1 hcomplete i (mem_range.2 (by omega))
    rw [beq_iff_eq, map_eq_some_iff] at hcheck
    exact hcheck
  apply ext_getElem?
  intro i
  rcases lt_or_ge i members.length with hi | hi
  · obtain ⟨c, hc, hsn⟩ := hat i hi
    rw [hc, hmembers.getElem?_of_mem (hsub c (mem_of_getElem? hc)) hsn]
  · rw [getElem?_eq_none hi]
    cases hd : p.changes[i]? with
    | none => rfl
    | some d =>
      -- a further change would repeat the sequence number of one of the first `members.length`
      have hdm := hsub d (mem_of_getElem? hd)
      obtain ⟨j, hj⟩ := mem_iff_getElem?.1 hdm
      have hjlt : j < members.length := (List.getElem?_eq_some_iff.1 hj).1
      obtain ⟨c, hc, hcsn⟩ := hat j hjlt
      obtain ⟨hj', hcj⟩ := List.getElem?_eq_some_iff.1 hc
      obtain ⟨hi', hdi⟩ := List.getElem?_eq_some_iff.1 hd
      have hlt := pairwise_iff_getElem.1 hsorted j i hj' hi' (by omega)
      rw [hcj, hdi, (hmembers j d hj).2] at hlt
      omega

/-- The changes of the set that starts at `start` among those an arrival lets through. -/
def membersOf (w : Guid) (start : Int) (out : List (CacheChange × Bool)) : List CacheChange :=
  (out.map Prod.fst).filter fun c => c.writerGuid = w ∧ c.coherentSet = some start

theorem membersOf_eq_nil {out : List (CacheChange × Bool)}
    (h : ∀ a ∈ out, a.1.writerGuid = w → a.1.coherentSet ≠ some start) : membersOf w start out = [] := by
  apply filter_eq_nil_iff.2
  rintro c hc
  obtain ⟨a, ha, rfl⟩ := mem_map.1 hc
  simpa using h a ha

theorem membersOf_set (hof : SetOf w segments start members) :
    membersOf w start (members.map (·, false)) = members := by
  have hmap : (members.map (·, false)).map Prod.fst = members := by simp [Function.comp_def]
  rw [membersOf, hmap, filter_eq_self]
  intro c hc
  simpa using ⟨(hof.consecutive.bounds hc).1, hof.named c hc⟩

namespace CoherentBuffer

theorem closed_of_none {b : CoherentBuffer} (h : b.coherentPending.lookup w = none) (endSn : Int) :
    b.closed w endSn = ([], b) := by
  simp [closed, closeAndTakeCoherentSet, h, CoherentSetCloseResult.intoCompleteMembers]

theorem closed_of_some {b : CoherentBuffer} {p : PendingCoherentSet} (h : b.coherentPending.lookup w = some p)
    (endSn : Int) :
    b.closed w endSn = (if p.isComplete endSn then p.changes.map (·, false) else [],
      { b with coherentPending := b.coherentPending.erase w }) := by
  unfold closed closeAndTakeCoherentSet
  rw [h]
  by_cases hc : p.isComplete endSn = true <;> simp [hc, CoherentSetCloseResult.intoCompleteMembers]

section

variable (b : CoherentBuffer)

theorem lookup_closed (endSn : Int) :
    (b.closed w endSn).2.coherentPending.lookup w = none := by
  cases h : b.coherentPending.lookup w with
  | none => rw [closed_of_none h]; exact h
  | some p => rw [closed_of_some h]; exact AList.lookup_erase w _

theorem lookup_closed_ne {u : Guid} (hu : w ≠ u) (endSn : Int) :
    (b.closed u endSn).2.coherentPending.lookup w = b.coherentPending.lookup w := by
  cases h : b.coherentPending.lookup u with
  | none => rw [closed_of_none h]
  | some p => rw [closed_of_some h]; exact AList.lookup_erase_ne hu

theorem lookup_bufferCoherentMember (setId : Int) :
    ∃ changes, (b.bufferCoherentMember w setId c).coherentPending.lookup w =
        some ⟨((b.coherentPending.lookup w).getD ⟨setId, []⟩).setStartSn, changes⟩ ∧
      (changes = [] ∨ changes = ((b.coherentPending.lookup w).getD ⟨setId, []⟩).changes ++ [c]) := by
  refine ⟨_, AList.lookup_insert _, ?_⟩
  split_ifs
  · exact .inl rfl
  · exact .inr rfl

theorem lookup_bufferCoherentMember_ne {u : Guid} (hu : w ≠ u) (setId : Int) :
    (b.bufferCoherentMember u setId c).coherentPending.lookup w = b.coherentPending.lookup w :=
  AList.lookup_insert_ne hu

theorem prepare_cases (f : Bool) :
    (c.isCoherentEndMarker = true ∧
      b.prepareChangesToCommit true c f = b.closed c.writerGuid c.sequenceNumber) ∨
    (c.isEndCoherentSet = true ∧ b.prepareChangesToCommit true c f = ([], b)) ∨
    (¬ c.EndsSet ∧ c.coherentSet = none ∧ b.prepareChangesToCommit true c f =
      ((b.closed c.writerGuid (c.sequenceNumber - 1)).1 ++ [(c, f)],
        (b.closed c.writerGuid (c.sequenceNumber - 1)).2)) ∨
    ∃ setId, ¬ c.EndsSet ∧ c.coherentSet = some setId ∧
      (((∃ p, b.coherentPending.lookup c.writerGuid = some p ∧ p.setStartSn ≠ setId) ∧
        b.prepareChangesToCommit true c f = ((b.closed c.writerGuid (c.sequenceNumber - 1)).1,
          (b.closed c.writerGuid (c.sequenceNumber - 1)).2.bufferCoherentMember c.writerGuid setId c)) ∨
      ((∀ p, b.coherentPending.lookup c.writerGuid = some p → p.setStartSn = setId) ∧
        b.prepareChangesToCommit true c f = ([], b.bufferCoherentMember c.writerGuid setId c))) := by
  unfold prepareChangesToCommit
  by_cases hm : c.isCoherentEndMarker = true
  · exact .inl ⟨hm, by simp [hm]⟩
  by_cases he : c.isEndCoherentSet = true
  · exact .inr (.inl ⟨he, by simp [hm, he]⟩)
  have hends : ¬ c.EndsSet := fun h => h.elim hm he
  cases hset : c.coherentSet with
  | none =>
    refine .inr (.inr (.inl ⟨hends, rfl, ?_⟩))
    cases hp : b.coherentPending.lookup c.writerGuid with
    | none => simp [hm, he, closed_of_none hp]
    | some p => simp [hm, he, hp]
  | some setId =>
    refine .inr (.inr (.inr ⟨setId, hends, rfl, ?_⟩))
    cases hp : b.coherentPending.lookup c.writerGuid with
    | none => exact .inr ⟨nofun, by simp [hm, he, hp]⟩
    | some p =>
      by_cases hs : p.setStartSn = setId
      · refine .inr ⟨fun q hq => ?_, by simp [hm, he, hp, hs]⟩
        rw [← some.inj hq]
        exact hs
      · exact .inl ⟨⟨p, rfl, hs⟩, by simp [hm, he, hp, hs]⟩

end

end CoherentBuffer

/-! ## One arrival -/

/-- A set ended at its end or beyond leaves the buffer, and is returned whole or not at all. -/
theorem closed_members (hstream : WriterStream w sn segments) {endSn : Int}
    (hinv : ∀ p, b.coherentPending.lookup w = some p → PendingInv segments last p)
    (hend : ∀ p members marker, b.coherentPending.lookup w = some p →
      Segment.set p.setStartSn members marker ∈ segments → p.setStartSn + members.length ≤ endSn)
    (hset : Segment.set start members marker ∈ segments) :
    membersOf w start (b.closed w endSn).1 = [] ∨
      (membersOf w start (b.closed w endSn).1 = members ∧ start + members.length ≤ endSn ∧
        ∃ p, b.coherentPending.lookup w = some p ∧ p.setStartSn = start) := by
  cases hp : b.coherentPending.lookup w with
  | none =>
    rw [closed_of_none hp]
    exact .inl rfl
  | some p =>
    obtain ⟨members', marker', hset', hsub⟩ := (hinv p hp).isSet
    have hof := (hstream.setOf hset').2
    rw [closed_of_some hp]
    split_ifs with hc
    · rw [changes_eq_members hof.consecutive hsub (hinv p hp).sorted (hend p _ _ hp hset') hc]
      by_cases hstart : p.setStartSn = start
      · subst hstart
        obtain rfl := hstream.set_unique hset hset'
        exact .inr ⟨membersOf_set hof, hend p _ _ hp hset', p, rfl, rfl⟩
      · left
        apply membersOf_eq_nil
        rintro a ha - hnamed
        obtain ⟨m, hm, rfl⟩ := mem_map.1 ha
        rw [hof.named m hm] at hnamed
        exact hstart (some.inj hnamed)
    · exact .inl rfl

theorem pendingInv_buffer (hstream : WriterStream w sn segments) (hlast : last < c.sequenceNumber) {setId : Int}
    (hset : Segment.set setId members marker ∈ segments) (hc : c ∈ members)
    (hinv : ∀ p, b.coherentPending.lookup w = some p → PendingInv segments last p ∧ p.setStartSn = setId)
    (hp : (b.bufferCoherentMember w setId c).coherentPending.lookup w = some p) :
    PendingInv segments c.sequenceNumber p ∧ p.setStartSn = setId := by
  obtain ⟨changes, hlookup, hchanges⟩ := lookup_bufferCoherentMember (w := w) b setId
  obtain rfl := some.inj (hp.symm.trans hlookup)
  have hstart := ((hstream.setOf hset).2.consecutive.bounds hc).2.1
  -- the members already in the buffer
  obtain ⟨hid, hsub, hsorted, hle⟩ :
      ((b.coherentPending.lookup w).getD ⟨setId, []⟩).setStartSn = setId ∧
      (∀ d ∈ ((b.coherentPending.lookup w).getD ⟨setId, []⟩).changes, d ∈ members) ∧
      ((b.coherentPending.lookup w).getD ⟨setId, []⟩).changes.Pairwise
        (fun d e => d.sequenceNumber < e.sequenceNumber) ∧
      ∀ d ∈ ((b.coherentPending.lookup w).getD ⟨setId, []⟩).changes, d.sequenceNumber ≤ last := by
    cases hq : b.coherentPending.lookup w with
    | none => simp
    | some q =>
      obtain ⟨hqinv, rfl⟩ := hinv q hq
      obtain ⟨members', marker', hset', hsub⟩ := hqinv.isSet
      obtain rfl := hstream.set_unique hset hset'
      exact ⟨rfl, hsub, hqinv.sorted, hqinv.le_last⟩
  have hnew : (∀ d ∈ changes, d ∈ members) ∧
      changes.Pairwise (fun d e => d.sequenceNumber < e.sequenceNumber) ∧
      ∀ d ∈ changes, d.sequenceNumber ≤ c.sequenceNumber := by
    rcases hchanges with rfl | rfl
    · simp
    · refine ⟨fun d hd => ?_, pairwise_append.2 ⟨hsorted, pairwise_singleton _ _, fun d hd e he => ?_⟩,
        fun d hd => ?_⟩
      · rcases mem_append.1 hd with hd | hd
        · exact hsub d hd
        · rw [mem_singleton.1 hd]
          exact hc
      · rw [mem_singleton.1 he]
        exact (hle d hd).trans_lt hlast
      · rcases mem_append.1 hd with hd | hd
        · exact (hle d hd).trans hlast.le
        · rw [mem_singleton.1 hd]
  exact ⟨⟨⟨members, marker, by rwa [hid], hnew.1⟩, hnew.2.1, hnew.2.2, by rwa [hid]⟩, hid⟩

theorem SetOf.not_mem_of_isCoherentEndMarker (hof : SetOf w segments start members) (hpos : 0 < start)
    (hc : c.isCoherentEndMarker = true) : c ∉ members := by
  intro hmem
  simp only [isCoherentEndMarker, hof.named c hmem, Bool.and_eq_true, Bool.or_eq_true, beq_iff_eq,
    reduceCtorEq, false_or, some.injEq] at hc
  have := hc.1.1
  unfold snUnknown at this
  omega

/-- What an arrival may do to the set from `start`: `returned` comes out, and it is open in `b` before and in `b'`
after. -/
structure StepOf (w : Guid) (start : Int) (members : List CacheChange) (c : CacheChange) (b b' : CoherentBuffer)
    (returned : List CacheChange) : Prop where
  whole : returned = [] ∨ (returned = members ∧ start + members.length ≤ c.sequenceNumber ∧
    (∃ p, b.coherentPending.lookup w = some p ∧ p.setStartSn = start) ∧
    ∀ p, b'.coherentPending.lookup w = some p → p.setStartSn ≠ start)
  opened : ∀ p, b'.coherentPending.lookup w = some p → p.setStartSn = start →
    c ∈ members ∨ ∃ q, b.coherentPending.lookup w = some q ∧ q.setStartSn = start

/-- One arrival of the writer keeps the invariant, and returns the set only when it closes it. -/
theorem prepare_step (hstream : WriterStream w sn segments) (hpos : 0 < sn)
    (hinv : ∀ p, b.coherentPending.lookup w = some p → PendingInv segments last p)
    (hc : c ∈ segments.flatMap Segment.changes) (hw : c.writerGuid = w) (hlast : last < c.sequenceNumber) (f : Bool)
    (hset : Segment.set start members marker ∈ segments) :
    (∀ p, (b.prepareChangesToCommit true c f).2.coherentPending.lookup w = some p →
      PendingInv segments c.sequenceNumber p) ∧
    StepOf w start members c b (b.prepareChangesToCommit true c f).2
      (membersOf w start (b.prepareChangesToCommit true c f).1) := by
  -- a change outside of the open set comes at its end or later
  have hpast {e : Int} (he : c.sequenceNumber ≤ e ∨ ¬ c.EndsSet ∧ c.sequenceNumber - 1 ≤ e)
      (hout : ∀ p ms mk, b.coherentPending.lookup w = some p → Segment.set p.setStartSn ms mk ∈ segments → c ∉ ms) :
      ∀ p ms mk, b.coherentPending.lookup w = some p → Segment.set p.setStartSn ms mk ∈ segments →
        p.setStartSn + ms.length ≤ e := by
    intro p ms mk hp hms
    obtain ⟨h1, h2⟩ := (hstream.setOf hms).2.end_le hc ((hinv p hp).start_le.trans_lt hlast) (hout p ms mk hp hms)
    rcases he with he | ⟨hends, he⟩
    · exact h1.trans he
    · have := h2 hends
      omega
  rcases prepare_cases b f with ⟨hm, heq⟩ | ⟨he, heq⟩ | ⟨hends, hnone, heq⟩ |
    ⟨setId, hends, hsome, ⟨⟨q, hq, hne⟩, heq⟩ | ⟨hsame, heq⟩⟩ <;> rw [hw] at * <;> rw [heq]
  · -- the end marker of the writer's set
    have hclosed := lookup_closed (w := w) b c.sequenceNumber
    have hend := hpast (.inl le_rfl) fun p ms mk hp hms => by
      obtain ⟨hle, hof⟩ := hstream.setOf hms
      exact hof.not_mem_of_isCoherentEndMarker (by omega) hm
    refine ⟨by simp [hclosed], ⟨?_, by simp [hclosed]⟩⟩
    rcases closed_members hstream hinv hend hset with h | ⟨h, hle, hp⟩
    · exact .inl h
    · exact .inr ⟨h, hle, hp, by simp [hclosed]⟩
  · -- the end marker of a group's set
    exact ⟨fun p hp => (hinv p hp).mono hlast.le, ⟨.inl rfl, fun p hp hstart => .inr ⟨p, hp, hstart⟩⟩⟩
  · -- a change outside of sets
    have hclosed := lookup_closed (w := w) b (c.sequenceNumber - 1)
    have hend := hpast (.inr ⟨hends, le_rfl⟩) fun p ms mk hp hms hmem => by
      rw [(hstream.setOf hms).2.named c hmem] at hnone
      cases hnone
    have hself : membersOf w start [(c, f)] = [] := membersOf_eq_nil (by simp [hnone])
    refine ⟨by simp [hclosed], ⟨?_, by simp [hclosed]⟩⟩
    unfold membersOf at hself ⊢
    rw [map_append, filter_append, hself, append_nil]
    rcases closed_members hstream hinv hend hset with h | ⟨h, hle, hp⟩
    · exact .inl h
    · exact .inr ⟨h, by omega, hp, by simp [hclosed]⟩
  · -- a member of another set than the open one
    obtain ⟨members', marker', hset', hmem'⟩ := (hstream.exists_set hc hsome).resolve_left hends
    have hclosed := lookup_closed (w := w) b (c.sequenceNumber - 1)
    have hend := hpast (.inr ⟨hends, le_rfl⟩) fun p ms mk hp hms hmem => by
      rw [(hstream.setOf hms).2.named c hmem] at hsome
      obtain rfl := some.inj (hp.symm.trans hq)
      exact hne (some.inj hsome)
    have hbuffer := fun p hp => pendingInv_buffer hstream hlast hset' hmem'
      (b := (b.closed w (c.sequenceNumber - 1)).2) (by simp [hclosed]) (p := p) hp
    have hopened : ∀ p, ((b.closed w (c.sequenceNumber - 1)).2.bufferCoherentMember w setId c).coherentPending.lookup w
        = some p → p.setStartSn = start → c ∈ members := by
      intro p hp hstart
      obtain rfl : setId = start := (hbuffer p hp).2.symm.trans hstart
      rwa [hstream.set_unique hset hset']
    refine ⟨fun p hp => (hbuffer p hp).1, ⟨?_, fun p hp hstart => .inl (hopened p hp hstart)⟩⟩
    rcases closed_members hstream hinv hend hset with h | ⟨h, hle, hp⟩
    · exact .inl h
    · refine .inr ⟨h, by omega, hp, fun p hp hstart => ?_⟩
      have := ((hstream.setOf hset).2.consecutive.bounds (hopened p hp hstart)).2.2
      omega
  · -- a member of the open set, or the first of a set
    obtain ⟨members', marker', hset', hmem'⟩ := (hstream.exists_set hc hsome).resolve_left hends
    have hbuffer := fun p hp => pendingInv_buffer hstream hlast hset' hmem'
      (b := b) (fun q hq => ⟨hinv q hq, hsame q hq⟩) (p := p) hp
    refine ⟨fun p hp => (hbuffer p hp).1, ⟨.inl rfl, fun p hp hstart => .inl ?_⟩⟩
    obtain rfl : setId = start := (hbuffer p hp).2.symm.trans hstart
    rwa [hstream.set_unique hset hset']

/-! ## The arrivals of other writers -/

/-- The buffer holds under each writer changes of that writer. -/
def OwnEntries (b : CoherentBuffer) : Prop :=
  ∀ u p, b.coherentPending.lookup u = some p → ∀ c ∈ p.changes, c.writerGuid = u

theorem ownEntries_closed (h : OwnEntries b) (u : Guid) (endSn : Int) :
    OwnEntries (b.closed u endSn).2 ∧ ∀ a ∈ (b.closed u endSn).1, a.1.writerGuid = u := by
  constructor
  · intro v p hp
    by_cases hv : v = u
    · subst hv
      rw [lookup_closed] at hp
      cases hp
    · rw [lookup_closed_ne b hv] at hp
      exact h v p hp
  · cases hp : b.coherentPending.lookup u with
    | none =>
      rw [closed_of_none hp]
      exact forall_mem_nil _
    | some p =>
      intro a ha
      rw [closed_of_some hp] at ha
      split_ifs at ha
      · obtain ⟨c, hc, rfl⟩ := mem_map.1 ha
        exact h u p hp c hc
      · cases ha

theorem ownEntries_buffer (h : OwnEntries b) (setId : Int) :
    OwnEntries (b.bufferCoherentMember c.writerGuid setId c) := by
  intro v p hp
  by_cases hv : v = c.writerGuid
  · subst hv
    obtain ⟨changes, hlookup, hchanges⟩ :=
      lookup_bufferCoherentMember (w := c.writerGuid) b setId
    obtain rfl := some.inj (hp.symm.trans hlookup)
    have hold : ∀ d ∈ ((b.coherentPending.lookup c.writerGuid).getD ⟨setId, []⟩).changes,
        d.writerGuid = c.writerGuid := by
      cases hq : b.coherentPending.lookup c.writerGuid with
      | none => simp
      | some q => exact h _ q hq
    intro d hd
    rcases hchanges with rfl | rfl
    · cases hd
    · rcases mem_append.1 hd with hd | hd
      · exact hold d hd
      · rw [mem_singleton.1 hd]
  · rw [lookup_bufferCoherentMember_ne b hv] at hp
    exact h v p hp

theorem prepare_frame (h : OwnEntries b) (f : Bool) :
    OwnEntries (b.prepareChangesToCommit true c f).2 ∧
    (∀ a ∈ (b.prepareChangesToCommit true c f).1, a.1.writerGuid = c.writerGuid) ∧
    ∀ u ≠ c.writerGuid,
      (b.prepareChangesToCommit true c f).2.coherentPending.lookup u = b.coherentPending.lookup u := by
  rcases prepare_cases b f with ⟨-, heq⟩ | ⟨-, heq⟩ | ⟨-, -, heq⟩ | ⟨setId, -, -, ⟨-, heq⟩ | ⟨-, heq⟩⟩ <;>
    rw [heq]
  · obtain ⟨h1, h2⟩ := ownEntries_closed h c.writerGuid c.sequenceNumber
    exact ⟨h1, h2, fun u hu => lookup_closed_ne b hu _⟩
  · exact ⟨h, forall_mem_nil _, fun _ _ => rfl⟩
  · obtain ⟨h1, h2⟩ := ownEntries_closed h c.writerGuid (c.sequenceNumber - 1)
    refine ⟨h1, fun a ha => ?_, fun u hu => lookup_closed_ne b hu _⟩
    rcases mem_append.1 ha with ha | ha
    · exact h2 a ha
    · rw [mem_singleton.1 ha]
  · obtain ⟨h1, h2⟩ := ownEntries_closed h c.writerGuid (c.sequenceNumber - 1)
    refine ⟨ownEntries_buffer h1 setId, h2, fun u hu => ?_⟩
    rw [lookup_bufferCoherentMember_ne _ hu, lookup_closed_ne b hu]
  · exact ⟨ownEntries_buffer h setId, forall_mem_nil _,
      fun u hu => lookup_bufferCoherentMember_ne b hu setId⟩

/-! ## All arrivals -/

def CoherentBuffer.prepareAll (b : CoherentBuffer) : List (CacheChange × Bool) → List (List (CacheChange × Bool))
  | [] => []
  | (c, f) :: arrivals =>
    (b.prepareChangesToCommit true c f).1 :: (b.prepareChangesToCommit true c f).2.prepareAll arrivals

/-- The parts of the set that starts at `start` that the arrivals return, in order. -/
def returnsOf (w : Guid) (start : Int) (b : CoherentBuffer) (arrivals : List (CacheChange × Bool)) :
    List (List CacheChange) :=
  ((b.prepareAll arrivals).map (membersOf w start)).filter (· ≠ [])

theorem returnsOf_cons (f : Bool) (arrivals : List (CacheChange × Bool)) :
    returnsOf w start b ((c, f) :: arrivals) =
      (if membersOf w start (b.prepareChangesToCommit true c f).1 = [] then []
        else [membersOf w start (b.prepareChangesToCommit true c f).1]) ++
      returnsOf w start (b.prepareChangesToCommit true c f).2 arrivals := by
  unfold returnsOf
  rw [prepareAll]
  split_ifs <;> simp_all

def arrivalsOf (w : Guid) (arrivals : List (CacheChange × Bool)) : List CacheChange :=
  (arrivals.map Prod.fst).filter (fun c => c.writerGuid = w)

/-- The arrivals of `w` are changes of the stream, after `last` and in order. -/
def InOrder (w : Guid) (segments : List Segment) (last : Int) (arrivals : List (CacheChange × Bool)) : Prop :=
  (∀ c ∈ arrivalsOf w arrivals, c ∈ segments.flatMap Segment.changes ∧ last < c.sequenceNumber) ∧
    (arrivalsOf w arrivals).Pairwise (fun c d => c.sequenceNumber < d.sequenceNumber)

theorem InOrder.tail {f : Bool} {arrivals : List (CacheChange × Bool)}
    (h : InOrder w segments last ((c, f) :: arrivals)) :
    (c.writerGuid ≠ w → InOrder w segments last arrivals) ∧
    (c.writerGuid = w → c ∈ segments.flatMap Segment.changes ∧ last < c.sequenceNumber ∧
      InOrder w segments c.sequenceNumber arrivals) := by
  obtain ⟨hmem, hsorted⟩ := h
  constructor
  · intro hw
    have heq : arrivalsOf w ((c, f) :: arrivals) = arrivalsOf w arrivals := by simp [arrivalsOf, hw]
    rw [heq] at hmem hsorted
    exact ⟨hmem, hsorted⟩
  · intro hw
    have heq : arrivalsOf w ((c, f) :: arrivals) = c :: arrivalsOf w arrivals := by simp [arrivalsOf, hw]
    rw [heq] at hmem hsorted
    obtain ⟨hc, hlast⟩ := hmem c mem_cons_self
    refine ⟨hc, hlast, fun d hd => ⟨(hmem d (mem_cons_of_mem _ hd)).1, ?_⟩, hsorted.of_cons⟩
    exact rel_of_pairwise_cons hsorted hd

/-- Arrivals return a set at most once, and then whole, and never once it is behind them and closed. -/
theorem returnsOf_inOrder (hstream : WriterStream w sn segments) (hpos : 0 < sn)
    (hset : Segment.set start members marker ∈ segments) (arrivals : List (CacheChange × Bool)) (hown : OwnEntries b)
    (hinv : ∀ p, b.coherentPending.lookup w = some p → PendingInv segments last p)
    (horder : InOrder w segments last arrivals) :
    (returnsOf w start b arrivals = [] ∨ returnsOf w start b arrivals = [members]) ∧
    (start + members.length ≤ last → (∀ p, b.coherentPending.lookup w = some p → p.setStartSn ≠ start) →
      returnsOf w start b arrivals = []) := by
  induction arrivals generalizing b last with
  | nil => exact ⟨.inl rfl, fun _ _ => rfl⟩
  | cons a arrivals ih =>
    obtain ⟨c, f⟩ := a
    obtain ⟨hown', hfrom, hframe⟩ := prepare_frame hown f
    rw [returnsOf_cons]
    by_cases hw : c.writerGuid = w
    · obtain ⟨hc, hlast, horder'⟩ := horder.tail.2 hw
      obtain ⟨hinv', hstep⟩ := prepare_step hstream hpos hinv hc hw hlast f hset
      obtain ⟨hany, hbehind⟩ := ih hown' hinv' horder'
      rcases hstep.whole with hnil | ⟨hwhole, hend, hopen, hshut⟩
      · rw [if_pos hnil]
        refine ⟨hany, fun hle hclosed => hbehind (by omega) fun p hp hstart => ?_⟩
        rcases hstep.opened p hp hstart with hmem | ⟨q, hq, hqstart⟩
        · have := ((hstream.setOf hset).2.consecutive.bounds hmem).2.2
          omega
        · exact hclosed q hq hqstart
      · rw [if_neg (by rw [hwhole]; exact (hstream.setOf hset).2.nonempty), hwhole, hbehind hend hshut]
        refine ⟨.inr rfl, fun _ hclosed => ?_⟩
        obtain ⟨p, hp, hstart⟩ := hopen
        exact absurd hstart (hclosed p hp)
    · have hnil : membersOf w start (b.prepareChangesToCommit true c f).1 = [] :=
        membersOf_eq_nil fun a ha haw => absurd ((hfrom a ha).symm.trans haw) hw
      have hsame := hframe w (Ne.symm hw)
      rw [if_pos hnil]
      obtain ⟨hany, hbehind⟩ := ih hown' (by rwa [hsame]) (horder.tail.1 hw)
      exact ⟨hany, fun hle hclosed => hbehind hle (by rwa [hsame])⟩

end Stream

/-- Whatever the buffer limit of a reader with coherent access: if each writer's changes arrive in order, some lost,
interleaved with those of others, every set is returned never, or once and whole: exactly the sequence numbers from
its first one to that of its last member. -/
theorem coherent_set_whole_or_never (limit : Nat) (streams : Guid → List Segment) (first : Guid → Int)
    (hstreams : ∀ w, 0 < first w ∧ WriterStream w (first w) (streams w)) (arrivals : List (CacheChange × Bool))
    (harrive : ∀ w, ∀ c ∈ arrivalsOf w arrivals, c ∈ (streams w).flatMap Segment.changes)
    (horder : ∀ w, (arrivalsOf w arrivals).Pairwise (fun c d => c.sequenceNumber < d.sequenceNumber))
    (w : Guid) (start : Int) (members : List CacheChange) (marker : Option CacheChange)
    (hset : Segment.set start members marker ∈ streams w) :
    (returnsOf w start (CoherentBuffer.new limit) arrivals = [] ∨
      returnsOf w start (CoherentBuffer.new limit) arrivals = [members]) ∧
    members.map CacheChange.sequenceNumber = (List.range members.length).map (fun i : Nat => start + (i : Int)) := by
  obtain ⟨hpos, hstream⟩ := hstreams w
  have hempty : ∀ u, (CoherentBuffer.new limit).coherentPending.lookup u = none := fun u => AList.lookup_empty u
  have hin : InOrder w (streams w) (first w - 1) arrivals := by
    refine ⟨fun c hc => ⟨harrive w c hc, ?_⟩, horder w⟩
    have := hstream.le_sequenceNumber (harrive w c hc)
    omega
  have hreturns := returnsOf_inOrder hstream hpos hset arrivals (b := CoherentBuffer.new limit)
    (fun u p hp => by rw [hempty u] at hp; cases hp) (fun p hp => by rw [hempty w] at hp; cases hp) hin
  refine ⟨hreturns.1, ext_getElem? fun i => ?_⟩
  rw [getElem?_map]
  cases hi : members[i]? with
  | none => simp [getElem?_eq_none_iff.1 hi]
  | some c =>
    have hlt : i < members.length := (List.getElem?_eq_some_iff.1 hi).1
    simp [getElem?_range hlt, ((hstream.setOf hset).2.consecutive i c hi).2]

/-- A sample that is a member of the set at `start`, or of none. -/
def sampleOf (w : Guid) (sn : Int) (start : Option Int) : CacheChange :=
  { CacheChange.new .alive w InstanceHandle.nil sn [0] none with presentationInfo := ⟨start, none, none⟩ }

/-- The marker of a set of two is lost, and the next sample of the writer closes the set. -/
theorem coherent_set_whole_or_never_lost_marker :
    let w : Guid := ⟨1, 2⟩
    let members := [sampleOf w 1 (some 1), sampleOf w 2 (some 1)]
    let arrivals := [(sampleOf w 1 (some 1), true), (sampleOf w 2 (some 1), true), (sampleOf w 4 none, true)]
    (returnsOf w 1 (CoherentBuffer.new 10) arrivals = [] ∨ returnsOf w 1 (CoherentBuffer.new 10) arrivals = [members])
      ∧ members.map sequenceNumber = (range 2).map (fun i : Nat => 1 + (i : Int)) := by
  intro w members arrivals
  let streams : Guid → List Segment := fun u =>
    if u = w then
      [.set 1 members (some (new .alive w InstanceHandle.nil 3 [] none)), .single (sampleOf w 4 none)]
    else []
  have hconsecutive : Consecutive w 1 members := by
    intro i c hc
    match i with
    | 0 | 1 => cases hc; exact ⟨rfl, rfl⟩
    | i + 2 => cases hc
  have hother : ∀ u, u ≠ w → arrivalsOf u arrivals = [] := by
    intro u hu
    simp [arrivalsOf, arrivals, sampleOf, CacheChange.new, Ne.symm hu]
  refine coherent_set_whole_or_never 10 streams (fun _ => 1) (fun u => ⟨by decide, ?_⟩) arrivals (fun u c hc => ?_)
    (fun u => ?_) w 1 members (some (new .alive w InstanceHandle.nil 3 [] none)) (by simp [streams])
  · by_cases hu : u = w
    · subst hu
      exact ⟨rfl, by simp [members], hconsecutive, by simp [members, sampleOf], rfl, by decide, .inl (by decide),
        rfl, by decide, rfl, trivial⟩
    · simp [streams, hu, WriterStream]
  · by_cases hu : u = w
    · subst hu
      have hall : arrivalsOf w arrivals = [sampleOf w 1 (some 1), sampleOf w 2 (some 1), sampleOf w 4 none] := by
        simp [arrivalsOf, arrivals, sampleOf, CacheChange.new]
      rw [hall] at hc
      simp only [mem_cons, not_mem_nil, or_false] at hc
      rcases hc with rfl | rfl | rfl <;> simp [streams, Segment.changes, members]
    · rw [hother u hu] at hc
      cases hc
  · by_cases hu : u = w
    · subst hu
      simp [arrivalsOf, arrivals, sampleOf, CacheChange.new]
    · rw [hother u hu]
      exact Pairwise.nil

end Int2Dds.History
