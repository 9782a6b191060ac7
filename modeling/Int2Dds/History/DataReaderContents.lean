import Int2Dds.History.DataReaderHistory

/-!
# What a data reader's history holds

The history is a map from instances to buckets; its contents as one list, `getChanges`, are what the properties
of the reader are about. This module says what each operation does to that list:

* `getChanges_removeChange` : a removal filters it;
* `getChanges_insertChangeSorted` : an insertion adds one change, up to the order;
* `bucketOf_eq_filter` : a bucket is the part of the list with its handle;
* `makes_ensureCapacity`, `stores_addChangeWithCleanup` : storing a change adds it and takes out at most one other;
  in every other outcome the contents stay.
-/

namespace Int2Dds.History
open Lib Rtps List OrdList

/-! ## Lists of buckets -/

/-- The name and the instance of `d` are those of `c`. -/
def SameSample (c d : CacheChange) : Prop := d.instanceHandle = c.instanceHandle ∧ d.id = c.id

instance (c d : CacheChange) : Decidable (SameSample c d) := inferInstanceAs (Decidable (_ ∧ _))

theorem SameSample.refl (c : CacheChange) : SameSample c c := ⟨rfl, rfl⟩

variable {c : CacheChange}

theorem SameSample.trans {a b : CacheChange} (hab : SameSample a b) (hbc : SameSample b c) : SameSample a c :=
  ⟨hbc.1.trans hab.1, hbc.2.trans hab.2⟩

def named (changes : List CacheChange) (c : CacheChange) : Bool := changes.any (fun d => decide (SameSample d c))

theorem named_iff {changes : List CacheChange} : named changes c = true ↔ ∃ d ∈ changes, SameSample d c := by
  simp [named]

theorem Bucket.filter_handle (b : Bucket) (handle : InstanceHandle) :
    b.changes.filter (fun c => decide (c.instanceHandle = handle)) =
      if b.instanceHandle = handle then b.changes else [] := by
  split_ifs with h
  · exact filter_eq_self.2 fun c hc => by simp [b.own c hc, h]
  · exact filter_eq_nil_iff.2 fun c hc => by simp [b.own c hc, h]

theorem Bucket.changes_filter_sameSample (b : Bucket) {_ : Decidable (b.instanceHandle = c.instanceHandle)} :
    (if b.instanceHandle = c.instanceHandle then b.filter (fun d => decide (d.id ≠ c.id)) else b).changes =
      b.changes.filter (fun d => decide (¬ SameSample c d)) := by
  split_ifs with h
  · refine filter_congr fun d hd => ?_
    simp [SameSample, b.own d hd, h]
  · refine (filter_eq_self.2 fun d hd => ?_).symm
    simp [SameSample, b.own d hd, h]

theorem Bucket.changes_insert (kind : DestinationOrderKind) {b : Bucket} (h : b.instanceHandle = c.instanceHandle) :
    (b.insert kind c).changes = insertSorted kind b.changes c := by
  simp [Bucket.insert, h]

theorem flatMap_insertNewList_empty (handle : InstanceHandle) (l : List Bucket) :
    (insertNewList Bucket.instanceHandle (Bucket.empty handle) l).flatMap Bucket.changes =
      l.flatMap Bucket.changes := by
  induction l with
  | nil => rfl
  | cons b l ih =>
    unfold insertNewList
    split_ifs
    · rfl
    · rfl
    · rw [flatMap_cons, ih, flatMap_cons]

theorem flatMap_insert_perm (kind : DestinationOrderKind)
    {_ : DecidablePred (fun b : Bucket => b.instanceHandle = c.instanceHandle)} {l : List Bucket}
    (hl : l.Pairwise (fun a b => a.instanceHandle < b.instanceHandle))
    (hmem : ∃ b ∈ l, b.instanceHandle = c.instanceHandle) :
    ((l.map fun b => if b.instanceHandle = c.instanceHandle then b.insert kind c else b).flatMap Bucket.changes).Perm
      (c :: l.flatMap Bucket.changes) := by
  induction l with
  | nil =>
    obtain ⟨b, hb, -⟩ := hmem
    cases hb
  | cons b l ih =>
    rw [map_cons, flatMap_cons]
    by_cases hb : b.instanceHandle = c.instanceHandle
    · -- the other buckets are of later instances
      have hrest : (l.map fun d => if d.instanceHandle = c.instanceHandle then d.insert kind c else d) = l := by
        conv_rhs => rw [← map_id l]
        refine map_congr_left fun d hd => ?_
        have hlt := rel_of_pairwise_cons hl hd
        rw [if_neg (by rw [← hb]; exact hlt.ne')]
        rfl
      rw [hrest, if_pos hb, Bucket.changes_insert kind hb]
      exact (Bucket.insertSorted_perm kind b.changes c).append_right _
    · rw [if_neg hb]
      have hmem' : ∃ d ∈ l, d.instanceHandle = c.instanceHandle := by
        obtain ⟨d, hd, hdc⟩ := hmem
        rcases mem_cons.1 hd with rfl | hd
        · exact absurd hdc hb
        · exact ⟨d, hd, hdc⟩
      exact ((ih hl.of_cons hmem').append_left _).trans perm_middle

namespace DataReaderHistoryCache

variable {h : DataReaderHistoryCache}

/-! ## The contents after each operation -/

theorem mem_bucketOf {handle : InstanceHandle} {c : CacheChange} :
    c ∈ h.bucketOf handle ↔ c ∈ h.getChanges ∧ c.instanceHandle = handle := by
  unfold bucketOf getChanges
  rw [mem_flatMap]
  constructor
  · intro hc
    cases hb : h.instanceMap.find? handle with
    | none =>
      rw [hb] at hc
      cases hc
    | some b =>
      rw [hb] at hc
      obtain ⟨hmem, hkey⟩ := find?_eq_some.1 hb
      exact ⟨⟨b, hmem, hc⟩, (b.own c hc).trans hkey⟩
  · rintro ⟨⟨b, hb, hc⟩, rfl⟩
    rw [find?_eq_some.2 ⟨hb, (b.own c hc).symm⟩]
    exact hc

section

variable (h : DataReaderHistoryCache)

theorem bucketOf_eq_filter (handle : InstanceHandle) :
    h.bucketOf handle = h.getChanges.filter (fun c => decide (c.instanceHandle = handle)) := by
  unfold bucketOf getChanges OrdList.find?
  rw [filter_flatMap]
  obtain ⟨l, hl⟩ := h.instanceMap
  induction l with
  | nil => rfl
  | cons b l ih =>
    rw [flatMap_cons, Bucket.filter_handle, find?_cons]
    by_cases hb : b.instanceHandle = handle
    · have hrest : l.flatMap (fun d => d.changes.filter (fun c => decide (c.instanceHandle = handle))) = [] := by
        refine flatMap_eq_nil_iff.2 fun d hd => ?_
        have hlt := rel_of_pairwise_cons hl hd
        rw [Bucket.filter_handle, if_neg (by rw [← hb]; exact hlt.ne')]
      simp [hb, hrest]
    · simp only [hb]
      exact ih hl.of_cons

theorem getChanges_removeChange :
    (h.removeChange c).getChanges = h.getChanges.filter (fun d => decide (¬ SameSample c d)) := by
  unfold getChanges removeChange OrdList.modify
  rw [filter_flatMap, flatMap_map]
  congr 1
  funext b
  exact b.changes_filter_sameSample

theorem getChanges_insertChangeSorted : (h.insertChangeSorted c).getChanges.Perm (c :: h.getChanges) := by
  unfold getChanges
  rw [← flatMap_insertNewList_empty c.instanceHandle h.instanceMap.toList]
  refine flatMap_insert_perm h.destinationOrderKind (h.instanceMap.insertNew (Bucket.empty c.instanceHandle)).sorted ?_
  have hfind := find?_insertNew h.instanceMap (Bucket.empty c.instanceHandle) c.instanceHandle
  rw [if_pos (show c.instanceHandle = (Bucket.empty c.instanceHandle).instanceHandle from rfl),
    find?_eq_some] at hfind
  exact ⟨_, hfind.1, hfind.2⟩

theorem unusedInstance_spec {h : DataReaderHistoryCache} {unused : InstanceHandle}
    (hu : h.unusedInstance = some unused) : ∃ b ∈ h.instanceMap, b.instanceHandle = unused ∧ b.changes = [] := by
  obtain ⟨b, hb, rfl⟩ := Option.map_eq_some_iff.1 hu
  have hfound := find?_some hb
  simp only [Bool.and_eq_true, List.isEmpty_iff] at hfound
  exact ⟨b, mem_of_find?_eq_some hb, rfl, hfound.1⟩

theorem getChanges_removeUnusedInstance :
    h.removeUnusedInstance.2.getChanges = h.getChanges := by
  unfold removeUnusedInstance
  cases hu : h.unusedInstance with
  | none => rfl
  | some handle =>
    obtain ⟨b, hbm, rfl, hempty⟩ := unusedInstance_spec hu
    -- the bucket that goes is empty
    unfold getChanges removeAllInstanceResources OrdList.filter
    dsimp only
    have hsame : ∀ d ∈ h.instanceMap.toList, d.instanceHandle = b.instanceHandle → d.changes = [] := by
      intro d hd hkey
      rw [eq_of_key_eq hd hbm hkey, hempty]
    generalize h.instanceMap.toList = l at hsame
    induction l with
    | nil => rfl
    | cons d l ih =>
      have ih' := ih (forall_mem_cons.1 hsame).2
      rw [filter_cons, flatMap_cons]
      by_cases hd : d.instanceHandle = b.instanceHandle
      · simp only [hd, ne_eq]
        rw [hsame d mem_cons_self hd]
        exact ih'
      · simp only [hd, ne_eq, not_false_eq_true, decide_true, if_true]
        rw [flatMap_cons, ih']

end

/-! ## Storing a change -/

def remaining (removed : Option CacheChange) (changes : List CacheChange) : List CacheChange :=
  removed.elim changes (fun r => changes.filter (fun d => decide (¬ SameSample r d)))

/-- What making room does: at most one change leaves, and it was stored. -/
inductive Makes (h : DataReaderHistoryCache) :
    Except DdsError (Option CacheChange) × DataReaderHistoryCache → Prop
  | failed {e : DdsError} {h' : DataReaderHistoryCache} (same : h'.getChanges = h.getChanges) : Makes h (.error e, h')
  | ok {removed : Option CacheChange} {h' : DataReaderHistoryCache} (stored : ∀ r ∈ removed, r ∈ h.getChanges)
      (rest : h'.getChanges = remaining removed h.getChanges) : Makes h (.ok removed, h')

variable {h h' : DataReaderHistoryCache} {res : Except DdsError (Option CacheChange) × DataReaderHistoryCache}

theorem Makes.of_same (hsame : h'.getChanges = h.getChanges) (hm : Makes h' res) : Makes h res := by
  cases hm with
  | failed same => exact .failed (same.trans hsame)
  | ok stored rest =>
    rw [hsame] at stored rest
    exact .ok stored rest

theorem oldestChangeOfAll_mem {c : CacheChange} (hc : h.oldestChangeOfAll = some c) :
    c ∈ h.getChanges ∧ ∃ rest, h.bucketOf c.instanceHandle = c :: rest := by
  have hmem := argmin_mem hc
  obtain ⟨b, hb, hhead⟩ := mem_filterMap.1 hmem
  obtain ⟨rest, hrest⟩ := head?_eq_some_iff.1 hhead
  have hcb : c ∈ b.changes := by rw [hrest]; exact mem_cons_self
  refine ⟨mem_flatMap.2 ⟨b, hb, hcb⟩, rest, ?_⟩
  unfold bucketOf
  rw [find?_eq_some.2 ⟨hb, (b.own c hcb).symm⟩]
  exact hrest

/-- The ways of making room for one more sample in the whole cache. -/
inductive SampleRoom (h : DataReaderHistoryCache) :
    Except DdsError (Option CacheChange) × DataReaderHistoryCache → Prop
  | refused (e : DdsError) : SampleRoom h (.error e, h)
  | room (free : h.isMaxSamplesExceeded = false) : SampleRoom h (.ok none, h)
  | evicted {c : CacheChange} (auto : h.canAutoRemove = true) (full : h.isMaxSamplesExceeded = true)
      (oldest : h.oldestChangeOfAll = some c) : SampleRoom h (.ok (some c), h.removeChange c)

theorem sampleRoom_ensureSampleCapacity (h : DataReaderHistoryCache) : SampleRoom h h.ensureSampleCapacity := by
  unfold ensureSampleCapacity
  cases hfull : h.isMaxSamplesExceeded with
  | false => exact .room hfull
  | true =>
    cases hauto : h.canAutoRemove with
    | false => exact .refused _
    | true =>
      unfold tryRemoveOldestChangeOfAll
      cases hold : h.oldestChangeOfAll with
      | none => exact .refused _
      | some c => exact .evicted hauto hfull hold

/-- The ways of making room: a full instance gives up its oldest sample, and a cache with no room for one more
instance an unused one. -/
inductive Room (h : DataReaderHistoryCache) (handle : InstanceHandle) :
    Except DdsError (Option CacheChange) × DataReaderHistoryCache → Prop
  | refused (e : DdsError) : Room h handle (.error e, h)
  | evicted {c : CacheChange} (keyed : handle.isNil = false) (auto : h.canAutoRemove = true)
      (full : h.isMaxSamplesPerInstanceExceeded handle = true) (oldest : (h.bucketOf handle).head? = some c) :
      Room h handle (.ok (some c), h.removeChange c)
  | sample {res : Except DdsError (Option CacheChange) × DataReaderHistoryCache}
      (free : handle.isNil = true ∨ handle.isNil = false ∧ h.isMaxSamplesPerInstanceExceeded handle = false ∧
        h.isMaxInstancesExceeded handle = false) (room : SampleRoom h res) : Room h handle res
  | reclaimed {unused : InstanceHandle} {res : Except DdsError (Option CacheChange) × DataReaderHistoryCache}
      (keyed : handle.isNil = false) (free : h.isMaxSamplesPerInstanceExceeded handle = false)
      (full : h.isMaxInstancesExceeded handle = true) (found : h.unusedInstance = some unused)
      (room : SampleRoom (h.removeAllInstanceResources unused) res) : Room h handle res

theorem room_ensureCapacity (h : DataReaderHistoryCache) (handle : InstanceHandle) :
    Room h handle (h.ensureCapacity handle) := by
  unfold ensureCapacity
  cases hnil : handle.isNil with
  | true =>
    rw [if_pos rfl]
    exact .sample (.inl hnil) (sampleRoom_ensureSampleCapacity h)
  | false =>
    rw [if_neg Bool.false_ne_true]
    cases hper : h.isMaxSamplesPerInstanceExceeded handle with
    | true =>
      cases hauto : h.canAutoRemove with
      | false => exact .refused _
      | true =>
        unfold tryRemoveOldestChangeOfInstance
        cases hold : (h.bucketOf handle).head? with
        | none => exact .refused _
        | some c => exact .evicted hnil hauto hper hold
    | false =>
      rw [if_neg Bool.false_ne_true]
      cases hinst : h.isMaxInstancesExceeded handle with
      | false =>
        rw [if_neg Bool.false_ne_true]
        exact .sample (.inr ⟨hnil, hper, hinst⟩) (sampleRoom_ensureSampleCapacity h)
      | true =>
        rw [if_pos rfl]
        unfold removeUnusedInstance
        cases hunused : h.unusedInstance with
        | none => exact .refused _
        | some unused => exact .reclaimed hnil hper hinst hunused (sampleRoom_ensureSampleCapacity _)

theorem SampleRoom.makes (hr : SampleRoom h res) : Makes h res := by
  cases hr with
  | refused e => exact .failed rfl
  | room free => exact .ok (fun r hr => absurd hr (Option.not_mem_none r)) rfl
  | evicted auto full oldest =>
    refine .ok (fun r hr => ?_) (getChanges_removeChange h)
    cases hr
    exact (oldestChangeOfAll_mem oldest).1

theorem makes_ensureCapacity (h : DataReaderHistoryCache) (handle : InstanceHandle) :
    Makes h (h.ensureCapacity handle) := by
  have hroom := room_ensureCapacity h handle
  generalize h.ensureCapacity handle = res at hroom
  cases hroom with
  | refused e => exact .failed rfl
  | evicted keyed auto full oldest =>
    refine .ok (fun r hr => ?_) (getChanges_removeChange h)
    cases hr
    exact (mem_bucketOf.1 (mem_of_mem_head? oldest)).1
  | sample free room => exact room.makes
  | reclaimed keyed free full found room =>
    have hsame := getChanges_removeUnusedInstance h
    rw [removeUnusedInstance, found] at hsame
    exact Makes.of_same hsame room.makes

/-- The two caches differ only in their samples and in what is kept for the filters. -/
def SameSettings (h h' : DataReaderHistoryCache) : Prop :=
  h' = { h with
    instanceMap := h'.instanceMap
    timeBasedFilter := h'.timeBasedFilter
    seenFiniteLifespan := h'.seenFiniteLifespan }

theorem SameSettings.canAutoRemove (hs : SameSettings h h') :
    h'.canAutoRemove = h.canAutoRemove := by rw [hs]

theorem SampleRoom.sameSettings (hr : SampleRoom h res) : SameSettings h res.2 := by
  cases hr <;> rfl

theorem sameSettings_ensureCapacity (h : DataReaderHistoryCache) (handle : InstanceHandle) :
    SameSettings h (h.ensureCapacity handle).2 := by
  have hroom := room_ensureCapacity h handle
  generalize h.ensureCapacity handle = res at hroom
  cases hroom with
  | refused e => rfl
  | evicted keyed auto full oldest => rfl
  | sample free room => exact room.sameSettings
  | reclaimed keyed free full found room =>
    have hset := room.sameSettings
    rw [hset]
    rfl

theorem ensureCapacity_noRemoval {handle : InstanceHandle} (hauto : h.canAutoRemove = false)
    {removed : Option CacheChange} (hres : h.ensureCapacity handle = (.ok removed, h')) : removed = none := by
  have hroom := room_ensureCapacity h handle
  rw [hres] at hroom
  have hsample (h₁ : DataReaderHistoryCache) (hauto₁ : h₁.canAutoRemove = false)
      (hr : SampleRoom h₁ (.ok removed, h')) : removed = none := by
    cases hr with
    | room free => rfl
    | evicted auto => exact absurd (auto.symm.trans hauto₁) Bool.noConfusion
  cases hroom with
  | evicted keyed auto => exact absurd (auto.symm.trans hauto) Bool.noConfusion
  | sample free room => exact hsample h hauto room
  | reclaimed keyed free full found room => exact hsample (h.removeAllInstanceResources _) hauto room

/-- Everything that `addChangeWithCleanup` does before it makes room leaves the buckets alone. -/
structure SameBuckets (h h' : DataReaderHistoryCache) : Prop where
  instanceMap : h'.instanceMap = h.instanceMap
  maxSamples : h'.maxSamples = h.maxSamples
  maxInstances : h'.maxInstances = h.maxInstances
  maxSamplesPerInstance : h'.maxSamplesPerInstance = h.maxSamplesPerInstance
  destinationOrderKind : h'.destinationOrderKind = h.destinationOrderKind
  canAutoRemove : h'.canAutoRemove = h.canAutoRemove
  ownershipKind : h'.ownershipKind = h.ownershipKind

theorem SameBuckets.refl (h : DataReaderHistoryCache) : SameBuckets h h := ⟨rfl, rfl, rfl, rfl, rfl, rfl, rfl⟩

theorem SameBuckets.trans {h₁ h₂ h₃ : DataReaderHistoryCache} (h12 : SameBuckets h₁ h₂) (h23 : SameBuckets h₂ h₃) :
    SameBuckets h₁ h₃ :=
  ⟨h23.1.trans h12.1, h23.2.trans h12.2, h23.3.trans h12.3, h23.4.trans h12.4, h23.5.trans h12.5, h23.6.trans h12.6,
    h23.7.trans h12.7⟩

theorem SameBuckets.getChanges (hs : SameBuckets h h') : h'.getChanges = h.getChanges := by
  unfold DataReaderHistoryCache.getChanges
  rw [hs.instanceMap]

section

variable (h : DataReaderHistoryCache)

theorem sameBuckets_addToOwnerCandidateIfNew (handle : InstanceHandle) (strength : Int)
    (guid : Guid) : SameBuckets h (h.addToOwnerCandidateIfNew handle strength guid) :=
  ⟨rfl, rfl, rfl, rfl, rfl, rfl, rfl⟩

theorem sameBuckets_applyTimeBasedFilter (r : DataReaderView) (c : CacheChange)
    (applyFilter : Bool) : SameBuckets h (h.applyTimeBasedFilter r c applyFilter).2 := by
  unfold applyTimeBasedFilter
  split_ifs
  · exact ⟨rfl, rfl, rfl, rfl, rfl, rfl, rfl⟩
  · exact SameBuckets.refl h
  · exact ⟨rfl, rfl, rfl, rfl, rfl, rfl, rfl⟩
  · exact SameBuckets.refl h

theorem sameBuckets_revokeWriterOwnership (r : DataReaderView) (guid : Guid)
    (handle : InstanceHandle) : SameBuckets h (h.revokeWriterOwnership r guid handle).2 := by
  unfold revokeWriterOwnership
  split
  · exact SameBuckets.refl h
  · exact ⟨rfl, rfl, rfl, rfl, rfl, rfl, rfl⟩

theorem sameBuckets_updateInstanceState (r : DataReaderView) (c : CacheChange) :
    SameBuckets h (h.updateInstanceState r c).2 := by
  unfold updateInstanceState
  dsimp only
  split
  · exact SameBuckets.refl h
  · split
    · exact sameBuckets_revokeWriterOwnership h r _ _
    · exact sameBuckets_revokeWriterOwnership h r _ _
    · exact SameBuckets.refl h

/-- Storing a change adds it, and at most one other leaves, unless it is held or refused. -/
inductive Stores (h : DataReaderHistoryCache) (c : CacheChange) :
    Except DdsError (Option CacheChange × Bool) × DataReaderHistoryCache → Prop
  | refused {e : DdsError} {h' : DataReaderHistoryCache} (same : h'.getChanges = h.getChanges) :
      Stores h c (.error e, h')
  | held {h' : DataReaderHistoryCache} (same : h'.getChanges = h.getChanges) : Stores h c (.ok (none, true), h')
  | stored {removed : Option CacheChange} {h' : DataReaderHistoryCache} (mem : ∀ d ∈ removed, d ∈ h.getChanges)
      (perm : h'.getChanges.Perm (c :: remaining removed h.getChanges)) : Stores h c (.ok (removed, false), h')

/-- The ways `addChangeWithCleanup` ends. Room is made in a cache `hm` with the samples of `h`. -/
inductive Adds (h : DataReaderHistoryCache) (r : DataReaderView) (c : CacheChange) :
    Except DdsError (Option CacheChange × Bool) × DataReaderHistoryCache → Prop
  | dropped (drops : r.drops c = true) : Adds h r c (.ok (none, false), h)
  | held {h' : DataReaderHistoryCache} (same : SameBuckets h h') : Adds h r c (.ok (none, true), h')
  | refused {e : DdsError} {h' : DataReaderHistoryCache} (same : SameBuckets h h') : Adds h r c (.error e, h')
  | full {e : DdsError} {hm h' : DataReaderHistoryCache} (same : SameBuckets h hm)
      (room : hm.ensureCapacity c.instanceHandle = (.error e, h')) : Adds h r c (.error e, h')
  | stored {removed : Option CacheChange} {hm h' : DataReaderHistoryCache} (same : SameBuckets h hm)
      (room : hm.ensureCapacity c.instanceHandle = (.ok removed, h')) :
      Adds h r c (.ok (removed, false), h'.insertChangeSorted c)

theorem adds_addChangeWithCleanup (r : DataReaderView) (c : CacheChange)
    (applyFilter : Bool) : Adds h r c (h.addChangeWithCleanup r c applyFilter) := by
  unfold addChangeWithCleanup
  cases hdrops : r.drops c with
  | true => exact .dropped hdrops
  | false =>
    have h1 := sameBuckets_addToOwnerCandidateIfNew h c.instanceHandle (c.ownershipStrength.getD 0) c.writerGuid
    generalize h.addToOwnerCandidateIfNew c.instanceHandle (c.ownershipStrength.getD 0) c.writerGuid = ha at h1
    have h2 := h1.trans (sameBuckets_applyTimeBasedFilter ha r c applyFilter)
    dsimp only
    rcases ht : ha.applyTimeBasedFilter r c applyFilter with ⟨_ | _, hb⟩ <;> rw [ht] at h2
    · have h3 := h2.trans (sameBuckets_updateInstanceState hb r c)
      dsimp only
      rcases hus : hb.updateInstanceState r c with ⟨e | _, hc⟩ <;> rw [hus] at h3
      · exact .refused h3
      · dsimp only
        rcases hec : hc.ensureCapacity c.instanceHandle with ⟨e | removed, hd⟩
        · exact .full h3 hec
        · exact .stored h3 hec
    · exact .held h2

theorem stores_addChangeWithCleanup (r : DataReaderView) (c : CacheChange)
    (applyFilter : Bool) (hpass : r.drops c = false) : Stores h c (h.addChangeWithCleanup r c applyFilter) := by
  have hadds := adds_addChangeWithCleanup h r c applyFilter
  generalize h.addChangeWithCleanup r c applyFilter = res at hadds
  cases hadds with
  | dropped drops => exact absurd (drops.symm.trans hpass) Bool.noConfusion
  | held same => exact .held same.getChanges
  | refused same => exact .refused same.getChanges
  | @full e hm h' same room =>
    have hmakes := Makes.of_same same.getChanges (makes_ensureCapacity hm c.instanceHandle)
    rw [room] at hmakes
    cases hmakes with
    | failed same => exact .refused same
  | @stored removed hm h' same room =>
    have hmakes := Makes.of_same same.getChanges (makes_ensureCapacity hm c.instanceHandle)
    rw [room] at hmakes
    cases hmakes with
    | ok stored rest =>
      refine .stored stored ?_
      rw [← rest]
      exact getChanges_insertChangeSorted h'

theorem addChangeWithCleanup_noRemoval (r : DataReaderView) (applyFilter : Bool) (hauto : h.canAutoRemove = false) :
    (h.addChangeWithCleanup r c applyFilter).2.canAutoRemove = false ∧
      ∃ news : List CacheChange, (h.addChangeWithCleanup r c applyFilter).2.getChanges.Perm (news ++ h.getChanges) ∧
        ∀ d ∈ news, d = c := by
  have hadds := adds_addChangeWithCleanup h r c applyFilter
  have hnil : ∀ d ∈ ([] : List CacheChange), d = c := forall_mem_nil _
  generalize h.addChangeWithCleanup r c applyFilter = res at hadds
  cases hadds with
  | dropped drops => exact ⟨hauto, [], Perm.refl _, hnil⟩
  | held same | refused same =>
    exact ⟨same.canAutoRemove.trans hauto, [], by rw [same.getChanges]; rfl, hnil⟩
  | @full e hm h' same room =>
    have hset := sameSettings_ensureCapacity hm c.instanceHandle
    have hmakes := Makes.of_same same.getChanges (makes_ensureCapacity hm c.instanceHandle)
    rw [room] at hmakes hset
    cases hmakes with
    | failed hcontents =>
      exact ⟨hset.canAutoRemove.trans (same.canAutoRemove.trans hauto), [], by rw [hcontents]; rfl, hnil⟩
  | @stored removed hm h' same room =>
    have hset := sameSettings_ensureCapacity hm c.instanceHandle
    have hmakes := Makes.of_same same.getChanges (makes_ensureCapacity hm c.instanceHandle)
    have hnone := ensureCapacity_noRemoval (same.canAutoRemove.trans hauto) room
    rw [room] at hmakes hset
    subst hnone
    cases hmakes with
    | ok _ rest =>
      refine ⟨hset.canAutoRemove.trans (same.canAutoRemove.trans hauto), [c], ?_, fun d hd => mem_singleton.1 hd⟩
      refine (getChanges_insertChangeSorted h').trans ?_
      rw [rest]
      rfl

/-! ## Removing many changes -/

theorem getChanges_removeChanges (cs : List CacheChange) :
    (h.removeChanges cs).getChanges = h.getChanges.filter (fun c => !named cs c) := by
  induction cs generalizing h with
  | nil => exact (filter_eq_self.2 fun c _ => rfl).symm
  | cons d cs ih =>
    have hstep : h.removeChanges (d :: cs) = (h.removeChange d).removeChanges cs := rfl
    rw [hstep, ih, getChanges_removeChange]
    simp [named, Bool.and_comm]

theorem seenFiniteLifespan_removeChanges (cs : List CacheChange) :
    (h.removeChanges cs).seenFiniteLifespan = h.seenFiniteLifespan := by
  induction cs generalizing h with
  | nil => rfl
  | cons d cs ih => exact (ih (h.removeChange d)).trans rfl

/-- A copy of the sample `c` has outlived its lifespan, in a history that looks for it. -/
def lapsed (h : DataReaderHistoryCache) (r : DataReaderView) (now : RtpsTime) (c : CacheChange) : Bool :=
  h.seenFiniteLifespan && named (h.getChanges.filter (isExpired r now)) c

theorem getChanges_purgeExpiredOnRead (r : DataReaderView) (now : RtpsTime) :
    (h.purgeExpiredOnRead r now).getChanges = h.getChanges.filter (fun c => !h.lapsed r now c) := by
  unfold purgeExpiredOnRead lapsed
  cases hs : h.seenFiniteLifespan with
  | false => exact (filter_eq_self.2 fun c _ => rfl).symm
  | true => exact getChanges_removeChanges h _

end

def Fresh (h : DataReaderHistoryCache) (r : DataReaderView) (now : RtpsTime) : Prop :=
  h.seenFiniteLifespan = true → ∀ c ∈ h.getChanges, isExpired r now c = false

theorem Fresh.purge {r : DataReaderView} {now : RtpsTime} (hf : h.Fresh r now) : h.purgeExpiredOnRead r now = h := by
  unfold purgeExpiredOnRead
  split_ifs with hs
  · have hnone : h.getChanges.filter (isExpired r now) = [] :=
      filter_eq_nil_iff.2 fun c hc => by simp [hf hs c hc]
    rw [hnone]
    rfl
  · rfl

theorem Fresh.removeChanges {r : DataReaderView} {now : RtpsTime} (hf : h.Fresh r now) (cs : List CacheChange) :
    (h.removeChanges cs).Fresh r now := by
  intro hs c hc
  rw [seenFiniteLifespan_removeChanges] at hs
  rw [getChanges_removeChanges] at hc
  exact hf hs c (mem_of_mem_filter hc)

section

variable (h : DataReaderHistoryCache)

theorem fresh_purgeExpiredOnRead (r : DataReaderView) (now : RtpsTime) :
    (h.purgeExpiredOnRead r now).Fresh r now := by
  intro hs c hc
  have hseen : h.seenFiniteLifespan = true := by
    unfold purgeExpiredOnRead at hs
    split_ifs at hs with h1
    · exact h1
    · exact hs
  rw [getChanges_purgeExpiredOnRead, mem_filter] at hc
  by_contra hexp
  have hlapsed : h.lapsed r now c = true := by
    unfold lapsed
    rw [hseen, Bool.true_and, named_iff]
    exact ⟨c, mem_filter.2 ⟨hc.1, by simpa using hexp⟩, SameSample.refl c⟩
  rw [hlapsed] at hc
  exact absurd hc.2 (by decide)

/-! ## Instances -/

theorem containsInstance_removeChange (k : InstanceHandle) :
    (h.removeChange c).containsInstance k = h.containsInstance k := by
  unfold containsInstance removeChange
  rw [find?_modify]
  split_ifs <;> simp

theorem instanceCount_removeChange : (h.removeChange c).instanceCount = h.instanceCount := by
  simp [instanceCount, removeChange, OrdList.modify]

theorem find?_insertChangeSorted (k : InstanceHandle) :
    (h.insertChangeSorted c).instanceMap.find? k =
      if k = c.instanceHandle then
        some (((h.instanceMap.find? k).getD (Bucket.empty c.instanceHandle)).insert h.destinationOrderKind c)
      else h.instanceMap.find? k := by
  have hfind := find?_upsert h.instanceMap (Bucket.empty c.instanceHandle)
    (Bucket.insert h.destinationOrderKind c) (Bucket.instanceHandle_insert h.destinationOrderKind c) k
  by_cases hk : k = c.instanceHandle
  · rw [if_pos hk]
    rwa [if_pos (show k = (Bucket.empty c.instanceHandle).instanceHandle from hk)] at hfind
  · rw [if_neg hk]
    rwa [if_neg (show ¬ k = (Bucket.empty c.instanceHandle).instanceHandle from hk)] at hfind

theorem containsInstance_insertChangeSorted (k : InstanceHandle) :
    (h.insertChangeSorted c).containsInstance k = true ↔ k = c.instanceHandle ∨ h.containsInstance k = true := by
  unfold containsInstance
  rw [find?_insertChangeSorted]
  split_ifs with hk <;> simp [hk]

theorem instanceCount_insertChangeSorted (c : CacheChange) :
    (h.insertChangeSorted c).instanceCount =
      h.instanceCount + if h.containsInstance c.instanceHandle then 0 else 1 := by
  unfold instanceCount insertChangeSorted OrdList.upsert OrdList.modify
  rw [length_map, length_insertNew]
  rfl

theorem bucketOf_insertChangeSorted (k : InstanceHandle) :
    (h.insertChangeSorted c).bucketOf k =
      if k = c.instanceHandle then Bucket.insertSorted h.destinationOrderKind (h.bucketOf k) c else h.bucketOf k := by
  unfold bucketOf
  rw [find?_insertChangeSorted]
  split_ifs with hk
  · subst hk
    cases hb : h.instanceMap.find? c.instanceHandle with
    | none => exact Bucket.changes_insert _ rfl
    | some b => exact Bucket.changes_insert _ (find?_eq_some.1 hb).2
  · rfl

end

end DataReaderHistoryCache

end Int2Dds.History
