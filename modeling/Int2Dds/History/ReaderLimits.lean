import Int2Dds.History.DataReaderContents
import Int2Dds.Lib.Run
import Mathlib.Data.List.Flatten

/-!
# The resource limits and the order of a data reader's history

Four limits are kept by one chain of checks before a sample is stored. This module shows that the chain keeps them, in
every state and also when the sample is refused, and when each bucket stays in the destination order.

* `Free` : room for one more sample, which `ensureCapacity` makes (`free_ensureCapacity`).
* `Untied` : what an arrival in the order of reception must meet for its bucket to stay sorted (`sorted_step_iff`), as
  it is appended without a look at its sequence number (`reception_tie_unsorted`).
* `reader_limits_hold` : the limits and the order along a run.
-/

namespace Int2Dds.History
open Lib Rtps List OrdList
open Writer (asI32 i32Max asI32_of_le cap saturatingMul HistoryKind ReliabilityKind PositiveLimit saturatingMul_bounds)

/-- When a change was received; one that was not stamped comes first. -/
def CacheChange.received (c : CacheChange) : WithBot RtpsTime := c.receptionTimestamp

theorem pairwise_insert_before {α κ : Type*} [LinearOrder κ] {key : α → κ} (c : α) {l : List α}
    (hl : l.Pairwise (fun a b => key a ≤ key b)) :
    (l.takeWhile (fun d => decide (key d ≤ key c)) ++ c :: l.dropWhile (fun d => decide (key d ≤ key c))).Pairwise
      (fun a b => key a ≤ key b) := by
  induction l with
  | nil => exact pairwise_singleton _ _
  | cons a l ih =>
    have ha := fun x (hx : x ∈ l) => rel_of_pairwise_cons hl hx
    by_cases hac : key a ≤ key c
    · rw [takeWhile_cons_of_pos (by simpa using hac), dropWhile_cons_of_pos (by simpa using hac)]
      refine pairwise_cons.2 ⟨fun x hx => ?_, ih hl.of_cons⟩
      rcases mem_append.1 hx with hx | hx
      · exact ha x ((List.takeWhile_prefix _).subset hx)
      rcases mem_cons.1 hx with rfl | hx
      · exact hac
      · exact ha x ((dropWhile_suffix _).subset hx)
    · rw [takeWhile_cons_of_neg (by simpa using hac), dropWhile_cons_of_neg (by simpa using hac)]
      refine pairwise_cons.2 ⟨fun x hx => ?_, hl⟩
      rcases mem_cons.1 hx with rfl | hx
      · exact (not_le.1 hac).le
      · exact (not_le.1 hac).le.trans (ha x hx)

section
variable {kind : DestinationOrderKind} {l : List CacheChange} {c d : CacheChange}

/-- A change that came last is put where it belongs, unless it is appended behind one with its time and a greater
sequence number. -/
theorem pairwise_insertSorted (hl : l.Pairwise (fun a b => destOrderKey a kind ≤ destOrderKey b kind))
    (hlast : ∀ d ∈ l, d.received ≤ c.received)
    (htie : kind = .byReceptionTimestamp → ∀ d ∈ l, d.received = c.received → d.sequenceNumber ≤ c.sequenceNumber) :
    (Bucket.insertSorted kind l c).Pairwise (fun a b => destOrderKey a kind ≤ destOrderKey b kind) := by
  cases kind with
  | byReceptionTimestamp =>
    refine pairwise_append.2 ⟨hl, pairwise_singleton _ _, fun d hd b hb => ?_⟩
    rw [mem_singleton.1 hb]
    refine Prod.Lex.toLex_le_toLex.2 ((hlast d hd).lt_or_eq.imp_right fun heq => ?_)
    exact ⟨heq, htie rfl d hd heq⟩
  | bySourceTimestamp => exact pairwise_insert_before c hl

theorem sequenceNumber_le_of_pairwise
    (h : (Bucket.insertSorted .byReceptionTimestamp l c).Pairwise
      (fun a b => destOrderKey a .byReceptionTimestamp ≤ destOrderKey b .byReceptionTimestamp))
    (hd : d ∈ l) (htime : d.received = c.received) : d.sequenceNumber ≤ c.sequenceNumber := by
  have hle := (pairwise_append.1 h).2.2 d hd c (mem_singleton_self c)
  exact (Prod.Lex.toLex_le_toLex.1 hle).elim (fun hlt => absurd htime hlt.ne) And.right

end

namespace DataReaderHistoryCache

/-! ## The invariant -/

/-- The limits and the stamps of a cache; `last` is the latest reception time. -/
structure Limited (hasKey : Bool) (last : WithBot RtpsTime) (h : DataReaderHistoryCache) : Prop where
  perInstance_pos : 1 ≤ h.maxSamplesPerInstance
  maxInstances_pos : 1 ≤ h.maxInstances
  maxSamples_le : h.maxSamples ≤ i32Max
  perInstance_le : h.maxSamplesPerInstance ≤ i32Max
  maxInstances_le : h.maxInstances ≤ i32Max
  keyless : hasKey = false → h.maxSamples ≤ h.maxSamplesPerInstance
  handles : ∀ b ∈ h.instanceMap, b.instanceHandle.isNil = !hasKey
  samples : (h.getChanges.length : Int) ≤ h.maxSamples
  perInstance : ∀ handle, ((h.bucketOf handle).length : Int) ≤ h.maxSamplesPerInstance
  instances : (h.instanceMap.toList.length : Int) ≤ h.maxInstances
  stamped : ∀ c ∈ h.getChanges, c.received ≤ last

/-- Every bucket is in the destination order. -/
def Sorted (h : DataReaderHistoryCache) : Prop :=
  ∀ handle, (h.bucketOf handle).Pairwise
    fun c d => destOrderKey c h.destinationOrderKind ≤ destOrderKey d h.destinationOrderKind

structure SameLimits (h h' : DataReaderHistoryCache) : Prop where
  maxSamples : h'.maxSamples = h.maxSamples
  maxInstances : h'.maxInstances = h.maxInstances
  maxSamplesPerInstance : h'.maxSamplesPerInstance = h.maxSamplesPerInstance
  destinationOrderKind : h'.destinationOrderKind = h.destinationOrderKind

variable {h₁ h₂ h₃ : DataReaderHistoryCache}

theorem SameLimits.trans (h12 : SameLimits h₁ h₂) (h23 : SameLimits h₂ h₃) :
    SameLimits h₁ h₃ :=
  ⟨h23.maxSamples.trans h12.maxSamples, h23.maxInstances.trans h12.maxInstances,
    h23.maxSamplesPerInstance.trans h12.maxSamplesPerInstance, h23.destinationOrderKind.trans h12.destinationOrderKind⟩

/-! ## Steps that take out -/

structure Shrinks (h h' : DataReaderHistoryCache) : Prop where
  same : SameLimits h h'
  buckets : ∀ b' ∈ h'.instanceMap, ∃ b ∈ h.instanceMap, b.instanceHandle = b'.instanceHandle ∧
    b'.changes.Sublist b.changes
  changes : h'.getChanges.Sublist h.getChanges
  instances : h'.instanceMap.toList.length ≤ h.instanceMap.toList.length

variable {h h' : DataReaderHistoryCache} {hasKey : Bool} {last : WithBot RtpsTime} {c : CacheChange}
  {handle : InstanceHandle}

theorem Shrinks.of_sameBuckets (hs : SameBuckets h h') : Shrinks h h' where
  same := ⟨hs.maxSamples, hs.maxInstances, hs.maxSamplesPerInstance, hs.destinationOrderKind⟩
  buckets := by
    rw [hs.instanceMap]
    exact fun b hb => ⟨b, hb, rfl, Sublist.refl _⟩
  changes := by
    rw [hs.getChanges]
  instances := by
    rw [hs.instanceMap]

theorem Shrinks.refl : Shrinks h h := .of_sameBuckets (SameBuckets.refl h)

theorem Shrinks.trans (h12 : Shrinks h₁ h₂) (h23 : Shrinks h₂ h₃) :
    Shrinks h₁ h₃ where
  same := h12.same.trans h23.same
  buckets := by
    intro b hb
    obtain ⟨b₂, hb₂, hkey₂, hsub₂⟩ := h23.buckets b hb
    obtain ⟨b₁, hb₁, hkey₁, hsub₁⟩ := h12.buckets b₂ hb₂
    exact ⟨b₁, hb₁, hkey₁.trans hkey₂, hsub₂.trans hsub₁⟩
  changes := h23.changes.trans h12.changes
  instances := h23.instances.trans h12.instances

theorem shrinks_removeChange (h : DataReaderHistoryCache) (c : CacheChange) : Shrinks h (h.removeChange c) where
  same := ⟨rfl, rfl, rfl, rfl⟩
  buckets := by
    intro b' hb'
    have hmem : b' ∈ h.instanceMap.modify c.instanceHandle (fun b => b.filter (fun d => decide (d.id ≠ c.id)))
      (fun b => b.instanceHandle_filter _) := hb'
    rcases mem_modify.1 hmem with ⟨hb, -⟩ | ⟨b, hb, -, rfl⟩
    · exact ⟨b', hb, rfl, Sublist.refl _⟩
    · exact ⟨b, hb, rfl, filter_sublist⟩
  changes := by
    rw [getChanges_removeChange]
    exact filter_sublist
  instances := (length_map _).le

theorem shrinks_removeChanges (h : DataReaderHistoryCache) (cs : List CacheChange) :
    Shrinks h (h.removeChanges cs) := by
  induction cs generalizing h with
  | nil => exact Shrinks.refl
  | cons c cs ih => exact (shrinks_removeChange h c).trans (ih (h.removeChange c))

theorem shrinks_removeAllInstanceResources (h : DataReaderHistoryCache) (handle : InstanceHandle) :
    Shrinks h (h.removeAllInstanceResources handle) where
  same := ⟨rfl, rfl, rfl, rfl⟩
  buckets := fun b hb => ⟨b, (OrdList.mem_filter.1 hb).1, rfl, Sublist.refl _⟩
  changes := filter_sublist.flatMap _
  instances := length_filter_le _ _

theorem Shrinks.bucketOf (hs : Shrinks h h') (handle : InstanceHandle) :
    (h'.bucketOf handle).Sublist (h.bucketOf handle) := by
  rw [bucketOf_eq_filter, bucketOf_eq_filter]
  exact hs.changes.filter _

theorem Shrinks.sorted (hs : Shrinks h h') (hsorted : h.Sorted) : h'.Sorted := by
  intro handle
  rw [hs.same.destinationOrderKind]
  exact (hsorted handle).sublist (hs.bucketOf handle)

theorem Shrinks.limited (hs : Shrinks h h') (hl : Limited hasKey last h) : Limited hasKey last h' where
  perInstance_pos := hs.same.maxSamplesPerInstance ▸ hl.perInstance_pos
  maxInstances_pos := hs.same.maxInstances ▸ hl.maxInstances_pos
  maxSamples_le := hs.same.maxSamples ▸ hl.maxSamples_le
  perInstance_le := hs.same.maxSamplesPerInstance ▸ hl.perInstance_le
  maxInstances_le := hs.same.maxInstances ▸ hl.maxInstances_le
  keyless := by
    rw [hs.same.maxSamples, hs.same.maxSamplesPerInstance]
    exact hl.keyless
  handles := by
    intro b' hb'
    obtain ⟨b, hb, hkey, -⟩ := hs.buckets b' hb'
    rw [← hkey]
    exact hl.handles b hb
  samples := by
    rw [hs.same.maxSamples]
    exact (Int.ofNat_le.2 hs.changes.length_le).trans hl.samples
  perInstance := by
    intro handle
    rw [hs.same.maxSamplesPerInstance]
    exact (Int.ofNat_le.2 (hs.bucketOf handle).length_le).trans (hl.perInstance handle)
  instances := by
    rw [hs.same.maxInstances]
    exact (Int.ofNat_le.2 hs.instances).trans hl.instances
  stamped := fun c hc => hl.stamped c (hs.changes.subset hc)

/-! ## Storage -/

structure Free (h : DataReaderHistoryCache) (handle : InstanceHandle) : Prop where
  samples : (h.getChanges.length : Int) < h.maxSamples
  perInstance : ((h.bucketOf handle).length : Int) < h.maxSamplesPerInstance
  instances : h.containsInstance handle = true ∨ (h.instanceMap.toList.length : Int) < h.maxInstances

theorem mem_insertChangeSorted {b' : Bucket} (hb' : b' ∈ (h.insertChangeSorted c).instanceMap) :
    b' ∈ h.instanceMap ∨ b'.instanceHandle = c.instanceHandle := by
  have hself : (h.insertChangeSorted c).instanceMap.find? b'.instanceHandle = some b' :=
    find?_eq_some.2 ⟨hb', rfl⟩
  rw [find?_insertChangeSorted] at hself
  split_ifs at hself with hkey
  · exact .inr hkey
  · exact .inl (find?_eq_some.1 hself).1

theorem length_bucketOf_insertChangeSorted :
    ((h.insertChangeSorted c).bucketOf handle).length =
      (h.bucketOf handle).length + if c.instanceHandle = handle then 1 else 0 := by
  rw [bucketOf_eq_filter, bucketOf_eq_filter, ((getChanges_insertChangeSorted h).filter _).length_eq, filter_cons]
  simp only [decide_eq_true_eq]
  split_ifs <;> rfl

theorem limited_insertChangeSorted (hl : Limited hasKey last h) (hkey : c.instanceHandle.isNil = !hasKey)
    (hlast : last ≤ c.received) (hfree : Free h c.instanceHandle) :
    Limited hasKey c.received (h.insertChangeSorted c) where
  __ := hl
  handles := by
    intro b' hb'
    rcases mem_insertChangeSorted hb' with hb | heq
    · exact hl.handles b' hb
    · rw [heq]
      exact hkey
  samples := by
    rw [(getChanges_insertChangeSorted h).length_eq]
    have := hfree.samples
    exact Int.add_one_le_of_lt this
  perInstance := by
    intro handle
    rw [length_bucketOf_insertChangeSorted]
    split_ifs with heq
    · subst heq
      have := hfree.perInstance
      exact Int.add_one_le_of_lt this
    · exact hl.perInstance handle
  instances := by
    have hcount := instanceCount_insertChangeSorted h c
    unfold instanceCount at hcount
    rw [hcount]
    cases hcon : h.containsInstance c.instanceHandle with
    | true => exact hl.instances
    | false =>
      rcases hfree.instances with hin | hlt
      · rw [hcon] at hin
        cases hin
      · exact Int.add_one_le_of_lt hlt
  stamped := by
    intro d hd
    rcases mem_cons.1 ((getChanges_insertChangeSorted h).mem_iff.1 hd) with rfl | hd
    · exact le_rfl
    · exact (hl.stamped d hd).trans hlast

/-! ## Room -/

section Room
variable {hasKey : Bool} {last : WithBot RtpsTime} {h : DataReaderHistoryCache} (hl : Limited hasKey last h)
include hl

theorem Limited.isMaxSamplesExceeded_eq :
    h.isMaxSamplesExceeded = decide (h.maxSamples ≤ (h.getChanges.length : Int)) := by
  rw [isMaxSamplesExceeded, sampleCount, asI32_of_le (hl.samples.trans hl.maxSamples_le)]

theorem Limited.isMaxSamplesPerInstanceExceeded_eq {handle : InstanceHandle} (hnil : handle.isNil = false) :
    h.isMaxSamplesPerInstanceExceeded handle =
      decide (h.maxSamplesPerInstance ≤ ((h.bucketOf handle).length : Int)) := by
  have hpos := hl.perInstance_pos
  rw [isMaxSamplesPerInstanceExceeded, hnil, sampleCountOfInstance,
    asI32_of_le ((hl.perInstance handle).trans hl.perInstance_le)]
  unfold containsInstance bucketOf
  cases hfind : h.instanceMap.find? handle with
  | some b => rfl
  | none => exact (decide_eq_false (by dsimp only [Option.elim, length_nil]; push_cast; omega)).symm

end Room

theorem length_getChanges_removeChange_lt (hc : c ∈ h.getChanges) :
    (h.removeChange c).getChanges.length < h.getChanges.length := by
  rw [getChanges_removeChange]
  exact length_filter_lt_length_iff_exists.2 ⟨c, hc, by simp [SameSample]⟩

theorem length_bucketOf_removeChange_lt (hc : c ∈ h.bucketOf handle) :
    ((h.removeChange c).bucketOf handle).length < (h.bucketOf handle).length := by
  rw [bucketOf_eq_filter, getChanges_removeChange, filter_comm, ← bucketOf_eq_filter]
  exact length_filter_lt_length_iff_exists.2 ⟨c, hc, by simp [SameSample]⟩

structure SampleFree (h h' : DataReaderHistoryCache) : Prop where
  shrinks : Shrinks h h'
  samples : (h'.getChanges.length : Int) < h'.maxSamples
  contains : ∀ handle, h'.containsInstance handle = h.containsInstance handle

theorem SampleRoom.free {removed : Option CacheChange} (hroom : SampleRoom h (.ok removed, h'))
    (hl : Limited hasKey last h) : SampleFree h h' := by
  cases hroom with
  | room hfree =>
    rw [hl.isMaxSamplesExceeded_eq] at hfree
    exact ⟨Shrinks.refl, by simpa using hfree, fun _ => rfl⟩
  | @evicted c auto full oldest =>
    have hlt := length_getChanges_removeChange_lt (oldestChangeOfAll_mem oldest).1
    have hle := hl.samples
    refine ⟨shrinks_removeChange h c, ?_, containsInstance_removeChange h⟩
    show (_ : Int) < h.maxSamples
    omega

theorem SampleFree.free (hs : SampleFree h h')
    (hbucket : ((h'.bucketOf handle).length : Int) < h'.maxSamplesPerInstance)
    (hmap : h.containsInstance handle = true ∨ (h.instanceMap.toList.length : Int) < h.maxInstances) :
    Free h' handle where
  samples := hs.samples
  perInstance := hbucket
  instances := by
    rw [hs.contains, hs.shrinks.same.maxInstances]
    exact hmap.imp_right (Int.ofNat_le.2 hs.shrinks.instances).trans_lt

theorem Limited.keyless_map (hl : Limited false last h) (hnil : handle.isNil = true) :
    h.containsInstance handle = true ∨ (h.instanceMap.toList.length : Int) < h.maxInstances := by
  have heq : ∀ k : InstanceHandle, k.isNil = true → k = handle := by
    intro k hk
    exact (eq_of_beq hk).trans (eq_of_beq hnil).symm
  cases hbuckets : h.instanceMap.toList with
  | nil =>
    have := hl.maxInstances_pos
    exact .inr (by simp only [length_nil]; push_cast; omega)
  | cons b l =>
    have hb : b ∈ h.instanceMap := by
      rw [mem_def, hbuckets]
      exact mem_cons_self
    have hkey := heq _ (hl.handles b hb)
    refine .inl ?_
    unfold containsInstance
    rw [find?_eq_some.2 ⟨hb, hkey⟩]
    rfl

theorem free_ensureCapacity {removed : Option CacheChange} (hl : Limited hasKey last h)
    (hkey : handle.isNil = !hasKey) (hres : h.ensureCapacity handle = (.ok removed, h')) :
    Shrinks h h' ∧ Free h' handle := by
  have hroom := room_ensureCapacity h handle
  rw [hres] at hroom
  -- room in the instance, when the check for it passes
  have hper : handle.isNil = false → h.isMaxSamplesPerInstanceExceeded handle = false →
      ((h.bucketOf handle).length : Int) < h.maxSamplesPerInstance := by
    intro hnil hfree
    rw [hl.isMaxSamplesPerInstanceExceeded_eq hnil] at hfree
    simpa using hfree
  cases hroom with
  | @evicted c keyed auto full oldest =>
    have hmem : c ∈ h.bucketOf handle := mem_of_mem_head? oldest
    obtain ⟨hstored, hhandle⟩ := mem_bucketOf.1 hmem
    have htotal := length_getChanges_removeChange_lt hstored
    have hbucket := length_bucketOf_removeChange_lt hmem
    have hle := hl.samples
    have hle' := hl.perInstance handle
    refine ⟨shrinks_removeChange h c, ⟨?_, ?_, .inl ?_⟩⟩
    · show (_ : Int) < h.maxSamples
      omega
    · show (_ : Int) < h.maxSamplesPerInstance
      omega
    · rw [containsInstance_removeChange]
      rw [isMaxSamplesPerInstanceExceeded, keyed, if_neg Bool.false_ne_true, Bool.and_eq_true] at full
      exact full.1
  | sample free room =>
    have hs := room.free hl
    refine ⟨hs.shrinks, ?_⟩
    rcases free with hnil | ⟨hnil, hfree, hinst⟩
    · -- no key: the bucket is the whole cache
      obtain rfl : hasKey = false := by simpa [hnil] using hkey
      have hbucket : (h'.bucketOf handle).length ≤ h'.getChanges.length := by
        rw [bucketOf_eq_filter]
        exact length_filter_le _ _
      have hlim := (hs.shrinks.limited hl).keyless rfl
      have hsamples := hs.samples
      exact hs.free (by omega) (hl.keyless_map hnil)
    · have hle := (hs.shrinks.bucketOf handle).length_le
      have hlt := hper hnil hfree
      refine hs.free (by rw [hs.shrinks.same.maxSamplesPerInstance]; omega) ?_
      rw [isMaxInstancesExceeded, instanceCount, asI32_of_le (hl.instances.trans hl.maxInstances_le)] at hinst
      cases hcon : h.containsInstance handle with
      | true => exact .inl rfl
      | false => exact .inr (by simpa [hcon] using hinst)
  | @reclaimed unused res keyed free full found room =>
    have hdrop := shrinks_removeAllInstanceResources h unused
    have hs := room.free (hdrop.limited hl)
    refine ⟨hdrop.trans hs.shrinks, hs.free ?_ (.inr ?_)⟩
    · have hle := ((hdrop.trans hs.shrinks).bucketOf handle).length_le
      have hlt := hper keyed free
      rw [(hdrop.trans hs.shrinks).same.maxSamplesPerInstance]
      omega
    · -- the instance dropped was in the map
      obtain ⟨b, hb, hbu, -⟩ := unusedInstance_spec found
      have hlt : (h.removeAllInstanceResources unused).instanceMap.toList.length < h.instanceMap.toList.length :=
        length_filter_lt_length_iff_exists.2 ⟨b, hb, by simp [hbu]⟩
      have hle := hl.instances
      show (_ : Int) < h.maxInstances
      omega

theorem SampleRoom.shrinks {res : Except DdsError (Option CacheChange) × DataReaderHistoryCache}
    (hr : SampleRoom h res) : Shrinks h res.2 := by
  cases hr with
  | refused e => exact Shrinks.refl
  | room free => exact Shrinks.refl
  | evicted auto full oldest => exact shrinks_removeChange h _

theorem shrinks_ensureCapacity (handle : InstanceHandle) : Shrinks h (h.ensureCapacity handle).2 := by
  have hroom := room_ensureCapacity h handle
  generalize h.ensureCapacity handle = res at hroom
  cases hroom with
  | refused e => exact Shrinks.refl
  | evicted keyed auto full oldest => exact shrinks_removeChange h _
  | sample free room => exact room.shrinks
  | reclaimed keyed free full found room => exact (shrinks_removeAllInstanceResources h _).trans room.shrinks

/-! ## Runs -/

inductive Operation where
  | addChange (r : DataReaderView) (c : CacheChange) (applyFilter : Bool)
  | removeChange (c : CacheChange)
  | removeLifespanExpiredChanges (r : DataReaderView) (writerGuid : Guid) (lifespan : Duration) (now : RtpsTime)
  | purgeExpiredOnRead (r : DataReaderView) (now : RtpsTime)
  | removeUnusedInstance

/-- The cache, and when the last sample given to it was received. -/
structure Stamped where
  cache : DataReaderHistoryCache
  last : WithBot RtpsTime

/-- One operation. Samples come in the order of reception, with a handle exactly if the reader has a key; others do
not occur (`none`). -/
def step (hasKey : Bool) (s : Stamped) : Operation → Option Stamped
  | .addChange r c applyFilter =>
    if c.instanceHandle.isNil = !hasKey ∧ s.last ≤ c.received then
      some ⟨(s.cache.addChangeWithCleanup r c applyFilter).2, c.received⟩
    else none
  | .removeChange c => some { s with cache := s.cache.removeChange c }
  | .removeLifespanExpiredChanges r writerGuid lifespan now =>
    some { s with cache := s.cache.removeLifespanExpiredChanges r writerGuid lifespan now }
  | .purgeExpiredOnRead r now => some { s with cache := s.cache.purgeExpiredOnRead r now }
  | .removeUnusedInstance => some { s with cache := s.cache.removeUnusedInstance.2 }

theorem Limited.later {last' : WithBot RtpsTime} (hl : Limited hasKey last h) (hle : last ≤ last') :
    Limited hasKey last' h :=
  { hl with stamped := fun c hc => (hl.stamped c hc).trans hle }

theorem limited_addChangeWithCleanup (hl : Limited hasKey last h) (r : DataReaderView) (applyFilter : Bool)
    (hkey : c.instanceHandle.isNil = !hasKey) (hlast : last ≤ c.received) :
    Limited hasKey c.received (h.addChangeWithCleanup r c applyFilter).2 ∧
      SameLimits h (h.addChangeWithCleanup r c applyFilter).2 := by
  have hadds := adds_addChangeWithCleanup h r c applyFilter
  generalize h.addChangeWithCleanup r c applyFilter = res at hadds
  cases hadds with
  | dropped drops => exact ⟨hl.later hlast, (Shrinks.refl).same⟩
  | held same | refused same =>
    have hs := Shrinks.of_sameBuckets same
    exact ⟨(hs.limited hl).later hlast, hs.same⟩
  | @full e hm h' same room =>
    have hs := (Shrinks.of_sameBuckets same).trans (shrinks_ensureCapacity c.instanceHandle)
    rw [room] at hs
    exact ⟨(hs.limited hl).later hlast, hs.same⟩
  | @stored removed hm h' same room =>
    have hs := Shrinks.of_sameBuckets same
    obtain ⟨hshrink, hfree⟩ := free_ensureCapacity (hs.limited hl) hkey room
    have hall := hs.trans hshrink
    exact ⟨limited_insertChangeSorted (hall.limited hl) hkey hlast hfree,
      hall.same.trans ⟨rfl, rfl, rfl, rfl⟩⟩

/-- In the order of reception a change is stored only in an instance where no sample is left with its reception time
and a greater sequence number; `h` is the cache when room has been made. -/
def Untied (s : Stamped) : Operation → Prop
  | .addChange r c applyFilter => s.cache.destinationOrderKind = .byReceptionTimestamp →
      ∀ h : DataReaderHistoryCache, (s.cache.addChangeWithCleanup r c applyFilter).2 = h.insertChangeSorted c →
        ∀ d ∈ h.bucketOf c.instanceHandle, d.received = c.received → d.sequenceNumber ≤ c.sequenceNumber
  | _ => True

theorem sorted_insertChangeSorted (hsorted : h.Sorted) (hlast : ∀ d ∈ h.getChanges, d.received ≤ c.received)
    (htie : h.destinationOrderKind = .byReceptionTimestamp →
      ∀ d ∈ h.bucketOf c.instanceHandle, d.received = c.received → d.sequenceNumber ≤ c.sequenceNumber) :
    (h.insertChangeSorted c).Sorted := by
  intro handle
  rw [bucketOf_insertChangeSorted]
  split_ifs with heq
  · subst heq
    exact pairwise_insertSorted (hsorted _) (fun d hd => hlast d (mem_bucketOf.1 hd).1) htie
  · exact hsorted handle

/-- What is left of an instance was stored before. -/
theorem untied_of_forall {r : DataReaderView} {applyFilter : Bool}
    (hbefore : ∀ d ∈ h.bucketOf c.instanceHandle, d.received = c.received → d.sequenceNumber ≤ c.sequenceNumber) :
    Untied ⟨h, last⟩ (.addChange r c applyFilter) := by
  intro hkind h' heq d hd
  refine hbefore d ?_
  have hadds := adds_addChangeWithCleanup h r c applyFilter
  have hd' : d ∈ (h'.insertChangeSorted c).bucketOf c.instanceHandle := by
    rw [bucketOf_insertChangeSorted, if_pos rfl]
    exact (Bucket.insertSorted_perm _ _ c).mem_iff.2 (mem_cons_of_mem c hd)
  dsimp only at heq
  rw [← heq] at hd'
  generalize h.addChangeWithCleanup r c applyFilter = res at *
  cases hadds with
  | dropped drops => exact hd'
  | held same | refused same => exact ((Shrinks.of_sameBuckets same).bucketOf _).subset hd'
  | @full e hm h₁ same room =>
    have hs := (Shrinks.of_sameBuckets same).trans (shrinks_ensureCapacity c.instanceHandle)
    rw [room] at hs
    exact (hs.bucketOf _).subset hd'
  | @stored removed hm h₁ same room =>
    have hs := (Shrinks.of_sameBuckets same).trans (shrinks_ensureCapacity c.instanceHandle)
    rw [room] at hs
    -- both caches store the change, so their buckets were the same
    have hbuckets := congrArg (fun h => h.bucketOf c.instanceHandle) heq
    simp only [bucketOf_insertChangeSorted, if_pos] at hbuckets
    have hperm := ((Bucket.insertSorted_perm _ _ c).symm.trans (Perm.of_eq hbuckets)).trans
      (Bucket.insertSorted_perm _ _ c)
    exact (hs.bucketOf _).subset (hperm.cons_inv.mem_iff.2 hd)

theorem sorted_addChangeWithCleanup_iff (hl : Limited hasKey last h) (hsorted : h.Sorted) (r : DataReaderView)
    (applyFilter : Bool) (hkey : c.instanceHandle.isNil = !hasKey) (hlast : last ≤ c.received) :
    (h.addChangeWithCleanup r c applyFilter).2.Sorted ↔ Untied ⟨h, last⟩ (.addChange r c applyFilter) := by
  constructor
  · intro hpost hkind h' heq d hd
    have hkind' : h'.destinationOrderKind = .byReceptionTimestamp := by
      have hsame := (limited_addChangeWithCleanup hl r applyFilter hkey hlast).2.destinationOrderKind
      rw [heq] at hsame
      exact hsame.trans hkind
    rw [heq] at hpost
    have hbucket := hpost c.instanceHandle
    rw [bucketOf_insertChangeSorted, if_pos rfl, show (h'.insertChangeSorted c).destinationOrderKind = _ from hkind',
      hkind'] at hbucket
    exact sequenceNumber_le_of_pairwise hbucket hd
  · intro huntied
    have hadds := adds_addChangeWithCleanup h r c applyFilter
    dsimp only [Untied] at huntied
    generalize h.addChangeWithCleanup r c applyFilter = res at hadds huntied
    cases hadds with
    | dropped drops => exact hsorted
    | held same | refused same => exact (Shrinks.of_sameBuckets same).sorted hsorted
    | @full e hm h' same room =>
      have hs := (Shrinks.of_sameBuckets same).trans (shrinks_ensureCapacity c.instanceHandle)
      rw [room] at hs
      exact hs.sorted hsorted
    | @stored removed hm h' same room =>
      have hs := (Shrinks.of_sameBuckets same).trans (shrinks_ensureCapacity c.instanceHandle)
      rw [room] at hs
      refine sorted_insertChangeSorted (hs.sorted hsorted) (fun d hd => ?_) fun hkind => ?_
      · exact (hl.stamped d (hs.changes.subset hd)).trans hlast
      · exact huntied (hs.same.destinationOrderKind.symm.trans hkind) h' rfl

theorem getChanges_of_error {r : DataReaderView} {applyFilter : Bool} {e : DdsError}
    (hres : h.addChangeWithCleanup r c applyFilter = (.error e, h')) : h'.getChanges = h.getChanges := by
  have hadds := adds_addChangeWithCleanup h r c applyFilter
  rw [hres] at hadds
  cases hadds with
  | refused same => exact same.getChanges
  | @full _ hm _ same room =>
    have hmakes := makes_ensureCapacity hm c.instanceHandle
    rw [room] at hmakes
    cases hmakes with
    | failed hsame => exact hsame.trans same.getChanges

/-- One operation keeps the limits, and the order exactly if it is untied. -/
theorem limited_step {s s' : Stamped} {op : Operation} (hl : Limited hasKey s.last s.cache)
    (hs : step hasKey s op = some s') :
    Limited hasKey s'.last s'.cache ∧ SameLimits s.cache s'.cache ∧
      (s.cache.Sorted → (s'.cache.Sorted ↔ Untied s op)) := by
  have hshrink : ∀ {h : DataReaderHistoryCache}, Shrinks s.cache h → Limited hasKey s.last h ∧ SameLimits s.cache h ∧
      (s.cache.Sorted → (h.Sorted ↔ True)) :=
    fun hs => ⟨hs.limited hl, hs.same, fun hsorted => iff_true_intro (hs.sorted hsorted)⟩
  cases op with
  | addChange r c applyFilter =>
    obtain ⟨⟨hkey, hlast⟩, heq⟩ := Option.ite_none_right_eq_some.1 hs
    cases heq
    obtain ⟨hlim, hsame⟩ := limited_addChangeWithCleanup hl r applyFilter hkey hlast
    exact ⟨hlim, hsame, fun hsorted => sorted_addChangeWithCleanup_iff hl hsorted r applyFilter hkey hlast⟩
  | removeChange c =>
    cases hs
    exact hshrink (shrinks_removeChange _ c)
  | removeLifespanExpiredChanges r writerGuid lifespan now =>
    cases hs
    exact hshrink (shrinks_removeChanges _ _)
  | purgeExpiredOnRead r now =>
    cases hs
    unfold purgeExpiredOnRead
    split_ifs
    · exact hshrink (shrinks_removeChanges _ _)
    · exact hshrink (Shrinks.refl)
  | removeUnusedInstance =>
    cases hs
    unfold removeUnusedInstance
    cases s.cache.unusedInstance with
    | none => exact hshrink (Shrinks.refl)
    | some handle => exact hshrink (shrinks_removeAllInstanceResources _ handle)

end DataReaderHistoryCache

/-- The QoS a reader's history is made from. Limits are `i32` values, -1 for no limit. -/
structure DataReaderQos where
  reliability : ReliabilityKind
  history : HistoryKind
  maxSamples : Int
  maxInstances : Int
  maxSamplesPerInstance : Int
  ownership : OwnershipKind
  destinationOrder : DestinationOrderKind

namespace DataReaderQos

def cache (q : DataReaderQos) (hasKey : Bool) : DataReaderHistoryCache :=
  .new q.reliability q.history q.maxSamples q.maxInstances q.maxSamplesPerInstance hasKey q.ownership
    q.destinationOrder

structure PositiveLimits (q : DataReaderQos) : Prop where
  maxSamples : PositiveLimit q.maxSamples
  maxInstances : PositiveLimit q.maxInstances
  maxSamplesPerInstance : PositiveLimit q.maxSamplesPerInstance
  depth : ∀ depth, q.history = .keepLast depth → 1 ≤ depth ∧ depth ≤ i32Max

end DataReaderQos

namespace DataReaderHistoryCache

theorem limited_new {q : DataReaderQos} (hq : q.PositiveLimits) (hasKey : Bool) :
    Limited hasKey ⊥ (q.cache hasKey) := by
  have hperInstance : 1 ≤ (q.cache hasKey).maxSamplesPerInstance ∧
      (q.cache hasKey).maxSamplesPerInstance ≤ i32Max := by
    unfold DataReaderQos.cache
    cases hist : q.history with
    | keepLast depth => exact hq.depth depth hist
    | keepAll => exact hq.maxSamplesPerInstance.cap
  have hinstances : 1 ≤ (q.cache hasKey).maxInstances ∧ (q.cache hasKey).maxInstances ≤ i32Max := by
    cases hasKey with
    | true => exact hq.maxInstances.cap
    | false => exact ⟨le_rfl, show (1 : Int) ≤ i32Max by decide⟩
  have hmul := saturatingMul_bounds hinstances.1 hperInstance.1
  have hsamples : (q.cache hasKey).maxSamples = min (cap q.maxSamples)
      (saturatingMul (q.cache hasKey).maxInstances (q.cache hasKey).maxSamplesPerInstance) := rfl
  have hcap := hq.maxSamples.cap
  exact
    { perInstance_pos := hperInstance.1
      maxInstances_pos := hinstances.1
      maxSamples_le := hsamples ▸ (min_le_left _ _).trans hcap.2
      perInstance_le := hperInstance.2
      maxInstances_le := hinstances.2
      keyless := by
        rintro rfl
        -- one instance: the product is the limit of the instance
        have hone : (q.cache false).maxInstances = 1 := rfl
        rw [hsamples, hone]
        unfold saturatingMul
        omega
      handles := fun b hb => absurd hb (not_mem_empty)
      samples := by
        exact le_min ((by decide : (0 : Int) ≤ 1).trans hcap.1) ((by decide : (0 : Int) ≤ 1).trans hmul.1)
      perInstance := fun _ => (by decide : (0 : Int) ≤ 1).trans hperInstance.1
      instances := (by decide : (0 : Int) ≤ 1).trans hinstances.1
      stamped := forall_mem_nil _ }

theorem sorted_new (q : DataReaderQos) (hasKey : Bool) : (q.cache hasKey).Sorted := fun _ => Pairwise.nil

/-- A run keeps its buckets in the destination order exactly if all its arrivals are untied. -/
theorem forall_sorted_iff {q : DataReaderQos} (hq : q.PositiveLimits) {hasKey : Bool} {ops : List Operation}
    {s : Stamped} (hrun : run (step hasKey) ⟨q.cache hasKey, ⊥⟩ ops = some s) :
    (∀ done t, done <+: ops → run (step hasKey) ⟨q.cache hasKey, ⊥⟩ done = some t → t.cache.Sorted) ↔
      AllSteps (step hasKey) Untied ⟨q.cache hasKey, ⊥⟩ ops :=
  forall_states_iff_allSteps (I := fun s : Stamped => Limited hasKey s.last s.cache) (P := fun s => s.cache.Sorted)
    (fun _ _ _ hl hs => (limited_step hl hs).1) (fun _ _ _ hl hsorted hs => (limited_step hl hs).2.2 hsorted)
    (limited_new hq hasKey) (sorted_new q hasKey) hrun

/-- **The limits of a reader.** In every state of a run the cache is within the limits it was made with, and a sample
that is then refused leaves the samples stored as they are. The buckets are in the destination order in every state
passed exactly if all arrivals are untied. -/
theorem reader_limits_hold (q : DataReaderQos) (hq : q.PositiveLimits) (hasKey : Bool) (ops : List Operation)
    (s : Stamped) (hrun : run (step hasKey) ⟨q.cache hasKey, ⊥⟩ ops = some s) :
    (s.cache.getChanges.length : Int) ≤ (q.cache hasKey).maxSamples ∧
    (∀ handle, ((s.cache.bucketOf handle).length : Int) ≤ (q.cache hasKey).maxSamplesPerInstance) ∧
    (s.cache.instanceMap.toList.length : Int) ≤ (q.cache hasKey).maxInstances ∧
    (∀ r c applyFilter e h', s.cache.addChangeWithCleanup r c applyFilter = (.error e, h') →
      h'.getChanges = s.cache.getChanges) ∧
    ((∀ done t, done <+: ops → run (step hasKey) ⟨q.cache hasKey, ⊥⟩ done = some t → t.cache.Sorted) ↔
      AllSteps (step hasKey) Untied ⟨q.cache hasKey, ⊥⟩ ops) := by
  have hinv := run_invariant
    (I := fun s : Stamped => Limited hasKey s.last s.cache ∧ SameLimits (q.cache hasKey) s.cache)
    (fun s op s' hi hs => by
      obtain ⟨hlim, hsame, -⟩ := limited_step hi.1 hs
      exact ⟨hlim, hi.2.trans hsame⟩)
    ⟨limited_new hq hasKey, ⟨rfl, rfl, rfl, rfl⟩⟩ hrun
  obtain ⟨hl, hsame⟩ := hinv
  exact ⟨hsame.maxSamples ▸ hl.samples, hsame.maxSamplesPerInstance ▸ hl.perInstance,
    hsame.maxInstances ▸ hl.instances, fun r c applyFilter e h' hres => getChanges_of_error hres,
    forall_sorted_iff hq hrun⟩

/-- A keyed reader with depth `depth` and no other limit, in the order of reception. -/
def keepLastQos (depth : Int) : DataReaderQos where
  reliability := .reliable
  history := .keepLast depth
  maxSamples := -1
  maxInstances := -1
  maxSamplesPerInstance := -1
  ownership := .shared
  destinationOrder := .byReceptionTimestamp

theorem positiveLimits_keepLastQos {depth : Int} (h1 : 1 ≤ depth) (h2 : depth ≤ i32Max) :
    (keepLastQos depth).PositiveLimits where
  maxSamples := .inl rfl
  maxInstances := .inl rfl
  maxSamplesPerInstance := .inl rfl
  depth := by
    intro d hd
    cases hd
    exact ⟨h1, h2⟩

def openView : DataReaderView := { DataReaderView.plain with isComputeKeyProvided := true }

/-- Sample `sn` of a writer, of one instance, received at `seconds`. -/
def receivedSample (writer : BitVec 32) (sn : Int) (seconds : BitVec 32) : CacheChange :=
  { CacheChange.new .alive ⟨1, writer⟩ ⟨1, true⟩ sn [0] none with receptionTimestamp := some ⟨seconds, 0⟩ }

def addSample (writer : BitVec 32) (sn : Int) (seconds : BitVec 32) : Operation :=
  .addChange openView (receivedSample writer sn seconds) false

/-- With depth 2 the third sample takes the place of the first, and follows the second, received with it. -/
theorem reader_limits_hold_keepLast :
    (keepLastQos 2).PositiveLimits ∧
    ∃ s, run (step true) ⟨(keepLastQos 2).cache true, ⊥⟩ [addSample 1 9 4, addSample 1 1 5, addSample 2 2 5] = some s ∧
      s.cache.getChanges = [receivedSample 1 1 5, receivedSample 2 2 5] ∧
      (∀ handle, ((s.cache.bucketOf handle).length : Int) ≤ 2) ∧ s.cache.Sorted := by
  have hq : (keepLastQos 2).PositiveLimits := positiveLimits_keepLastQos (by decide) (by decide)
  have hrun : (run (step true) ⟨(keepLastQos 2).cache true, ⊥⟩ [addSample 1 9 4, addSample 1 1 5, addSample 2 2 5]).map
      (fun s => s.cache.getChanges) = some [receivedSample 1 1 5, receivedSample 2 2 5] := by decide +kernel
  obtain ⟨s, hs, hc⟩ := Option.map_eq_some_iff.1 hrun
  obtain ⟨-, hper, -, -, hsorted⟩ := reader_limits_hold _ hq true _ s hs
  refine ⟨hq, s, hs, hc, hper, hsorted.2 ?_ _ s (prefix_refl _) hs⟩
  refine ⟨untied_of_forall (by decide +kernel), fun s₁ h₁ => ?_⟩
  cases h₁
  refine ⟨untied_of_forall (by decide +kernel), fun s₂ h₂ => ?_⟩
  cases h₂
  exact ⟨untied_of_forall (by decide +kernel), fun _ _ => trivial⟩

/-- **Equal reception times.** Sample 2 of one writer, then sample 1 of another, received at one time: the bucket
holds them as they came, which is not the order of `dest_order_key`. -/
theorem reception_tie_unsorted :
    ∃ s, run (step true) ⟨(keepLastQos 2).cache true, ⊥⟩ [addSample 1 2 5, addSample 2 1 5] = some s ∧
      ∃ b ∈ s.cache.instanceMap, b.changes = [receivedSample 1 2 5, receivedSample 2 1 5] ∧
        ¬ b.changes.Pairwise (fun c d =>
          destOrderKey c .byReceptionTimestamp ≤ destOrderKey d .byReceptionTimestamp) := by
  have hrun : (run (step true) ⟨(keepLastQos 2).cache true, ⊥⟩ [addSample 1 2 5, addSample 2 1 5]).map
      (fun s => s.cache.instanceMap.toList.map Bucket.changes) =
        some [[receivedSample 1 2 5, receivedSample 2 1 5]] := by decide +kernel
  obtain ⟨s, hs, hb⟩ := Option.map_eq_some_iff.1 hrun
  have hmem : [receivedSample 1 2 5, receivedSample 2 1 5] ∈ s.cache.instanceMap.toList.map Bucket.changes := by
    rw [hb]
    exact mem_cons_self
  obtain ⟨b, hbm, hbc⟩ := mem_map.1 hmem
  refine ⟨s, hs, b, hbm, hbc, ?_⟩
  rw [hbc]
  decide +kernel

end DataReaderHistoryCache

end Int2Dds.History
