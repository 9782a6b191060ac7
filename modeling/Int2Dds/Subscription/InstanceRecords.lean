import Int2Dds.History.ReaderLimits
import Int2Dds.Subscription.Triggers

/-!
# What a reader keeps for each instance

Of every instance a reader keeps a bucket of samples, a record, the candidates for its ownership and the state of the
time based filter. Only the buckets are counted against `max_instances`, and the count comes last: a change that is
refused for lack of room has already left its instance in the other three.
-/

namespace Int2Dds.Subscription.TimedReader
open Lib Rtps History DataReaderHistoryCache List OrdList

variable {Foo V : Type*}

/-! ## Conditions -/

/-- There is room for a sample of the instance without dropping another instance. -/
structure Fits (h : DataReaderHistoryCache) (handle : InstanceHandle) : Prop where
  instances : h.containsInstance handle = true ∨ (h.instanceCount : Int) < h.maxInstances
  samples : h.canAutoRemove = true ∨
    h.isMaxSamplesPerInstanceExceeded handle = false ∧ h.isMaxSamplesExceeded = false

/-- The writer is known to write the instance, and the change does not alter its record. -/
structure Settled (s : TimedReader Foo) (c : CacheChange) : Prop where
  contains : s.reader.cache.containsInstance c.instanceHandle = true
  candidate : ∃ candidates, s.reader.cache.ownerCandidates.lookup c.instanceHandle = some candidates ∧
    candidates.toList.any (fun info => info.ownerGuid == c.writerGuid) = true
  record : ∃ info, s.reader.instanceInfos.lookup c.instanceHandle = some info ∧
    (hasValidData c.kind = true ∧ info.instanceState = .alive ∧ info.key.isEmpty = false ∨
      c.kind = .notAliveDisposed ∧ info.instanceState ≠ .alive)

/-- The key of a sample with data can be had. -/
def HasKey (setup : Setup Foo V) (s : TimedReader Foo) (c : CacheChange) : Prop :=
  hasValidData c.kind = true →
    ∃ key, setup.keyOf c.instanceHandle (s.reader.instanceInfos.get c.instanceHandle).key (some c) = .ok key

variable {handle : InstanceHandle} {s t : TimedReader Foo} {h : DataReaderHistoryCache} {c : CacheChange}
  {setup : Setup Foo V} {view : DataReaderView} {N : Int}

theorem containsInstance_of_grows (hg : Moves handle s t) (k : InstanceHandle) :
    t.reader.cache.containsInstance k = s.reader.cache.containsInstance k := by
  unfold containsInstance
  rw [hg.buckets.instanceMap]

/-! ## Room -/

theorem ensureCapacity_cases (hinst : s.reader.cache.isMaxInstancesExceeded handle = false) :
    (s.ensureCapacity handle).2 = s ∨
      ∃ c, (s.ensureCapacity handle).2 = s.setCache (s.reader.cache.removeChange c) := by
  have hsample : (s.onCache ensureSampleCapacity).2 = s ∨
      ∃ c, (s.onCache ensureSampleCapacity).2 = s.setCache (s.reader.cache.removeChange c) := by
    have hroom := sampleRoom_ensureSampleCapacity s.reader.cache
    unfold onCache
    generalize s.reader.cache.ensureSampleCapacity = res at hroom
    cases hroom with
    | refused e => exact .inl rfl
    | room free => exact .inl rfl
    | @evicted c auto full oldest => exact .inr ⟨c, rfl⟩
  unfold ensureCapacity
  rw [hinst]
  split_ifs
  · exact hsample
  · unfold onCache tryRemoveOldestChangeOfInstance
    dsimp only
    rcases (s.reader.cache.bucketOf handle).head? with _ | c
    · exact .inl rfl
    · exact .inr ⟨c, rfl⟩
  · exact .inl rfl
  · exact absurd ‹False› id
  · exact hsample

theorem oldestChangeOfAll_isSome (hne : h.getChanges ≠ []) : ∃ c, h.oldestChangeOfAll = some c := by
  rcases hmin : (h.instanceMap.toList.filterMap (fun b => b.changes.head?)).argmin
    (fun c => destOrderKey c h.destinationOrderKind) with _ | c
  · rw [argmin_eq_none, filterMap_eq_nil_iff] at hmin
    refine absurd (flatMap_eq_nil_iff.2 fun b hb => ?_) hne
    exact head?_eq_none_iff.1 (hmin b hb)
  · exact ⟨c, hmin⟩

theorem ensureCapacity_ok (hsamples : 1 ≤ h.maxSamples) (hper : 1 ≤ h.maxSamplesPerInstance)
    (hinst : h.isMaxInstancesExceeded handle = false)
    (hfits : h.canAutoRemove = true ∨ h.isMaxSamplesPerInstanceExceeded handle = false ∧
      h.isMaxSamplesExceeded = false) :
    ∃ removed, (h.ensureCapacity handle).1 = .ok removed := by
  have hzero := Writer.asI32_le 0
  have hsample : ∃ removed, h.ensureSampleCapacity.1 = .ok removed := by
    unfold ensureSampleCapacity
    cases hfull : h.isMaxSamplesExceeded with
    | false => exact ⟨_, rfl⟩
    | true =>
      have hauto : h.canAutoRemove = true := hfits.resolve_right (by simp [hfull])
      -- a full history is not empty
      have hne : h.getChanges ≠ [] := by
        intro hnil
        unfold isMaxSamplesExceeded sampleCount at hfull
        rw [hnil] at hfull
        have hle := of_decide_eq_true hfull
        simp at hle hzero
        omega
      obtain ⟨c, hc⟩ := oldestChangeOfAll_isSome hne
      rw [hauto, tryRemoveOldestChangeOfAll, hc]
      exact ⟨_, rfl⟩
  unfold DataReaderHistoryCache.ensureCapacity
  rw [hinst]
  split_ifs with hnil hfull hauto
  · exact hsample
  · -- a full bucket is not empty
    have hne : h.bucketOf handle ≠ [] := by
      intro hempty
      unfold isMaxSamplesPerInstanceExceeded sampleCountOfInstance at hfull
      rw [hempty, if_neg hnil, Bool.and_eq_true] at hfull
      have hle := of_decide_eq_true hfull.2
      simp at hle hzero
      omega
    obtain ⟨c, rest, hcons⟩ := exists_cons_of_ne_nil hne
    rw [tryRemoveOldestChangeOfInstance, hcons]
    exact ⟨_, rfl⟩
  · rcases hfits with h | ⟨h, -⟩
    · exact absurd h hauto
    · rw [h] at hfull
      simp at hfull
  · exact absurd ‹False› id
  · exact hsample

/-! ## Refusals -/

theorem revokeWriterOwnership_ok (writerGuid : Guid) :
    (s.revokeWriterOwnership setup writerGuid handle).1 = .ok () := by
  unfold revokeWriterOwnership
  split
  · rfl
  dsimp only
  split_ifs
  · obtain ⟨b, hb⟩ := updateInstanceState_noWriters setup (s.setCache _) handle none
    rw [hb]
    rfl
  · rfl

theorem advanceInstance_error {e : DdsError} (hkey : HasKey setup s c)
    (h : (s.advanceInstance setup c).1 = .error e) :
    e = .illegalOperation ∧ s.reader.cache.isWriterOwnerOfInstance c.writerGuid c.instanceHandle = false := by
  -- the reader gives no error, with data because the key can be had
  have htold : ∃ b, (s.updateInstanceState setup c.instanceHandle (if hasValidData c.kind then .alive
      else .notAliveDisposed) (some c)).1 = .ok b := by
    unfold updateInstanceState
    split_ifs with hvalid
    · obtain ⟨key, hkey⟩ := hkey hvalid
      dsimp only
      rw [hkey]
      exact ⟨_, rfl⟩
    · dsimp only
      split_ifs
      · exact ⟨_, rfl⟩
      · exact ⟨_, rfl⟩
  obtain ⟨b, hb⟩ := htold
  rcases advanceInstance_cases setup s c with heq | ⟨-, heq⟩
  · rw [heq] at h
    rcases acceptState_cases setup s c with ⟨-, haccept⟩ | ⟨howner, haccept⟩ | ⟨told, rfl, haccept⟩
    · simp [haccept] at h
    · rw [haccept] at h
      exact ⟨(Except.error.inj h).symm, howner⟩
    · simp [haccept, hb, Except.map] at h
  · rw [heq, revokeWriterOwnership_ok] at h
    simp at h

variable {applyFilter : Bool}

theorem owner_of_new (hnew : c.instanceHandle ∉ s.reader.cache.ownerCandidates) :
    (s.filtered view c applyFilter).reader.cache.isWriterOwnerOfInstance c.writerGuid c.instanceHandle = true := by
  obtain ⟨hcandidates, -⟩ := applyTimeBasedFilter_spec
    (s.reader.cache.addToOwnerCandidateIfNew c.instanceHandle (c.ownershipStrength.getD 0) c.writerGuid) view c
    applyFilter
  have hnone : s.reader.cache.ownerCandidates.lookup c.instanceHandle = none := AList.lookup_eq_none.2 hnew
  have hlook : (s.filtered view c applyFilter).reader.cache.ownerCandidates.lookup c.instanceHandle =
      some (empty.insertNew ⟨c.ownershipStrength.getD 0, c.writerGuid⟩) := by
    unfold filtered
    rw [cache_setCache, hcandidates]
    unfold addToOwnerCandidateIfNew
    rw [AList.lookup_insert, hnone]
    rfl
  unfold isWriterOwnerOfInstance getOwnerOfInstance
  rw [hlook]
  simp [first?, insertNew, insertNewList, empty]

/-- Nothing is known of the instance after that was not known before. -/
structure Same (handle : InstanceHandle) (s t : TimedReader Foo) : Prop where
  record : t.reader.instanceInfos.lookup handle = s.reader.instanceInfos.lookup handle
  candidates : t.reader.cache.ownerCandidates.lookup handle = s.reader.cache.ownerCandidates.lookup handle

theorem Same.trans {u : TimedReader Foo} (hst : Same handle s t) (htu : Same handle t u) : Same handle s u :=
  ⟨htu.record.trans hst.record, htu.candidates.trans hst.candidates⟩

theorem settled_same_filtered (hs : Settled s c) : Same c.instanceHandle s (s.filtered view c applyFilter) := by
  obtain ⟨candidates, hcandidates, hknown⟩ := hs.candidate
  obtain ⟨hfiltered, -⟩ := applyTimeBasedFilter_spec
    (s.reader.cache.addToOwnerCandidateIfNew c.instanceHandle (c.ownershipStrength.getD 0) c.writerGuid) view c
    applyFilter
  refine ⟨rfl, ?_⟩
  unfold filtered
  rw [cache_setCache, hfiltered]
  unfold addToOwnerCandidateIfNew
  rw [AList.lookup_insert, hcandidates, Option.getD_some, if_pos hknown]

/-- Data leaves an instance that is alive as it is, and so does a dispose one that is not. -/
theorem settled_same_advance {info : InstanceInfo}
    (hinfo : s.reader.instanceInfos.lookup c.instanceHandle = some info)
    (hrecord : hasValidData c.kind = true ∧ info.instanceState = .alive ∧ info.key.isEmpty = false ∨
      c.kind = .notAliveDisposed ∧ info.instanceState ≠ .alive) :
    Same c.instanceHandle s (s.advanceInstance setup c).2 := by
  have hget : s.reader.instanceInfos.get c.instanceHandle = info := by
    unfold InstanceInfos.get
    rw [hinfo]
    rfl
  have hsame : Same c.instanceHandle s s := ⟨rfl, rfl⟩
  have haccept : Same c.instanceHandle s (s.acceptState setup c).2 := by
    rcases acceptState_cases setup s c with ⟨-, h⟩ | ⟨-, h⟩ | ⟨told, rfl, h⟩ <;> rw [h]
    · exact hsame
    · exact hsame
    · refine ⟨?_, by rw [cache_updateInstanceState]⟩
      unfold updateInstanceState
      rcases hrecord with ⟨hvalid, hstate, hkey⟩ | ⟨hkind, hstate⟩
      · have hrevive : info.revive = info := by
          cases info
          obtain rfl := hstate
          rfl
        have hkeyOf : setup.keyOf c.instanceHandle info.key (some c) = .ok info.key := by simp [Setup.keyOf, hkey]
        rw [if_pos hvalid]
        dsimp only
        rw [hget, hkeyOf, hrevive]
        exact (InstanceInfos.lookup_set _ _ _ _).trans ((if_pos rfl).trans hinfo.symm)
      · rw [hkind, if_neg (by simp [hasValidData])]
        dsimp only
        rw [hget, if_neg hstate]
  -- no writer leaves the instance
  rcases advanceInstance_cases setup s c with h | ⟨hkind, -⟩
  · rw [h]
    exact haccept
  · rcases hrecord with ⟨hvalid, -⟩ | ⟨hdisposed, -⟩
    · rcases hkind with hkind | hkind <;> simp [hkind, hasValidData] at hvalid
    · simp [hdisposed] at hkind

theorem same_ensureCapacity (hinst : s.reader.cache.isMaxInstancesExceeded handle = false) :
    Same handle s (s.ensureCapacity handle).2 := by
  rcases ensureCapacity_cases hinst with h | ⟨c, h⟩
  · rw [h]
    exact ⟨rfl, rfl⟩
  · rw [h]
    exact ⟨rfl, rfl⟩

theorem isMaxInstancesExceeded_of_contains (hc : h.containsInstance handle = true) :
    h.isMaxInstancesExceeded handle = false := by
  unfold isMaxInstancesExceeded
  rw [hc]
  simp

/-- A change that brings nothing new leaves the record and the candidates of its instance as they are. -/
theorem settled_same (hs : Settled s c) :
    Same c.instanceHandle s (s.addChangeWithCleanup setup view c applyFilter).2 := by
  have hstart : Same c.instanceHandle s (s.filtered view c applyFilter) := settled_same_filtered hs
  obtain ⟨info, hinfo, hrecord⟩ := hs.record
  have hadvance : Same c.instanceHandle s ((s.filtered view c applyFilter).advanceInstance setup c).2 :=
    hstart.trans (settled_same_advance (hstart.record.trans hinfo) hrecord)
  have hinst : ((s.filtered view c applyFilter).advanceInstance setup c).2.reader.cache.isMaxInstancesExceeded
      c.instanceHandle = false := by
    apply isMaxInstancesExceeded_of_contains
    rw [containsInstance_of_grows (moves_advanced setup view s c applyFilter)]
    exact hs.contains
  have htakes := takes_addChangeWithCleanup setup view s c applyFilter
  generalize s.addChangeWithCleanup setup view c applyFilter = res at htakes
  cases htakes with
  | dropped => exact ⟨rfl, rfl⟩
  | held => exact hstart
  | refused advance =>
    rw [advance] at hadvance
    exact hadvance
  | full advance room =>
    rw [advance] at hadvance hinst
    have hroom := same_ensureCapacity hinst
    rw [room] at hroom
    exact hadvance.trans hroom
  | stored advance room =>
    rw [advance] at hadvance hinst
    have hroom := same_ensureCapacity hinst
    rw [room] at hroom
    exact (hadvance.trans hroom).trans ⟨rfl, rfl⟩

/-! ## Every instance has a bucket -/

/-- The records, the candidates and the filter know no instance without a bucket, but for one that is on its way. -/
structure Recorded (N : Int) (pending : Option InstanceHandle) (s : TimedReader Foo) : Prop where
  samples : 1 ≤ s.reader.cache.maxSamples
  perInstance : 1 ≤ s.reader.cache.maxSamplesPerInstance
  maxInstances : s.reader.cache.maxInstances = N
  instances : (s.reader.cache.instanceCount : Int) ≤ N
  infos : ∀ k, (s.reader.instanceInfos.lookup k).isSome = true →
    s.reader.cache.containsInstance k = true ∨ pending = some k
  distinct : (s.reader.instanceInfos.map Prod.fst).Nodup
  candidates : ∀ k ∈ s.reader.cache.ownerCandidates, s.reader.cache.containsInstance k = true ∨ pending = some k
  filter : ∀ k ∈ s.reader.cache.timeBasedFilter, s.reader.cache.containsInstance k = true ∨ pending = some k

variable {pending : Option InstanceHandle}

namespace Recorded

variable {N : Int} {s t : TimedReader Foo} {handle : InstanceHandle}

theorem grows (hr : Recorded N none s) (hg : Moves handle s t) : Recorded N (some handle) t := by
  have hcontains := containsInstance_of_grows hg
  refine ⟨?_, ?_, ?_, ?_, ?_, hg.distinct hr.distinct, ?_, ?_⟩
  · rw [hg.buckets.maxSamples]
    exact hr.samples
  · rw [hg.buckets.maxSamplesPerInstance]
    exact hr.perInstance
  · rw [hg.buckets.maxInstances]
    exact hr.maxInstances
  · unfold instanceCount
    rw [hg.buckets.instanceMap]
    exact hr.instances
  · intro k hk
    rw [hcontains]
    rcases hg.infos k hk with h | h
    · exact .inl ((hr.infos k h).resolve_right (by simp))
    · exact .inr (by rw [h])
  · intro k hk
    rw [hcontains]
    rcases hg.candidates k hk with h | h
    · exact .inl ((hr.candidates k h).resolve_right (by simp))
    · exact .inr (by rw [h])
  · intro k hk
    rw [hcontains]
    rcases hg.filter k hk with h | h
    · exact .inl ((hr.filter k h).resolve_right (by simp))
    · exact .inr (by rw [h])

theorem settle (hr : Recorded N (some handle) s) (hc : s.reader.cache.containsInstance handle = true) :
    Recorded N none s := by
  have hin : ∀ k, s.reader.cache.containsInstance k = true ∨ some handle = some k →
      s.reader.cache.containsInstance k = true ∨ none = some k := by
    intro k h
    rcases h with h | h
    · exact .inl h
    · obtain rfl := Option.some.inj h
      exact .inl hc
  exact { hr with
    infos := fun k hk => hin k (hr.infos k hk)
    candidates := fun k hk => hin k (hr.candidates k hk)
    filter := fun k hk => hin k (hr.filter k hk) }

theorem removeChange (hr : Recorded N pending s) :
    Recorded N pending (s.setCache (s.reader.cache.removeChange c)) where
  __ := hr
  instances := by
    have := (shrinks_removeChange s.reader.cache c).instances
    have := hr.instances
    unfold instanceCount at *
    rw [cache_setCache]
    omega
  infos := by
    intro k hk
    rw [cache_setCache, containsInstance_removeChange]
    exact hr.infos k hk
  candidates := by
    intro k hk
    rw [cache_setCache, containsInstance_removeChange]
    exact hr.candidates k hk
  filter := by
    intro k hk
    rw [cache_setCache, containsInstance_removeChange]
    exact hr.filter k hk

theorem ensureCapacity (hr : Recorded N pending s)
    (hinst : s.reader.cache.isMaxInstancesExceeded handle = false) :
    Recorded N pending (s.ensureCapacity handle).2 ∧
      (∀ k, (s.ensureCapacity handle).2.reader.cache.containsInstance k = s.reader.cache.containsInstance k) ∧
      (s.ensureCapacity handle).2.reader.cache.instanceCount ≤ s.reader.cache.instanceCount := by
  rcases ensureCapacity_cases hinst with h | ⟨c, h⟩
  · rw [h]
    exact ⟨hr, fun _ => rfl, le_refl _⟩
  · rw [h]
    exact ⟨hr.removeChange, containsInstance_removeChange _,
      (shrinks_removeChange _ c).instances⟩

theorem insert {c : CacheChange} (hr : Recorded N (some c.instanceHandle) s)
    (hroom : s.reader.cache.containsInstance c.instanceHandle = true ∨ (s.reader.cache.instanceCount : Int) < N) :
    Recorded N none (s.setCache (s.reader.cache.insertChangeSorted c)) := by
  have hin : ∀ k, s.reader.cache.containsInstance k = true ∨ some c.instanceHandle = some k →
      (s.reader.cache.insertChangeSorted c).containsInstance k = true ∨ none = some k := by
    intro k h
    rw [containsInstance_insertChangeSorted]
    rcases h with h | h
    · exact .inl (.inr h)
    · exact .inl (.inl (Option.some.inj h).symm)
  refine ⟨hr.samples, hr.perInstance, hr.maxInstances, ?_, fun k hk => hin k (hr.infos k hk), hr.distinct,
    fun k hk => hin k (hr.candidates k hk), fun k hk => hin k (hr.filter k hk)⟩
  have hcount := instanceCount_insertChangeSorted s.reader.cache c
  have hle := hr.instances
  rw [cache_setCache, hcount]
  split_ifs with hcontains
  · exact hle
  · have hlt := hroom.resolve_left hcontains
    omega

end Recorded

theorem Fits.of_grows (hg : Moves handle s t) (hf : Fits s.reader.cache handle) : Fits t.reader.cache handle := by
  obtain ⟨hinst, hsamples⟩ := hf
  constructor
  · unfold instanceCount at *
    rw [containsInstance_of_grows hg, hg.buckets.instanceMap, hg.buckets.maxInstances]
    exact hinst
  · unfold isMaxSamplesPerInstanceExceeded isMaxSamplesExceeded
      sampleCountOfInstance sampleCount
      bucketOf at *
    rw [containsInstance_of_grows hg, hg.buckets.getChanges, hg.buckets.instanceMap, hg.buckets.maxSamples,
      hg.buckets.maxSamplesPerInstance, hg.buckets.canAutoRemove]
    exact hsamples

theorem Fits.isMaxInstancesExceeded (hf : Fits h handle) : h.isMaxInstancesExceeded handle = false := by
  rcases hf.instances with hc | hlt
  · exact isMaxInstancesExceeded_of_contains hc
  · unfold DataReaderHistoryCache.isMaxInstancesExceeded
    have hle := Writer.asI32_le h.instanceCount
    have hno : ¬ h.maxInstances ≤ Writer.asI32 h.instanceCount := by omega
    simp [hno]

theorem Recorded.finds (hr : Recorded N pending s) (hf : Fits s.reader.cache handle) :
    ∃ removed, (s.ensureCapacity handle).1 = .ok removed := by
  have heq : (s.ensureCapacity handle).1 = (s.reader.cache.ensureCapacity handle).1 :=
    congrArg Prod.fst (inHistory_ensureCapacity s handle)
  rw [heq]
  exact ensureCapacity_ok hr.samples hr.perInstance hf.isMaxInstancesExceeded hf.samples

/-! ## Runs -/

structure Call where
  view : DataReaderView
  change : CacheChange
  applyFilter : Bool

def perform (setup : Setup Foo V) (s : TimedReader Foo) (call : Call) :
    Except DdsError (Option CacheChange × Bool) × TimedReader Foo :=
  s.addChangeWithCleanup setup call.view call.change call.applyFilter

def take (setup : Setup Foo V) (s : TimedReader Foo) (call : Call) : Option (TimedReader Foo) :=
  some (s.perform setup call).2

/-- The content filter drops the change, or there is room and its key can be had, or it brings nothing new. -/
def Welcome (setup : Setup Foo V) (s : TimedReader Foo) (call : Call) : Prop :=
  call.view.drops call.change = true ∨
    Fits s.reader.cache call.change.instanceHandle ∧ HasKey setup s call.change ∨ Settled s call.change

variable {call : Call}

theorem perform_of_drops (h : call.view.drops call.change = true) : s.perform setup call = (.ok (none, false), s) := by
  unfold perform addChangeWithCleanup
  rw [if_pos h]

theorem recorded_perform (hr : Recorded N none s) (hw : Welcome setup s call) :
    Recorded N none (s.perform setup call).2 := by
  rcases hw with hdrops | hw
  · rw [perform_of_drops hdrops]
    exact hr
  have hfiltered := moves_filtered call.view s call.change call.applyFilter
  have hadvanced := moves_advanced setup call.view s call.change call.applyFilter
  have hinst : ((s.filtered call.view call.change call.applyFilter).advanceInstance setup
      call.change).2.reader.cache.isMaxInstancesExceeded call.change.instanceHandle = false := by
    rcases hw with ⟨hfits, -⟩ | hsettled
    · exact (hfits.of_grows hadvanced).isMaxInstancesExceeded
    · apply isMaxInstancesExceeded_of_contains
      rw [containsInstance_of_grows hadvanced]
      exact hsettled.contains
  have htakes := takes_addChangeWithCleanup setup call.view s call.change call.applyFilter
  unfold perform
  generalize s.addChangeWithCleanup setup call.view call.change call.applyFilter = res at htakes
  cases htakes with
  | dropped => exact hr
  | held known =>
    apply (hr.grows hfiltered).settle
    rw [containsInstance_of_grows hfiltered]
    exact (hr.filter _ known).resolve_right (by simp)
  | refused advance =>
    rw [advance] at hadvanced
    apply (hr.grows hadvanced).settle
    rw [containsInstance_of_grows hadvanced]
    rcases hw with ⟨-, hkey⟩ | hsettled
    · -- the first writer of a new instance is its owner, and is not refused
      by_contra hnot
      have hnew : call.change.instanceHandle ∉ s.reader.cache.ownerCandidates := by
        intro hmem
        exact hnot ((hr.candidates _ hmem).resolve_right (by simp))
      have howner : (s.filtered call.view call.change call.applyFilter).reader.cache.isWriterOwnerOfInstance
          call.change.writerGuid call.change.instanceHandle = true := owner_of_new hnew
      have hrefused := (advanceInstance_error (s := s.filtered call.view call.change call.applyFilter) hkey
        (congrArg Prod.fst advance)).2
      rw [howner] at hrefused
      simp at hrefused
    · exact hsettled.contains
  | @full e t t' advance room =>
    rw [advance] at hadvanced hinst
    obtain ⟨hroom, hcontains, -⟩ := (hr.grows hadvanced).ensureCapacity hinst
    rw [room] at hroom hcontains
    apply hroom.settle
    rw [hcontains, containsInstance_of_grows hadvanced]
    rcases hw with ⟨hfits, -⟩ | hsettled
    · obtain ⟨removed, hmade⟩ := (hr.grows hadvanced).finds (hfits.of_grows hadvanced)
      rw [room] at hmade
      simp at hmade
    · exact hsettled.contains
  | @stored removed t t' advance room =>
    rw [advance] at hadvanced hinst
    obtain ⟨hroom, hcontains, hcount⟩ := (hr.grows hadvanced).ensureCapacity hinst
    rw [room] at hroom hcontains hcount
    apply hroom.insert
    rw [hcontains, containsInstance_of_grows hadvanced]
    rcases hw with ⟨hfits, -⟩ | hsettled
    · refine hfits.instances.imp id fun hlt => ?_
      rw [hr.maxInstances] at hlt
      unfold instanceCount at *
      rw [hadvanced.buckets.instanceMap] at hcount
      omega
    · exact .inl hsettled.contains

theorem perform_ne_outOfResources (hr : Recorded N none s) (hfits : Fits s.reader.cache call.change.instanceHandle)
    (hkey : HasKey setup s call.change) : (s.perform setup call).1 ≠ .error .outOfResources := by
  have hadvanced := moves_advanced setup call.view s call.change call.applyFilter
  have htakes := takes_addChangeWithCleanup setup call.view s call.change call.applyFilter
  unfold perform
  generalize s.addChangeWithCleanup setup call.view call.change call.applyFilter = res at htakes
  cases htakes with
  | dropped => simp
  | held => simp
  | stored => simp
  | refused advance =>
    have hrefused := (advanceInstance_error (s := s.filtered call.view call.change call.applyFilter) hkey
      (congrArg Prod.fst advance)).1
    simp [hrefused]
  | full advance room =>
    rw [advance] at hadvanced
    obtain ⟨removed, hok⟩ := (hr.grows hadvanced).finds (hfits.of_grows hadvanced)
    rw [room] at hok
    simp at hok

/-! ## The bound -/

structure Bounded (N : Int) (s : TimedReader Foo) : Prop where
  buckets : (s.reader.cache.instanceMap.toList.length : Int) ≤ N
  infos : (s.reader.instanceInfos.length : Int) ≤ N
  candidates : (s.reader.cache.ownerCandidates.keys.length : Int) ≤ N
  filter : (s.reader.cache.timeBasedFilter.keys.length : Int) ≤ N

theorem length_le_instanceCount {handles : List InstanceHandle} (hd : handles.Nodup)
    (hin : ∀ k ∈ handles, h.containsInstance k = true) : handles.length ≤ h.instanceCount := by
  have hsub : handles ⊆ h.instanceMap.toList.map Bucket.instanceHandle := by
    intro k hk
    obtain ⟨b, hb⟩ := Option.isSome_iff_exists.1 (hin k hk)
    obtain ⟨hmem, rfl⟩ := find?_eq_some.1 hb
    exact mem_map_of_mem hmem
  have hle := (subperm_of_subset hd hsub).length_le
  rwa [length_map] at hle

theorem Recorded.bounded (hr : Recorded N none s) : Bounded N s := by
  have hle : ∀ handles : List InstanceHandle, handles.Nodup →
      (∀ k ∈ handles, s.reader.cache.containsInstance k = true ∨ none = some k) → (handles.length : Int) ≤ N := by
    intro handles hd hin
    have := length_le_instanceCount hd fun k hk => (hin k hk).resolve_right (by simp)
    have := hr.instances
    omega
  refine ⟨hr.instances, ?_, ?_, ?_⟩
  · have hinfos := hle _ hr.distinct (by
      intro k hk
      obtain ⟨entry, hentry, rfl⟩ := mem_map.1 hk
      apply hr.infos
      rw [lookup_isSome_iff]
      exact ⟨entry, hentry, by simp⟩)
    rwa [length_map] at hinfos
  · exact hle _ (AList.keys_nodup _) fun k hk => hr.candidates k (AList.mem_keys.2 hk)
  · exact hle _ (AList.keys_nodup _) fun k hk => hr.filter k (AList.mem_keys.2 hk)

/-- **What a reader keeps is bounded.** In every run of welcome calls, a new reader comes to at most `max_instances`
buckets, records, sets of candidates and filter states, and a call refused for lack of room leaves what is known of
its instance as it is. -/
theorem records_bounded (q : DataReaderQos) (hq : q.PositiveLimits) (hasKey : Bool) (setup : Setup Foo V)
    (start : TimedReader Foo) (hcache : start.reader.cache = q.cache hasKey)
    (hinfos : start.reader.instanceInfos = []) (calls : List Call) (s : TimedReader Foo)
    (hok : AllSteps (take setup) (Welcome setup) start calls) (hrun : run (take setup) start calls = some s) :
    Bounded (q.cache hasKey).maxInstances s ∧
      ∀ call, Welcome setup s call → (s.perform setup call).1 = .error .outOfResources →
        Same call.change.instanceHandle s (s.perform setup call).2 := by
  have hlimits := limited_new hq hasKey
  have hsamples : 1 ≤ (q.cache hasKey).maxSamples :=
    le_min hq.maxSamples.cap.1 (Writer.saturatingMul_bounds hlimits.maxInstances_pos hlimits.perInstance_pos).1
  have hstart : Recorded (q.cache hasKey).maxInstances none start := by
    constructor
    · rw [hcache]
      exact hsamples
    · rw [hcache]
      exact hlimits.perInstance_pos
    · rw [hcache]
    · rw [hcache]
      exact hlimits.instances
    · simp [hinfos]
    · simp [hinfos]
    · rw [hcache]
      exact fun k hk => absurd hk (AList.notMem_empty k)
    · rw [hcache]
      exact fun k hk => absurd hk (AList.notMem_empty k)
  have hr : Recorded (q.cache hasKey).maxInstances none s := by
    refine run_invariant_of_allSteps (I := Recorded (q.cache hasKey).maxInstances none) ?_ hstart hok hrun
    intro s call s' hr hw hs
    obtain rfl := Option.some.inj hs
    exact recorded_perform hr hw
  refine ⟨hr.bounded, ?_⟩
  intro call hw hfull
  rcases hw with hdrops | ⟨hfits, hkey⟩ | hsettled
  · rw [perform_of_drops hdrops]
    exact ⟨rfl, rfl⟩
  · exact absurd hfull (perform_ne_outOfResources hr hfits hkey)
  · exact settled_same hsettled

/-- One instance and one sample at most; nothing is evicted. -/
def oneSampleQos : DataReaderQos where
  reliability := .reliable
  history := .keepAll
  maxSamples := 1
  maxInstances := 1
  maxSamplesPerInstance := -1
  ownership := .shared
  destinationOrder := .byReceptionTimestamp

/-- Two instances and two samples. -/
def twoSampleQos : DataReaderQos := { oneSampleQos with maxSamples := 2, maxInstances := 2 }

theorem positiveLimits_twoSampleQos : twoSampleQos.PositiveLimits where
  maxSamples := .inr (by decide)
  maxInstances := .inr (by decide)
  maxSamplesPerInstance := .inl rfl
  depth := by
    intro depth h
    simp [twoSampleQos, oneSampleQos] at h

def freshReader (q : DataReaderQos) : TimedReader Bytes where
  reader := { keepsLast.reader with cache := q.cache true }
  requested := []

def offer (key : Byte) (sn : Int) : Call where
  view := DataReaderHistoryCache.openView
  change := CacheChange.new .alive ⟨1, 1⟩ ⟨key.setWidth 128, true⟩ sn [key] none
  applyFilter := false

/-- A sample of either instance is stored, and a third one is refused. -/
theorem records_bounded_two :
    ∃ s, run (take octets) (freshReader twoSampleQos) [offer 7 1, offer 8 2] = some s ∧
      s.reader.instanceInfos.length = 2 ∧ Bounded 2 s ∧
      (s.perform octets (offer 8 3)).1 = .error .outOfResources ∧
      Same (offer 8 3).change.instanceHandle s (s.perform octets (offer 8 3)).2 := by
  have hfirst : Welcome octets (freshReader twoSampleQos) (offer 7 1) :=
    .inr (.inl ⟨⟨.inr (by decide +kernel), .inr (by decide +kernel)⟩, fun _ => ⟨[7], by decide +kernel⟩⟩)
  have hsecond : Welcome octets ((freshReader twoSampleQos).perform octets (offer 7 1)).2 (offer 8 2) :=
    .inr (.inl ⟨⟨.inr (by decide +kernel), .inr (by decide +kernel)⟩, fun _ => ⟨[8], by decide +kernel⟩⟩)
  have hrun : run (take octets) (freshReader twoSampleQos) [offer 7 1, offer 8 2] =
      some (((freshReader twoSampleQos).perform octets (offer 7 1)).2.perform octets (offer 8 2)).2 := rfl
  have hok : AllSteps (take octets) (Welcome octets) (freshReader twoSampleQos) [offer 7 1, offer 8 2] := by
    refine ⟨hfirst, fun s₁ h₁ => ⟨?_, fun _ _ => trivial⟩⟩
    obtain rfl := Option.some.inj h₁
    exact hsecond
  obtain ⟨hbounded, hsame⟩ := records_bounded twoSampleQos positiveLimits_twoSampleQos true octets
    (freshReader twoSampleQos) rfl rfl [offer 7 1, offer 8 2] _ hok hrun
  refine ⟨_, hrun, by decide +kernel, hbounded, by decide +kernel, hsame _ ?_ (by decide +kernel)⟩
  refine .inr (.inr ⟨by decide +kernel, ?_, ?_⟩)
  · exact ⟨empty.insertNew ⟨0, ⟨1, 1⟩⟩, by decide +kernel, by decide +kernel⟩
  · exact ⟨⟨[8], .new, .alive, 0, 0, false⟩, by decide +kernel, by decide +kernel⟩

/-- **More records than instances.** A refused sample of a second instance leaves a record and a candidate of it. -/
theorem records_exceed_limit :
    (oneSampleQos.cache true).maxInstances = 1 ∧
    ∃ s, run (take octets) (freshReader oneSampleQos) [offer 7 1] = some s ∧
      (s.perform octets (offer 8 1)).1 = .error .outOfResources ∧
      (s.perform octets (offer 8 1)).2.reader.instanceInfos.length = 2 ∧
      (s.perform octets (offer 8 1)).2.reader.cache.ownerCandidates.keys.length = 2 ∧
      ¬ Bounded 1 (s.perform octets (offer 8 1)).2 ∧
      ¬ Same (offer 8 1).change.instanceHandle s (s.perform octets (offer 8 1)).2 := by
  have hinfos :
      (((freshReader oneSampleQos).perform octets (offer 7 1)).2.perform octets
      (offer 8 1)).2.reader.instanceInfos.length
      = 2 := by decide +kernel
  refine ⟨rfl, _, rfl, by decide +kernel, hinfos, by decide +kernel, ?_, ?_⟩
  · intro hbounded
    have := hbounded.infos
    omega
  · intro hsame
    have hrecord := hsame.record
    revert hrecord
    decide +kernel

end Int2Dds.Subscription.TimedReader
