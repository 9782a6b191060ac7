import Int2Dds.Lib.Run
import Int2Dds.Writer.DataWriterHistory
import Mathlib.Data.List.InsertIdx
import Mathlib.Data.List.Pairwise

/-!
# The resource limits of a keyed writer

Room for a change is made by removing at most one sample before the change is stored. The limits hold as long as the
sample removed is one that the full limit counts: for the limit of an instance, a sample of that instance.

* `Limited` : the invariant; `limited_removeChange`, `limited_storeChange` and `Room` for a write.
-/

namespace Int2Dds.Writer
open Lib Rtps List CacheChange OrdList

namespace DataWriterHistoryCache

/-! ## Writes -/

/-- `ensure_capacity`, carried out. A wait ends with the first candidate that is acknowledged, or with the time. -/
def makeRoom (h : DataWriterHistoryCache) (acked : Int → Bool) (order : List InstanceHandle)
    (handle : InstanceHandle) : Except DdsError DataWriterHistoryCache :=
  match h.ensureCapacity order handle with
  | .free => .ok h
  | .evict c => .ok (h.removeChange c)
  | .awaitAcked candidates =>
    match (h.candidateChanges candidates).find? (fun c => acked c.sequenceNumber) with
    | some c => .ok (h.removeChange c)
    | none => .error .timeout
  | .error e => .error e

/-- The sample that has to leave before a change of an instance is stored. -/
def leaving (h : DataWriterHistoryCache) (acked : Int → Bool) (order : List InstanceHandle) (handle : InstanceHandle) :
    Except DdsError (Option CacheChange) :=
  match h.ensureCapacity order handle with
  | .free => .ok none
  | .evict c => .ok (some c)
  | .awaitAcked candidates =>
    match (h.candidateChanges candidates).find? (fun c => acked c.sequenceNumber) with
    | some c => .ok (some c)
    | none => .error .timeout
  | .error e => .error e

/-- The cache after a write, and the error of a write that is refused. -/
def addChangeWithCleanup (h : DataWriterHistoryCache) (acked : Int → Bool) (order : List InstanceHandle)
    (position : Option Nat) (c : CacheChange) : DataWriterHistoryCache × Option DdsError :=
  if h.purgeSentChanges then (h.purgeSent c, none)
  else
    let h := h.releaseEndCoherentSetsWithoutMembers acked
    match h.makeRoom acked order c.instanceHandle with
    | .ok h => (h.storeChange c position, none)
    | .error e => (h, some e)

/-! ## What is stored -/

def samples (h : DataWriterHistoryCache) : List CacheChange := h.changes.filter (fun c => !c.isEndCoherentSet)

def samplesOf (h : DataWriterHistoryCache) (handle : InstanceHandle) : List CacheChange :=
  h.samples.filter (fun c => decide (c.instanceHandle = handle))

def markers (h : DataWriterHistoryCache) : List CacheChange := h.changes.filter CacheChange.isEndCoherentSet

def instancesWithSamples (h : DataWriterHistoryCache) : List InstanceHandle :=
  (h.samples.map CacheChange.instanceHandle).dedup

def mappedChanges (h : DataWriterHistoryCache) (handle : InstanceHandle) : List CacheChange :=
  (h.instanceMap.find? handle).elim [] Prod.snd

/-- What `h` stores is within the limits of `limits`, the cache as it was made. -/
structure WithinLimits (limits h : DataWriterHistoryCache) : Prop where
  samples : (h.samples.length : Int) ≤ limits.maxSamples
  perInstance : ∀ handle, ((h.samplesOf handle).length : Int) ≤ limits.maxSamplesPerInstance
  instances : (h.instancesWithSamples.length : Int) ≤ limits.maxInstances

structure Consistent (h : DataWriterHistoryCache) : Prop where
  distinct : h.changes.Pairwise (fun c d => c.sequenceNumber ≠ d.sequenceNumber)
  markerCount : h.endCoherentSetCount = h.markers.length
  mapped : ∀ handle, (h.mappedChanges handle).Perm (h.samplesOf handle)

variable {c : CacheChange} {h h' : DataWriterHistoryCache} {handle : InstanceHandle} {cs : List CacheChange}
  {order : List InstanceHandle}

theorem mem_samplesOf :
    c ∈ h.samplesOf handle ↔ c ∈ h.changes ∧ c.isEndCoherentSet = false ∧ c.instanceHandle = handle := by
  simp only [samplesOf, samples, mem_filter, Bool.not_eq_true', decide_eq_true_eq, and_assoc]

theorem Consistent.sampleCount_eq (hc : Consistent h) : h.sampleCount = h.samples.length := by
  have hlen : h.changes.length = h.markers.length + h.samples.length := length_eq_length_filter_add isEndCoherentSet
  rw [sampleCount, hc.markerCount]
  omega

theorem Consistent.sampleCountOfInstance_eq (hc : Consistent h) (handle : InstanceHandle) :
    h.sampleCountOfInstance handle = (h.samplesOf handle).length := by
  rw [← (hc.mapped handle).length_eq]
  unfold sampleCountOfInstance mappedChanges
  cases h.instanceMap.find? handle <;> rfl

theorem Consistent.instances_le (hc : Consistent h) : h.instancesWithSamples.length ≤ h.instanceMap.toList.length := by
  have hsub : h.instancesWithSamples ⊆ h.instanceMap.toList.map Prod.fst := by
    intro handle hh
    obtain ⟨c, hcs, rfl⟩ := mem_map.1 (mem_dedup.1 hh)
    have hmem : c ∈ h.samplesOf c.instanceHandle := mem_filter.2 ⟨hcs, by simp⟩
    have hmapped := (hc.mapped c.instanceHandle).mem_iff.2 hmem
    unfold mappedChanges at hmapped
    cases hf : h.instanceMap.find? c.instanceHandle with
    | none =>
      rw [hf] at hmapped
      cases hmapped
    | some e =>
      obtain ⟨he, hkey⟩ := find?_eq_some.1 hf
      exact mem_map.2 ⟨e, he, hkey⟩
  have hle := ((nodup_dedup _).subperm hsub).length_le
  rwa [length_map] at hle

/-! ## Removal -/

/-- The identity of a change: no other stored change has its number. -/
def Identifies (h : DataWriterHistoryCache) (c : CacheChange) : Prop :=
  ∀ d ∈ h.changes, d.sequenceNumber = c.sequenceNumber → d = c

theorem Consistent.identifies (hc : Consistent h) (hmem : c ∈ h.changes) : h.Identifies c := by
  intro d hd hsn
  have hnodup : (h.changes.map sequenceNumber).Nodup := pairwise_map.2 hc.distinct
  exact inj_on_of_nodup_map hnodup hd hmem hsn

abbrev others (n : Int) (l : List CacheChange) : List CacheChange :=
  l.filter (fun d => decide (d.sequenceNumber ≠ n))

theorem others_eq_self {n : Int} {l : List CacheChange} (hl : ∀ d ∈ l, d.sequenceNumber ≠ n) : others n l = l := by
  refine filter_eq_self.2 fun d hd => ?_
  exact decide_eq_true (hl d hd)

theorem length_others {l : List CacheChange} (hl : l.Pairwise (fun c d => c.sequenceNumber ≠ d.sequenceNumber))
    (hc : c ∈ l) : (others c.sequenceNumber l).length + 1 = l.length := by
  induction l with
  | nil => cases hc
  | cons d l ih =>
    have hd := fun x (hx : x ∈ l) => rel_of_pairwise_cons hl hx
    rcases mem_cons.1 hc with rfl | hc
    · have hrest : others c.sequenceNumber l = l := others_eq_self (fun x hx => (hd x hx).symm)
      rw [others, filter_cons_of_neg (by simp)]
      exact congrArg (fun l => l.length + 1) hrest
    · rw [others, filter_cons_of_pos (by simpa using hd c hc)]
      exact congrArg (· + 1) (ih hl.of_cons hc)

theorem samples_removeChange : (h.removeChange c).samples = others c.sequenceNumber h.samples := by
  simp only [samples, removeChange, filter_filter, Bool.and_comm]

theorem samplesOf_removeChange :
    (h.removeChange c).samplesOf handle = others c.sequenceNumber (h.samplesOf handle) := by
  rw [samplesOf, samples_removeChange, samplesOf]
  simp only [filter_filter, Bool.and_comm]

theorem markers_removeChange : (h.removeChange c).markers = others c.sequenceNumber h.markers := by
  simp only [markers, removeChange, filter_filter, Bool.and_comm]

theorem mappedChanges_removeChange (hkey : h.hasKey = true) :
    (h.removeChange c).mappedChanges handle =
      if handle = c.instanceHandle then others c.sequenceNumber (h.mappedChanges handle)
      else h.mappedChanges handle := by
  unfold mappedChanges
  simp only [removeChange, hkey, if_true, find?_modify]
  split_ifs
  · cases h.instanceMap.find? handle <;> rfl
  · rfl

theorem consistent_removeChange (hc : Consistent h) (hkey : h.hasKey = true) (hid : h.Identifies c) :
    Consistent (h.removeChange c) where
  distinct := hc.distinct.filter _
  markerCount := by
    rw [markers_removeChange]
    by_cases hmarker : c ∈ h.changes ∧ c.isEndCoherentSet = true
    · obtain ⟨hmem, hend⟩ := hmarker
      have hlen := length_others hc.distinct hmem
      have hmarkers := length_others (hc.distinct.filter isEndCoherentSet) (mem_filter.2 ⟨hmem, hend⟩)
      have hcond : (others c.sequenceNumber h.changes).length < h.changes.length ∧ c.isEndCoherentSet = true :=
        ⟨by omega, hend⟩
      have hcount := hc.markerCount
      show (if _ then h.endCoherentSetCount - 1 else h.endCoherentSetCount) = _
      rw [if_pos hcond]
      unfold markers at *
      omega
    · -- no marker has the number of `c`
      have hno : ∀ d ∈ h.markers, d.sequenceNumber ≠ c.sequenceNumber := by
        intro d hd hsn
        obtain ⟨hmem, hend⟩ := mem_filter.1 hd
        obtain rfl := hid d hmem hsn
        exact hmarker ⟨hmem, hend⟩
      have hcond : ¬ ((others c.sequenceNumber h.changes).length < h.changes.length ∧ c.isEndCoherentSet = true) := by
        rintro ⟨hlt, hend⟩
        refine hmarker ⟨?_, hend⟩
        obtain ⟨d, hd, hsn⟩ := length_filter_lt_length_iff_exists.1 hlt
        have hsn' : d.sequenceNumber = c.sequenceNumber := by simpa using hsn
        obtain rfl := hid d hd hsn'
        exact hd
      rw [others_eq_self hno]
      show (if _ then h.endCoherentSetCount - 1 else h.endCoherentSetCount) = _
      rw [if_neg hcond, hc.markerCount]
  mapped := by
    intro handle
    rw [mappedChanges_removeChange hkey, samplesOf_removeChange]
    split_ifs with heq
    · exact (hc.mapped handle).filter _
    · have hno : ∀ d ∈ h.samplesOf handle, d.sequenceNumber ≠ c.sequenceNumber := by
        intro d hd hsn
        obtain ⟨hmem, -, hhandle⟩ := mem_samplesOf.1 hd
        obtain rfl := hid d hmem hsn
        exact heq hhandle.symm
      rw [others_eq_self hno]
      exact hc.mapped handle

/-! ## The invariant -/

structure Limited (h : DataWriterHistoryCache) : Prop where
  consistent : Consistent h
  hasKey : h.hasKey = true
  keepsSent : h.purgeSentChanges = false
  perInstance_pos : 1 ≤ h.maxSamplesPerInstance
  maxSamples_le : h.maxSamples ≤ i32Max
  perInstance_le : h.maxSamplesPerInstance ≤ i32Max
  maxInstances_le : h.maxInstances ≤ i32Max
  samples : (h.samples.length : Int) ≤ h.maxSamples
  perInstance : ∀ handle, ((h.samplesOf handle).length : Int) ≤ h.maxSamplesPerInstance
  mapSize : (h.instanceMap.toList.length : Int) ≤ h.maxInstances

structure SameLimits (h h' : DataWriterHistoryCache) : Prop where
  maxSamples : h'.maxSamples = h.maxSamples
  maxInstances : h'.maxInstances = h.maxInstances
  maxSamplesPerInstance : h'.maxSamplesPerInstance = h.maxSamplesPerInstance
  isReliable : h'.isReliable = h.isReliable

theorem SameLimits.refl : SameLimits h h := ⟨rfl, rfl, rfl, rfl⟩

theorem SameLimits.trans {h₁ h₂ h₃ : DataWriterHistoryCache} (h12 : SameLimits h₁ h₂) (h23 : SameLimits h₂ h₃) :
    SameLimits h₁ h₃ :=
  ⟨h23.maxSamples.trans h12.maxSamples, h23.maxInstances.trans h12.maxInstances,
    h23.maxSamplesPerInstance.trans h12.maxSamplesPerInstance, h23.isReliable.trans h12.isReliable⟩

theorem Limited.within {limits : DataWriterHistoryCache} (hl : Limited h) (hsame : SameLimits limits h) :
    WithinLimits limits h where
  samples := hsame.maxSamples ▸ hl.samples
  perInstance := hsame.maxSamplesPerInstance ▸ hl.perInstance
  instances := hsame.maxInstances ▸ (Int.ofNat_le.2 hl.consistent.instances_le).trans hl.mapSize

theorem sameLimits_removeChange : SameLimits h (h.removeChange c) :=
  ⟨rfl, rfl, rfl, rfl⟩

theorem length_instanceMap_removeChange :
    (h.removeChange c).instanceMap.toList.length = h.instanceMap.toList.length := by
  simp only [removeChange]
  split_ifs
  · exact length_map _
  · rfl

theorem limited_removeChange (hl : Limited h) (hid : h.Identifies c) :
    Limited (h.removeChange c) where
  consistent := consistent_removeChange hl.consistent hl.hasKey hid
  __ := hl
  samples := by
    rw [samples_removeChange]
    exact (Int.ofNat_le.2 (length_filter_le _ _)).trans hl.samples
  perInstance := by
    intro handle
    rw [samplesOf_removeChange]
    exact (Int.ofNat_le.2 (length_filter_le _ _)).trans (hl.perInstance handle)
  mapSize := by
    rw [length_instanceMap_removeChange]
    exact hl.mapSize

theorem Identifies.removeChange (hid : h.Identifies c) (d : CacheChange) : (h.removeChange d).Identifies c :=
  fun e he hsn => hid e (mem_filter.1 he).1 hsn

theorem mem_of_mem_removeChanges {d : CacheChange} (hd : d ∈ (h.removeChanges cs).changes) : d ∈ h.changes := by
  induction cs generalizing h with
  | nil => exact hd
  | cons c cs ih => exact (mem_filter.1 (ih (h := h.removeChange c) hd)).1

theorem limited_removeChanges (hl : Limited h) (hid : ∀ c ∈ cs, h.Identifies c) :
    Limited (h.removeChanges cs) ∧ SameLimits h (h.removeChanges cs) := by
  induction cs generalizing h with
  | nil => exact ⟨hl, SameLimits.refl⟩
  | cons c cs ih =>
    have hfirst := limited_removeChange hl (hid c mem_cons_self)
    obtain ⟨hlim, hsame⟩ := ih hfirst (fun d hd => (hid d (mem_cons_of_mem _ hd)).removeChange c)
    exact ⟨hlim, (sameLimits_removeChange).trans hsame⟩

theorem samples_removeChanges (hid : ∀ c ∈ cs, h.Identifies c) (hmarker : ∀ c ∈ cs, c.isEndCoherentSet = true) :
    (h.removeChanges cs).samples = h.samples := by
  induction cs generalizing h with
  | nil => rfl
  | cons c cs ih =>
    have hc := hid c mem_cons_self
    have hsame : (h.removeChange c).samples = h.samples := by
      rw [samples_removeChange]
      refine others_eq_self fun d hd hsn => ?_
      obtain ⟨hmem, hnot⟩ := mem_filter.1 hd
      obtain rfl := hc d hmem hsn
      rw [hmarker d mem_cons_self] at hnot
      cases hnot
    have hrest := ih (h := h.removeChange c) (fun d hd => (hid d (mem_cons_of_mem _ hd)).removeChange c)
      (forall_mem_cons.1 hmarker).2
    exact hrest.trans hsame

structure Released (h h' : DataWriterHistoryCache) : Prop where
  limited : Limited h'
  same : SameLimits h h'
  samples : h'.samples = h.samples
  subset : ∀ d ∈ h'.changes, d ∈ h.changes

theorem released (hl : Limited h) (acked : Int → Bool) :
    Released h (h.releaseEndCoherentSetsWithoutMembers acked) := by
  unfold releaseEndCoherentSetsWithoutMembers
  split_ifs
  · exact ⟨hl, SameLimits.refl, rfl, fun _ hd => hd⟩
  · have hid : ∀ c ∈ h.endCoherentSetsToRelease acked, h.Identifies c :=
      fun c hc => hl.consistent.identifies (mem_filter.1 hc).1
    have hmarker : ∀ c ∈ h.endCoherentSetsToRelease acked, c.isEndCoherentSet = true := by
      intro c hc
      have hcond := (mem_filter.1 hc).2
      simp only [Bool.and_eq_true] at hcond
      exact hcond.1.1
    obtain ⟨hlim, hsame⟩ := limited_removeChanges hl hid
    exact ⟨hlim, hsame, samples_removeChanges hid hmarker, fun _ hd => mem_of_mem_removeChanges hd⟩

/-! ## Storage -/

structure Room (h : DataWriterHistoryCache) (handle : InstanceHandle) : Prop where
  samples : (h.samples.length : Int) < h.maxSamples
  perInstance : ((h.samplesOf handle).length : Int) < h.maxSamplesPerInstance
  instances : h.containsInstance handle = true ∨ (h.instanceMap.toList.length : Int) < h.maxInstances

theorem perm_storeChange (h : DataWriterHistoryCache) (c : CacheChange) (position : Option Nat) :
    (h.storeChange c position).changes.Perm (c :: h.changes) :=
  perm_insertIdx _ _ (min_le_right _ _)

variable {position : Option Nat}

theorem samples_storeChange (hc : c.isEndCoherentSet = false) :
    (h.storeChange c position).samples.Perm (c :: h.samples) := by
  refine ((perm_storeChange h c position).filter _).trans (Perm.of_eq ?_)
  rw [filter_cons_of_pos (by simp [hc])]
  rfl

theorem samplesOf_storeChange (hc : c.isEndCoherentSet = false) : ((h.storeChange c position).samplesOf handle).Perm
      (if c.instanceHandle = handle then c :: h.samplesOf handle else h.samplesOf handle) := by
  refine ((samples_storeChange hc).filter _).trans (Perm.of_eq ?_)
  rw [filter_cons]
  simp only [decide_eq_true_eq]
  rfl

theorem mappedChanges_storeChange (hkey : h.hasKey = true) : (h.storeChange c position).mappedChanges handle =
      if handle = c.instanceHandle then h.mappedChanges handle ++ [c] else h.mappedChanges handle := by
  unfold mappedChanges
  simp only [storeChange, hkey, if_true, find?_upsert]
  split_ifs with heq
  · cases h.instanceMap.find? handle <;> rfl
  · rfl

theorem consistent_storeChange (hc : Consistent h) (hkey : h.hasKey = true) (hsample : c.isEndCoherentSet = false)
    (hfresh : ∀ d ∈ h.changes, d.sequenceNumber ≠ c.sequenceNumber) :
    Consistent (h.storeChange c position) where
  distinct := by
    have hcons : (c :: h.changes).Pairwise (fun a b => a.sequenceNumber ≠ b.sequenceNumber) :=
      pairwise_cons.2 ⟨fun d hd => (hfresh d hd).symm, hc.distinct⟩
    exact (perm_storeChange h c position).symm.pairwise hcons Ne.symm
  markerCount := by
    have hperm := (perm_storeChange h c position).filter isEndCoherentSet
    rw [filter_cons_of_neg (by simp [hsample])] at hperm
    exact hc.markerCount.trans hperm.length_eq.symm
  mapped := by
    intro handle
    refine Perm.trans ?_ (samplesOf_storeChange hsample).symm
    rw [mappedChanges_storeChange hkey]
    by_cases heq : handle = c.instanceHandle
    · rw [if_pos heq, if_pos heq.symm]
      exact (perm_append_singleton c _).trans ((hc.mapped handle).cons c)
    · rw [if_neg heq, if_neg (Ne.symm heq)]
      exact hc.mapped handle

theorem length_instanceMap_storeChange (hkey : h.hasKey = true) :
    (h.storeChange c position).instanceMap.toList.length =
      h.instanceMap.toList.length + if h.containsInstance c.instanceHandle then 0 else 1 := by
  simp only [storeChange, hkey, if_true, upsert]
  rw [show (modify _ _ _ _).toList.length = (insertNew h.instanceMap (c.instanceHandle, [])).toList.length
    from length_map _, length_insertNew]
  rfl

theorem limited_storeChange (hl : Limited h) (hsample : c.isEndCoherentSet = false)
    (hfresh : ∀ d ∈ h.changes, d.sequenceNumber ≠ c.sequenceNumber) (hroom : Room h c.instanceHandle) :
    Limited (h.storeChange c position) where
  consistent := consistent_storeChange hl.consistent hl.hasKey hsample hfresh
  __ := hl
  samples := by
    rw [(samples_storeChange hsample).length_eq]
    have := hroom.samples
    exact Int.add_one_le_of_lt this
  perInstance := by
    intro handle
    rw [(samplesOf_storeChange hsample).length_eq]
    split_ifs with heq
    · subst heq
      have := hroom.perInstance
      exact Int.add_one_le_of_lt this
    · exact hl.perInstance handle
  mapSize := by
    rw [length_instanceMap_storeChange hl.hasKey]
    cases hcon : h.containsInstance c.instanceHandle with
    | true => exact hl.mapSize
    | false =>
      rcases hroom.instances with hin | hlt
      · rw [hcon] at hin
        cases hin
      · exact Int.add_one_le_of_lt hlt

/-! ## Room for a change -/

/-- Whatever is removed satisfies `P`; `free` removes nothing. -/
def Removes (P : CacheChange → Prop) : Capacity → Prop
  | .free => False
  | .evict c => P c
  | .awaitAcked candidates => ∀ c ∈ candidates, P c
  | .error _ => True

variable {P : CacheChange → Prop}

theorem Removes.mono {Q : CacheChange → Prop} {cap : Capacity} (h : Removes P cap) (hPQ : ∀ c, P c → Q c) :
    Removes Q cap := by
  cases cap with
  | free => exact h
  | evict c => exact hPQ c h
  | awaitAcked candidates => exact fun c hc => hPQ c (h c hc)
  | error e => trivial

variable {acked : Int → Bool}

theorem leaving_removes {o : Option CacheChange} (hrem : Removes P (h.ensureCapacity order handle))
    (hl : h.leaving acked order handle = .ok o) : ∃ c, o = some c ∧ P c := by
  unfold leaving at hl
  generalize h.ensureCapacity order handle = capacity at hrem hl
  cases capacity with
  | free => exact hrem.elim
  | evict c =>
    cases hl
    exact ⟨c, rfl, hrem⟩
  | awaitAcked candidates =>
    dsimp only at hl
    cases hfind : (h.candidateChanges candidates).find? (fun c => acked c.sequenceNumber) with
    | none =>
      rw [hfind] at hl
      cases hl
    | some c =>
      rw [hfind] at hl
      cases hl
      refine ⟨c, rfl, hrem c ?_⟩
      have hmem := mem_of_find?_eq_some hfind
      unfold candidateChanges at hmem
      split_ifs at hmem
      · exact hmem
      · exact (mem_filter.1 hmem).1
  | error e => cases hl

theorem makeRoom_eq : h.makeRoom acked order handle =
    (h.leaving acked order handle).map fun oldest => oldest.elim h h.removeChange := by
  unfold makeRoom leaving
  cases h.ensureCapacity order handle with
  | awaitAcked candidates =>
    dsimp only
    cases (h.candidateChanges candidates).find? (fun c => acked c.sequenceNumber) <;> rfl
  | _ => rfl

theorem makeRoom_removes (hrem : Removes P (h.ensureCapacity order handle))
    (hm : h.makeRoom acked order handle = .ok h') : ∃ c, P c ∧ h' = h.removeChange c := by
  rw [makeRoom_eq] at hm
  cases hl : h.leaving acked order handle with
  | error e =>
    rw [hl] at hm
    cases hm
  | ok o =>
    obtain ⟨c, rfl, hc⟩ := leaving_removes hrem hl
    rw [hl] at hm
    cases hm
    exact ⟨c, hc, rfl⟩

theorem removes_oldestOfAll (h : DataWriterHistoryCache) :
    Removes (fun c => h.samples.head? = some c) h.removeOldestChangeOfAll := by
  unfold removeOldestChangeOfAll samples
  rw [head?_filter]
  cases h.changes.find? (fun c => !c.isEndCoherentSet) with
  | none => trivial
  | some c => exact rfl

theorem mem_mappedChanges {handle' : InstanceHandle} {changes : List CacheChange}
    (hfind : h.instanceMap.find? handle = some (handle', changes)) (hc : c ∈ changes) :
    c ∈ h.mappedChanges handle := by
  unfold mappedChanges
  rw [hfind]
  exact hc

theorem removes_oldestOfInstanceReliable (hc : Consistent h) :
    Removes (fun c => c ∈ h.samplesOf handle) (h.removeOldestChangeOfInstanceReliable handle) := by
  have hmapped : ∀ {handle'} {changes : List CacheChange}, h.instanceMap.find? handle = some (handle', changes) →
      ∀ c ∈ changes, c ∈ h.samplesOf handle :=
    fun hfind c hmem => (hc.mapped handle).mem_iff.1 (mem_mappedChanges hfind hmem)
  unfold removeOldestChangeOfInstanceReliable
  split_ifs
  · cases hfind : h.instanceMap.find? handle with
    | none => trivial
    | some e => exact hmapped hfind
  · trivial
  · cases hfind : h.instanceMap.find? handle with
    | none => trivial
    | some e =>
      dsimp only
      cases hmin : e.2.argmin sequenceNumber with
      | none => trivial
      | some c => exact hmapped hfind c (argmin_mem hmin)

theorem exists_of_removable (hmem : c ∈ h.getRemovableChanges order) :
    ∃ handle, c ∈ h.mappedChanges handle ∧ 1 < (h.mappedChanges handle).length := by
  obtain ⟨handle, -, hin⟩ := mem_flatMap.1 hmem
  refine ⟨handle, ?_⟩
  unfold mappedChanges
  cases hfind : h.instanceMap.find? handle with
  | none =>
    rw [hfind] at hin
    cases hin
  | some e =>
    rw [hfind] at hin
    dsimp only at hin
    split_ifs at hin with hlen
    · exact ⟨hin, hlen⟩
    · cases hin

theorem mem_samples_of_removable (hc : Consistent h) (hmem : c ∈ h.getRemovableChanges order) : c ∈ h.samples := by
  obtain ⟨handle, hin, -⟩ := exists_of_removable hmem
  exact (mem_filter.1 ((hc.mapped handle).mem_iff.1 hin)).1

theorem removes_oldestOfAll_samples (hc : Consistent h) :
    Removes (fun c => c ∈ h.samples) (h.tryRemoveOldestChangeOfAll order) := by
  have hall := (removes_oldestOfAll h).mono (fun c hhead => mem_of_mem_head? hhead)
  unfold tryRemoveOldestChangeOfAll removeOldestChangeOfAllReliable
  dsimp only
  split_ifs
  · trivial
  · exact fun c hmem => mem_samples_of_removable hc hmem
  · exact hall
  · exact hall

/-- What a write must find: an instance with a key, and, if the writer does not wait for acknowledgments, room in it
or something of it to evict. -/
def RoomOk (h : DataWriterHistoryCache) (handle : InstanceHandle) : Prop :=
  handle.isNil = false ∧ (h.isReliable = true ∨ ((h.samplesOf handle).length : Int) < h.maxSamplesPerInstance ∨
    ∀ oldest ∈ h.samples.head?, oldest.instanceHandle = handle)

instance (h : DataWriterHistoryCache) (handle : InstanceHandle) : Decidable (h.RoomOk handle) :=
  inferInstanceAs (Decidable (_ ∧ (_ ∨ _ ∨ ∀ oldest ∈ h.samples.head?, oldest.instanceHandle = handle)))

theorem removes_oldestOfInstance (hl : Limited h) (hok : h.RoomOk handle)
    (hfull : h.maxSamplesPerInstance ≤ ((h.samplesOf handle).length : Int)) :
    Removes (fun c => c ∈ h.samplesOf handle) (h.tryRemoveOldestChangeOfInstance handle) := by
  unfold tryRemoveOldestChangeOfInstance
  cases hrel : h.isReliable with
  | true =>
    rw [hl.hasKey]
    exact removes_oldestOfInstanceReliable hl.consistent
  | false =>
    have hhead : ∀ oldest ∈ h.samples.head?, oldest.instanceHandle = handle := by
      rcases hok.2 with hr | hlt | hhead
      · rw [hrel] at hr
        cases hr
      · omega
      · exact hhead
    refine (removes_oldestOfAll h).mono fun c hc => mem_filter.2 ⟨mem_of_mem_head? hc, ?_⟩
    exact decide_eq_true (hhead c hc)

theorem Limited.isMaxSamplesExceeded_eq (hl : Limited h) :
    h.isMaxSamplesExceeded = decide (h.maxSamples ≤ (h.samples.length : Int)) := by
  rw [isMaxSamplesExceeded, hl.consistent.sampleCount_eq, asI32_of_le (hl.samples.trans hl.maxSamples_le)]

theorem Limited.isMaxSamplesPerInstanceExceeded_eq (hl : Limited h) (hnil : handle.isNil = false) :
    h.isMaxSamplesPerInstanceExceeded handle =
      decide (h.maxSamplesPerInstance ≤ ((h.samplesOf handle).length : Int)) := by
  have hcount := hl.consistent.sampleCountOfInstance_eq handle
  have hpos := hl.perInstance_pos
  rw [isMaxSamplesPerInstanceExceeded, hnil, hcount,
    asI32_of_le ((hl.perInstance handle).trans hl.perInstance_le)]
  unfold containsInstance
  cases hfind : h.instanceMap.find? handle with
  | some e => rfl
  | none =>
    -- no entry, no samples, and the limit is positive
    unfold sampleCountOfInstance at hcount
    rw [hfind] at hcount
    have hzero : (h.samplesOf handle).length = 0 := hcount.symm
    exact (decide_eq_false (by omega)).symm

theorem containsInstance_removeChange : (h.removeChange c).containsInstance handle = h.containsInstance handle := by
  unfold containsInstance
  simp only [removeChange]
  split_ifs
  · rw [find?_modify]
    split_ifs <;> simp
  · rfl

section

variable (hl : Limited h) (hmem : c ∈ h.samples)
  (hinstance : c ∈ h.samplesOf handle ∨ ((h.samplesOf handle).length : Int) < h.maxSamplesPerInstance)
  (hmap : h.containsInstance handle = true ∨ (h.instanceMap.toList.length : Int) < h.maxInstances)
include hl hmem hinstance hmap

theorem room_removeChange : Room (h.removeChange c) handle where
  samples := by
    have hlen : (others c.sequenceNumber h.samples).length + 1 = h.samples.length :=
      length_others (hl.consistent.distinct.filter _) hmem
    have hle := hl.samples
    rw [samples_removeChange]
    show (_ : Int) < h.maxSamples
    omega
  perInstance := by
    rw [samplesOf_removeChange]
    show (_ : Int) < h.maxSamplesPerInstance
    rcases hinstance with hin | hlt
    · have hlen : (others c.sequenceNumber (h.samplesOf handle)).length + 1 = (h.samplesOf handle).length :=
        length_others ((hl.consistent.distinct.filter _).filter _) hin
      have hle := hl.perInstance handle
      omega
    · exact (Int.ofNat_le.2 (length_filter_le _ _)).trans_lt hlt
  instances := by
    rw [containsInstance_removeChange, length_instanceMap_removeChange]
    exact hmap

structure MadeRoom (h h' : DataWriterHistoryCache) (handle : InstanceHandle) : Prop where
  limited : Limited h'
  same : SameLimits h h'
  room : Room h' handle
  subset : ∀ d ∈ h'.changes, d ∈ h.changes

theorem madeRoom_removeChange : MadeRoom h (h.removeChange c) handle where
  limited := limited_removeChange hl (hl.consistent.identifies (mem_filter.1 hmem).1)
  same := sameLimits_removeChange
  room := room_removeChange hl hmem hinstance hmap
  subset := fun _ hd => (mem_filter.1 hd).1

end

theorem madeRoom_makeRoom (hl : Limited h) (hok : h.RoomOk handle)
    (hm : h.makeRoom acked order handle = .ok h') : MadeRoom h h' handle := by
  have hcap : h.ensureCapacity order handle =
      if h.isMaxInstancesExceeded handle then .error .outOfResources
      else if h.isMaxSamplesPerInstanceExceeded handle then h.tryRemoveOldestChangeOfInstance handle
      else if h.isMaxSamplesExceeded then h.tryRemoveOldestChangeOfAll order else .free := by
    rw [ensureCapacity, hl.hasKey, Bool.true_and]
  cases hinst : h.isMaxInstancesExceeded handle with
  | true =>
    rw [hinst] at hcap
    rw [makeRoom, hcap] at hm
    cases hm
  | false =>
    have hmap : h.containsInstance handle = true ∨ (h.instanceMap.toList.length : Int) < h.maxInstances := by
      rw [isMaxInstancesExceeded, asI32_of_le (hl.mapSize.trans hl.maxInstances_le)] at hinst
      cases hcon : h.containsInstance handle with
      | true => exact .inl rfl
      | false => exact .inr (by simpa [hcon] using hinst)
    rw [hinst, if_neg Bool.false_ne_true] at hcap
    rw [hl.isMaxSamplesPerInstanceExceeded_eq hok.1, hl.isMaxSamplesExceeded_eq] at hcap
    simp only [decide_eq_true_eq] at hcap
    split_ifs at hcap with hfull htotal
    · -- the instance is full: one of its samples goes
      obtain ⟨c, hc, rfl⟩ := makeRoom_removes (hcap ▸ removes_oldestOfInstance hl hok hfull) hm
      exact madeRoom_removeChange hl (mem_filter.1 hc).1 (.inl hc) hmap
    · -- the cache is full: some sample goes
      obtain ⟨c, hc, rfl⟩ := makeRoom_removes (hcap ▸ removes_oldestOfAll_samples hl.consistent) hm
      exact madeRoom_removeChange hl hc (.inr (not_le.1 hfull)) hmap
    · rw [makeRoom, hcap] at hm
      cases hm
      exact ⟨hl, SameLimits.refl, ⟨not_le.1 htotal, not_le.1 hfull, hmap⟩, fun _ hd => hd⟩

/-! ## Runs -/

/-- A sample has a payload, its encapsulation header at least; a marker has none. -/
inductive Operation where
  | addChange (c : CacheChange) (sample : c.isEndCoherentSet = false) (acked : Int → Bool)
      (order : List InstanceHandle) (position : Option Nat)
  | addEndCoherentSet (c : CacheChange) (marker : c.isEndCoherentSet = true) (acked : Int → Bool)
  | removeChange (c : CacheChange)
  | removeChangesAckedUpTo (maxAcked : Int)

instance (h : DataWriterHistoryCache) (c : CacheChange) : Decidable (h.Identifies c) :=
  inferInstanceAs (Decidable (∀ d ∈ h.changes, _ → _))

/-- One operation. A change added has a number of its own, and one removed is the stored change with its number:
others do not occur (`none`). -/
def step (h : DataWriterHistoryCache) : Operation → Option DataWriterHistoryCache
  | .addChange c _ acked order position =>
    if ∀ d ∈ h.changes, d.sequenceNumber ≠ c.sequenceNumber then some (h.addChangeWithCleanup acked order position c).1
    else none
  | .addEndCoherentSet c _ acked =>
    if ∀ d ∈ h.changes, d.sequenceNumber ≠ c.sequenceNumber then some (h.addEndCoherentSet acked c) else none
  | .removeChange c => if h.Identifies c then some (h.removeChange c) else none
  | .removeChangesAckedUpTo maxAcked => some (h.removeChangesAckedUpTo maxAcked)

def StepOk (h : DataWriterHistoryCache) : Operation → Prop
  | .addChange c _ _ _ _ => h.RoomOk c.instanceHandle
  | _ => True

instance (h : DataWriterHistoryCache) : (op : Operation) → Decidable (h.StepOk op)
  | .addChange c _ _ _ _ => inferInstanceAs (Decidable (h.RoomOk c.instanceHandle))
  | .addEndCoherentSet .. => isTrue trivial
  | .removeChange _ => isTrue trivial
  | .removeChangesAckedUpTo _ => isTrue trivial

theorem samples_append_marker (hmarker : c.isEndCoherentSet = true) :
    (h.changes ++ [c]).filter (fun c => !c.isEndCoherentSet) = h.samples := by
  rw [filter_append, filter_cons_of_neg (by simp [hmarker]), filter_nil, append_nil]
  rfl

theorem consistent_appendMarker (hc : Consistent h) (hmarker : c.isEndCoherentSet = true)
    (hfresh : ∀ d ∈ h.changes, d.sequenceNumber ≠ c.sequenceNumber) (rtpsCache : WriterHistoryCache) :
    Consistent { h with
      changes := h.changes ++ [c]
      endCoherentSetCount := h.endCoherentSetCount + 1
      rtpsCache } where
  distinct := by
    refine pairwise_append.2 ⟨hc.distinct, pairwise_singleton _ _, ?_⟩
    intro a ha b hb
    rw [mem_singleton.1 hb]
    exact hfresh a ha
  markerCount := by
    show h.endCoherentSetCount + 1 = ((h.changes ++ [c]).filter isEndCoherentSet).length
    rw [filter_append, filter_cons_of_pos hmarker, length_append, hc.markerCount]
    rfl
  mapped :=
    fun handle => (hc.mapped handle).trans (Perm.of_eq (congrArg (filter _) (samples_append_marker hmarker).symm))

theorem limited_appendMarker (hl : Limited h) (hmarker : c.isEndCoherentSet = true)
    (hfresh : ∀ d ∈ h.changes, d.sequenceNumber ≠ c.sequenceNumber) :
    Limited { h with
      changes := h.changes ++ [c]
      endCoherentSetCount := h.endCoherentSetCount + 1
      rtpsCache := h.rtpsCache.addChange c } where
  consistent := consistent_appendMarker hl.consistent hmarker hfresh _
  __ := hl
  samples := by
    rw [samples, samples_append_marker hmarker]
    exact hl.samples
  perInstance := by
    intro handle
    rw [samplesOf, samples, samples_append_marker hmarker]
    exact hl.perInstance handle

theorem limited_addEndCoherentSet (hl : Limited h) (hmarker : c.isEndCoherentSet = true)
    (hfresh : ∀ d ∈ h.changes, d.sequenceNumber ≠ c.sequenceNumber) :
    Limited (h.addEndCoherentSet acked c) ∧ SameLimits h (h.addEndCoherentSet acked c) := by
  have hrel := released hl acked
  unfold addEndCoherentSet
  rw [if_neg (by rw [hrel.limited.keepsSent]; exact Bool.false_ne_true)]
  refine ⟨limited_appendMarker hrel.limited hmarker (fun d hd => hfresh d (hrel.subset d hd)), ?_⟩
  exact ⟨hrel.same.maxSamples, hrel.same.maxInstances, hrel.same.maxSamplesPerInstance, hrel.same.isReliable⟩

theorem RoomOk.of_released (hok : h.RoomOk handle) (hrel : Released h h') : h'.RoomOk handle := by
  have hof : h'.samplesOf handle = h.samplesOf handle := by rw [samplesOf, hrel.samples, samplesOf]
  unfold RoomOk
  rw [hrel.same.isReliable, hrel.same.maxSamplesPerInstance, hrel.samples, hof]
  exact hok

theorem limited_addChangeWithCleanup (hl : Limited h) (hsample : c.isEndCoherentSet = false)
    (hfresh : ∀ d ∈ h.changes, d.sequenceNumber ≠ c.sequenceNumber) (hok : h.RoomOk c.instanceHandle) :
    Limited (h.addChangeWithCleanup acked order position c).1 ∧
      SameLimits h (h.addChangeWithCleanup acked order position c).1 := by
  have hrel := released hl acked
  unfold addChangeWithCleanup
  rw [if_neg (by rw [hl.keepsSent]; exact Bool.false_ne_true)]
  dsimp only
  cases hroom : (h.releaseEndCoherentSetsWithoutMembers acked).makeRoom acked order c.instanceHandle with
  | error e => exact ⟨hrel.limited, hrel.same⟩
  | ok h' =>
    have hmade := madeRoom_makeRoom hrel.limited (hok.of_released hrel) hroom
    have hfresh' : ∀ d ∈ h'.changes, d.sequenceNumber ≠ c.sequenceNumber :=
      fun d hd => hfresh d (hrel.subset d (hmade.subset d hd))
    refine ⟨limited_storeChange hmade.limited hsample hfresh' hmade.room, ?_⟩
    have hsame := hrel.same.trans hmade.same
    exact ⟨hsame.maxSamples, hsame.maxInstances, hsame.maxSamplesPerInstance, hsame.isReliable⟩

theorem limited_step {op : Operation} (hl : Limited h) (hok : h.StepOk op) (hs : h.step op = some h') :
    Limited h' ∧ SameLimits h h' := by
  cases op with
  | addChange c sample acked order position =>
    obtain ⟨hfresh, heq⟩ := Option.ite_none_right_eq_some.1 hs
    cases heq
    exact limited_addChangeWithCleanup hl sample hfresh hok
  | addEndCoherentSet c marker acked =>
    obtain ⟨hfresh, heq⟩ := Option.ite_none_right_eq_some.1 hs
    cases heq
    exact limited_addEndCoherentSet hl marker hfresh
  | removeChange c =>
    obtain ⟨hid, heq⟩ := Option.ite_none_right_eq_some.1 hs
    cases heq
    exact ⟨limited_removeChange hl hid, sameLimits_removeChange⟩
  | removeChangesAckedUpTo maxAcked =>
    cases hs
    exact limited_removeChanges hl (fun c hc => hl.consistent.identifies (mem_filter.1 hc).1)

end DataWriterHistoryCache

structure DataWriterQos.PositiveLimits (q : DataWriterQos) : Prop where
  maxSamples : PositiveLimit q.maxSamples
  maxInstances : PositiveLimit q.maxInstances
  maxSamplesPerInstance : PositiveLimit q.maxSamplesPerInstance
  depth : ∀ depth, q.history = .keepLast depth → 1 ≤ depth ∧ depth ≤ i32Max

namespace DataWriterHistoryCache

theorem limited_new {q : DataWriterQos} (hq : q.PositiveLimits) (hkeeps : (new q true).purgeSentChanges = false) :
    Limited (new q true) := by
  have hperInstance : 1 ≤ (new q true).maxSamplesPerInstance ∧ (new q true).maxSamplesPerInstance ≤ i32Max := by
    unfold new
    cases hist : q.history with
    | keepLast depth => exact hq.depth depth hist
    | keepAll => exact hq.maxSamplesPerInstance.cap
  have hinstances : 1 ≤ (new q true).maxInstances ∧ (new q true).maxInstances ≤ i32Max := hq.maxInstances.cap
  have hsamples : 1 ≤ (new q true).maxSamples ∧ (new q true).maxSamples ≤ i32Max := by
    have hmul := saturatingMul_bounds hinstances.1 hperInstance.1
    have hcap := hq.maxSamples.cap
    exact ⟨le_min hcap.1 hmul.1, (min_le_left _ _).trans hcap.2⟩
  exact
    { consistent := ⟨Pairwise.nil, rfl, fun _ => Perm.refl _⟩
      hasKey := rfl
      keepsSent := hkeeps
      perInstance_pos := hperInstance.1
      maxSamples_le := hsamples.2
      perInstance_le := hperInstance.2
      maxInstances_le := hinstances.2
      samples := (by decide : (0 : Int) ≤ 1).trans hsamples.1
      perInstance := fun _ => (by decide : (0 : Int) ≤ 1).trans hperInstance.1
      mapSize := (by decide : (0 : Int) ≤ 1).trans hinstances.1 }

/-- **The limits of a keyed writer.** In every state of a run whose writes meet `RoomOk`, a writer that retains its
samples, of any QoS with positive limits, is within its limits. -/
theorem writer_limits_hold (q : DataWriterQos) (hq : q.PositiveLimits)
    (hkeeps : (new q true).purgeSentChanges = false) (ops : List Operation) (h : DataWriterHistoryCache)
    (hok : AllSteps step StepOk (new q true) ops) (hrun : run step (new q true) ops = some h) :
    WithinLimits (new q true) h := by
  have hinv := run_invariant_of_allSteps (I := fun h => Limited h ∧ SameLimits (new q true) h)
    (fun h op h' hi hop hs => by
      obtain ⟨hlim, hsame⟩ := limited_step hi.1 hop hs
      exact ⟨hlim, hi.2.trans hsame⟩)
    ⟨limited_new hq hkeeps, SameLimits.refl⟩ hok hrun
  exact hinv.1.within hinv.2

def lastValueQos (reliability : ReliabilityKind) : DataWriterQos where
  reliability := reliability
  durability := .transientLocal
  history := .keepLast 1
  strict := false
  maxSamples := -1
  maxInstances := -1
  maxSamplesPerInstance := -1

theorem positiveLimits_lastValueQos (reliability : ReliabilityKind) : (lastValueQos reliability).PositiveLimits where
  maxSamples := .inl rfl
  maxInstances := .inl rfl
  maxSamplesPerInstance := .inl rfl
  depth := by
    intro depth h
    cases h
    decide

def sampleAt (sn : Int) (key : BitVec 128) : CacheChange := ⟨sn, ⟨key, true⟩, [0, 0, 0, 0], none⟩

def writeAt (sn : Int) (key : BitVec 128) : Operation :=
  .addChange (sampleAt sn key) rfl (fun _ => false) [] none

/-- One sample of each of two instances, and a second of the second one. -/
def twoInstances : List Operation := [writeAt 1 1, writeAt 2 2, writeAt 3 2]

theorem writer_limits_hold_reliable :
    ∃ h, run step (new (lastValueQos .reliable) true) twoInstances = some h ∧
      h.samples = [sampleAt 1 1, sampleAt 3 2] ∧ WithinLimits (new (lastValueQos .reliable) true) h := by
  have hrun : (run step (new (lastValueQos .reliable) true) twoInstances).map samples =
      some [sampleAt 1 1, sampleAt 3 2] := by decide +kernel
  obtain ⟨h, hh, hs⟩ := Option.map_eq_some_iff.1 hrun
  exact ⟨h, hh, hs, writer_limits_hold _ (positiveLimits_lastValueQos _) rfl _ h (by decide +kernel) hh⟩

/-- **A full instance can grow.** A best-effort writer evicts the oldest sample of all, that of the first instance,
and the second holds two samples where one is allowed. -/
theorem writer_instance_overflows :
    ∃ h, run step (new (lastValueQos .bestEffort) true) twoInstances = some h ∧
      h.samplesOf ⟨2, true⟩ = [sampleAt 2 2, sampleAt 3 2] ∧
      ¬ WithinLimits (new (lastValueQos .bestEffort) true) h := by
  have hrun : (run step (new (lastValueQos .bestEffort) true) twoInstances).map (samplesOf · ⟨2, true⟩) =
      some [sampleAt 2 2, sampleAt 3 2] := by decide +kernel
  obtain ⟨h, hh, hs⟩ := Option.map_eq_some_iff.1 hrun
  refine ⟨h, hh, hs, fun hlim => ?_⟩
  have hle := hlim.perInstance ⟨2, true⟩
  rw [hs] at hle
  exact absurd hle (by decide)

end DataWriterHistoryCache

end Int2Dds.Writer
