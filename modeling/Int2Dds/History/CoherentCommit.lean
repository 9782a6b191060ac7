import Int2Dds.History.DataReaderContents
import Int2Dds.History.ReaderHistory
import Mathlib.Data.Finset.Card
import Mathlib.Data.List.SplitBy

/-!
# A coherent set in the history of a data reader

Before a coherent set is stored, a dry run checks that all its members fit. Whether they are then all stored depends
on what the dry run does not see: the handles filled in later, the content filter, ownership, and which sample an
eviction picks. `Storable` excludes these.

* `Filling.ensureCapacity` : while the set fits, room is made by taking out a change of `base`.
* `commitAll_storable` : a set that fits is stored whole.
-/

namespace Int2Dds.History
open Lib Rtps DataReaderHistoryCache ReaderHistoryCache List CacheChange
open Writer (asI32 i32Max asI32_le asI32_of_le)

/-! ## Casts -/

theorem asUsize_of_limit {v : Int} (h : 0 ≤ v) (h' : v ≤ i32Max) : (asUsize v : Int) = v := by
  unfold asUsize i32Max at *
  omega

variable {c : CacheChange} {h : DataReaderHistoryCache}

theorem Bucket.insertSorted_append (kind : DestinationOrderKind) {os : List CacheChange} (ns : List CacheChange)
    (h : ∀ o ∈ os, destOrderKey o kind ≤ destOrderKey c kind) :
    insertSorted kind (os ++ ns) c = os ++ insertSorted kind ns c := by
  cases kind with
  | byReceptionTimestamp => exact append_assoc os ns [c]
  | bySourceTimestamp =>
    have hall : ∀ o ∈ os, decide (destOrderKey o .bySourceTimestamp ≤ destOrderKey c .bySourceTimestamp) = true :=
      fun o ho => decide_eq_true (h o ho)
    unfold insertSorted
    dsimp only
    rw [takeWhile_append_of_pos hall, dropWhile_append_of_pos hall, append_assoc]

/-! ## A history that is being filled -/

/-- `h` is `base` with `news` stored. What had to leave is of `base`; where something may have to, `base` comes first
in every bucket. -/
structure Filling (base h : DataReaderHistoryCache) (news : List CacheChange) : Prop where
  maxSamples : h.maxSamples = base.maxSamples
  maxInstances : h.maxInstances = base.maxInstances
  maxSamplesPerInstance : h.maxSamplesPerInstance = base.maxSamplesPerInstance
  kind : h.destinationOrderKind = base.destinationOrderKind
  auto : h.canAutoRemove = base.canAutoRemove
  contents : ∃ olds, h.getChanges.Perm (olds ++ news) ∧ (∀ c ∈ olds, c ∈ base.getChanges) ∧
    (base.canAutoRemove = false → olds.Perm base.getChanges)
  front : base.canAutoRemove = true → ∀ k, ∃ os ns, h.bucketOf k = os ++ ns ∧ (∀ c ∈ os, c ∈ base.getChanges) ∧
    ∀ c ∈ ns, c ∈ news
  contains : ∀ k, h.containsInstance k = true ↔ base.containsInstance k = true ∨ k ∈ news.map CacheChange.instanceHandle
  count : h.instanceCount = base.instanceCount +
    ((news.map CacheChange.instanceHandle).toFinset.filter (fun k => base.containsInstance k = false)).card

namespace Filling
variable {base h : DataReaderHistoryCache} {all news : List CacheChange}

theorem refl (base : DataReaderHistoryCache) : Filling base base [] where
  maxSamples := rfl
  maxInstances := rfl
  maxSamplesPerInstance := rfl
  kind := rfl
  auto := rfl
  contents := ⟨base.getChanges, by simp, fun _ hc => hc, fun _ => Perm.refl _⟩
  front := fun _ k => ⟨base.bucketOf k, [], by simp, fun _ hc => (mem_bucketOf.1 hc).1, by simp⟩
  contains := fun k => by simp
  count := by simp

theorem of_sameBuckets (hf : Filling base h news) {h' : DataReaderHistoryCache}
    (hs : SameBuckets h h') : Filling base h' news where
  maxSamples := hs.maxSamples.trans hf.maxSamples
  maxInstances := hs.maxInstances.trans hf.maxInstances
  maxSamplesPerInstance := hs.maxSamplesPerInstance.trans hf.maxSamplesPerInstance
  kind := hs.destinationOrderKind.trans hf.kind
  auto := hs.canAutoRemove.trans hf.auto
  contents := by
    rw [hs.getChanges]
    exact hf.contents
  front := by
    unfold bucketOf
    rw [hs.instanceMap]
    exact hf.front
  contains := by
    unfold containsInstance at *
    rw [hs.instanceMap]
    exact hf.contains
  count := by
    unfold instanceCount
    rw [hs.instanceMap]
    exact hf.count

variable {c o : CacheChange}

theorem mem_or_mem (hf : Filling base h news) (hc : c ∈ h.getChanges) : c ∈ base.getChanges ∨ c ∈ news := by
  obtain ⟨olds, hperm, hold, -⟩ := hf.contents
  rcases mem_append.1 (hperm.mem_iff.1 hc) with hc | hc
  · exact .inl (hold c hc)
  · exact .inr hc

theorem mem_of_mem_news (hf : Filling base h news) (hc : c ∈ news) : c ∈ h.getChanges := by
  obtain ⟨olds, hperm, -⟩ := hf.contents
  exact hperm.mem_iff.2 (mem_append_right _ hc)

theorem filter_news (hfresh : ∀ n ∈ news, o.id ≠ n.id) {ns : List CacheChange} (hns : ∀ c ∈ ns, c ∈ news) :
    ns.filter (fun d => decide (¬ SameSample o d)) = ns :=
  filter_eq_self.2 fun n hn => decide_eq_true fun hsame => hfresh n (hns n hn) hsame.2.symm

variable (hf : Filling base h news)
include hf

theorem removeChange (hfresh : ∀ n ∈ news, o.id ≠ n.id) (hauto : base.canAutoRemove = true) :
    Filling base (h.removeChange o) news where
  __ := hf
  contents := by
    obtain ⟨olds, hperm, hold, -⟩ := hf.contents
    refine ⟨olds.filter (fun d => decide (¬ SameSample o d)), ?_, fun c hc => hold c (mem_of_mem_filter hc),
      fun hno => absurd (hauto.symm.trans hno) Bool.noConfusion⟩
    rw [getChanges_removeChange]
    have hfilter := hperm.filter (fun d => decide (¬ SameSample o d))
    rwa [filter_append, filter_news hfresh (fun _ hc => hc)] at hfilter
  front := by
    intro _ k
    obtain ⟨os, ns, hb, hos, hns⟩ := hf.front hauto k
    refine ⟨os.filter (fun d => decide (¬ SameSample o d)), ns, ?_, fun c hc => hos c (mem_of_mem_filter hc), hns⟩
    rw [bucketOf_eq_filter] at hb ⊢
    rw [getChanges_removeChange, filter_comm, hb, filter_append,
      filter_news hfresh hns]
  contains := fun k => by
    rw [containsInstance_removeChange]
    exact hf.contains k
  count := by
    rw [instanceCount_removeChange]
    exact hf.count

theorem insertChangeSorted
    (hlater :
      base.canAutoRemove = true →
      ∀ o ∈ base.getChanges, destOrderKey o base.destinationOrderKind < destOrderKey c base.destinationOrderKind) :
    Filling base (h.insertChangeSorted c) (news ++ [c]) where
  __ := hf
  contents := by
    obtain ⟨olds, hperm, hold, hno⟩ := hf.contents
    refine ⟨olds, ?_, hold, hno⟩
    refine (getChanges_insertChangeSorted h).trans ((hperm.cons c).trans ?_)
    rw [← append_assoc]
    exact (perm_append_singleton c (olds ++ news)).symm
  front := by
    intro hauto k
    obtain ⟨os, ns, hb, hos, hns⟩ := hf.front hauto k
    rw [bucketOf_insertChangeSorted]
    by_cases hk : k = c.instanceHandle
    · refine ⟨os, Bucket.insertSorted h.destinationOrderKind ns c, ?_, hos, fun d hd => ?_⟩
      · rw [if_pos hk, hb, Bucket.insertSorted_append]
        intro o ho
        rw [hf.kind]
        exact (hlater hauto o (hos o ho)).le
      · rcases mem_cons.1 ((Bucket.insertSorted_perm _ ns c).mem_iff.1 hd) with rfl | hd
        · exact mem_append_right _ (mem_singleton_self _)
        · exact mem_append_left _ (hns d hd)
    · rw [if_neg hk]
      exact ⟨os, ns, hb, hos, fun d hd => mem_append_left _ (hns d hd)⟩
  contains := fun k => by
    rw [containsInstance_insertChangeSorted, hf.contains]
    simp only [map_append, map_cons, map_nil, mem_append, mem_singleton]
    tauto
  count := by
    rw [instanceCount_insertChangeSorted, hf.count]
    have hset : ((news ++ [c]).map instanceHandle).toFinset =
        insert c.instanceHandle (news.map instanceHandle).toFinset := by
      simp
    rw [hset, Finset.filter_insert]
    cases hbase : base.containsInstance c.instanceHandle with
    | true =>
      rw [if_pos ((hf.contains _).2 (.inl hbase))]
      simp
    | false =>
      rw [if_pos rfl]
      by_cases hmem : c.instanceHandle ∈ news.map instanceHandle
      · rw [if_pos ((hf.contains _).2 (.inr hmem)), Finset.insert_eq_self.2 (by simpa [hbase] using hmem), Nat.add_zero]
      · have hnot : ¬ h.containsInstance c.instanceHandle = true := by
          rw [hf.contains, hbase]
          simpa using hmem
        rw [if_neg hnot,
          Finset.card_insert_of_notMem (by simpa using fun x hx hxc => absurd (mem_map.2 ⟨x, hx, hxc⟩) hmem)]
        omega

/-! ## Room for the changes of a set -/

theorem exists_old (hlt : news.length < h.sampleCount) : ∃ o ∈ h.getChanges, o ∈ base.getChanges := by
  obtain ⟨olds, hperm, hold, -⟩ := hf.contents
  have hlen : olds.length ≠ 0 := by
    have := hperm.length_eq
    rw [length_append] at this
    unfold sampleCount at hlt
    omega
  obtain ⟨o, ho⟩ := exists_mem_of_ne_nil olds (ne_nil_of_length_pos (Nat.pos_of_ne_zero hlen))
  exact ⟨o, hperm.mem_iff.2 (mem_append_left _ ho), hold o ho⟩

section

variable (hauto : base.canAutoRemove = true) (hfresh : ∀ c ∈ base.getChanges, ∀ n ∈ news, c.id ≠ n.id)
include hauto hfresh

theorem front_old
    (ho : o ∈ h.getChanges) (hbase : o ∈ base.getChanges) :
    ∃ p rest, h.bucketOf o.instanceHandle = p :: rest ∧ p ∈ base.getChanges := by
  obtain ⟨os, ns, hb, hos, hns⟩ := hf.front hauto o.instanceHandle
  have hmem : o ∈ os ++ ns := by
    rw [← hb]
    exact mem_bucketOf.2 ⟨ho, rfl⟩
  rcases mem_append.1 hmem with hmem | hmem
  · cases os with
    | nil => cases hmem
    | cons p os => exact ⟨p, os ++ ns, by rw [hb, cons_append], hos p mem_cons_self⟩
  · exact absurd rfl (hfresh o hbase o (hns o hmem))

theorem oldest_old
    (hlater :
      ∀ c ∈ base.getChanges, ∀ n ∈ news,
      destOrderKey c base.destinationOrderKind < destOrderKey n base.destinationOrderKind)
    (ho : o ∈ h.getChanges) (hbase : o ∈ base.getChanges) :
    ∃ p, h.oldestChangeOfAll = some p ∧ p ∈ base.getChanges := by
  obtain ⟨q, rest, hq, hqbase⟩ := hf.front_old hauto hfresh ho hbase
  have hfront : q ∈ h.instanceMap.toList.filterMap (fun b => b.changes.head?) := by
    unfold bucketOf at hq
    cases hb : h.instanceMap.find? o.instanceHandle with
    | none =>
      rw [hb] at hq
      cases hq
    | some b =>
      rw [hb] at hq
      refine mem_filterMap.2 ⟨b, (OrdList.find?_eq_some.1 hb).1, ?_⟩
      rw [show b.changes = q :: rest from hq]
      rfl
  cases hold : h.oldestChangeOfAll with
  | none =>
    rw [oldestChangeOfAll, argmin_eq_none] at hold
    rw [hold] at hfront
    cases hfront
  | some p =>
    refine ⟨p, rfl, (hf.mem_or_mem (oldestChangeOfAll_mem hold).1).resolve_right fun hp => ?_⟩
    have hle := le_of_mem_argmin hfront hold
    rw [hf.kind] at hle
    exact absurd hle (not_le.2 (hlater q hqbase p hp))

end

theorem sampleCount_eq (hauto : base.canAutoRemove = false) : h.sampleCount = base.sampleCount + news.length := by
  obtain ⟨olds, hperm, -, hno⟩ := hf.contents
  unfold sampleCount
  rw [hperm.length_eq, length_append, (hno hauto).length_eq]

theorem sampleCountOfInstance_eq (k : InstanceHandle) :
    ∃ olds : List CacheChange, h.sampleCountOfInstance k =
      olds.length + (news.map instanceHandle).count k ∧
      (∀ c ∈ olds, c ∈ h.getChanges ∧ c ∈ base.getChanges ∧ c.instanceHandle = k) ∧
      (base.canAutoRemove = false → olds.length = base.sampleCountOfInstance k) := by
  obtain ⟨olds, hperm, hold, hno⟩ := hf.contents
  have hcount : (news.map instanceHandle).count k =
      (news.filter (fun c => decide (c.instanceHandle = k))).length := by
    rw [List.count, List.countP_map, List.countP_eq_length_filter]
    rfl
  refine ⟨olds.filter (fun c => decide (c.instanceHandle = k)), ?_, fun c hc => ?_, fun hauto => ?_⟩
  · unfold sampleCountOfInstance
    rw [bucketOf_eq_filter, (hperm.filter _).length_eq, filter_append,
      length_append, hcount]
  · obtain ⟨hc, hk⟩ := mem_filter.1 hc
    exact ⟨hperm.mem_iff.2 (mem_append_left _ hc), hold c hc, of_decide_eq_true hk⟩
  · unfold sampleCountOfInstance
    rw [bucketOf_eq_filter, ((hno hauto).filter _).length_eq]

end Filling

/-- The limits are those of a QoS that was accepted. -/
structure Limited (h : DataReaderHistoryCache) : Prop where
  samples : 0 ≤ h.maxSamples ∧ h.maxSamples ≤ i32Max
  instances : 0 ≤ h.maxInstances ∧ h.maxInstances ≤ i32Max
  perInstance : 0 ≤ h.maxSamplesPerInstance ∧ h.maxSamplesPerInstance ≤ i32Max

/-- What the dry run finds for a batch with these handles. -/
structure Fits (base : DataReaderHistoryCache) (handles : List InstanceHandle) : Prop where
  perInstance : ∀ k ∈ handles, k.isNil = false →
    (((if base.canAutoRemove then 0 else base.sampleCountOfInstance k) + handles.count k : Nat) : Int) ≤
      base.maxSamplesPerInstance
  instances : ((base.instanceCount +
    (handles.toFinset.filter (fun k => k.isNil = false ∧ base.containsInstance k = false)).card : Nat) : Int) ≤
      base.maxInstances
  total : (((if base.canAutoRemove then 0 else base.sampleCount) + handles.length : Nat) : Int) ≤ base.maxSamples

theorem fits_of_dry {base : DataReaderHistoryCache} (hlim : Limited base) {handles : List InstanceHandle}
    (h : base.ensureCapacityDry handles = true) : Fits base handles := by
  unfold ensureCapacityDry at h
  rw [Bool.and_eq_true, Bool.and_eq_true, all_eq_true] at h
  obtain ⟨⟨hper, hinst⟩, htotal⟩ := h
  have hS := asUsize_of_limit hlim.samples.1 hlim.samples.2
  have hI := asUsize_of_limit hlim.instances.1 hlim.instances.2
  have hP := asUsize_of_limit hlim.perInstance.1 hlim.perInstance.2
  refine ⟨fun k hk hnil => ?_, ?_, ?_⟩
  · have hk' := hper k hk
    rw [hnil] at hk'
    have := of_decide_eq_true hk'
    omega
  · have hcard : (handles.toFinset.filter (fun k => k.isNil = false ∧ base.containsInstance k = false)).card =
        (handles.dedup.filter (fun k => !k.isNil && !base.containsInstance k)).length := by
      rw [← toFinset_card_of_nodup ((nodup_dedup handles).filter _)]
      congr 1
      ext k
      simp
    have := of_decide_eq_true hinst
    omega
  · have := of_decide_eq_true htotal
    omega

namespace Filling
variable {base h : DataReaderHistoryCache} {news : List CacheChange}

section

variable (hf : Filling base h news) (hlim : Limited base)
  (hfresh : ∀ c ∈ base.getChanges, ∀ d ∈ news, c.id ≠ d.id)
  (hlater : base.canAutoRemove = true → ∀ c ∈ base.getChanges, ∀ d ∈ news,
    destOrderKey c base.destinationOrderKind < destOrderKey d base.destinationOrderKind)
include hf hlim hfresh hlater

theorem ensureSampleCapacity {n : Nat}
    (htotal : (((if base.canAutoRemove then 0 else base.sampleCount) + n : Nat) : Int) ≤ base.maxSamples)
    (hn : news.length < n) : ∃ removed h', h.ensureSampleCapacity = (.ok removed, h') ∧ Filling base h' news := by
  unfold DataReaderHistoryCache.ensureSampleCapacity
  cases hfull : h.isMaxSamplesExceeded with
  | false => exact ⟨none, h, rfl, hf⟩
  | true =>
    have hle : base.maxSamples ≤ asI32 h.sampleCount := by
      rw [← hf.maxSamples]
      exact of_decide_eq_true hfull
    rw [hf.auto]
    cases hauto : base.canAutoRemove with
    | false =>
      -- nothing left, so the count is that of the dry run
      rw [hauto] at htotal
      have hcount := hf.sampleCount_eq hauto
      have hmax := hlim.samples.2
      have hI : asI32 h.sampleCount = h.sampleCount := asI32_of_le (by simp at htotal; omega)
      simp only [Bool.false_eq_true, if_false] at htotal
      omega
    | true =>
      have hI := asI32_le h.sampleCount
      obtain ⟨o, ho, hbase⟩ := hf.exists_old (by omega)
      obtain ⟨p, hp, hpbase⟩ := hf.oldest_old hauto hfresh (hlater hauto) ho hbase
      refine ⟨some p, h.removeChange p, ?_, hf.removeChange (hfresh p hpbase) hauto⟩
      rw [tryRemoveOldestChangeOfAll, hp]
      rfl

theorem ensureCapacity {handles rest : List InstanceHandle} {k : InstanceHandle} (hfits : Fits base handles)
    (hall : news.map instanceHandle ++ k :: rest = handles)
    (hkeyed : (∀ j ∈ handles, j.isNil = true) ∨ ∀ j ∈ handles, j.isNil = false) :
    ∃ removed h', h.ensureCapacity k = (.ok removed, h') ∧ Filling base h' news := by
  have hk : k ∈ handles := by
    rw [← hall]
    exact mem_append_right _ mem_cons_self
  have hlen : news.length < handles.length := by
    rw [← hall]
    simp
  have hsamples := hf.ensureSampleCapacity hlim hfresh hlater hfits.total hlen
  unfold DataReaderHistoryCache.ensureCapacity
  rcases hkeyed with hnil | hnil
  · rw [hnil k hk, if_pos rfl]
    exact hsamples
  · have hnilk := hnil k hk
    have hcount : (news.map instanceHandle).count k < handles.count k := by
      rw [← hall, count_append, count_cons_self]
      omega
    have hper := hfits.perInstance k hk hnilk
    rw [hnilk, if_neg Bool.false_ne_true]
    cases hfull : h.isMaxSamplesPerInstanceExceeded k with
    | true =>
      rw [DataReaderHistoryCache.isMaxSamplesPerInstanceExceeded, hnilk, if_neg Bool.false_ne_true,
        Bool.and_eq_true] at hfull
      have hle := of_decide_eq_true hfull.2
      rw [hf.maxSamplesPerInstance] at hle
      obtain ⟨olds, hcnt, holds, hno⟩ := hf.sampleCountOfInstance_eq k
      have hI := asI32_le (h.sampleCountOfInstance k)
      rw [hf.auto]
      cases hauto : base.canAutoRemove with
      | false =>
        rw [hauto] at hper
        simp only [Bool.false_eq_true, if_false] at hper
        have := hno hauto
        omega
      | true =>
        -- the instance holds more than the set brings, so something of `base` is left in it
        have hpos : 0 < olds.length := by omega
        obtain ⟨o, ho⟩ := exists_mem_of_ne_nil olds (ne_nil_of_length_pos hpos)
        obtain ⟨hoh, hobase, rfl⟩ := holds o ho
        obtain ⟨p, tail, hp, hpbase⟩ := hf.front_old hauto hfresh hoh hobase
        refine ⟨some p, h.removeChange p, ?_, hf.removeChange (hfresh p hpbase) hauto⟩
        rw [tryRemoveOldestChangeOfInstance, hp]
        rfl
    | false =>
      have hinst : h.isMaxInstancesExceeded k = false := by
        cases hc : h.containsInstance k with
        | true => simp [isMaxInstancesExceeded, hc]
        | false =>
          -- the instance is one of those the dry run counted, and not yet there
          have hnot : ¬ (base.containsInstance k = true ∨ k ∈ news.map instanceHandle) := by
            rw [← hf.contains, hc]
            exact Bool.false_ne_true
          have hlt : ((news.map instanceHandle).toFinset.filter
              (fun j => base.containsInstance j = false)).card <
              (handles.toFinset.filter (fun j => j.isNil = false ∧ base.containsInstance j = false)).card := by
            refine Finset.card_lt_card (Finset.ssubset_iff_of_subset (fun j hj => ?_) |>.2 ⟨k, ?_, ?_⟩)
            · obtain ⟨hj, hb⟩ := Finset.mem_filter.1 hj
              have hjh : j ∈ handles := by
                rw [← hall]
                exact mem_append_left _ (mem_toFinset.1 hj)
              exact Finset.mem_filter.2 ⟨mem_toFinset.2 hjh, hnil j hjh, hb⟩
            · refine Finset.mem_filter.2 ⟨mem_toFinset.2 hk, hnilk, ?_⟩
              exact Bool.eq_false_iff.2 fun hb => hnot (.inl hb)
            · exact fun hmem => hnot (.inr (mem_toFinset.1 (Finset.mem_filter.1 hmem).1))
          have hI := asI32_le h.instanceCount
          have hbound := hfits.instances
          have hcnt := hf.count
          rw [DataReaderHistoryCache.isMaxInstancesExceeded, hc, hf.maxInstances, Bool.not_false, Bool.true_and]
          exact decide_eq_false (by omega)
      rw [if_neg Bool.false_ne_true, hinst, if_neg Bool.false_ne_true]
      exact hsamples

end

end Filling

/-! ## Owners of the instances of a set -/

/-- The kinds of change by which a writer gives up an instance. -/
def ChangeKind.Unregisters (kind : ChangeKind) : Prop :=
  kind = .notAliveUnregistered ∨ kind = .notAliveDisposedUnregistered

/-- Instances are shared, or the changes are of one writer that is or becomes the owner of their instances. -/
def Owned (h : DataReaderHistoryCache) (changes : List CacheChange) : Prop :=
  h.ownershipKind = .shared ∨ ∃ w, ∀ c ∈ changes, c.writerGuid = w ∧ ¬ c.kind.Unregisters ∧
    (h.addToOwnerCandidateIfNew c.instanceHandle (c.ownershipStrength.getD 0) c.writerGuid).isWriterOwnerOfInstance
      c.writerGuid c.instanceHandle = true

theorem Owned.of_sameSettings {h' : DataReaderHistoryCache} {changes : List CacheChange} (ho : Owned h changes)
    (hs : SameSettings h h') : Owned h' changes := by
  rw [hs]
  exact ho

theorem candidate_of_owner {w : Guid} {k : InstanceHandle} (ho : h.getOwnerOfInstance k = some w) :
    ∃ entry, h.ownerCandidates.lookup k = some entry ∧ entry.toList.any (fun info => info.ownerGuid == w) = true := by
  obtain ⟨entry, hentry, hfirst⟩ := Option.bind_eq_some_iff.1 ho
  obtain ⟨info, hinfo, hguid⟩ := Option.map_eq_some_iff.1 hfirst
  refine ⟨entry, hentry, any_eq_true.2 ⟨info, OrdList.first?_mem hinfo, ?_⟩⟩
  rw [hguid]
  exact beq_self_eq_true w

theorem owner_addToOwnerCandidateIfNew {w : Guid} {k k' : InstanceHandle} {s s' : Int}
    (howner : (h.addToOwnerCandidateIfNew k s w).getOwnerOfInstance k = some w)
    (howner' : (h.addToOwnerCandidateIfNew k' s' w).getOwnerOfInstance k' = some w) :
    ((h.addToOwnerCandidateIfNew k s w).addToOwnerCandidateIfNew k' s' w).getOwnerOfInstance k' = some w := by
  by_cases hk : k' = k
  · subst hk
    obtain ⟨entry, hentry, hany⟩ := candidate_of_owner howner
    have hlookup : ((h.addToOwnerCandidateIfNew k' s w).addToOwnerCandidateIfNew k' s' w).ownerCandidates.lookup k' =
        some entry := by
      rw [addToOwnerCandidateIfNew]
      rw [AList.lookup_insert, hentry, Option.getD_some, if_pos hany]
    unfold getOwnerOfInstance at howner ⊢
    rw [hlookup]
    rwa [hentry] at howner
  · have hlookup : (h.addToOwnerCandidateIfNew k s w).ownerCandidates.lookup k' = h.ownerCandidates.lookup k' :=
      AList.lookup_insert_ne hk
    unfold getOwnerOfInstance at ⊢
    have hsame : ((h.addToOwnerCandidateIfNew k s w).addToOwnerCandidateIfNew k' s' w).ownerCandidates.lookup k' =
        (h.addToOwnerCandidateIfNew k' s' w).ownerCandidates.lookup k' := by
      conv_lhs => rw [addToOwnerCandidateIfNew]
      conv_rhs => rw [addToOwnerCandidateIfNew]
      rw [AList.lookup_insert, AList.lookup_insert, hlookup]
    rwa [hsame]

theorem updateInstanceState_ok {r : DataReaderView} {cs : List CacheChange} (ho : Owned h (c :: cs))
    (haccept : ∀ state change, r.updateInstanceState c.instanceHandle state change = .ok ()) :
    ∃ h', (h.addToOwnerCandidateIfNew c.instanceHandle
      (c.ownershipStrength.getD 0) c.writerGuid).updateInstanceState r c
      = (.ok (), h') ∧ Owned h' cs := by
  have hkind : (h.addToOwnerCandidateIfNew c.instanceHandle (c.ownershipStrength.getD 0) c.writerGuid).ownershipKind =
      h.ownershipKind := rfl
  rcases ho with hshared | ⟨w, howned⟩
  · have howner : (h.addToOwnerCandidateIfNew c.instanceHandle (c.ownershipStrength.getD 0)
        c.writerGuid).isWriterOwnerOfInstance c.writerGuid c.instanceHandle = true := by
      simp [isWriterOwnerOfInstance, hkind, hshared]
    generalize h.addToOwnerCandidateIfNew c.instanceHandle (c.ownershipStrength.getD 0) c.writerGuid = ha at *
    have hrevoke : ∃ h', ha.revokeWriterOwnership r c.writerGuid c.instanceHandle = (.ok (), h') ∧ Owned h' cs := by
      unfold revokeWriterOwnership
      cases hl : ha.ownerCandidates.lookup c.instanceHandle with
      | none => exact ⟨ha, rfl, .inl (hkind.trans hshared)⟩
      | some entry =>
        dsimp only
        rw [haccept, ite_self]
        exact ⟨_, rfl, .inl (hkind.trans hshared)⟩
    unfold updateInstanceState
    cases hc : c.kind <;> simp only [howner, haccept]
    all_goals first | exact hrevoke | exact ⟨ha, rfl, .inl (hkind.trans hshared)⟩
  · obtain ⟨hw, hreg, howner⟩ := howned c mem_cons_self
    refine ⟨h.addToOwnerCandidateIfNew c.instanceHandle (c.ownershipStrength.getD 0) c.writerGuid, ?_, ?_⟩
    · unfold updateInstanceState
      cases hc : c.kind with
      | notAliveUnregistered => exact absurd (.inl hc) hreg
      | notAliveDisposedUnregistered => exact absurd (.inr hc) hreg
      | alive | aliveFiltered | notAliveDisposed => simp only [howner, if_true, haccept]
    · by_cases hshared : h.ownershipKind = .shared
      · exact .inl (hkind.trans hshared)
      · refine .inr ⟨w, fun d hd => ?_⟩
        obtain ⟨hw', hreg', howner'⟩ := howned d (mem_cons_of_mem _ hd)
        have hne : (h.ownershipKind == OwnershipKind.shared) = false := beq_eq_false_iff_ne.2 hshared
        unfold isWriterOwnerOfInstance at howner howner' ⊢
        rw [hw'.trans hw.symm] at howner' ⊢
        rw [show (h.addToOwnerCandidateIfNew _ _ _).ownershipKind = h.ownershipKind from rfl, hne, Bool.false_or,
          beq_iff_eq] at howner howner'
        refine ⟨hw, hreg', ?_⟩
        rw [owner_addToOwnerCandidateIfNew howner howner', beq_self_eq_true, Bool.or_true]

/-! ## Storing the set -/

/-- A change as it is stored when its handle is known. -/
def DataReaderView.stamp (r : DataReaderView) (c : CacheChange) : CacheChange :=
  { c with receptionTimestamp := some (r.receivedAt c) }

/-- What the dry run does not look at lets every member in: the handle on the wire is the one the reader finds, the
content filter and the bookkeeping accept the change, its writer owns the instance, it is not stored yet, and it comes
after what may be evicted. -/
structure Storable (r : DataReaderView) (h : DataReaderHistoryCache) (members : List CacheChange) : Prop where
  limits : Limited h
  handles : ∀ m ∈ members, r.fallbackInstanceHandle m = .ok m.instanceHandle
  keyed : (∀ m ∈ members, m.instanceHandle.isNil = true) ∨ ∀ m ∈ members, m.instanceHandle.isNil = false
  passes : ∀ m ∈ members, r.drops (r.stamp m) = false
  accepted : ∀ m ∈ members, ∀ state change, r.updateInstanceState m.instanceHandle state change = .ok ()
  owned : Owned h members
  fresh : ∀ c ∈ h.getChanges, ∀ m ∈ members, c.id ≠ m.id
  later : h.canAutoRemove = true → ∀ c ∈ h.getChanges, ∀ m ∈ members,
    destOrderKey c h.destinationOrderKind < destOrderKey (r.stamp m) h.destinationOrderKind

section Members
variable {r : DataReaderView} {base h : DataReaderHistoryCache} {members done rest : List CacheChange} {m : CacheChange}

theorem addInfo_storable (hs : Storable r base members) (hm : m ∈ members) :
    r.addInfoToCacheChange m = .ok (r.stamp m) := by
  unfold DataReaderView.addInfoToCacheChange
  rw [hs.handles m hm]
  rfl

theorem addChangeWithCleanup_storable (hs : Storable r base members)
    (hfits : Fits base (members.map instanceHandle))
    (hall : done ++ m :: rest = members) (hf : Filling base h (done.map r.stamp)) (ho : Owned h (m :: rest)) :
    ∃ removed h', h.addChangeWithCleanup r (r.stamp m) false = (.ok (removed, false), h') ∧
      Filling base h' ((done ++ [m]).map r.stamp) ∧ Owned h' rest := by
  have hdone : ∀ d ∈ done, d ∈ members := fun d hd => by
    rw [← hall]
    exact mem_append_left _ hd
  have hm : m ∈ members := by
    rw [← hall]
    exact mem_append_right _ mem_cons_self
  -- what is known of the members stored so far
  have hfresh : ∀ c ∈ base.getChanges, ∀ d ∈ done.map r.stamp, c.id ≠ d.id := by
    intro c hc d hd
    obtain ⟨e, he, rfl⟩ := mem_map.1 hd
    exact hs.fresh c hc e (hdone e he)
  have hlater : base.canAutoRemove = true → ∀ c ∈ base.getChanges, ∀ d ∈ done.map r.stamp,
      destOrderKey c base.destinationOrderKind < destOrderKey d base.destinationOrderKind := by
    intro hauto c hc d hd
    obtain ⟨e, he, rfl⟩ := mem_map.1 hd
    exact hs.later hauto c hc e (hdone e he)
  have hsplit : (done.map r.stamp).map instanceHandle ++ m.instanceHandle :: rest.map instanceHandle
      = members.map instanceHandle := by
    rw [map_map, ← hall, map_append]
    rfl
  have hkeyed : (∀ j ∈ members.map instanceHandle, j.isNil = true) ∨
      ∀ j ∈ members.map instanceHandle, j.isNil = false := by
    refine hs.keyed.imp (fun hk j hj => ?_) (fun hk j hj => ?_)
    all_goals
      obtain ⟨e, he, rfl⟩ := mem_map.1 hj
      exact hk e he
  unfold addChangeWithCleanup
  rw [hs.passes m hm]
  have howner : Owned h (r.stamp m :: rest) :=
    ho.imp (fun h => h) fun ⟨w, h⟩ => ⟨w, fun c hc => by
      rcases mem_cons.1 hc with rfl | hc
      · exact h m mem_cons_self
      · exact h c (mem_cons_of_mem _ hc)⟩
  obtain ⟨hb, hupdate, howned⟩ := updateInstanceState_ok (r := r) (c := r.stamp m)
    howner (hs.accepted m hm)
  have hsame := sameBuckets_addToOwnerCandidateIfNew h (r.stamp m).instanceHandle
    ((r.stamp m).ownershipStrength.getD 0) (r.stamp m).writerGuid
  dsimp only
  generalize h.addToOwnerCandidateIfNew (r.stamp m).instanceHandle ((r.stamp m).ownershipStrength.getD 0)
    (r.stamp m).writerGuid = ha at hsame hupdate ⊢
  have hsame' := hsame.trans (sameBuckets_updateInstanceState ha r (r.stamp m))
  rw [hupdate] at hsame'
  obtain ⟨removed, hc, hcapacity, hfill⟩ := (hf.of_sameBuckets hsame').ensureCapacity hs.limits hfresh hlater
    hfits hsplit hkeyed
  have howned' := howned.of_sameSettings (sameSettings_ensureCapacity hb m.instanceHandle)
  rw [hcapacity] at howned'
  -- the members of a set do not go through the time based filter
  rw [show ha.applyTimeBasedFilter r (r.stamp m) false = (false, ha) from rfl]
  dsimp only
  rw [hupdate]
  dsimp only
  rw [show hb.ensureCapacity (r.stamp m).instanceHandle = (.ok removed, hc) from hcapacity]
  refine ⟨removed, _, rfl, ?_, howned'.of_sameSettings rfl⟩
  rw [map_append]
  exact hfill.insertChangeSorted fun hauto c hc => hs.later hauto c hc m hm

theorem commitAll_storable (hs : Storable r base members)
    (hfits : Fits base (members.map instanceHandle))
    (hall : done ++ rest = members) {cache : ReaderHistoryCache}
    (hf : Filling base cache.dataReaderCache (done.map r.stamp)) (ho : Owned cache.dataReaderCache rest) :
    (commitAll r (rest.map (·, false)) cache).1 = .ok (rest.map r.stamp) ∧
      Filling base (commitAll r (rest.map (·, false)) cache).2.dataReaderCache
        (members.map r.stamp) := by
  induction rest generalizing done cache with
  | nil =>
    rw [append_nil] at hall
    rw [← hall]
    exact ⟨rfl, hf⟩
  | cons m rest ih =>
    have hm : m ∈ members := by
      rw [← hall]
      exact mem_append_right _ mem_cons_self
    obtain ⟨removed, h', hadd, hf', ho'⟩ := addChangeWithCleanup_storable hs hfits hall hf ho
    have hcommit : ∃ cache', cache.commitChange r m false = (.ok (some (r.stamp m)), cache') ∧
        cache'.dataReaderCache = h' := by
      unfold commitChange
      rw [addInfo_storable hs hm]
      dsimp only
      rw [hadd]
      refine ⟨_, rfl, ?_⟩
      cases removed <;> rfl
    obtain ⟨cache', hcommit, rfl⟩ := hcommit
    have hall' : done ++ [m] ++ rest = members := by
      rw [append_assoc]
      exact hall
    have hnext := ih hall' hf' ho'
    rw [map_cons, commitAll, hcommit]
    dsimp only
    refine ⟨?_, hnext.2⟩
    rw [hnext.1]
    rfl

end Members

/-! ## One change of a batch -/

theorem id_addInfoToCacheChange {r : DataReaderView} {d : CacheChange} (h : r.addInfoToCacheChange c = .ok d) :
    d.id = c.id := by
  unfold DataReaderView.addInfoToCacheChange at h
  cases hhandle : r.fallbackInstanceHandle c with
  | error e =>
    rw [hhandle] at h
    cases h
  | ok handle =>
    rw [hhandle] at h
    cases h
    rfl

/-- `news` came to what was stored, and is of the batch. -/
def GrewBy (h h' : ReaderHistoryCache) (batch : List (CacheChange × Bool)) : Prop :=
  h'.dataReaderCache.canAutoRemove = false ∧ ∃ news : List CacheChange,
    h'.dataReaderCache.getChanges.Perm (news ++ h.dataReaderCache.getChanges) ∧ ∀ d ∈ news, ∃ a ∈ batch, d.id = a.1.id

theorem GrewBy.refl {h : ReaderHistoryCache} (hauto : h.dataReaderCache.canAutoRemove = false)
    (batch : List (CacheChange × Bool)) : GrewBy h h batch :=
  ⟨hauto, [], Perm.refl _, forall_mem_nil _⟩

theorem grewBy_commitChange (r : DataReaderView) (h : ReaderHistoryCache) (c : CacheChange) (applyFilter : Bool)
    (hauto : h.dataReaderCache.canAutoRemove = false) :
    GrewBy h (h.commitChange r c applyFilter).2 [(c, applyFilter)] := by
  unfold commitChange
  cases hinfo : r.addInfoToCacheChange c with
  | error e => exact GrewBy.refl hauto _
  | ok shared =>
    obtain ⟨hauto', news, hperm, hnews⟩ :=
      h.dataReaderCache.addChangeWithCleanup_noRemoval r applyFilter hauto
    have hbatch : ∀ d ∈ news, ∃ a ∈ [(c, applyFilter)], d.id = a.1.id := fun d hd =>
      ⟨(c, applyFilter), mem_singleton_self _, by rw [hnews d hd, id_addInfoToCacheChange hinfo]⟩
    dsimp only
    rcases hadd : h.dataReaderCache.addChangeWithCleanup r shared applyFilter with ⟨e | ⟨removed, _ | _⟩, cache⟩ <;>
      rw [hadd] at hauto' hperm
    · exact ⟨hauto', news, hperm, hbatch⟩
    · cases removed <;> exact ⟨hauto', news, hperm, hbatch⟩
    · exact ⟨hauto', news, hperm, hbatch⟩

end Int2Dds.History
