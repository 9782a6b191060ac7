import Int2Dds.History.ReaderLimits
import Int2Dds.Subscription.TakeExactly

/-!
# Ordered access across instances

The snapshot of TOPIC scope merges the buckets of the instances.

* `inAccessOrder_iff_sorted` : it is in the destination order, instances with smaller handles first, exactly when every
  bucket is in the destination order;
* `ordered_access_iff` : so it is in every state of a run exactly when all arrivals are untied.
-/

namespace Int2Dds.History.DataReaderHistoryCache
open Lib Rtps List

variable {kind : DestinationOrderKind} {buckets rest : List (List CacheChange)} {c : CacheChange}

def mergeKey (kind : DestinationOrderKind) (c : CacheChange) : (WithBot RtpsTime ×ₗ ℤ) ×ₗ InstanceHandle :=
  toLex (destOrderKey c kind, c.instanceHandle)

def Apart (buckets : List (List CacheChange)) : Prop :=
  buckets.Pairwise fun b b' => ∀ c ∈ b, ∀ c' ∈ b', c.instanceHandle < c'.instanceHandle

theorem mergeKey_le_takeSmallest (hapart : Apart buckets)
    (hsorted : ∀ b ∈ buckets, b.Pairwise fun c d => mergeKey kind c ≤ mergeKey kind d)
    (h : takeSmallest kind buckets = some (c, rest)) : ∀ d ∈ buckets.flatten, mergeKey kind c ≤ mergeKey kind d := by
  induction buckets generalizing c rest with
  | nil => cases h
  | cons bucket buckets ih =>
    obtain ⟨hbefore, hafter⟩ := pairwise_cons.1 hapart
    obtain ⟨hbucket, hothers⟩ := forall_mem_cons.1 hsorted
    cases bucket with
    | nil =>
      obtain ⟨⟨d, rest'⟩, hd, heq⟩ := Option.map_eq_some_iff.1 h
      cases heq
      simpa using ih hafter hothers hd
    | cons b bucket =>
      have hfirst : ∀ d ∈ b :: bucket, mergeKey kind b ≤ mergeKey kind d := by
        simpa using (pairwise_cons.1 hbucket).1
      intro a ha
      rw [flatten_cons, mem_append] at ha
      rw [takeSmallest] at h
      split at h
      · next hnone =>
        cases h
        exact hfirst a (ha.resolve_right (by simp [takeSmallest_eq_none hnone]))
      · next d rest' hnext =>
        have hle := ih hafter hothers hnext
        have hd : d ∈ buckets.flatten := (takeSmallest_perm hnext).subset mem_cons_self
        split_ifs at h with hlt
        · cases h
          rcases ha with ha | ha
          · exact (Prod.Lex.toLex_lt_toLex.2 (.inl hlt)).le.trans (hfirst a ha)
          · exact hle a ha
        · cases h
          rcases ha with ha | ha
          · exact hfirst a ha
          · obtain ⟨b', hb', hdb⟩ := mem_flatten.1 hd
            refine le_trans (Prod.Lex.toLex_le_toLex.2 ?_) (hle a ha)
            rcases (not_lt.1 hlt).lt_or_eq with hkey | hkey
            · exact .inl hkey
            · exact .inr ⟨hkey, (hbefore b' hb' c mem_cons_self d hdb).le⟩

/-- The merge keeps the order of each bucket, and is sorted if they are. -/
theorem mergeBuckets_spec {total : ℕ} (hlen : buckets.flatten.length = total) (hapart : Apart buckets) :
    (∀ b ∈ buckets, b <+ mergeBuckets kind total buckets) ∧
      ((∀ b ∈ buckets, b.Pairwise fun c d => mergeKey kind c ≤ mergeKey kind d) →
        (mergeBuckets kind total buckets).Pairwise fun c d => mergeKey kind c ≤ mergeKey kind d) := by
  induction total generalizing buckets with
  | zero => simpa [mergeBuckets] using length_eq_zero_iff.1 hlen
  | succ total ih =>
    rw [mergeBuckets]
    cases hnext : takeSmallest kind buckets with
    | none => simpa using takeSmallest_eq_none hnext
    | some next =>
      obtain ⟨c, rest⟩ := next
      have hperm := takeSmallest_perm hnext
      have hle := mergeKey_le_takeSmallest hapart (h := hnext)
      obtain ⟨before, bucket, after, rfl, rfl⟩ := takeSmallest_split hnext
      have hrest : (before ++ bucket :: after).flatten.length = total := by
        have := hperm.length_eq
        rw [length_cons] at this
        omega
      obtain ⟨hsub, hsorted⟩ := ih hrest (by
        unfold Apart at hapart ⊢
        rw [pairwise_append, pairwise_cons] at hapart ⊢
        grind)
      rw [forall_mem_append, forall_mem_cons] at hsub hsorted ⊢
      refine ⟨⟨fun b hb => (hsub.1 b hb).cons c, hsub.2.1.cons_cons c, fun b hb => (hsub.2.2 b hb).cons c⟩, fun h => ?_⟩
      refine pairwise_cons.2 ⟨fun d hd => ?_, hsorted ?_⟩
      · exact hle h d (hperm.subset (mem_cons_of_mem c ((mergeBuckets_perm kind hrest).subset hd)))
      · rw [forall_mem_append, forall_mem_cons] at h
        exact ⟨h.1, h.2.1.of_cons, h.2.2⟩

/-- The snapshot holds what is stored, keeps the order of each instance and is in the destination order, smaller
handles first. -/
structure InAccessOrder (h : DataReaderHistoryCache) : Prop where
  perm : h.getChangesForTopicScopedOrderedAccess.Perm h.getChanges
  instances : ∀ handle, h.bucketOf handle <+ h.getChangesForTopicScopedOrderedAccess
  sorted : h.getChangesForTopicScopedOrderedAccess.Pairwise fun c d =>
    mergeKey h.destinationOrderKind c ≤ mergeKey h.destinationOrderKind d

theorem inAccessOrder_iff_sorted (h : DataReaderHistoryCache) : h.InAccessOrder ↔ h.Sorted := by
  have hapart : Apart (h.instanceMap.toList.map Bucket.changes) := by
    refine pairwise_map.2 (h.instanceMap.sorted.imp fun {b b'} hlt c hc c' hc' => ?_)
    rwa [b.own c hc, b'.own c' hc']
  obtain ⟨hsub, hsorted⟩ := mergeBuckets_spec rfl hapart
  rw [forall_mem_map] at hsub hsorted
  have hinstances : ∀ handle, h.bucketOf handle <+ h.getChangesForTopicScopedOrderedAccess := by
    intro handle
    unfold bucketOf
    cases hb : h.instanceMap.find? handle with
    | none => exact nil_sublist _
    | some b => exact hsub b (OrdList.find?_eq_some.1 hb).1
  constructor
  · intro hmerge handle
    refine (hmerge.sorted.imp fun hle => ?_).sublist (hinstances handle)
    exact (Prod.Lex.toLex_le_toLex.1 hle).elim le_of_lt fun h => h.1.le
  · intro hbuckets
    refine ⟨h.getChangesForTopicScopedOrderedAccess_perm, hinstances, hsorted fun b hb => ?_⟩
    have hbucket := hbuckets b.instanceHandle
    rw [bucketOf, OrdList.find?_eq_some.2 ⟨hb, rfl⟩] at hbucket
    refine hbucket.imp_of_mem fun {c d} hc hd hle => Prod.Lex.toLex_le_toLex.2 ?_
    rcases hle.lt_or_eq with hlt | heq
    · exact .inl hlt
    · exact .inr ⟨heq, by rw [b.own c hc, b.own d hd]⟩

/-- **Ordered access.** The snapshot is in order in every state of a run exactly if all its arrivals are untied. -/
theorem ordered_access_iff {q : DataReaderQos} (hq : q.PositiveLimits) {hasKey : Bool} {ops : List Operation}
    {s : Stamped} (hrun : run (step hasKey) ⟨q.cache hasKey, ⊥⟩ ops = some s) :
    (∀ done t, done <+: ops → run (step hasKey) ⟨q.cache hasKey, ⊥⟩ done = some t → t.cache.InAccessOrder) ↔
      AllSteps (step hasKey) Untied ⟨q.cache hasKey, ⊥⟩ ops := by
  simp only [inAccessOrder_iff_sorted]
  exact forall_sorted_iff hq hrun

def otherInstance : CacheChange := { receivedSample 1 1 5 with instanceHandle := ⟨2, true⟩ }

/-- Three samples received together, two of them of one instance; equal keys come in the order of the handles. -/
theorem ordered_access_tie :
    ∃ s, run (step true) ⟨(keepLastQos 2).cache true, ⊥⟩
        [.addChange openView otherInstance false, addSample 1 1 5, addSample 2 2 5] = some s ∧
      s.cache.getChangesForTopicScopedOrderedAccess = [receivedSample 1 1 5, otherInstance, receivedSample 2 2 5] ∧
      s.cache.InAccessOrder := by
  have hrun : (run (step true) ⟨(keepLastQos 2).cache true, ⊥⟩
      [.addChange openView otherInstance false, addSample 1 1 5, addSample 2 2 5]).map
      (fun s => s.cache.getChangesForTopicScopedOrderedAccess) =
        some [receivedSample 1 1 5, otherInstance, receivedSample 2 2 5] := by decide +kernel
  obtain ⟨s, hs, hmerged⟩ := Option.map_eq_some_iff.1 hrun
  refine ⟨s, hs, hmerged, (ordered_access_iff (positiveLimits_keepLastQos (by decide) (by decide)) hs).2 ?_ _ s
    (prefix_refl _) hs⟩
  refine ⟨untied_of_forall (by decide +kernel), fun s₁ h₁ => ?_⟩
  cases h₁
  refine ⟨untied_of_forall (by decide +kernel), fun s₂ h₂ => ?_⟩
  cases h₂
  exact ⟨untied_of_forall (by decide +kernel), fun _ _ => trivial⟩

theorem ordered_access_unsorted :
    ∃ s, run (step true) ⟨(keepLastQos 2).cache true, ⊥⟩ [addSample 1 2 5, addSample 2 1 5] = some s ∧
      ¬ s.cache.getChangesForTopicScopedOrderedAccess.Pairwise (fun c d =>
        destOrderKey c s.cache.destinationOrderKind ≤ destOrderKey d s.cache.destinationOrderKind) :=
  exists_run (by decide +kernel)

end Int2Dds.History.DataReaderHistoryCache
