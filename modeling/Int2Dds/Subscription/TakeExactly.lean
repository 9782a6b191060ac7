import Int2Dds.Subscription.DataReader

/-!
# What a take removes

A take should remove the samples it returns and no other. `DataReader.examine` lists the changes the walk comes to,
each with its verdict, without touching the cache; `walk_take` says that the walk is this list with its effects:
what is selected or unusable is gone, and a failure ends the call.
-/

namespace Int2Dds.History.DataReaderHistoryCache
open Lib Rtps

/-! ## The snapshots hold what is stored -/

variable {kind : DestinationOrderKind} {buckets rest : List (List CacheChange)} {c : CacheChange}

theorem takeSmallest_split (h : takeSmallest kind buckets = some (c, rest)) :
    ∃ before bucket after, buckets = before ++ (c :: bucket) :: after ∧ rest = before ++ bucket :: after := by
  induction buckets generalizing c rest with
  | nil => cases h
  | cons bucket buckets ih =>
    cases bucket with
    | nil =>
      obtain ⟨⟨d, rest'⟩, hd, heq⟩ := Option.map_eq_some_iff.1 h
      obtain ⟨rfl, rfl⟩ := Prod.mk.inj heq
      obtain ⟨before, bucket, after, rfl, rfl⟩ := ih hd
      exact ⟨[] :: before, bucket, after, rfl, rfl⟩
    | cons b bucket =>
      rw [takeSmallest] at h
      split at h
      · cases h
        exact ⟨[], bucket, buckets, rfl, rfl⟩
      · next hnext =>
        split_ifs at h
        · cases h
          obtain ⟨before, bucket', after, rfl, rfl⟩ := ih hnext
          exact ⟨(b :: bucket) :: before, bucket', after, rfl, rfl⟩
        · cases h
          exact ⟨[], bucket, buckets, rfl, rfl⟩

theorem takeSmallest_perm (h : takeSmallest kind buckets = some (c, rest)) :
    (c :: rest.flatten).Perm buckets.flatten := by
  obtain ⟨before, bucket, after, rfl, rfl⟩ := takeSmallest_split h
  simp [List.perm_middle.symm]

theorem takeSmallest_eq_none (h : takeSmallest kind buckets = none) :
    buckets.flatten = [] := by
  induction buckets with
  | nil => rfl
  | cons bucket buckets ih =>
    cases bucket with
    | nil => simpa using ih (Option.map_eq_none_iff.1 h)
    | cons b bucket =>
      rw [takeSmallest] at h
      cases hnext : takeSmallest kind buckets with
      | none => rw [hnext] at h; cases h
      | some next =>
        rw [hnext] at h
        dsimp only at h
        split_ifs at h

theorem mergeBuckets_perm (kind : DestinationOrderKind) {total : ℕ} (h : buckets.flatten.length = total) :
    (mergeBuckets kind total buckets).Perm buckets.flatten := by
  induction total generalizing buckets with
  | zero => rw [List.length_eq_zero_iff.1 h]; exact List.Perm.nil
  | succ total ih =>
    rw [mergeBuckets]
    cases hnext : takeSmallest kind buckets with
    | none => rw [takeSmallest_eq_none hnext]
    | some next =>
      obtain ⟨c, rest⟩ := next
      have hperm := takeSmallest_perm hnext
      have hlen : rest.flatten.length = total := by
        have := hperm.length_eq
        rw [List.length_cons] at this
        omega
      exact ((ih hlen).cons c).trans hperm

theorem getChangesForTopicScopedOrderedAccess_perm (h : DataReaderHistoryCache) :
    h.getChangesForTopicScopedOrderedAccess.Perm h.getChanges := by
  have hflat : (h.instanceMap.toList.map Bucket.changes).flatten = h.getChanges := rfl
  have := mergeBuckets_perm h.destinationOrderKind
    (show (h.instanceMap.toList.map Bucket.changes).flatten.length = h.sampleCount by rw [hflat]; rfl)
  rwa [hflat] at this

end Int2Dds.History.DataReaderHistoryCache

namespace Int2Dds.Subscription
open Lib Rtps History

namespace Verdict

def removes : Verdict → Bool
  | .unusable | .selected _ => true
  | .skipped | .failed _ => false

def failure? : Verdict → Option DdsError
  | .failed e => some e
  | _ => none

def sample? (change : CacheChange) : Verdict → Option Sample
  | .selected info => some ⟨some change, info⟩
  | _ => none

end Verdict

namespace DataReader

variable {Foo V : Type*}

abbrev stored (s : DataReader Foo) : List CacheChange := s.cache.getChanges

def taken (s : DataReader Foo) (gone : List CacheChange) : DataReader Foo :=
  { s with
    cache := s.cache.removeChanges gone
    rtpsChanges := s.rtpsChanges.map fun changes =>
      gone.foldl (fun changes change => changes.eraseP (fun d => decide (d.id = change.id))) changes }

theorem taken_nil (s : DataReader Foo) : s.taken [] = s := by
  obtain ⟨isAlive, enabled, subscriber, cache, rtpsChanges, infos, readSamples, conditions⟩ := s
  cases rtpsChanges <;> rfl

variable {s : DataReader Foo} {env : Environment Foo V} {req : Request Foo} {c : CacheChange}
  {examined : List (CacheChange × Verdict)} {remaining : Int} {sel : Selection Foo}

theorem removeChange_taken (hr : s.rtpsChanges.isSome = true) (gone : List CacheChange) :
    (s.taken gone).removeChange c = (.ok (), s.taken (gone ++ [c])) := by
  obtain ⟨changes, hchanges⟩ := Option.isSome_iff_exists.1 hr
  unfold removeChange taken
  simp only [hchanges, Option.map_some, DataReaderHistoryCache.removeChanges, List.foldl_append, List.foldl_cons,
    List.foldl_nil]

/-- The changes the walk of a take comes to, and what becomes of each, up to the limit or a failure. -/
def examine (env : Environment Foo V) (s : DataReader Foo) (sel : Selection Foo) :
    List CacheChange → Int → List CacheChange → List (CacheChange × Verdict)
  | _, _, [] => []
  | gone, remaining, change :: changes =>
    if remaining ≤ 0 then []
    else
      (change, (s.taken gone).judge env sel change) ::
        match (s.taken gone).judge env sel change with
        | .skipped => examine env s sel gone remaining changes
        | .failed _ => []
        | .unusable => examine env s sel (gone ++ [change]) remaining changes
        | .selected _ => examine env s sel (gone ++ [change]) (remaining - 1) changes

def removed (examined : List (CacheChange × Verdict)) : List CacheChange :=
  (examined.filter (fun entry => entry.2.removes)).map Prod.fst

def samples (examined : List (CacheChange × Verdict)) : List Sample :=
  examined.filterMap (fun entry => entry.2.sample? entry.1)

def failure? (examined : List (CacheChange × Verdict)) : Option DdsError :=
  examined.findSome? (fun entry => entry.2.failure?)

def outcome (remaining : Int) (examined : List (CacheChange × Verdict)) : Except DdsError (List Sample × Int) :=
  match failure? examined with
  | some e => .error e
  | none => .ok (samples examined, remaining - (samples examined).length)

/-- The walk of a take is the list of what it examines, with the effects. -/
theorem walk_take (env : Environment Foo V) (hr : s.rtpsChanges.isSome = true) (sel : Selection Foo)
    (gone : List CacheChange) (remaining : Int) (changes : List CacheChange) :
    walk env sel true (s.taken gone) remaining changes =
      (outcome remaining (examine env s sel gone remaining changes),
        s.taken (gone ++ removed (examine env s sel gone remaining changes))) := by
  induction changes generalizing gone remaining with
  | nil => simp [walk, examine, outcome, failure?, samples, removed]
  | cons change changes ih =>
    rw [walk, examine]
    by_cases hlimit : remaining ≤ 0
    · rw [if_pos hlimit, if_pos hlimit]
      simp [outcome, failure?, samples, removed]
    rw [if_neg hlimit, if_neg hlimit]
    cases hv : (s.taken gone).judge env sel change with
    | skipped =>
      rw [ih]
      simp [outcome, failure?, samples, removed, Verdict.removes, Verdict.failure?, Verdict.sample?]
    | failed e => simp [outcome, failure?, removed, Verdict.removes, Verdict.failure?]
    | unusable =>
      simp only [removeChange_taken hr, if_true]
      rw [ih]
      simp [outcome, failure?, samples, removed, Verdict.removes, Verdict.failure?, Verdict.sample?]
    | selected info =>
      simp only [removeChange_taken hr, if_true]
      rw [ih]
      generalize examine env s sel (gone ++ [change]) (remaining - 1) changes = rest
      have hremoved : removed ((change, Verdict.selected info) :: rest) = change :: removed rest := by
        simp [removed, Verdict.removes]
      have hsamples : samples ((change, Verdict.selected info) :: rest) = ⟨some change, info⟩ :: samples rest := by
        simp [samples, Verdict.sample?]
      have hfailure : failure? ((change, Verdict.selected info) :: rest) = failure? rest := by
        simp [failure?, Verdict.failure?]
      rw [hremoved, List.append_assoc]
      unfold outcome
      rw [hfailure, hsamples]
      cases hf : failure? rest with
      | some e => rfl
      | none =>
        simp only [List.length_cons, List.singleton_append, Prod.mk.injEq, Except.ok.injEq, true_and, and_true]
        omega

/-! ## Before the walk -/

def purged (env : Environment Foo V) (s : DataReader Foo) : DataReader Foo :=
  { s with cache := s.cache.purgeExpiredOnRead env.view env.now }

theorem fresh_purged : (s.purged env).cache.Fresh env.view env.now :=
  s.cache.fresh_purgeExpiredOnRead env.view env.now

theorem purged_of_fresh (hf : s.cache.Fresh env.view env.now) : s.purged env = s := by
  unfold purged
  rw [hf.purge]

theorem getAvailableChanges_snd (env : Environment Foo V) (s : DataReader Foo) :
    (s.getAvailableChanges env).2 = s.purged env := by
  unfold getAvailableChanges
  dsimp only
  split_ifs <;> rfl

theorem getAvailableChanges_perm (env : Environment Foo V) (s : DataReader Foo) :
    (s.getAvailableChanges env).1.Perm (s.purged env).stored := by
  unfold getAvailableChanges
  dsimp only
  split_ifs
  · exact List.mergeSort_perm _ _
  · exact DataReaderHistoryCache.getChangesForTopicScopedOrderedAccess_perm _
  · exact List.Perm.refl _

theorem getAvailableChanges_of_fresh (hf : s.cache.Fresh env.view env.now) :
    (s.getAvailableChanges env).1.Perm s.stored ∧ (s.getAvailableChanges env).2 = s := by
  have hperm := getAvailableChanges_perm env s
  have hsame := getAvailableChanges_snd env s
  rw [purged_of_fresh hf] at hperm hsame
  exact ⟨hperm, hsame⟩

theorem findNextInstanceHandle_snd (previous : InstanceHandle) :
    (s.findNextInstanceHandle env previous).2 = s.purged env := by
  rw [← getAvailableChanges_snd]
  unfold findNextInstanceHandle
  split_ifs <;> rfl

theorem resolveInstance_snd (env : Environment Foo V) (s : DataReader Foo) (req : Request Foo) :
    (s.resolveInstance env req).2 = s ∨ (s.resolveInstance env req).2 = s.purged env := by
  unfold resolveInstance
  dsimp only
  split_ifs
  · exact .inr (findNextInstanceHandle_snd req.handle)
  · exact .inr (findNextInstanceHandle_snd req.handle)
  · exact .inl rfl
  · exact .inl rfl

/-- The steps before the walk may drop the expired samples; the snapshot is what is then stored. -/
inductive Prepared (env : Environment Foo V) (s : DataReader Foo) :
    Except DdsError (Selection Foo) × DataReader Foo → Prop
  | refused (e : DdsError) : Prepared env s (.error e, s)
  | stopped (e : DdsError) : Prepared env s (.error e, s.purged env)
  | ready (sel : Selection Foo) (isSome : s.rtpsChanges.isSome = true) (perm : sel.changes.Perm (s.purged env).stored) :
      Prepared env s (.ok sel, s.purged env)

theorem isSome_of_checkCall {one : Bool} (h : s.checkCall req = .ok one) : s.rtpsChanges.isSome = true := by
  unfold checkCall at h
  split_ifs at h with _ _ hnone
  exact Option.isSome_iff_ne_none.2 (by simpa using hnone)

section

variable (env : Environment Foo V) (s : DataReader Foo)

theorem prepared_prepare (req : Request Foo) :
    Prepared env s (s.prepare env req) := by
  unfold prepare
  cases hcheck : s.checkCall req with
  | error e => exact .refused e
  | ok one =>
    have hpurged : ∀ s' : DataReader Foo, s' = s ∨ s' = s.purged env → s'.purged env = s.purged env := by
      rintro s' (rfl | rfl)
      · rfl
      · exact purged_of_fresh (fresh_purged)
    have hs' := resolveInstance_snd env s req
    generalize s.resolveInstance env req = resolved at hs'
    obtain ⟨result, s'⟩ := resolved
    have hended (e : DdsError) : Prepared env s (.error e, s') := by
      rcases hs' with rfl | rfl
      · exact .refused e
      · exact .stopped e
    cases result with
    | error e => exact hended e
    | ok instance' =>
      dsimp only
      cases s'.setReadCommunicationStatus with
      | error e => exact hended e
      | ok =>
        have hsnd := (getAvailableChanges_snd env s').trans (hpurged s' hs')
        have hperm := getAvailableChanges_perm env s'
        rw [hpurged s' hs'] at hperm
        dsimp only
        generalize s'.getAvailableChanges env = available at hsnd hperm
        obtain ⟨changes, s''⟩ := available
        obtain rfl : s'' = s.purged env := hsnd
        cases masksOf req with
        | none => exact .stopped _
        | some masks =>
          refine .ready _ (isSome_of_checkCall hcheck) ?_
          split
          · exact (List.mergeSort_perm _ _).trans hperm
          · exact hperm

/-! ## After the walk -/

theorem drainPendingNotifications_spec (max : Int) :
    (s.drainPendingNotifications env sel max).1.filterMap Sample.change = [] ∧
      (s.drainPendingNotifications env sel max).2.cache = s.cache := by
  unfold drainPendingNotifications
  split_ifs
  · exact ⟨rfl, rfl⟩
  · refine ⟨?_, List.foldlRecOn (motive := fun t : DataReader Foo => t.cache = s.cache) _ _ rfl fun _ h _ _ => h⟩
    rw [List.filterMap_map]
    exact List.filterMap_eq_nil_iff.2 fun entry _ => rfl

theorem settle_spec (sel : Selection Foo) (samples : List Sample)
    (remaining : Int) :
    (s.settle env sel samples remaining).1.filterMap Sample.change = samples.filterMap Sample.change ∧
      (s.settle env sel samples remaining).2.cache = s.cache := by
  obtain ⟨hnone, hcache⟩ := drainPendingNotifications_spec env s remaining
  unfold settle
  constructor
  · rw [List.filterMap_append, hnone, List.append_nil]
  · exact List.foldlRecOn (motive := fun t : DataReader Foo => t.cache = s.cache) _ _ hcache fun _ h _ _ => h

end

theorem reevaluate_cache (hf : s.cache.Fresh env.view env.now) (conditions : List (ReadCondition Foo)) :
    (reevaluate env s conditions).2.2.cache = s.cache := by
  induction conditions with
  | nil => rfl
  | cons condition conditions ih =>
    have hsame : (s.hasMatchingSamplesForCondition env condition).2 = s := (getAvailableChanges_of_fresh hf).2
    rw [reevaluate]
    generalize s.hasMatchingSamplesForCondition env condition = res at hsame
    obtain ⟨result, s'⟩ := res
    obtain rfl : s' = s := hsame
    cases result with
    | error e => rfl
    | ok hasMatching => exact ih

theorem filterMap_change_mapIdx (samples : List Sample) {f : ℕ → Sample → Sample}
    (hf : ∀ i sample, (f i sample).change = sample.change) :
    (samples.mapIdx f).filterMap Sample.change = samples.filterMap Sample.change := by
  induction samples generalizing f with
  | nil => rfl
  | cons sample samples ih =>
    rw [List.mapIdx_cons, List.filterMap_cons, List.filterMap_cons, hf, ih fun i => hf (i + 1)]

/-! ## Exactly the returned samples -/

def returned : Except DdsError (List Sample) → List CacheChange
  | .ok samples => samples.filterMap Sample.change
  | .error _ => []

/-- A sample that has not expired stays in the cache exactly when the call returns no copy of it. -/
def TakesExactly (env : Environment Foo V) (s : DataReader Foo) (out : Except DdsError (List Sample) × DataReader Foo) :
    Prop :=
  out.2.stored.filter (fun c => !s.cache.lapsed env.view env.now c) =
    s.stored.filter (fun c => !s.cache.lapsed env.view env.now c && !named (returned out.1) c)

instance (env : Environment Foo V) (s : DataReader Foo) (out : Except DdsError (List Sample) × DataReader Foo) :
    Decidable (TakesExactly env s out) := inferInstanceAs (Decidable (_ = _))

/-- The instances that the call hands something out of. -/
def handedOut (env : Environment Foo V) (s : DataReader Foo) (sel : Selection Foo)
    (examined : List (CacheChange × Verdict)) : List InstanceHandle :=
  (samples examined ++
    (s.drainPendingNotifications env sel (sel.limit - (samples examined).length)).1).map (·.info.instanceHandle)

/-- The masks of a condition take a sample that is left, when the instances in `viewed` have been viewed. -/
def takes (s : DataReader Foo) (viewed : List InstanceHandle) (condition : ReadCondition Foo)
    (c : CacheChange) : Bool :=
  condition.masks.accepts (if s.isSampleRead c.writerGuid c.sequenceNumber then .read else .notRead)
    (((s.instanceInfos.lookup c.instanceHandle).map fun info =>
      if c.instanceHandle ∈ viewed then { info with viewState := .notNew } else info).getD .unknown)

def isTrueOf (env : Environment Foo V) (query : Query Foo) (c : CacheChange) : Bool :=
  hasValidData c.kind &&
    match (env.deserialize c.dataPayload).bind query.evaluate with
    | .ok b => b
    | .error _ => false

def IsUsable (s : DataReader Foo) (c : CacheChange) : Prop :=
  (s.instanceInfos.lookup c.instanceHandle).isSome = true ∧ c.sourceTimestamp.isSome = true

/-- What the expression of a condition looks at can be read: going through the samples up to the first it is true of,
each one the masks take has its record, its time and, if it has data, data that can be decoded. -/
def ReadsThrough (env : Environment Foo V) (s : DataReader Foo) (viewed : List InstanceHandle)
    (condition : ReadCondition Foo) (changes : List CacheChange) : Prop :=
  ∀ query, condition.query = some query → ∀ before c after, changes = before ++ c :: after →
    (∀ d ∈ before, takes s viewed condition d = true → isTrueOf env query d = false) →
      takes s viewed condition c = true →
      IsUsable s c ∧ (hasValidData c.kind = true → ∃ data, env.deserialize c.dataPayload = .ok data)

/-- The attached conditions can read what the walk leaves. -/
def Reevaluates (env : Environment Foo V) (s : DataReader Foo) (sel : Selection Foo)
    (examined : List (CacheChange × Verdict)) : Prop :=
  ∀ condition ∈ s.readConditions, ReadsThrough env s (handedOut env s sel examined) condition
    ((s.taken (removed examined)).getAvailableChanges env).1

theorem forall_split_cons {α : Type*} {a : α} {l : List α} {p q : α → Prop} :
    (∀ before c after, a :: l = before ++ c :: after → (∀ d ∈ before, p d) → q c) ↔
      q a ∧ (p a → ∀ before c after, l = before ++ c :: after → (∀ d ∈ before, p d) → q c) := by
  constructor
  · intro h
    refine ⟨h [] a l rfl (List.forall_mem_nil _), fun ha before c after heq hbefore => ?_⟩
    exact h (a :: before) c after (by rw [heq]; rfl) (List.forall_mem_cons.2 ⟨ha, hbefore⟩)
  · rintro ⟨ha, hl⟩ before c after heq hbefore
    cases before with
    | nil =>
      cases heq
      exact ha
    | cons b before =>
      cases heq
      exact hl (hbefore a List.mem_cons_self) before c after rfl (List.forall_mem_cons.1 hbefore).2

/-- `t` is a later state of `s`, with the instances in `viewed` viewed. -/
theorem matchingSample_ok_iff {t : DataReader Foo} {viewed : List InstanceHandle} {condition : ReadCondition Foo}
    {changes : List CacheChange}
    (htakes : ∀ c ∈ changes, condition.masks.accepts
      (if t.isSampleRead c.writerGuid c.sequenceNumber then .read else .notRead)
      ((t.instanceInfos.lookup c.instanceHandle).getD .unknown) = takes s viewed condition c)
    (hlookup : ∀ h, (t.instanceInfos.lookup h).isSome = (s.instanceInfos.lookup h).isSome) :
    (∃ b, t.matchingSample env condition changes = .ok b) ↔ ReadsThrough env s viewed condition changes := by
  cases hquery : condition.query with
  | none =>
    refine iff_of_true ?_ fun query h => by rw [hquery] at h; cases h
    clear htakes
    induction changes with
    | nil => exact ⟨false, rfl⟩
    | cons c changes ih =>
      rw [matchingSample, hquery]
      dsimp only
      generalize (if t.isSampleRead c.writerGuid c.sequenceNumber then SampleStateKind.read else .notRead) = state
      split_ifs
      · exact ih
      · exact ⟨true, rfl⟩
  | some query =>
    simp only [ReadsThrough, hquery, Option.some.injEq, forall_eq']
    induction changes with
    | nil => exact iff_of_true ⟨false, rfl⟩ fun before c after h => by simp at h
    | cons c changes ih =>
      have ih := ih fun d hd => htakes d (List.mem_cons_of_mem c hd)
      have hlook := hlookup c.instanceHandle
      rw [matchingSample, htakes c List.mem_cons_self, hquery, forall_split_cons, ← ih]
      generalize t.matchingSample env condition changes = rest
      cases takes s viewed condition c with
      | false => simp
      | true =>
        unfold IsUsable isTrueOf sampleInfoWithInfos
        rw [← hlook]
        cases t.instanceInfos.lookup c.instanceHandle with
        | none => simp
        | some info =>
          cases c.sourceTimestamp with
          | none => simp
          | some time =>
            cases hasValidData c.kind with
            | false => simp
            | true =>
              cases env.deserialize c.dataPayload with
              | error e => simp
              | ok data =>
                rcases hvalue : query.evaluate data with e | _ | _ <;> simp [Except.bind, hvalue]

theorem reevaluate_ok_iff (hf : s.cache.Fresh env.view env.now) (conditions : List (ReadCondition Foo)) :
    (reevaluate env s conditions).1 = .ok () ↔
      ∀ condition ∈ conditions, ∃ b, s.matchingSample env condition (s.getAvailableChanges env).1 = .ok b := by
  induction conditions with
  | nil => exact iff_of_true rfl (List.forall_mem_nil _)
  | cons condition conditions ih =>
    have hhas : s.hasMatchingSamplesForCondition env condition =
        (s.matchingSample env condition (s.getAvailableChanges env).1, s) := by
      unfold hasMatchingSamplesForCondition
      dsimp only
      rw [(getAvailableChanges_of_fresh hf).2]
    rw [reevaluate, hhas, List.forall_mem_cons]
    cases s.matchingSample env condition (s.getAvailableChanges env).1 with
    | error e => simp
    | ok b => simpa using ih

theorem lookup_foldl_modify {f : InstanceInfo → InstanceInfo} (hf : ∀ info, f (f info) = f info)
    (handles : List InstanceHandle) (infos : InstanceInfos) (h : InstanceHandle) :
    (handles.foldl (fun infos handle => infos.modify handle f) infos).lookup h =
      (infos.lookup h).map fun info => if h ∈ handles then f info else info := by
  induction handles generalizing infos with
  | nil => simp
  | cons handle handles ih =>
    rw [List.foldl_cons, ih, InstanceInfos.lookup_modify, Option.map_map]
    congr 1
    funext info
    by_cases hh : h = handle <;> by_cases hmem : h ∈ handles <;> simp [hh, hmem, hf]

theorem foldl_modifyInfos (f : InstanceInfo → InstanceInfo) (handles : List InstanceHandle) (t : DataReader Foo) :
    handles.foldl (fun t handle => { t with instanceInfos := t.instanceInfos.modify handle f }) t =
      { t with instanceInfos := handles.foldl (fun infos handle => infos.modify handle f) t.instanceInfos } := by
  induction handles generalizing t with
  | nil => rfl
  | cons handle handles ih => exact ih _

/-- What the conditions look at once the samples are settled. -/
theorem settle_frame (env : Environment Foo V) (t : DataReader Foo) (sel : Selection Foo) (samples : List Sample)
    (remaining : Int) :
    let viewed := (samples ++ (t.drainPendingNotifications env sel remaining).1).map (·.info.instanceHandle)
    let t' := (t.settle env sel samples remaining).2
    t'.cache = t.cache ∧ t'.subscriber = t.subscriber ∧ t'.readConditions = t.readConditions ∧
      (∃ cleared : List InstanceHandle, ∀ h, t'.instanceInfos.lookup h = (t.instanceInfos.lookup h).map fun info =>
        let info := if h ∈ cleared then { info with pendingNotification := false } else info
        if h ∈ viewed then { info with viewState := .notNew } else info) ∧
      ∀ c ∈ sel.changes, t'.isSampleRead c.writerGuid c.sequenceNumber =
        t.isSampleRead c.writerGuid c.sequenceNumber := by
  have hdrain : ∃ cleared : List InstanceHandle, (t.drainPendingNotifications env sel remaining).2 =
      cleared.foldl clearPendingNotification t := by
    unfold drainPendingNotifications
    split_ifs
    · exact ⟨[], rfl⟩
    · exact ⟨_, rfl⟩
  obtain ⟨cleared, hcleared⟩ := hdrain
  have hsettled : (t.settle env sel samples remaining).2 = (((samples ++
      (t.drainPendingNotifications env sel remaining).1).map (·.info.instanceHandle)).foldl markInstanceAsViewed
        (cleared.foldl clearPendingNotification t)).pruneReadSamplesToCache sel.changes := by
    rw [← hcleared, List.foldl_map]
    rfl
  unfold clearPendingNotification markInstanceAsViewed at hsettled
  rw [foldl_modifyInfos, foldl_modifyInfos] at hsettled
  dsimp only
  rw [hsettled]
  refine ⟨rfl, rfl, rfl, ⟨cleared, fun h => ?_⟩, fun c hc => ?_⟩
  · dsimp only [pruneReadSamplesToCache]
    rw [lookup_foldl_modify, lookup_foldl_modify, Option.map_map]
    · rfl
    all_goals exact fun _ => rfl
  · -- the sample itself keeps its record
    have hany : sel.changes.any (fun d => decide (d.writerGuid = c.writerGuid) &&
        decide (d.sequenceNumber ≤ c.sequenceNumber)) = true := List.any_eq_true.2 ⟨c, hc, by simp⟩
    unfold isSampleRead pruneReadSamplesToCache
    rw [Bool.eq_iff_iff, List.contains_iff_mem, List.contains_iff_mem, List.mem_filter]
    exact and_iff_left hany

theorem reevaluates_iff (hf : s.cache.Fresh env.view env.now) (hperm : sel.changes.Perm s.stored) :
    (((s.taken (removed examined)).settle env sel (samples examined)
      (sel.limit - (samples examined).length)).2.reevaluateAllConditions env).1 = .ok () ↔
        Reevaluates env s sel examined := by
  obtain ⟨hcache, hsubscriber, hconditions, ⟨cleared, hlookup⟩, hread⟩ :=
    settle_frame env (s.taken (removed examined)) sel
    (samples examined) (sel.limit - (samples examined).length)
  generalize ((s.taken (removed examined)).settle env sel (samples examined)
    (sel.limit - (samples examined).length)).2 = t at *
  have hfresh : t.cache.Fresh env.view env.now := hcache ▸ hf.removeChanges _
  have hchanges : (t.getAvailableChanges env).1 = ((s.taken (removed examined)).getAvailableChanges env).1 := by
    unfold getAvailableChanges
    rw [hcache, hsubscriber]
    dsimp only
    split_ifs <;> rfl
  have hleft : ∀ c ∈ ((s.taken (removed examined)).getAvailableChanges env).1, c ∈ sel.changes := by
    intro c hc
    rw [← hchanges, (getAvailableChanges_of_fresh hfresh).1.mem_iff, stored, hcache] at hc
    have hc : c ∈ (s.cache.removeChanges (removed examined)).getChanges := hc
    rw [DataReaderHistoryCache.getChanges_removeChanges] at hc
    exact hperm.mem_iff.2 (List.mem_of_mem_filter hc)
  unfold reevaluateAllConditions Reevaluates
  dsimp only
  rw [reevaluate_ok_iff hfresh, hconditions, hchanges]
  refine forall₂_congr fun condition _ => matchingSample_ok_iff (fun c hc => ?_) fun h => ?_
  · rw [hread c (hleft c hc), hlookup]
    have hdrained : ((s.taken (removed examined)).drainPendingNotifications env sel
        (sel.limit - (samples examined).length)).1 =
        (s.drainPendingNotifications env sel (sel.limit - (samples examined).length)).1 := by
      unfold drainPendingNotifications
      split_ifs <;> rfl
    unfold takes handedOut
    rw [hdrained]
    have hinfos : (s.taken (removed examined)).instanceInfos = s.instanceInfos := rfl
    have hsame : (s.taken (removed examined)).isSampleRead c.writerGuid c.sequenceNumber =
        s.isSampleRead c.writerGuid c.sequenceNumber := rfl
    rw [hinfos, hsame]
    cases s.instanceInfos.lookup c.instanceHandle with
    | none => rfl
    | some info =>
      dsimp only [Option.map_some, Option.getD_some]
      generalize (if s.isSampleRead c.writerGuid c.sequenceNumber then SampleStateKind.read else .notRead) = state
      split_ifs <;> rfl
  · rw [hlookup, Option.isSome_map]
    rfl

structure CleanWalk (env : Environment Foo V) (s : DataReader Foo) (sel : Selection Foo)
    (examined : List (CacheChange × Verdict)) : Prop where
  /-- A change that is dropped as unusable has another copy that is selected. -/
  unusable : ∀ c, (c, Verdict.unusable) ∈ examined → named ((samples examined).filterMap Sample.change) c = true
  /-- When a change is removed, no change fails and the conditions can be evaluated. -/
  lossless : ∀ c v, (c, v) ∈ examined → v.removes = true →
    failure? examined = none ∧ Reevaluates env s sel examined

/-- The call does not get to its walk, or the walk is clean. -/
def Clean (env : Environment Foo V) (s : DataReader Foo) (req : Request Foo) : Prop :=
  ∀ sel s', s.prepare env req = (.ok sel, s') → CleanWalk env s' sel (examine env s' sel [] sel.limit sel.changes)

theorem mem_removed : c ∈ removed examined ↔ ∃ v, (c, v) ∈ examined ∧ v.removes = true := by
  simp [removed]

theorem mem_samples_change :
    c ∈ (samples examined).filterMap Sample.change ↔ ∃ info, (c, Verdict.selected info) ∈ examined := by
  unfold samples
  rw [List.filterMap_filterMap, List.mem_filterMap]
  constructor
  · rintro ⟨⟨d, v⟩, hmem, hd⟩
    cases v with
    | selected info =>
      obtain rfl : d = c := by simpa [Verdict.sample?] using hd
      exact ⟨info, hmem⟩
    | _ => cases hd
  · rintro ⟨info, hmem⟩
    exact ⟨_, hmem, rfl⟩

theorem examine_subset {gone : List CacheChange} {changes : List CacheChange} {v : Verdict}
    (h : (c, v) ∈ examine env s sel gone remaining changes) : c ∈ changes := by
  induction changes generalizing gone remaining with
  | nil => cases h
  | cons change changes ih =>
    rw [examine] at h
    split_ifs at h with hlimit
    · cases h
    rcases List.mem_cons.1 h with heq | hrest
    · rw [(Prod.mk.inj heq).1]
      exact List.mem_cons_self
    · refine List.mem_cons_of_mem _ ?_
      split at hrest
      · exact ih hrest
      · cases hrest
      · exact ih hrest
      · exact ih hrest

theorem conclude_cache (hf : s.cache.Fresh env.view env.now) (samples : List Sample) :
    (s.conclude env sel samples remaining).2.cache = s.cache := by
  have hsettle := (settle_spec env s sel samples remaining).2
  unfold conclude
  dsimp only
  generalize s.settle env sel samples remaining = settled at hsettle
  obtain ⟨all, s'⟩ := settled
  have hcache : (s'.reevaluateAllConditions env).2.cache = s.cache :=
    (reevaluate_cache (hsettle ▸ hf) s'.readConditions).trans hsettle
  generalize s'.reevaluateAllConditions env = res at hcache
  obtain ⟨result, s''⟩ := res
  cases result with
  | error e => exact hcache
  | ok =>
    split_ifs <;> exact hcache

theorem returned_conclude (samples : List Sample) : returned (s.conclude env sel samples remaining).1 =
    if ((s.settle env sel samples remaining).2.reevaluateAllConditions env).1 = .ok () then
      samples.filterMap Sample.change else [] := by
  rw [← (settle_spec env s sel samples remaining).1]
  unfold conclude
  dsimp only
  generalize (s.settle env sel samples remaining).2.reevaluateAllConditions env = res
  obtain ⟨e | ⟨⟩, s'⟩ := res
  · rfl
  rw [if_pos rfl]
  dsimp only
  split_ifs with hempty
  · rw [List.isEmpty_iff.1 hempty]
    rfl
  · exact filterMap_change_mapIdx _ fun _ _ => rfl

theorem stored_selectSamples {s' : DataReader Foo} (hr : s'.rtpsChanges.isSome = true)
    (hf : s'.cache.Fresh env.view env.now) (hp : s.prepare env { req with take := true } = (.ok sel, s')) :
    (s.selectSamples env { req with take := true }).2.stored =
      s'.stored.filter (fun c => !named (removed (examine env s' sel [] sel.limit sel.changes)) c) := by
  have hwalk := walk_take env hr sel [] sel.limit sel.changes
  rw [taken_nil] at hwalk
  unfold selectSamples
  rw [hp]
  dsimp only
  rw [hwalk]
  rw [← DataReaderHistoryCache.getChanges_removeChanges]
  generalize hex : examine env s' sel [] sel.limit sel.changes = examined
  cases ho : outcome sel.limit examined with
  | error e => rfl
  | ok handed =>
    exact congrArg DataReaderHistoryCache.getChanges
      (conclude_cache (s := s'.taken (removed examined)) (hf.removeChanges _) handed.1)

theorem returned_selectSamples {s' : DataReader Foo} (hr : s'.rtpsChanges.isSome = true)
    (hf : s'.cache.Fresh env.view env.now) (hperm : sel.changes.Perm s'.stored)
    (hp : s.prepare env { req with take := true } = (.ok sel, s'))
    (hex : examine env s' sel [] sel.limit sel.changes = examined) :
    (failure? examined = none ∧ Reevaluates env s' sel examined →
      returned (s.selectSamples env { req with take := true }).1 = (samples examined).filterMap Sample.change) ∧
    (¬ (failure? examined = none ∧ Reevaluates env s' sel examined) →
      returned (s.selectSamples env { req with take := true }).1 = []) := by
  have hwalk := walk_take env hr sel [] sel.limit sel.changes
  rw [taken_nil, hex] at hwalk
  unfold selectSamples
  rw [hp]
  dsimp only
  rw [hwalk]
  unfold outcome
  cases hfail : failure? examined with
  | some e => exact ⟨fun h => (Option.some_ne_none e h.1).elim, fun _ => rfl⟩
  | none =>
    constructor
    · rintro ⟨-, hre⟩
      exact (returned_conclude _).trans (if_pos ((reevaluates_iff hf hperm).2 hre))
    · intro h
      exact (returned_conclude _).trans (if_neg fun hre => h ⟨rfl, (reevaluates_iff hf hperm).1 hre⟩)

theorem filter_eq_filter_iff {α : Type*} {p q : α → Bool} {l : List α} :
    l.filter p = l.filter q ↔ ∀ a ∈ l, p a = q a := by
  constructor
  · intro h a ha
    have hp : p a = true ↔ q a = true := by
      have := congrArg (a ∈ ·) h
      simpa [ha] using this
    exact Bool.eq_iff_iff.2 hp
  · exact List.filter_congr

/-- Both sides of `TakesExactly` are filters of what is stored once the expired samples are gone. -/
theorem takesExactly_iff (hr : (s.purged env).rtpsChanges.isSome = true)
    (hp : s.prepare env { req with take := true } = (.ok sel, s.purged env))
    (hex : examine env (s.purged env) sel [] sel.limit sel.changes = examined) :
    TakesExactly env s (s.selectSamples env { req with take := true }) ↔
      ∀ c ∈ (s.purged env).stored, named (removed examined) c =
        named (returned (s.selectSamples env { req with take := true }).1) c := by
  have hstored : (s.purged env).stored = s.stored.filter (fun c => !s.cache.lapsed env.view env.now c) :=
    s.cache.getChanges_purgeExpiredOnRead env.view env.now
  have hunlapsed : ∀ c ∈ (s.purged env).stored, s.cache.lapsed env.view env.now c = false := by
    intro c hc
    rw [hstored] at hc
    simpa using (List.mem_filter.1 hc).2
  have hleft : (s.selectSamples env { req with take := true }).2.stored.filter
      (fun c => !s.cache.lapsed env.view env.now c) =
      (s.purged env).stored.filter (fun c => !named (removed examined) c) := by
    rw [stored_selectSamples hr (fresh_purged) hp, hex, List.filter_filter]
    refine List.filter_congr fun c hc => ?_
    rw [hunlapsed c hc]
    simp
  have hright : s.stored.filter (fun c => !s.cache.lapsed env.view env.now c &&
      !named (returned (s.selectSamples env { req with take := true }).1) c) =
      (s.purged env).stored.filter
        (fun c => !named (returned (s.selectSamples env { req with take := true }).1) c) := by
    rw [hstored, List.filter_filter]
    refine List.filter_congr fun c _ => ?_
    rw [Bool.and_comm]
  unfold TakesExactly
  rw [hleft, hright, filter_eq_filter_iff]
  refine forall₂_congr fun c _ => ?_
  rw [Bool.not_inj_iff]

/-- A take removes exactly the samples it returns if and only if its walk is clean. -/
theorem takesExactly_iff_clean (env : Environment Foo V) (s : DataReader Foo) (req : Request Foo) :
    TakesExactly env s (s.selectSamples env { req with take := true }) ↔ Clean env s { req with take := true } := by
  have hprep := prepared_prepare env s { req with take := true }
  generalize hp : s.prepare env { req with take := true } = prep at hprep
  cases hprep with
  | refused e =>
    refine iff_of_true ?_ fun sel s' h => ?_
    · unfold selectSamples
      rw [hp]
      refine List.filter_congr fun c _ => ?_
      simp [returned, named]
    · rw [hp] at h
      cases h
  | stopped e =>
    refine iff_of_true ?_ fun sel s' h => ?_
    · unfold selectSamples
      rw [hp]
      show (s.purged env).stored.filter _ = _
      unfold purged stored
      rw [DataReaderHistoryCache.getChanges_purgeExpiredOnRead]
      simp [returned, named]
    · rw [hp] at h
      cases h
  | ready sel hr perm =>
    generalize hex : examine env (s.purged env) sel [] sel.limit sel.changes = examined
    have hclean : Clean env s { req with take := true } ↔ CleanWalk env (s.purged env) sel examined := by
      constructor
      · intro h
        exact hex ▸ h sel _ hp
      · intro h sel' s' h'
        rw [hp] at h'
        obtain ⟨hsel, rfl⟩ := Prod.mk.inj h'
        obtain rfl := Except.ok.inj hsel
        rwa [hex]
    have hr' : (s.purged env).rtpsChanges.isSome = true := hr
    obtain ⟨hreturned, hnothing⟩ := returned_selectSamples hr' fresh_purged perm hp hex
    rw [hclean, takesExactly_iff hr' hp hex]
    constructor
    · intro h
      have hkept : ∀ c v, (c, v) ∈ examined → v.removes = true →
          named (returned (s.selectSamples env { req with take := true }).1) c = true := by
        intro c v hmem hv
        have hc : c ∈ (s.purged env).stored := perm.mem_iff.1 (examine_subset (hex ▸ hmem))
        rw [← h c hc, named_iff]
        exact ⟨c, mem_removed.2 ⟨v, hmem, hv⟩, SameSample.refl c⟩
      have hfine : ∀ c v, (c, v) ∈ examined → v.removes = true →
          failure? examined = none ∧ Reevaluates env (s.purged env) sel examined := by
        intro c v hmem hv
        by_contra hbad
        have := hkept c v hmem hv
        rw [hnothing hbad] at this
        exact absurd this (by simp [named])
      refine ⟨fun c hmem => ?_, hfine⟩
      rw [← hreturned (hfine c _ hmem rfl)]
      exact hkept c _ hmem rfl
    · intro h c _
      refine Bool.eq_iff_iff.2 ⟨fun hc => ?_, fun hc => ?_⟩
      · obtain ⟨d, hd, hsame⟩ := named_iff.1 hc
        obtain ⟨v, hmem, hv⟩ := mem_removed.1 hd
        rw [hreturned (h.lossless d v hmem hv), named_iff]
        cases v with
        | unusable =>
          obtain ⟨e, he, hsame'⟩ := named_iff.1 (h.unusable d hmem)
          exact ⟨e, he, hsame'.trans hsame⟩
        | selected info => exact ⟨d, mem_samples_change.2 ⟨info, hmem⟩, hsame⟩
        | skipped => cases hv
        | failed e => cases hv
      · by_cases hfine : failure? examined = none ∧ Reevaluates env (s.purged env) sel examined
        · rw [hreturned hfine] at hc
          obtain ⟨d, hd, hsame⟩ := named_iff.1 hc
          obtain ⟨info, hmem⟩ := mem_samples_change.1 hd
          exact named_iff.2 ⟨d, mem_removed.2 ⟨_, hmem, rfl⟩, hsame⟩
        · rw [hnothing hfine] at hc
          exact absurd hc (by simp [named])

/-! ## A query that meets a sample it cannot read -/

def fourByteType : Environment Bytes Unit where
  view := .plain
  now := ⟨9, 0⟩
  deserialize := fun bytes => if bytes.length = 4 then .ok bytes else .error (.error "unexpected end of data")
  getFieldValue := fun _ _ => .ok ()
  compareForOrdering := fun _ _ => .eq

def receivedAt (seconds : BitVec 32) (sequenceNumber : Int) (payload : Bytes) : CacheChange :=
  { CacheChange.new .alive ⟨1, 2⟩ .nil sequenceNumber payload (some ⟨seconds, 0⟩) with
    receptionTimestamp := some ⟨seconds, 0⟩ }

def twoSamples : DataReader Bytes :=
  { created (((DataReaderHistoryCache.new .reliable .keepAll (-1) (-1) (-1) false .shared .byReceptionTimestamp
      ).insertChangeSorted (receivedAt 1 1 [1, 2, 3, 4])).insertChangeSorted (receivedAt 2 2 [5])) [] with
    rtpsChanges := some [receivedAt 1 1 [1, 2, 3, 4], receivedAt 2 2 [5]]
    instanceInfos := [(.nil, .unknown)] }

def anyMask : Masks := ⟨[0xffff], [0xffff], [0xffff]⟩

def takeEverything : Request Bytes where
  maxSamples := -1
  handle := .nil
  directSampleStates := none
  directViewStates := none
  directInstanceStates := none
  condition := some ⟨anyMask, some ⟨fun _ => .ok true, none⟩, false⟩
  singleInstance := false
  exact := false
  take := true

/-- The call fails at the second sample, and the first one is neither returned nor stored. -/
theorem sample_lost_on_failure :
    (twoSamples.selectSamples fourByteType takeEverything).1 = .error (.error "unexpected end of data") ∧
      twoSamples.stored = [receivedAt 1 1 [1, 2, 3, 4], receivedAt 2 2 [5]] ∧
      (twoSamples.selectSamples fourByteType takeEverything).2.stored = [receivedAt 2 2 [5]] ∧
      ¬ TakesExactly fourByteType twoSamples (twoSamples.selectSamples fourByteType takeEverything) :=
  ⟨by rfl, by decide +kernel, by decide +kernel, by decide +kernel⟩

end DataReader

end Int2Dds.Subscription
