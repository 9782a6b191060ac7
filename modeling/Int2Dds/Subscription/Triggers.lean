import Int2Dds.Lib.Run
import Int2Dds.Subscription.Arrival
import Int2Dds.Subscription.TakeExactly

/-!
# The triggers of the conditions

The trigger value of a condition should say whether the history holds a sample that meets it. A read or a take
computes it anew. An arrival only ever raises it, and only for the change that arrives, although the same arrival can
push a sample out and can change the states of all samples of its instance.

* `triggersExact_arrive`, `triggersExact_selectSamples` : one step; `triggers_exact` : a run.
-/

namespace Int2Dds.Subscription.DataReader
open Lib Rtps History List DataReaderHistoryCache

variable {Foo V : Type*}

/-! ## Meeting a condition -/

def storedState (s : DataReader Foo) (c : CacheChange) : SampleStateKind :=
  if s.isSampleRead c.writerGuid c.sequenceNumber then .read else .notRead

/-- The masks take the states of the sample, and the expression, if any, is true of the data. -/
def found (deserialize : Bytes → Except DdsError Foo) (s : DataReader Foo) (condition : ReadCondition Foo)
    (c : CacheChange) : Bool :=
  condition.masks.accepts (s.storedState c) (s.instanceInfos.get c.instanceHandle) &&
    match condition.query with
    | none => true
    | some query =>
      hasValidData c.kind &&
        match (deserialize c.dataPayload).bind query.evaluate with
        | .ok b => b
        | .error _ => false

def meets (setup : Setup Foo V) : DataReader Foo → ReadCondition Foo → CacheChange → Bool := found setup.deserialize

/-- A trigger is true exactly when a stored sample meets its condition. -/
def TriggersExact (setup : Setup Foo V) (s : DataReader Foo) : Prop :=
  ∀ condition ∈ s.readConditions, condition.triggerValue = s.stored.any (s.meets setup condition)

instance (setup : Setup Foo V) (s : DataReader Foo) : Decidable (TriggersExact setup s) :=
  inferInstanceAs (Decidable (∀ condition ∈ s.readConditions, _))

theorem any_congr_mem {α : Type*} {l : List α} {p q : α → Bool} (h : ∀ a ∈ l, p a = q a) : l.any p = l.any q := by
  induction l with
  | nil => rfl
  | cons a l ih =>
    rw [any_cons, any_cons, h a mem_cons_self, ih (forall_mem_cons.1 h).2]

variable {c : CacheChange} {condition : ReadCondition Foo} {s t : DataReader Foo} {setup : Setup Foo V}
  {env : Environment Foo V} {sel : Selection Foo} {now : RtpsTime} {view : DataReaderView} {req : Request Foo}

theorem meets_congr (hread : t.readSamples = s.readSamples)
    (haccepts : ∀ sampleState, condition.masks.accepts sampleState (t.instanceInfos.get c.instanceHandle) =
      condition.masks.accepts sampleState (s.instanceInfos.get c.instanceHandle)) :
    t.meets setup condition c = s.meets setup condition c := by
  have hstate : t.storedState c = s.storedState c := by
    unfold storedState isSampleRead
    rw [hread]
  unfold meets found
  rw [hstate, haccepts]

/-! ## Looking for samples that meet a condition -/

/-- The queries of the attached conditions can look at every sample. -/
def Readable (env : Environment Foo V) (s : DataReader Foo) : Prop :=
  ∀ condition ∈ s.readConditions, condition.query.isSome = true → ∀ c ∈ s.stored,
    IsUsable s c ∧ (hasValidData c.kind = true → ∃ data, env.deserialize c.dataPayload = .ok data)

theorem getSampleState_of_mem (hc : c ∈ s.stored) :
    s.getSampleState c.writerGuid c.sequenceNumber =
      if s.isSampleRead c.writerGuid c.sequenceNumber then .read else .notRead := by
  have hfound : (s.cache.getChange c.sequenceNumber c.writerGuid).isSome = true := by
    unfold DataReaderHistoryCache.getChange
    rw [find?_isSome]
    exact ⟨c, hc, by simp⟩
  unfold getSampleState
  rw [if_pos hfound]

theorem matchingSample_eq {changes : List CacheChange}
    (h : condition.query.isSome = true → ∀ c ∈ changes, IsUsable s c ∧
      (hasValidData c.kind = true → ∃ data, env.deserialize c.dataPayload = .ok data)) :
    s.matchingSample env condition changes = .ok (changes.any (s.found env.deserialize condition)) := by
  induction changes with
  | nil => rfl
  | cons c changes ih =>
    have hrest := ih fun hq d hd => h hq d (mem_cons_of_mem _ hd)
    rw [matchingSample, any_cons, hrest]
    unfold found storedState InstanceInfos.get
    generalize (if s.isSampleRead c.writerGuid c.sequenceNumber then SampleStateKind.read else .notRead) = sampleState
    cases condition.masks.accepts sampleState ((s.instanceInfos.lookup c.instanceHandle).getD .unknown) with
    | false => rfl
    | true =>
      cases hquery : condition.query with
      | none => rfl
      | some query =>
        obtain ⟨⟨hinfo, htime⟩, hdata⟩ := h (by rw [hquery]; rfl) c mem_cons_self
        obtain ⟨info, hinfo⟩ := Option.isSome_iff_exists.1 hinfo
        obtain ⟨time, htime⟩ := Option.isSome_iff_exists.1 htime
        simp only [sampleInfoWithInfos, hinfo, htime]
        cases hvalid : hasValidData c.kind with
        | false => rfl
        | true =>
          obtain ⟨data, hdata⟩ := hdata hvalid
          rw [hdata]
          cases hvalue : query.evaluate data with
          | error e => simp [Except.bind, hvalue]
          | ok b => cases b <;> simp [Except.bind, hvalue]

theorem reevaluate_eq (hf : s.cache.Fresh env.view env.now) {conditions : List (ReadCondition Foo)}
    (h : ∀ condition ∈ conditions, condition.query.isSome = true → ∀ c ∈ s.stored, IsUsable s c ∧
      (hasValidData c.kind = true → ∃ data, env.deserialize c.dataPayload = .ok data)) :
    reevaluate env s conditions = (.ok (), conditions.map (fun condition =>
      { condition with triggerValue := s.stored.any (s.found env.deserialize condition) }), s) := by
  induction conditions with
  | nil => rfl
  | cons condition conditions ih =>
    obtain ⟨hperm, hsame⟩ := getAvailableChanges_of_fresh hf
    have hhas : s.hasMatchingSamplesForCondition env condition =
        (.ok (s.stored.any (s.found env.deserialize condition)), s) := by
      unfold hasMatchingSamplesForCondition
      dsimp only
      rw [hsame, matchingSample_eq fun hq c hc => h condition mem_cons_self hq c (hperm.mem_iff.1 hc), hperm.any_eq]
    rw [reevaluate, hhas]
    dsimp only
    rw [ih (forall_mem_cons.1 h).2]
    rfl

/-! ## Reads and takes -/

/-- Samples may have gone and states may have changed, but no record and no condition. -/
structure Fewer (s t : DataReader Foo) : Prop where
  stored : ∀ c ∈ t.stored, c ∈ s.stored
  lookup : ∀ k, (t.instanceInfos.lookup k).isSome = (s.instanceInfos.lookup k).isSome
  conditions : t.readConditions = s.readConditions
  attached : t.rtpsChanges.isSome = s.rtpsChanges.isSome
  fresh : ∀ view now, s.cache.Fresh view now → t.cache.Fresh view now

namespace Fewer

variable {s t u : DataReader Foo}

theorem refl : Fewer s s := ⟨fun _ h => h, fun _ => rfl, rfl, rfl, fun _ _ h => h⟩

theorem trans (hst : Fewer s t) (htu : Fewer t u) : Fewer s u :=
  ⟨fun c hc => hst.stored c (htu.stored c hc), fun k => (htu.lookup k).trans (hst.lookup k),
    htu.conditions.trans hst.conditions, htu.attached.trans hst.attached,
    fun view now h => htu.fresh view now (hst.fresh view now h)⟩

theorem of_modify (handle : InstanceHandle) (f : InstanceInfo → InstanceInfo) :
    Fewer s { s with instanceInfos := s.instanceInfos.modify handle f } where
  stored := fun _ h => h
  lookup := fun k => by rw [InstanceInfos.lookup_modify, Option.isSome_map]
  conditions := rfl
  attached := rfl
  fresh := fun _ _ h => h

theorem foldl_modify {α : Type*} {update : DataReader Foo → α → DataReader Foo} (hupdate : ∀ s a, Fewer s (update s a))
    (l : List α) : Fewer s (l.foldl update s) :=
  foldlRecOn l update (refl) fun t h a _ => h.trans (hupdate t a)

theorem readable (h : Fewer s t) {env : Environment Foo V} (hr : Readable env s) : Readable env t := by
  intro condition hcondition hquery c hc
  rw [h.conditions] at hcondition
  obtain ⟨⟨hinfo, htime⟩, hdata⟩ := hr condition hcondition hquery c (h.stored c hc)
  exact ⟨⟨(h.lookup _).trans hinfo, htime⟩, hdata⟩

end Fewer

theorem removeChange_fewer (hr : s.rtpsChanges.isSome = true) : ∃ t, s.removeChange c = (.ok (), t) ∧ Fewer s t := by
  obtain ⟨changes, hchanges⟩ := Option.isSome_iff_exists.1 hr
  refine ⟨{ s with
    cache := s.cache.removeChange c
    rtpsChanges := some (changes.eraseP (fun d => decide (d.id = c.id))) }, ?_, ?_⟩
  · unfold removeChange
    simp only [hchanges]
  · refine ⟨fun d hd => ?_, fun _ => rfl, rfl, by rw [hchanges]; rfl, fun view now h => h.removeChanges [c]⟩
    have hd : d ∈ (s.cache.removeChange c).getChanges := hd
    rw [getChanges_removeChange] at hd
    exact mem_of_mem_filter hd

/-- The expression of a call can be evaluated on the data of a sample. -/
def Evaluates (env : Environment Foo V) (query : Option (Query Foo)) (c : CacheChange) : Prop :=
  ∀ q, query = some q → hasValidData c.kind = true → ∃ b, (env.deserialize c.dataPayload).bind q.evaluate = .ok b

theorem judge_ne_failed (h : Evaluates env sel.query c) (e : DdsError) : s.judge env sel c ≠ .failed e := by
  unfold judge
  dsimp only
  split_ifs
  · intro h
    cases h
  · intro h
    cases h
  cases hinfo : sampleInfoWithInfos c c.instanceHandle (s.getSampleState c.writerGuid c.sequenceNumber) sel.infos with
  | error e =>
    intro h
    cases h
  | ok info =>
    have hvalid : info.validData = hasValidData c.kind := by
      unfold sampleInfoWithInfos at hinfo
      split at hinfo
      · cases hinfo
      · split at hinfo
        · cases hinfo
        · cases hinfo
          rfl
    cases hquery : sel.query with
    | none =>
      intro h
      cases h
    | some query =>
      dsimp only
      unfold judgeQuery
      cases hdata : hasValidData c.kind with
      | false => simp [hvalid, hdata]
      | true =>
        obtain ⟨b, hb⟩ := h query hquery hdata
        rw [hvalid, hdata, hb]
        cases b <;> simp

theorem walk_fewer (take : Bool) {changes : List CacheChange} (hquery : ∀ c ∈ changes, Evaluates env sel.query c)
    (s : DataReader Foo) (hr : s.rtpsChanges.isSome = true) (remaining : Int) :
    ∃ samples left t, walk env sel take s remaining changes = (.ok (samples, left), t) ∧ Fewer s t := by
  induction changes generalizing s remaining with
  | nil => exact ⟨[], remaining, s, rfl, .refl⟩
  | cons c changes ih =>
    have hrest := ih (forall_mem_cons.1 hquery).2
    rw [walk]
    by_cases hlimit : remaining ≤ 0
    · rw [if_pos hlimit]
      exact ⟨[], remaining, s, rfl, .refl⟩
    rw [if_neg hlimit]
    -- a change that is taken out or marked leaves fewer, and the walk goes on
    have hremoved : ∃ t, (if take then s.removeChange c else (.ok (), s)) = (.ok (), t) ∧ Fewer s t := by
      cases take with
      | true => exact removeChange_fewer hr
      | false => exact ⟨s, rfl, .refl⟩
    have hmarked : ∃ t, (if take then s.removeChange c
        else (.ok (), s.markSampleAsRead c.writerGuid c.sequenceNumber)) = (.ok (), t) ∧ Fewer s t := by
      cases take with
      | true => exact removeChange_fewer hr
      | false => exact ⟨_, rfl, ⟨fun _ h => h, fun _ => rfl, rfl, rfl, fun _ _ h => h⟩⟩
    cases hverdict : s.judge env sel c with
    | skipped => exact hrest s hr remaining
    | failed e => exact absurd hverdict (judge_ne_failed (hquery c mem_cons_self) e)
    | unusable =>
      obtain ⟨t, ht, hfewer⟩ := hremoved
      obtain ⟨samples, left, u, hu, hfewer'⟩ := hrest t (hfewer.attached.trans hr) remaining
      rw [ht]
      exact ⟨samples, left, u, hu, hfewer.trans hfewer'⟩
    | selected info =>
      obtain ⟨t, ht, hfewer⟩ := hmarked
      obtain ⟨samples, left, u, hu, hfewer'⟩ := hrest t (hfewer.attached.trans hr) (remaining - 1)
      rw [ht]
      dsimp only
      rw [hu]
      exact ⟨_, _, u, rfl, hfewer.trans hfewer'⟩

theorem settle_fewer (env : Environment Foo V) (s : DataReader Foo) (sel : Selection Foo) (samples : List Sample)
    (remaining : Int) : Fewer s (s.settle env sel samples remaining).2 := by
  have hdrain : Fewer s (s.drainPendingNotifications env sel remaining).2 := by
    unfold drainPendingNotifications
    split_ifs
    · exact .refl
    · exact Fewer.foldl_modify (fun s handle => .of_modify handle _) _
  have hviewed := hdrain.trans (Fewer.foldl_modify
    (fun (s : DataReader Foo) (sample : Sample) => Fewer.of_modify sample.info.instanceHandle
      (fun info => { info with viewState := .notNew }))
    (samples ++ (s.drainPendingNotifications env sel remaining).1))
  exact hviewed.trans ⟨fun _ h => h, fun _ => rfl, rfl, rfl, fun _ _ h => h⟩

theorem triggersExact_conclude (hf : s.cache.Fresh view now) (hr : Readable (setup.environment view now) s)
    (samples : List Sample) (remaining : Int) :
    TriggersExact setup (s.conclude (setup.environment view now) sel samples remaining).2 := by
  have hfewer := settle_fewer (setup.environment view now) s sel samples remaining
  unfold conclude
  generalize s.settle (setup.environment view now) sel samples remaining = settled at hfewer
  obtain ⟨all, t⟩ := settled
  have hre : t.reevaluateAllConditions (setup.environment view now) = (.ok (), { t with
      readConditions := t.readConditions.map (fun condition =>
        { condition with triggerValue := t.stored.any (t.meets setup condition) }) }) := by
    unfold reevaluateAllConditions
    rw [show reevaluate (setup.environment view now) t t.readConditions = _ from
      reevaluate_eq (hfewer.fresh view now hf) (hfewer.readable hr)]
    rfl
  have hexact : TriggersExact setup { t with
      readConditions := t.readConditions.map (fun condition =>
        { condition with triggerValue := t.stored.any (t.meets setup condition) }) } := by
    intro condition hcondition
    obtain ⟨old, -, rfl⟩ := mem_map.1 hcondition
    rfl
  dsimp only
  rw [hre]
  split_ifs
  · exact hexact
  · exact hexact

/-- The call gets to its walk, or ends before it looks at the samples: it is let in, it has masks, and it does not ask
for the next instance. -/
structure Admitted (s : DataReader Foo) (req : Request Foo) : Prop where
  checked : ∃ one, s.checkCall req = .ok one
  masks : (masksOf req).isSome = true
  chosen : req.singleInstance = true → req.exact = true
  named : req.exact = true → req.handle.isNil = false

theorem prepare_of_admitted (h : Admitted s req) :
    (∃ sel t, s.prepare env req = (.ok sel, t)) ∨ ∃ e, s.prepare env req = (.error e, s) := by
  obtain ⟨one, hone⟩ := h.checked
  obtain ⟨masks, hmasks⟩ := Option.isSome_iff_exists.1 h.masks
  have hresolved : s.resolveInstance env req = (.ok (req.handle, req.exact), s) := by
    unfold resolveInstance
    cases hexact : req.exact with
    | true => simp [h.named hexact]
    | false =>
      have hsingle : req.singleInstance = false := by
        by_contra hs
        exact absurd (h.chosen (by simpa using hs)) (by rw [hexact]; exact Bool.false_ne_true)
      simp [hsingle]
  unfold prepare
  rw [hone]
  rw [hresolved]
  dsimp only
  cases s.setReadCommunicationStatus with
  | error e => exact .inr ⟨e, rfl⟩
  | ok =>
    rw [hmasks]
    exact .inl ⟨_, _, rfl⟩

/-- What a read or take must find: its own expression and those of attached conditions can be evaluated on the
samples, and if samples have expired the call gets to its walk. -/
structure SelectMeets (setup : Setup Foo V) (view : DataReaderView) (now : RtpsTime) (s : DataReader Foo)
    (req : Request Foo) : Prop where
  readable : Readable (setup.environment view now) (s.purged (setup.environment view now))
  evaluates : ∀ c ∈ (s.purged (setup.environment view now)).stored,
    Evaluates (setup.environment view now) (req.condition.bind ReadCondition.query) c
  reached : s.cache.Fresh view now ∨ Admitted s req

theorem query_of_prepare (h : s.prepare env req = (.ok sel, t)) :
    sel.query = req.condition.bind ReadCondition.query := by
  unfold prepare at h
  split at h
  · cases h
  · split at h
    · cases h
    · split at h
      · cases h
      · dsimp only at h
        split at h
        · cases h
        · cases h
          rfl

theorem triggersExact_selectSamples (hs : TriggersExact setup s) (h : SelectMeets setup view now s req) :
    TriggersExact setup (s.selectSamples (setup.environment view now) req).2 := by
  have hprepared := prepared_prepare (setup.environment view now) s req
  unfold selectSamples
  cases hres : s.prepare (setup.environment view now) req with
  | mk result t =>
    rw [hres] at hprepared
    cases hprepared with
    | refused e => exact hs
    | stopped e =>
      rcases h.reached with hfresh | hadmitted
      · rw [purged_of_fresh hfresh]
        exact hs
      · rcases prepare_of_admitted hadmitted with ⟨sel, t, hok⟩ | ⟨e', herror⟩
        · cases hres.symm.trans hok
        · obtain ⟨-, hsame⟩ := Prod.mk.inj (hres.symm.trans herror)
          rw [hsame]
          exact hs
    | ready sel attached perm =>
      have hquery : ∀ c ∈ sel.changes, Evaluates (setup.environment view now) sel.query c := by
        intro c hc
        rw [query_of_prepare hres]
        exact h.evaluates c (perm.mem_iff.1 hc)
      obtain ⟨samples, left, t, hwalk, hfewer⟩ := walk_fewer req.take hquery
        (s.purged (setup.environment view now)) attached sel.limit
      dsimp only
      rw [hwalk]
      exact triggersExact_conclude (hfewer.fresh view now (fresh_purged))
        (hfewer.readable h.readable) samples left

/-! ## Arrivals -/

/-- What an arrival must find. `t` is the reader once the change is stored or refused, `result` what that gave. -/
structure ArrivalMeets (setup : Setup Foo V) (view : DataReaderView) (s t : DataReader Foo) (c : CacheChange)
    (result : Except DdsError (Option CacheChange × Bool)) : Prop where
  /-- The content filter lets it pass. -/
  passes : view.drops c = false
  /-- No condition tells the new state of the instance from the old, if there are samples of it. -/
  states : (∃ d ∈ s.stored, d.instanceHandle = c.instanceHandle) → ∀ condition ∈ s.readConditions, ∀ sampleState,
    condition.masks.accepts sampleState (t.instanceInfos.get c.instanceHandle) =
      condition.masks.accepts sampleState (s.instanceInfos.get c.instanceHandle)
  /-- What has to leave meets no condition. -/
  leaving : ∀ r held, result = .ok (some r, held) → ∀ d ∈ s.stored, SameSample r d →
    ∀ condition ∈ s.readConditions, s.meets setup condition d = false
  /-- The instance of a stored change has a record. -/
  recorded : (∃ removed, result = .ok (removed, false)) → (t.instanceInfos.lookup c.instanceHandle).isSome = true
  /-- A condition with an expression whose masks take the change can look at its data. -/
  readable : ∀ condition ∈ s.readConditions, condition.query.isSome = true →
    condition.masks.accepts (t.storedState c) (t.instanceInfos.get c.instanceHandle) = true →
    hasValidData c.kind = true ∧ c.sourceTimestamp.isSome = true ∧ ∃ data, setup.deserialize c.dataPayload = .ok data

theorem lookAt_eq {info : InstanceInfo} (hc : c ∈ s.stored)
    (hinfo : s.instanceInfos.lookup c.instanceHandle = some info)
    (hreadable : condition.query.isSome = true → condition.masks.accepts (s.storedState c) info = true →
      hasValidData c.kind = true ∧ c.sourceTimestamp.isSome = true ∧
      ∃ data, setup.deserialize c.dataPayload = .ok data) :
    s.lookAt setup c info condition = .ok (s.meets setup condition c) := by
  have hget : s.instanceInfos.get c.instanceHandle = info := by
    unfold InstanceInfos.get
    rw [hinfo]
    rfl
  have hstate : s.getSampleState c.writerGuid c.sequenceNumber = s.storedState c := getSampleState_of_mem hc
  unfold lookAt meets found
  rw [hstate, hget]
  dsimp only
  cases haccepts : condition.masks.accepts (s.storedState c) info with
  | false => rfl
  | true =>
    cases hquery : condition.query with
    | none => rfl
    | some query =>
      obtain ⟨hvalid, htime, data, hdata⟩ := hreadable (by rw [hquery]; rfl) haccepts
      obtain ⟨time, htime⟩ := Option.isSome_iff_exists.1 htime
      simp only [sampleInfoWithInfos, hinfo, htime, hvalid, hdata]
      cases hvalue : query.evaluate data with
      | error | ok => simp [Except.bind, Except.map, hvalue]

theorem notify_eq {info : InstanceInfo} {conditions : List (ReadCondition Foo)}
    (h : ∀ condition ∈ conditions, s.lookAt setup c info condition = .ok (s.meets setup condition c)) :
    s.notify setup c info conditions = (.ok (), conditions.map (fun condition =>
      { condition with triggerValue := condition.triggerValue || s.meets setup condition c })) := by
  induction conditions with
  | nil => rfl
  | cons condition conditions ih =>
    rw [notify, h condition mem_cons_self]
    rw [ih (forall_mem_cons.1 h).2]
    rfl

/-- Where `c` is stored, what had to leave met no condition and the others say what they said, it is enough that the
conditions look at `c`. -/
theorem triggersExact_processIncomingChange {removed : Option CacheChange} (hs : TriggersExact setup s)
    (hconditions : t.readConditions = s.readConditions)
    (hperm : t.stored.Perm (c :: remaining removed s.stored))
    (hmeets : ∀ condition ∈ s.readConditions, ∀ d ∈ s.stored, t.meets setup condition d = s.meets setup condition d)
    (hleaving : ∀ r, removed = some r → ∀ d ∈ s.stored, SameSample r d →
      ∀ condition ∈ s.readConditions, s.meets setup condition d = false)
    (hrecorded : (t.instanceInfos.lookup c.instanceHandle).isSome = true)
    (hreadable : ∀ condition ∈ s.readConditions, condition.query.isSome = true →
      condition.masks.accepts (t.storedState c) (t.instanceInfos.get c.instanceHandle) = true →
      hasValidData c.kind = true ∧ c.sourceTimestamp.isSome = true ∧
      ∃ data, setup.deserialize c.dataPayload = .ok data) :
    TriggersExact setup (t.processIncomingChange setup c).2 := by
  obtain ⟨info, hinfo⟩ := Option.isSome_iff_exists.1 hrecorded
  have hget : t.instanceInfos.get c.instanceHandle = info := by
    unfold InstanceInfos.get
    rw [hinfo]
    rfl
  rw [hget] at hreadable
  have hstored : c ∈ t.stored := hperm.mem_iff.2 mem_cons_self
  have hnotify := notify_eq fun condition hcondition =>
    lookAt_eq hstored hinfo (hreadable condition (hconditions ▸ hcondition))
  unfold processIncomingChange
  rw [hinfo]
  dsimp only
  rw [hnotify]
  intro condition' hcondition'
  obtain ⟨condition, hcondition, rfl⟩ := mem_map.1 hcondition'
  rw [hconditions] at hcondition
  -- the samples that stay meet the condition exactly when those that were there did
  have hstay : (remaining removed s.stored).any (t.meets setup condition) =
      s.stored.any (s.meets setup condition) := by
    cases removed with
    | none => exact any_congr_mem (hmeets condition hcondition)
    | some r =>
      unfold remaining
      rw [Option.elim_some, List.any_filter]
      refine any_congr_mem fun d hd => ?_
      rw [hmeets condition hcondition d hd]
      by_cases hsame : SameSample r d
      · rw [hleaving r rfl d hd hsame condition hcondition, Bool.and_false]
      · simp [hsame]
  have hall : t.stored.any (t.meets setup condition) =
      (s.stored.any (s.meets setup condition) || t.meets setup condition c) := by
    rw [hperm.any_eq, any_cons, hstay, Bool.or_comm]
  exact (congrArg (· || t.meets setup condition c) (hs condition hcondition)).trans hall.symm

end Int2Dds.Subscription.DataReader

namespace Int2Dds.Subscription.TimedReader
open Lib Rtps History DataReader

variable {Foo V : Type*}

variable {applyFilter : Bool} {c : CacheChange} {s : TimedReader Foo} {setup : Setup Foo V} {view : DataReaderView}

section

variable (h : ArrivalMeets setup view s.reader (s.addChangeWithCleanup setup view c applyFilter).2.reader c
  (s.addChangeWithCleanup setup view c applyFilter).1)
include h

theorem meets_addChangeWithCleanup {condition : ReadCondition Foo} (hcondition : condition ∈ s.reader.readConditions)
    {d : CacheChange} (hd : d ∈ s.reader.stored) :
    (s.addChangeWithCleanup setup view c applyFilter).2.reader.meets setup condition d =
      s.reader.meets setup condition d := by
  obtain ⟨hreader, hlookup⟩ := addChangeWithCleanup_spec setup view s c applyFilter
  apply meets_congr
  · rw [hreader]
  intro sampleState
  by_cases hhandle : d.instanceHandle = c.instanceHandle
  · rw [hhandle]
    exact h.states ⟨d, hd, hhandle⟩ condition hcondition sampleState
  · have hbucket : s.reader.cache.bucketOf d.instanceHandle ≠ [] :=
      List.ne_nil_of_mem (DataReaderHistoryCache.mem_bucketOf.2 ⟨hd, rfl⟩)
    unfold InstanceInfos.get
    rw [hlookup _ hhandle hbucket]

theorem triggersExact_of_same (hs : TriggersExact setup s.reader)
    (hsame : (s.addChangeWithCleanup setup view c applyFilter).2.reader.stored = s.reader.stored) :
    TriggersExact setup (s.addChangeWithCleanup setup view c applyFilter).2.reader := by
  intro condition hcondition
  obtain ⟨hreader, -⟩ := addChangeWithCleanup_spec setup view s c applyFilter
  have hcondition' : condition ∈ s.reader.readConditions := by
    rw [hreader] at hcondition
    exact hcondition
  rw [hs condition hcondition', hsame]
  exact any_congr_mem fun d hd => (meets_addChangeWithCleanup h hcondition' hd).symm

end

theorem stores_addChangeWithCleanup (setup : Setup Foo V) {view : DataReaderView} (s : TimedReader Foo)
    (applyFilter : Bool) (hpass : view.drops c = false) :
    DataReaderHistoryCache.Stores s.reader.cache c (inHistory (s.addChangeWithCleanup setup view c applyFilter)) := by
  rw [inHistory_addChangeWithCleanup]
  exact DataReaderHistoryCache.stores_addChangeWithCleanup _ (s.recordView setup view) c applyFilter hpass

theorem triggersExact_arrive {change : CacheChange} (hs : TriggersExact setup s.reader)
    (h : ∀ c, view.addInfoToCacheChange change = .ok c →
      ArrivalMeets setup view s.reader (s.addChangeWithCleanup setup view c applyFilter).2.reader c
      (s.addChangeWithCleanup setup view c applyFilter).1) :
    TriggersExact setup (s.arrive setup view change applyFilter).reader := by
  unfold arrive
  cases hinfo : view.addInfoToCacheChange change with
  | error e => exact hs
  | ok c =>
    dsimp only
    have hok := h c hinfo
    obtain ⟨hreader, -⟩ := addChangeWithCleanup_spec setup view s c applyFilter
    have hmeets : ∀ condition ∈ s.reader.readConditions, ∀ d ∈ s.reader.stored,
        (s.addChangeWithCleanup setup view c applyFilter).2.reader.meets setup condition d =
          s.reader.meets setup condition d :=
      fun _ hcondition _ hd => meets_addChangeWithCleanup hok hcondition hd
    have hsame := triggersExact_of_same hok hs
    have hstores := stores_addChangeWithCleanup setup s applyFilter hok.passes
    generalize s.addChangeWithCleanup setup view c applyFilter = out at *
    obtain ⟨result, t⟩ := out
    cases hstores with
    | refused same => exact hsame same
    | held same => exact hsame same
    | @stored removed _ mem perm =>
      exact triggersExact_processIncomingChange hs (by rw [hreader]) perm hmeets
        (fun r hr => hok.leaving r false (by rw [hr])) (hok.recorded ⟨removed, rfl⟩) hok.readable

/-! ## Runs -/

/-- What happens to a reader. A read and a take differ in the request. -/
inductive ReaderStep (Foo : Type*) where
  | arrival (view : DataReaderView) (change : CacheChange) (applyFilter : Bool)
  | select (view : DataReaderView) (now : RtpsTime) (req : Request Foo)

namespace ReaderStep

def perform (setup : Setup Foo V) (s : TimedReader Foo) : ReaderStep Foo → TimedReader Foo
  | arrival view change applyFilter => s.arrive setup view change applyFilter
  | select view now req => { s with reader := (s.reader.selectSamples (setup.environment view now) req).2 }

def step (setup : Setup Foo V) (s : TimedReader Foo) (m : ReaderStep Foo) : Option (TimedReader Foo) :=
  some (m.perform setup s)

def Meets (setup : Setup Foo V) (s : TimedReader Foo) : ReaderStep Foo → Prop
  | arrival view change applyFilter =>
    ∀ c, view.addInfoToCacheChange change = .ok c →
      ArrivalMeets setup view s.reader (s.addChangeWithCleanup setup view c applyFilter).2.reader c
        (s.addChangeWithCleanup setup view c applyFilter).1
  | select view now req => SelectMeets setup view now s.reader req

end ReaderStep

/-- In every run whose steps all meet their conditions, the triggers are exact after every step. -/
theorem triggers_exact (setup : Setup Foo V) (s : TimedReader Foo) (hs : TriggersExact setup s.reader)
    (steps : List (ReaderStep Foo)) (t : TimedReader Foo)
    (hok : AllSteps (ReaderStep.step setup) (ReaderStep.Meets setup) s steps)
    (hrun : run (ReaderStep.step setup) s steps = some t) : TriggersExact setup t.reader := by
  refine run_invariant_of_allSteps (I := fun s => TriggersExact setup s.reader) ?_ hs hok hrun
  intro s m s' hs hm hstep
  obtain rfl := Option.some.inj hstep
  cases m with
  | arrival view change applyFilter => exact triggersExact_arrive hs hm
  | select view now req => exact triggersExact_selectSamples hs hm

/-! ## A sample that is pushed out -/

def aboveFive : ReadCondition Bytes where
  masks := anyMask
  query := some ⟨fun data => .ok (decide (5 < data.head?.getD 0)), none⟩
  triggerValue := false

def keepsLast : TimedReader Bytes where
  reader := .created (.new .reliable (.keepLast 1) (-1) (-1) (-1) false .shared .byReceptionTimestamp) [aboveFive]
  requested := []

def octetSample (sequenceNumber : Int) (octet : Byte) : CacheChange :=
  .new .alive ⟨1, 2⟩ .nil sequenceNumber [octet] (some ⟨5, 0⟩)

def arriveOctet (sequenceNumber : Int) (octet : Byte) : ReaderStep Bytes :=
  .arrival fourByteType.view (octetSample sequenceNumber octet) true

def takeAll : ReaderStep Bytes :=
  .select fourByteType.view ⟨9, 0⟩ { takeEverything with
    directSampleStates := some anyMask.sampleStates
    directViewStates := some anyMask.viewStates
    directInstanceStates := some anyMask.instanceStates
    condition := none }

/-- A sample arrives, and is taken. -/
theorem triggers_exact_taken :
    ∃ t, run (ReaderStep.step octets) keepsLast [arriveOctet 1 9, takeAll] = some t ∧
      TriggersExact octets t.reader := by
  have harrival : ReaderStep.Meets octets keepsLast (arriveOctet 1 9) := by
    intro c hc
    obtain rfl := Except.ok.inj hc
    refine ⟨by decide +kernel, ?_, ?_, fun _ => by decide +kernel, ?_⟩
    · rintro ⟨d, hd, -⟩
      cases hd
    · intro r held _ d hd
      cases hd
    · intro condition _ _ _
      exact ⟨rfl, rfl, _, rfl⟩
  have hselect : ReaderStep.Meets octets (ReaderStep.perform octets keepsLast (arriveOctet 1 9)) takeAll := by
    refine ⟨?_, fun c _ q hq => absurd hq (by simp), .inl fun hseen => absurd hseen (by decide +kernel)⟩
    intro condition _ _ c hc
    refine ⟨?_, fun _ => ⟨_, rfl⟩⟩
    revert c
    unfold IsUsable
    decide +kernel
  refine ⟨_, rfl, triggers_exact octets keepsLast (by decide +kernel) [arriveOctet 1 9, takeAll] _ ?_ rfl⟩
  refine ⟨harrival, fun s' hs' => ?_⟩
  obtain rfl := Option.some.inj hs'
  exact ⟨hselect, fun _ _ => trivial⟩

/-- The sample 9 makes the condition true; the sample 1 that pushes it out leaves it so. -/
theorem trigger_stale_on_eviction :
    TriggersExact octets keepsLast.reader ∧
      ∃ t, run (ReaderStep.step octets) keepsLast [arriveOctet 1 9, arriveOctet 2 1] = some t ∧
        t.reader.stored.map CacheChange.dataPayload = [[1]] ∧
        t.reader.readConditions.map ReadCondition.triggerValue = [true] ∧ ¬ TriggersExact octets t.reader :=
  ⟨by decide +kernel, _, rfl, by decide +kernel, by decide +kernel, by decide +kernel⟩

end Int2Dds.Subscription.TimedReader
