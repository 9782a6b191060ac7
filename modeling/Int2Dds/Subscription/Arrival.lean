import Int2Dds.Subscription.DataReader

/-!
# Arrivals

A change that reaches a reader becomes a candidate for the ownership of its instance, then advances the record of the
instance (`TimedReader.updateInstanceState`), and is stored if there is room; at the end the attached conditions look
at it (`DataReader.processIncomingChange`). A change that is refused for lack of room has already done the first two.

* `inHistory_addChangeWithCleanup` : on the history, storing is `DataReaderHistoryCache.addChangeWithCleanup`.
-/

namespace Int2Dds.Subscription
open Lib Rtps History List DataReaderHistoryCache

def handleBytes (handle : InstanceHandle) : Bytes :=
  (List.range 16).map fun i => handle.value.extractLsb' (8 * (15 - i)) 8

/-! ## The record of an instance -/

namespace InstanceInfos

variable (infos : InstanceInfos) (handle : InstanceHandle)

/-- The record that the code works with: a new one for an instance without record. -/
def get : InstanceInfo := (infos.lookup handle).getD .unknown

def set (info : InstanceInfo) : InstanceInfos :=
  if (infos.lookup handle).isSome then infos.modify handle (fun _ => info) else infos ++ [(handle, info)]

def remove : InstanceInfos := infos.filter (fun entry => decide (entry.1 ≠ handle))

theorem lookup_set (infos : InstanceInfos) (handle k : InstanceHandle) (info : InstanceInfo) :
    (infos.set handle info).lookup k = if k = handle then some info else infos.lookup k := by
  unfold set
  by_cases hk : k = handle
  · subst hk
    rw [if_pos rfl]
    cases hlook : infos.lookup k with
    | none =>
      have happend : lookup k (infos ++ [(k, info)]) = some info := by
        rw [lookup_append, hlook]
        simp
      exact happend
    | some old =>
      rw [Option.isSome_some, if_pos rfl, lookup_modify, hlook]
      simp
  · split_ifs
    · rw [lookup_modify]
      simp [hk]
    · have hne : (k == handle) = false := by simpa using hk
      rw [lookup_append, lookup_cons, hne]
      simp

theorem lookup_remove (infos : InstanceInfos) (handle k : InstanceHandle) :
    (infos.remove handle).lookup k = if k = handle then none else infos.lookup k := by
  unfold remove
  induction infos with
  | nil => simp
  | cons entry infos ih =>
    obtain ⟨other, info⟩ := entry
    rw [filter_cons, lookup_cons]
    by_cases hother : other = handle
    · subst hother
      simp only [ne_eq, not_true_eq_false, decide_false, Bool.false_eq_true, if_false]
      rw [ih]
      by_cases hk : k = other
      · rw [if_pos hk, if_pos hk]
      · have hne : (k == other) = false := by simpa using hk
        rw [if_neg hk, if_neg hk, hne]
    · simp only [ne_eq, hother, not_false_eq_true, decide_true, if_true]
      rw [lookup_cons, ih]
      by_cases hk : k = other
      · subst hk
        simp [hother]
      · have hne : (k == other) = false := by simpa using hk
        rw [hne]

end InstanceInfos

namespace InstanceInfo

/-- The record when a sample with data arrives: a rebirth counts a generation, and the instance is new again. -/
def revive (info : InstanceInfo) : InstanceInfo :=
  let info :=
    if info.instanceState = .notAliveDisposed then
      { info with disposedGenerationCount := info.disposedGenerationCount + 1 }
    else info
  let info :=
    if info.instanceState = .notAliveNoWriters then
      { info with
        noWritersGenerationCount := info.noWritersGenerationCount + 1
        pendingNotification := false }
    else info
  let info :=
    if info.instanceState ≠ .alive ∧ (0 < info.disposedGenerationCount ∨ 0 < info.noWritersGenerationCount) then
      { info with viewState := .new }
    else info
  { info with instanceState := .alive }

def leave (info : InstanceInfo) (newState : InstanceStateKind) (change : Option CacheChange) : InstanceInfo :=
  { info with
    instanceState := newState
    key := if info.key.isEmpty then change.elim info.key CacheChange.dataPayload else info.key }

end InstanceInfo

/-! ## The reader and its timers -/

/-- What stays the same for a reader: its type support and the delays of its READER_DATA_LIFECYCLE. -/
structure Setup (Foo V : Type*) where
  deserialize : Bytes → Except DdsError Foo
  serializeKey : Foo → Except DdsError Bytes
  getFieldValue : Foo → String → Except DdsError V
  compareForOrdering : V → V → Ordering
  autopurgeDisposedSamplesDelay : Duration
  autopurgeNowriterSamplesDelay : Duration

/-- A type whose data are its bytes; nothing is purged. -/
def octets : Setup Bytes Unit where
  deserialize := .ok
  serializeKey := .ok
  getFieldValue := fun _ _ => .ok ()
  compareForOrdering := fun _ _ => .eq
  autopurgeDisposedSamplesDelay := ⟨0x7fffffff, 0x7fffffff⟩
  autopurgeNowriterSamplesDelay := ⟨0x7fffffff, 0x7fffffff⟩

namespace Setup

variable {Foo V : Type*} (setup : Setup Foo V)

def environment (view : DataReaderView) (now : RtpsTime) : Environment Foo V where
  view := view
  now := now
  deserialize := setup.deserialize
  getFieldValue := setup.getFieldValue
  compareForOrdering := setup.compareForOrdering

/-- The key of an instance that is alive. It is taken once, from the first sample with data. -/
def keyOf (handle : InstanceHandle) (key : Bytes) (change : Option CacheChange) : Except DdsError Bytes :=
  if !key.isEmpty then .ok key
  else if handle.isNil then .ok (handleBytes handle)
  else
    match change with
    | none => .ok key
    | some c =>
      match setup.deserialize c.dataPayload with
      | .ok data => setup.serializeKey data
      | .error _ => .ok (handleBytes handle)

def autopurgeDelay : InstanceStateKind → Duration
  | .notAliveNoWriters => setup.autopurgeNowriterSamplesDelay
  | _ => setup.autopurgeDisposedSamplesDelay

end Setup

/-- A one-shot timer a reader asks for: `add_autopurge_timer`. Its callback knows the instance by its handle. -/
structure Autopurge where
  delay : Duration
  instanceHandle : InstanceHandle
  fullReclaim : Bool
deriving DecidableEq

/-- A reader and the timers it has asked for, which are in the queue of the timer task. -/
structure TimedReader (Foo : Type*) where
  reader : DataReader Foo
  requested : List Autopurge

namespace TimedReader

variable {Foo V : Type*} (setup : Setup Foo V) (s : TimedReader Foo) (handle : InstanceHandle)

def setInfo (info : InstanceInfo) : TimedReader Foo :=
  { s with reader := { s.reader with instanceInfos := s.reader.instanceInfos.set handle info } }

def setCache (cache : DataReaderHistoryCache) : TimedReader Foo := { s with reader := { s.reader with cache } }

/-- Asks for the timer that purges an instance which is no longer alive, unless the delay is infinite. -/
def addAutopurgeTimer (newState : InstanceStateKind) : TimedReader Foo :=
  if (setup.autopurgeDelay newState).isInfinite then s
  else { s with requested := s.requested ++ [⟨setup.autopurgeDelay newState, handle, newState == .notAliveNoWriters⟩] }

/-- The new state of an instance; the result says whether it is another one. An instance leaves ALIVE only from ALIVE.
The record has changed even when the key cannot be had. -/
def updateInstanceState (newState : InstanceStateKind) (change : Option CacheChange) :
    Except DdsError Bool × TimedReader Foo :=
  let info := s.reader.instanceInfos.get handle
  match newState with
  | .alive =>
    match setup.keyOf handle info.key change with
    | .error e => (.error e, s.setInfo handle info.revive)
    | .ok key => (.ok (decide (info.instanceState ≠ .alive)), s.setInfo handle { info.revive with key })
  | newState =>
    if info.instanceState = .alive then
      (.ok true, (s.setInfo handle (info.leave newState change)).addAutopurgeTimer setup handle newState)
    else (.ok false, s)

/-- The writer no longer writes the instance; without any writer left the instance is not alive. -/
def revokeWriterOwnership (writerGuid : Guid) (handle : InstanceHandle) : Except DdsError Unit × TimedReader Foo :=
  match s.reader.cache.ownerCandidates.lookup handle with
  | none => (.ok (), s)
  | some candidates =>
    let candidates := candidates.filter (fun info => info.ownerGuid != writerGuid)
    let s := s.setCache { s.reader.cache with
      ownerCandidates := s.reader.cache.ownerCandidates.insert handle candidates }
    if candidates.toList.isEmpty then
      let (result, s) := s.updateInstanceState setup handle .notAliveNoWriters none
      (result.map fun _ => (), s)
    else (.ok (), s)

/-- The first part of the history's `update_instance_state`: the change of a writer that is not the owner is refused,
others give the instance its new state. -/
def acceptState (c : CacheChange) : Except DdsError Unit × TimedReader Foo :=
  match c.kind with
  | .notAliveUnregistered => (.ok (), s)
  | kind =>
    if s.reader.cache.isWriterOwnerOfInstance c.writerGuid c.instanceHandle then
      let newState := match kind with
        | .alive | .aliveFiltered => InstanceStateKind.alive
        | _ => InstanceStateKind.notAliveDisposed
      let (result, s) := s.updateInstanceState setup c.instanceHandle newState (some c)
      (result.map fun _ => (), s)
    else (.error .illegalOperation, s)

/-- What a change does to the state of its instance and to the ownership. -/
def advanceInstance (c : CacheChange) : Except DdsError Unit × TimedReader Foo :=
  match s.acceptState setup c with
  | (.error e, s) => (.error e, s)
  | (.ok (), s) => match c.kind with
    | .notAliveUnregistered | .notAliveDisposedUnregistered =>
      s.revokeWriterOwnership setup c.writerGuid c.instanceHandle
    | _ => (.ok (), s)

/-! ### Room -/

/-- Drops an instance: its bucket, the time based filter's state, its record. Not its owner candidates. -/
def removeAllInstanceResources (s : TimedReader Foo) (handle : InstanceHandle) : TimedReader Foo :=
  { s with reader := { s.reader with
      cache := s.reader.cache.removeAllInstanceResources handle
      instanceInfos := s.reader.instanceInfos.remove handle } }

def removeUnusedInstance : Bool × TimedReader Foo :=
  match s.reader.cache.unusedInstance with
  | some handle => (true, s.removeAllInstanceResources handle)
  | none => (false, s)

def onCache {α : Type*} (s : TimedReader Foo)
    (step : DataReaderHistoryCache → Except DdsError α × DataReaderHistoryCache) :
    Except DdsError α × TimedReader Foo :=
  ((step s.reader.cache).1, s.setCache (step s.reader.cache).2)

def ensureCapacity : Except DdsError (Option CacheChange) × TimedReader Foo :=
  if handle.isNil then s.onCache DataReaderHistoryCache.ensureSampleCapacity
  else if s.reader.cache.isMaxSamplesPerInstanceExceeded handle then
    if s.reader.cache.canAutoRemove then s.onCache (·.tryRemoveOldestChangeOfInstance handle)
    else (.error .outOfResources, s)
  else if s.reader.cache.isMaxInstancesExceeded handle then
    match s.removeUnusedInstance with
    | (false, s) => (.error .outOfResources, s)
    | (true, s) => s.onCache DataReaderHistoryCache.ensureSampleCapacity
  else s.onCache DataReaderHistoryCache.ensureSampleCapacity

/-- Stores a change, unless a filter drops or holds it. The result: what had to leave, and whether the time based
filter held it. -/
def addChangeWithCleanup (view : DataReaderView) (s : TimedReader Foo) (c : CacheChange) (applyFilter : Bool) :
    Except DdsError (Option CacheChange × Bool) × TimedReader Foo :=
  if view.drops c then (.ok (none, false), s)
  else
    let s := s.setCache
      (s.reader.cache.addToOwnerCandidateIfNew c.instanceHandle (c.ownershipStrength.getD 0) c.writerGuid)
    let (held, cache) := s.reader.cache.applyTimeBasedFilter view c applyFilter
    let s := s.setCache cache
    if held then (.ok (none, true), s)
    else
      match s.advanceInstance setup c with
      | (.error e, s) => (.error e, s)
      | (.ok (), s) => match s.ensureCapacity c.instanceHandle with
        | (.error e, s) => (.error e, s)
        | (.ok removed, s) => (.ok (removed, false), s.setCache (s.reader.cache.insertChangeSorted c))

end TimedReader

/-! ## The conditions -/

namespace DataReader

variable {Foo V : Type*}

/-- What a change that has arrived says of a condition. Only an expression that fails counts as false. -/
def lookAt (setup : Setup Foo V) (s : DataReader Foo) (change : CacheChange) (info : InstanceInfo)
    (condition : ReadCondition Foo) : Except DdsError Bool :=
  let sampleState := s.getSampleState change.writerGuid change.sequenceNumber
  if !condition.masks.accepts sampleState info then .ok false
  else
    match condition.query with
    | none => .ok true
    | some query =>
      (sampleInfoWithInfos change change.instanceHandle sampleState s.instanceInfos).bind fun sampleInfo =>
        if !sampleInfo.validData then .error .noData
        else
          (setup.deserialize change.dataPayload).map fun data =>
            match query.evaluate data with
            | .ok b => b
            | .error _ => false

/-- The conditions from the front on, until one cannot look at the change. No trigger is taken back. -/
def notify (setup : Setup Foo V) (s : DataReader Foo) (change : CacheChange) (info : InstanceInfo) :
    List (ReadCondition Foo) → Except DdsError Unit × List (ReadCondition Foo)
  | [] => (.ok (), [])
  | condition :: conditions =>
    match s.lookAt setup change info condition with
    | .error e => (.error e, condition :: conditions)
    | .ok triggered =>
      let (result, conditions) := s.notify setup change info conditions
      (result, { condition with triggerValue := condition.triggerValue || triggered } :: conditions)

def processIncomingChange (setup : Setup Foo V) (s : DataReader Foo) (change : CacheChange) :
    Except DdsError Unit × DataReader Foo :=
  match s.instanceInfos.lookup change.instanceHandle with
  | none =>
    (.error (.error
      "InstanceInfo should have been updated already when added to data reader history cache"), s)
  | some info =>
    let (result, readConditions) := s.notify setup change info s.readConditions
    (result, { s with readConditions })

theorem processIncomingChange_snd (setup : Setup Foo V) (s : DataReader Foo) (change : CacheChange) :
    ∃ readConditions, (s.processIncomingChange setup change).2 = { s with readConditions } := by
  unfold processIncomingChange
  split
  · exact ⟨s.readConditions, rfl⟩
  · exact ⟨_, rfl⟩

end DataReader

namespace TimedReader

variable {Foo V : Type*}

/-- One change through both histories, then past the conditions, which see it even when the content filter dropped it.
-/
def arrive (setup : Setup Foo V) (view : DataReaderView) (s : TimedReader Foo) (change : CacheChange)
    (applyFilter : Bool) : TimedReader Foo :=
  match view.addInfoToCacheChange change with
  | .error _ => s
  | .ok shared =>
    match s.addChangeWithCleanup setup view shared applyFilter with
    | (.error _, s) => s
    | (.ok (_, true), s) => s
    | (.ok (removed, false), s) =>
      let rtpsChanges := s.reader.rtpsChanges.map fun changes =>
        let changes := changes ++ [shared]
        removed.elim changes (fun r => changes.eraseP (fun d => decide (d.id = r.id)))
      { s with reader := ({ s.reader with rtpsChanges }.processIncomingChange setup shared).2 }

/-! ## The history -/

def recordView (setup : Setup Foo V) (view : DataReaderView) (s : TimedReader Foo) : DataReaderView :=
  { view with
    updateInstanceState := fun handle newState change =>
      (s.updateInstanceState setup handle newState change).1.map fun _ => () }

def inHistory {α : Type*} (res : Except DdsError α × TimedReader Foo) : Except DdsError α × DataReaderHistoryCache :=
  (res.1, res.2.reader.cache)

variable (setup : Setup Foo V) (s : TimedReader Foo) (view : DataReaderView) (cache : DataReaderHistoryCache)
  (handle : InstanceHandle) (newState : InstanceStateKind) (change : Option CacheChange)

@[simp] theorem cache_setInfo (info : InstanceInfo) : (s.setInfo handle info).reader.cache = s.reader.cache := rfl

@[simp] theorem cache_setCache : (s.setCache cache).reader.cache = cache := rfl

@[simp] theorem instanceInfos_setCache : (s.setCache cache).reader.instanceInfos = s.reader.instanceInfos := rfl

@[simp] theorem reader_addAutopurgeTimer : (s.addAutopurgeTimer setup handle newState).reader = s.reader := by
  unfold addAutopurgeTimer
  split_ifs <;> rfl

theorem cache_updateInstanceState :
    (s.updateInstanceState setup handle newState change).2.reader.cache = s.reader.cache := by
  unfold updateInstanceState
  cases newState with
  | alive =>
    dsimp only
    split <;> rfl
  | notAliveDisposed | notAliveNoWriters =>
    dsimp only
    split_ifs
    · simp
    · rfl

theorem updateInstanceState_noWriters :
    ∃ b, (s.updateInstanceState setup handle .notAliveNoWriters change).1 = .ok b := by
  unfold updateInstanceState
  dsimp only
  split_ifs
  · exact ⟨true, rfl⟩
  · exact ⟨false, rfl⟩

theorem inHistory_revokeWriterOwnership (s t : TimedReader Foo) (writerGuid : Guid) (handle : InstanceHandle) :
    inHistory (s.revokeWriterOwnership setup writerGuid handle) =
      s.reader.cache.revokeWriterOwnership (t.recordView setup view) writerGuid handle := by
  unfold revokeWriterOwnership DataReaderHistoryCache.revokeWriterOwnership
  cases s.reader.cache.ownerCandidates.lookup handle with
  | none => rfl
  | some candidates =>
    obtain ⟨b, hb⟩ := updateInstanceState_noWriters setup t handle none
    have hview : (t.recordView setup view).updateInstanceState handle .notAliveNoWriters none = .ok () :=
      congrArg (Except.map fun _ => ()) hb
    dsimp only
    split_ifs
    · unfold inHistory
      rw [cache_updateInstanceState, hview]
      obtain ⟨b', hb'⟩ := updateInstanceState_noWriters setup (s.setCache { s.reader.cache with
        ownerCandidates := s.reader.cache.ownerCandidates.insert handle
          (candidates.filter fun info => info.ownerGuid != writerGuid) }) handle none
      rw [hb']
      rfl
    · rfl

theorem inHistory_advanceInstance (s : TimedReader Foo) (c : CacheChange) :
    inHistory (s.advanceInstance setup c) = s.reader.cache.updateInstanceState (s.recordView setup view) c := by
  unfold advanceInstance acceptState DataReaderHistoryCache.updateInstanceState
  cases c.kind with
  | notAliveUnregistered => exact inHistory_revokeWriterOwnership setup view s s _ _
  | _ =>
    dsimp only
    split_ifs
    case neg => rfl
    -- the answer of the reader is that of its view, and its history has not changed
    rw [show ∀ newState, (s.recordView setup view).updateInstanceState c.instanceHandle newState (some c) =
      (s.updateInstanceState setup c.instanceHandle newState (some c)).1.map fun _ => () from fun _ => rfl]
    have hcache := fun newState => cache_updateInstanceState setup s c.instanceHandle newState (some c)
    first
    | specialize hcache .alive
      generalize s.updateInstanceState setup c.instanceHandle .alive (some c) = told at hcache ⊢
      obtain ⟨result, t⟩ := told
      rw [← hcache]
      cases result <;> rfl
    | specialize hcache .notAliveDisposed
      generalize s.updateInstanceState setup c.instanceHandle .notAliveDisposed (some c) = told at hcache ⊢
      obtain ⟨result, t⟩ := told
      rw [← hcache]
      cases result <;> first | rfl | exact inHistory_revokeWriterOwnership setup view t s _ _

theorem inHistory_onCache {α : Type*} (step : DataReaderHistoryCache → Except DdsError α × DataReaderHistoryCache) :
    inHistory (s.onCache step) = step s.reader.cache := rfl

theorem inHistory_ensureCapacity : inHistory (s.ensureCapacity handle) = s.reader.cache.ensureCapacity handle := by
  unfold ensureCapacity DataReaderHistoryCache.ensureCapacity
  split_ifs
  · exact inHistory_onCache s _
  · exact inHistory_onCache s _
  · rfl
  · unfold removeUnusedInstance DataReaderHistoryCache.removeUnusedInstance
    cases s.reader.cache.unusedInstance with
    | none => rfl
    | some unused => exact inHistory_onCache (s.removeAllInstanceResources unused) _
  · exact inHistory_onCache s _

theorem recordView_setCache (s : TimedReader Foo) (cache : DataReaderHistoryCache) :
    (s.setCache cache).recordView setup view = s.recordView setup view := by
  have hresult : ∀ handle newState change, ((s.setCache cache).updateInstanceState setup handle newState change).1 =
      (s.updateInstanceState setup handle newState change).1 := by
    intro handle newState change
    unfold updateInstanceState
    rw [instanceInfos_setCache]
    cases newState with
    | alive =>
      dsimp only
      split <;> rfl
    | _ =>
      dsimp only
      split_ifs <;> rfl
  unfold recordView
  simp only [hresult]

theorem inHistory_addChangeWithCleanup (s : TimedReader Foo) (c : CacheChange) (applyFilter : Bool) :
    inHistory (s.addChangeWithCleanup setup view c applyFilter) =
      s.reader.cache.addChangeWithCleanup (s.recordView setup view) c applyFilter := by
  unfold addChangeWithCleanup DataReaderHistoryCache.addChangeWithCleanup
  rw [show (s.recordView setup view).drops c = view.drops c from rfl]
  split_ifs with hdrops
  · rfl
  dsimp only
  rw [cache_setCache]
  generalize s.reader.cache.addToOwnerCandidateIfNew c.instanceHandle (c.ownershipStrength.getD 0) c.writerGuid = ha
  rw [show ha.applyTimeBasedFilter (s.recordView setup view) c applyFilter =
    ha.applyTimeBasedFilter view c applyFilter from rfl]
  obtain ⟨held, hb⟩ := ha.applyTimeBasedFilter view c applyFilter
  cases held with
  | true => rfl
  | false =>
    dsimp only
    have hadvance := inHistory_advanceInstance setup view ((s.setCache ha).setCache hb) c
    rw [cache_setCache] at hadvance
    rw [show (s.setCache ha).setCache hb = s.setCache hb from rfl, recordView_setCache] at hadvance
    rw [show (s.setCache ha).setCache hb = s.setCache hb from rfl]
    rw [← hadvance]
    generalize (s.setCache hb).advanceInstance setup c = advanced
    obtain ⟨result, t⟩ := advanced
    cases result with
    | error e => rfl
    | ok u =>
      have hroom := inHistory_ensureCapacity t c.instanceHandle
      dsimp only [inHistory] at hroom ⊢
      rw [← hroom]
      generalize t.ensureCapacity c.instanceHandle = made
      obtain ⟨room, t'⟩ := made
      cases room <;> rfl

/-! ## What stays -/

/-- From `s` to `t` only the history, the timers asked for and the record of `handle` may change. -/
structure Frame (handle : InstanceHandle) (s t : TimedReader Foo) : Prop where
  reader : t.reader = { s.reader with cache := t.reader.cache, instanceInfos := t.reader.instanceInfos }
  lookup : ∀ k, k ≠ handle → t.reader.instanceInfos.lookup k = s.reader.instanceInfos.lookup k

/-- From `s` to `t` what is kept of `handle` may be new; the buckets are the same. -/
structure Grows (handle : InstanceHandle) (s t : TimedReader Foo) : Prop where
  buckets : DataReaderHistoryCache.SameBuckets s.reader.cache t.reader.cache
  infos : ∀ k, (t.reader.instanceInfos.lookup k).isSome = true →
    (s.reader.instanceInfos.lookup k).isSome = true ∨ k = handle
  distinct : (s.reader.instanceInfos.map Prod.fst).Nodup → (t.reader.instanceInfos.map Prod.fst).Nodup
  candidates : ∀ k ∈ t.reader.cache.ownerCandidates, k ∈ s.reader.cache.ownerCandidates ∨ k = handle
  filter : ∀ k ∈ t.reader.cache.timeBasedFilter, k ∈ s.reader.cache.timeBasedFilter ∨ k = handle

theorem nodup_set {infos : InstanceInfos} (h : (infos.map Prod.fst).Nodup) (handle : InstanceHandle)
    (info : InstanceInfo) : ((infos.set handle info).map Prod.fst).Nodup := by
  unfold InstanceInfos.set
  split_ifs with hsome
  · have hkeys : (infos.modify handle (fun _ => info)).map Prod.fst = infos.map Prod.fst := by
      simp [InstanceInfos.modify]
    rw [hkeys]
    exact h
  · have hnew : handle ∉ infos.map Prod.fst := by
      intro hmem
      obtain ⟨entry, hentry, rfl⟩ := mem_map.1 hmem
      apply hsome
      rw [lookup_isSome_iff]
      exact ⟨entry, hentry, by simp⟩
    rw [map_append, nodup_append]
    refine ⟨h, nodup_singleton _, ?_⟩
    intro a ha b hb hab
    simp only [map_cons, map_nil, mem_singleton] at hb
    rw [hab, hb] at ha
    exact hnew ha

/-- What happens to `handle` before room is made. -/
structure Moves (handle : InstanceHandle) (s t : TimedReader Foo) : Prop extends Frame handle s t, Grows handle s t

namespace Moves

variable {handle : InstanceHandle} {s t u : TimedReader Foo}

theorem refl : Moves handle s s :=
  ⟨⟨rfl, fun _ _ => rfl⟩, .refl _, fun _ h => .inl h, id, fun _ h => .inl h, fun _ h => .inl h⟩

theorem trans (hst : Moves handle s t) (htu : Moves handle t u) : Moves handle s u where
  reader := by
    rw [htu.reader, hst.reader]
  lookup := fun k hk => (htu.lookup k hk).trans (hst.lookup k hk)
  buckets := hst.buckets.trans htu.buckets
  infos := fun k hk => (htu.infos k hk).elim (hst.infos k) .inr
  distinct := htu.distinct ∘ hst.distinct
  candidates := fun k hk => (htu.candidates k hk).elim (hst.candidates k) .inr
  filter := fun k hk => (htu.filter k hk).elim (hst.filter k) .inr

theorem setInfo (info : InstanceInfo) :
    Moves handle s (s.setInfo handle info) where
  reader := rfl
  lookup := fun _ hk => (InstanceInfos.lookup_set _ _ _ _).trans (if_neg hk)
  buckets := .refl _
  infos := by
    intro k hk
    have hlook : (s.setInfo handle info).reader.instanceInfos.lookup k = _ := InstanceInfos.lookup_set _ _ _ _
    rw [hlook] at hk
    split_ifs at hk with hkey
    · exact .inr hkey
    · exact .inl hk
  distinct := fun h => nodup_set h handle info
  candidates := fun _ h => .inl h
  filter := fun _ h => .inl h

theorem addAutopurgeTimer (h : Moves handle s t) (setup : Setup Foo V) (newState : InstanceStateKind) :
    Moves handle s (t.addAutopurgeTimer setup handle newState) := by
  obtain ⟨⟨hreader, hlookup⟩, hbuckets, hinfos, hdistinct, hcandidates, hfilter⟩ := h
  refine ⟨⟨?_, ?_⟩, ?_, ?_, ?_, ?_, ?_⟩ <;> rw [reader_addAutopurgeTimer] <;> assumption

theorem insertCandidates (candidates : OrdList OwnershipInfo.rank) :
    Moves handle s (s.setCache { s.reader.cache with
      ownerCandidates := s.reader.cache.ownerCandidates.insert handle candidates }) where
  reader := rfl
  lookup := fun _ _ => rfl
  buckets := ⟨rfl, rfl, rfl, rfl, rfl, rfl, rfl⟩
  infos := fun _ h => .inl h
  distinct := id
  candidates := by
    intro k hk
    exact (AList.mem_insert _).1 hk |>.symm
  filter := fun _ h => .inl h

end Moves

theorem moves_updateInstanceState : Moves handle s (s.updateInstanceState setup handle newState change).2 := by
  unfold updateInstanceState
  cases newState with
  | alive =>
    dsimp only
    split
    · exact .setInfo _
    · exact .setInfo _
  | _ =>
    dsimp only
    split_ifs
    · exact Moves.addAutopurgeTimer (.setInfo _) setup _
    · exact .refl

theorem moves_revokeWriterOwnership (writerGuid : Guid) (handle : InstanceHandle) :
    Moves handle s (s.revokeWriterOwnership setup writerGuid handle).2 := by
  unfold revokeWriterOwnership
  split
  · exact .refl
  · dsimp only
    split_ifs
    · exact (Moves.insertCandidates _).trans (moves_updateInstanceState setup _ handle _ _)
    · exact .insertCandidates _

/-- What the first part of `advanceInstance` tells the reader. -/
theorem acceptState_cases (c : CacheChange) :
    c.kind = .notAliveUnregistered ∧ s.acceptState setup c = (.ok (), s) ∨
      s.reader.cache.isWriterOwnerOfInstance c.writerGuid c.instanceHandle = false ∧
        s.acceptState setup c = (.error .illegalOperation, s) ∨
      ∃ told, told = s.updateInstanceState setup c.instanceHandle (if hasValidData c.kind then .alive
        else .notAliveDisposed) (some c) ∧ s.acceptState setup c = (told.1.map fun _ => (), told.2) := by
  unfold acceptState
  cases c.kind with
  | notAliveUnregistered => exact .inl ⟨rfl, rfl⟩
  | _ =>
    cases s.reader.cache.isWriterOwnerOfInstance c.writerGuid c.instanceHandle with
    | true => exact .inr (.inr ⟨_, rfl, rfl⟩)
    | false => exact .inr (.inl ⟨rfl, rfl⟩)

/-- Ownership is given up only with the kinds that unregister, and only of an accepted change. -/
theorem advanceInstance_cases (c : CacheChange) :
    s.advanceInstance setup c = s.acceptState setup c ∨
      (c.kind = .notAliveUnregistered ∨ c.kind = .notAliveDisposedUnregistered) ∧
        s.advanceInstance setup c =
          (s.acceptState setup c).2.revokeWriterOwnership setup c.writerGuid c.instanceHandle := by
  unfold advanceInstance
  rcases s.acceptState setup c with ⟨e | u, t⟩
  · exact .inl rfl
  · cases c.kind <;> simp

theorem moves_advanceInstance (c : CacheChange) : Moves c.instanceHandle s (s.advanceInstance setup c).2 := by
  have haccept : Moves c.instanceHandle s (s.acceptState setup c).2 := by
    rcases acceptState_cases setup s c with ⟨-, h⟩ | ⟨-, h⟩ | ⟨told, rfl, h⟩ <;> rw [h]
    · exact .refl
    · exact .refl
    · exact moves_updateInstanceState setup s _ _ _
  rcases advanceInstance_cases setup s c with h | ⟨-, h⟩ <;> rw [h]
  · exact haccept
  · exact haccept.trans (moves_revokeWriterOwnership setup _ _ _)

/-- At most one instance is new to the time based filter, and a change that is held is not of a new one. -/
theorem applyTimeBasedFilter_spec (h : DataReaderHistoryCache) (r : DataReaderView) (c : CacheChange)
    (applyFilter : Bool) :
    (h.applyTimeBasedFilter r c applyFilter).2.ownerCandidates = h.ownerCandidates ∧
      (∀ k ∈ (h.applyTimeBasedFilter r c applyFilter).2.timeBasedFilter, k ∈ h.timeBasedFilter ∨ k = c.instanceHandle) ∧
      ((h.applyTimeBasedFilter r c applyFilter).1 = true → c.instanceHandle ∈ h.timeBasedFilter) := by
  have hinsert : ∀ state, ∀ k ∈ h.timeBasedFilter.insert c.instanceHandle state,
      k ∈ h.timeBasedFilter ∨ k = c.instanceHandle := by
    intro state k hk
    exact ((AList.mem_insert _).1 hk).symm
  unfold applyTimeBasedFilter
  split_ifs with hfilter halive howner
  · refine ⟨rfl, ?_, ?_⟩
    · unfold TimeBasedFilter.onAliveSample
      dsimp only
      split
      · exact hinsert _
      · split_ifs <;> exact hinsert _
    · intro hheld
      unfold TimeBasedFilter.onAliveSample at hheld
      dsimp only at hheld
      split at hheld
      · simp at hheld
      · next hlook => exact AList.lookup_isSome.1 (Option.isSome_iff_exists.2 ⟨_, hlook⟩)
  · exact ⟨rfl, fun _ h => .inl h, fun h => by simp at h⟩
  · refine ⟨rfl, ?_, fun h => by simp at h⟩
    unfold TimeBasedFilter.discardPending
    split
    · exact fun _ h => .inl h
    · exact hinsert _
  · exact ⟨rfl, fun _ h => .inl h, fun h => by simp at h⟩

def filtered (view : DataReaderView) (s : TimedReader Foo) (c : CacheChange) (applyFilter : Bool) : TimedReader Foo :=
  s.setCache ((s.reader.cache.addToOwnerCandidateIfNew c.instanceHandle (c.ownershipStrength.getD 0)
    c.writerGuid).applyTimeBasedFilter view c applyFilter).2

theorem moves_filtered (s : TimedReader Foo) (c : CacheChange) (applyFilter : Bool) :
    Moves c.instanceHandle s (s.filtered view c applyFilter) := by
  obtain ⟨hcandidates, hfilter, -⟩ := applyTimeBasedFilter_spec
    (s.reader.cache.addToOwnerCandidateIfNew c.instanceHandle (c.ownershipStrength.getD 0) c.writerGuid) view c
    applyFilter
  refine ⟨⟨rfl, fun _ _ => rfl⟩, ?_, fun _ h => .inl h, id, ?_, hfilter⟩
  · exact (sameBuckets_addToOwnerCandidateIfNew _ _ _ _).trans
      (sameBuckets_applyTimeBasedFilter _ _ _ _)
  · intro k hk
    have hk : k ∈ ((s.reader.cache.addToOwnerCandidateIfNew c.instanceHandle (c.ownershipStrength.getD 0)
      c.writerGuid).applyTimeBasedFilter view c applyFilter).2.ownerCandidates := hk
    rw [hcandidates] at hk
    exact ((AList.mem_insert _).1 hk).symm

theorem moves_advanced (s : TimedReader Foo) (c : CacheChange) (applyFilter : Bool) :
    Moves c.instanceHandle s ((s.filtered view c applyFilter).advanceInstance setup c).2 :=
  (moves_filtered view s c applyFilter).trans (moves_advanceInstance setup _ c)

/-- A change through the filters, the records and the limits. -/
inductive Takes (setup : Setup Foo V) (view : DataReaderView) (s : TimedReader Foo) (c : CacheChange)
    (applyFilter : Bool) : Except DdsError (Option CacheChange × Bool) × TimedReader Foo → Prop
  | dropped (drops : view.drops c = true) : Takes setup view s c applyFilter (.ok (none, false), s)
  | held (known : c.instanceHandle ∈ s.reader.cache.timeBasedFilter) :
      Takes setup view s c applyFilter (.ok (none, true), s.filtered view c applyFilter)
  | refused {e : DdsError} {t : TimedReader Foo}
      (advance : (s.filtered view c applyFilter).advanceInstance setup c = (.error e, t)) :
      Takes setup view s c applyFilter (.error e, t)
  | full {e : DdsError} {t t' : TimedReader Foo}
      (advance : (s.filtered view c applyFilter).advanceInstance setup c = (.ok (), t))
      (room : t.ensureCapacity c.instanceHandle = (.error e, t')) : Takes setup view s c applyFilter (.error e, t')
  | stored {removed : Option CacheChange} {t t' : TimedReader Foo}
      (advance : (s.filtered view c applyFilter).advanceInstance setup c = (.ok (), t))
      (room : t.ensureCapacity c.instanceHandle = (.ok removed, t')) :
      Takes setup view s c applyFilter (.ok (removed, false), t'.setCache (t'.reader.cache.insertChangeSorted c))

theorem takes_addChangeWithCleanup (setup : Setup Foo V) (view : DataReaderView) (s : TimedReader Foo)
    (c : CacheChange) (applyFilter : Bool) :
    Takes setup view s c applyFilter (s.addChangeWithCleanup setup view c applyFilter) := by
  obtain ⟨-, -, hheld⟩ := applyTimeBasedFilter_spec
    (s.reader.cache.addToOwnerCandidateIfNew c.instanceHandle (c.ownershipStrength.getD 0) c.writerGuid) view c
    applyFilter
  unfold addChangeWithCleanup
  by_cases hdrops : view.drops c = true
  · rw [if_pos hdrops]
    exact .dropped hdrops
  rw [if_neg hdrops]
  dsimp only
  rw [cache_setCache]
  by_cases hh : ((s.reader.cache.addToOwnerCandidateIfNew c.instanceHandle (c.ownershipStrength.getD 0)
      c.writerGuid).applyTimeBasedFilter view c applyFilter).1 = true
  · rw [if_pos hh]
    exact .held (hheld hh)
  rw [if_neg hh]
  have hstart : (s.setCache (s.reader.cache.addToOwnerCandidateIfNew c.instanceHandle (c.ownershipStrength.getD 0)
      c.writerGuid)).setCache ((s.reader.cache.addToOwnerCandidateIfNew c.instanceHandle (c.ownershipStrength.getD 0)
      c.writerGuid).applyTimeBasedFilter view c applyFilter).2 = s.filtered view c applyFilter := rfl
  rw [hstart]
  rcases hadvance : (s.filtered view c applyFilter).advanceInstance setup c with ⟨e | u, t⟩
  · exact .refused hadvance
  · dsimp only
    rcases hroom : t.ensureCapacity c.instanceHandle with ⟨e | removed, t'⟩
    · exact .full hadvance hroom
    · exact .stored hadvance hroom

theorem unusedInstance_bucketOf {h : DataReaderHistoryCache} {unused : InstanceHandle}
    (hu : h.unusedInstance = some unused) : h.containsInstance unused = true ∧ h.bucketOf unused = [] := by
  obtain ⟨b, hb, rfl, hempty⟩ := unusedInstance_spec hu
  have hfind : h.instanceMap.find? b.instanceHandle = some b := OrdList.find?_eq_some.2 ⟨hb, rfl⟩
  unfold containsInstance bucketOf
  rw [hfind]
  exact ⟨rfl, hempty⟩

/-- Room was made for `handle`: the records stay, but that of an instance without samples may be dropped. -/
structure Reclaims (handle : InstanceHandle) (s t : TimedReader Foo) : Prop where
  reader : t.reader = { s.reader with cache := t.reader.cache, instanceInfos := t.reader.instanceInfos }
  requested : t.requested = s.requested
  lookup : ∀ k, t.reader.instanceInfos.lookup k = s.reader.instanceInfos.lookup k ∨
    t.reader.instanceInfos.lookup k = none ∧ k ≠ handle ∧ s.reader.cache.bucketOf k = []

theorem Reclaims.onCache {α : Type*} {handle : InstanceHandle} {s t : TimedReader Foo} (h : Reclaims handle s t)
    (step : DataReaderHistoryCache → Except DdsError α × DataReaderHistoryCache) :
    Reclaims handle s (t.onCache step).2 where
  reader := by
    change { t.reader with cache := (step t.reader.cache).2 } = _
    rw [h.reader]
    rfl
  requested := h.requested
  lookup := h.lookup

theorem reclaims_ensureCapacity : Reclaims handle s (s.ensureCapacity handle).2 := by
  have hrefl : Reclaims handle s s := ⟨rfl, rfl, fun _ => .inl rfl⟩
  unfold ensureCapacity
  split_ifs with _ _ _ hfull
  · exact hrefl.onCache _
  · exact hrefl.onCache _
  · exact hrefl
  · unfold removeUnusedInstance
    cases hunused : s.reader.cache.unusedInstance with
    | none => exact hrefl
    | some unused =>
      obtain ⟨hcontains, hempty⟩ := unusedInstance_bucketOf hunused
      have hother : unused ≠ handle := by
        rintro rfl
        unfold isMaxInstancesExceeded at hfull
        rw [hcontains] at hfull
        exact absurd hfull (by simp)
      have hdropped : Reclaims handle s (s.removeAllInstanceResources unused) := by
        refine ⟨rfl, rfl, fun k => ?_⟩
        have hlook : (s.removeAllInstanceResources unused).reader.instanceInfos.lookup k =
            if k = unused then none else s.reader.instanceInfos.lookup k := InstanceInfos.lookup_remove _ _ _
        by_cases hk : k = unused
        · subst hk
          rw [if_pos rfl] at hlook
          exact .inr ⟨hlook, hother, hempty⟩
        · rw [if_neg hk] at hlook
          exact .inl hlook
      exact hdropped.onCache _
  · exact hrefl.onCache _

theorem Moves.reclaims {t' : TimedReader Foo} {handle : InstanceHandle} {s t : TimedReader Foo} (hm : Moves handle s t)
    (hr : Reclaims handle t t') :
    t'.reader = { s.reader with cache := t'.reader.cache, instanceInfos := t'.reader.instanceInfos } ∧
      ∀ k, k ≠ handle → s.reader.cache.bucketOf k ≠ [] →
        t'.reader.instanceInfos.lookup k = s.reader.instanceInfos.lookup k := by
  refine ⟨hr.reader.trans (by rw [hm.reader]), fun k hk hne => ?_⟩
  rcases hr.lookup k with hsame | ⟨-, -, hempty⟩
  · exact hsame.trans (hm.lookup k hk)
  · unfold bucketOf at hempty
    rw [hm.buckets.instanceMap] at hempty
    exact absurd hempty hne

/-- Storing a change touches the history, the timers and the records, but of other instances' records none with
samples. -/
theorem addChangeWithCleanup_spec (s : TimedReader Foo) (c : CacheChange) (applyFilter : Bool) :
    (s.addChangeWithCleanup setup view c applyFilter).2.reader = { s.reader with
      cache := (s.addChangeWithCleanup setup view c applyFilter).2.reader.cache
      instanceInfos := (s.addChangeWithCleanup setup view c applyFilter).2.reader.instanceInfos } ∧
    ∀ k, k ≠ c.instanceHandle → s.reader.cache.bucketOf k ≠ [] →
      (s.addChangeWithCleanup setup view c applyFilter).2.reader.instanceInfos.lookup k =
        s.reader.instanceInfos.lookup k := by
  have hmoves := moves_advanced setup view s c applyFilter
  have hroom := hmoves.reclaims (reclaims_ensureCapacity _ c.instanceHandle)
  have htakes := takes_addChangeWithCleanup setup view s c applyFilter
  generalize s.addChangeWithCleanup setup view c applyFilter = res at htakes
  cases htakes with
  | dropped => exact ⟨rfl, fun _ _ _ => rfl⟩
  | held => exact ⟨rfl, fun _ _ _ => rfl⟩
  | refused advance =>
    rw [advance] at hmoves
    exact ⟨hmoves.reader, fun k hk _ => hmoves.lookup k hk⟩
  | full advance room =>
    rw [advance, room] at hroom
    exact hroom
  | @stored removed t t' advance room =>
    rw [advance, room] at hroom
    obtain ⟨hreader, hlookup⟩ := hroom
    exact ⟨by rw [show (t'.setCache (t'.reader.cache.insertChangeSorted c)).reader =
      { t'.reader with cache := t'.reader.cache.insertChangeSorted c } from rfl, hreader], hlookup⟩

end TimedReader

end Int2Dds.Subscription
