import Int2Dds.History.DataReaderContents

/-!
# Reading and taking samples

`DataReader.selectSamples` is the one body behind every `read` and `take` of a data reader. Once the call is
admitted it takes a snapshot of the cache, walks over it, and gives every change one of four verdicts
(`DataReader.judge`): passed over, selected, unusable (no `SampleInfo` can be made for it), or the end of the call,
when a query expression meets data it cannot read. A take removes what is selected and what is unusable at once,
change by change; what comes after the walk (`DataReader.settle`, `DataReader.reevaluateAllConditions`) can still
fail.

The serialized type, its fields and the expression of a query are parameters: `Environment` and `Query`.
-/

namespace Int2Dds.History.DataReaderHistoryCache
open Rtps

variable (h : DataReaderHistoryCache)

def getChange (seqNum : Int) (writerGuid : Guid) : Option CacheChange :=
  h.getChanges.find? (fun c => decide (c.sequenceNumber = seqNum) && decide (c.writerGuid = writerGuid))

/-- By group sequence number, the samples without one last. -/
def getChangesForGroupScopedOrderedAccess : List CacheChange :=
  h.getChanges.mergeSort fun c d =>
    match c.groupSeqNum, d.groupSeqNum with
    | some m, some n => decide (m ≤ n)
    | none, some _ => false
    | _, none => true

/-- The bucket whose next sample has the smallest destination order key, the first on a tie, gives it. -/
def takeSmallest (kind : DestinationOrderKind) :
    List (List CacheChange) → Option (CacheChange × List (List CacheChange))
  | [] => none
  | [] :: buckets => (takeSmallest kind buckets).map fun (c, buckets) => (c, [] :: buckets)
  | (c :: bucket) :: buckets =>
    match takeSmallest kind buckets with
    | none => some (c, bucket :: buckets)
    | some (d, rest) =>
      if destOrderKey d kind < destOrderKey c kind then some (d, (c :: bucket) :: rest)
      else some (c, bucket :: buckets)

def mergeBuckets (kind : DestinationOrderKind) : ℕ → List (List CacheChange) → List CacheChange
  | 0, _ => []
  | total + 1, buckets =>
    match takeSmallest kind buckets with
    | none => []
    | some (c, buckets) => c :: mergeBuckets kind total buckets

/-- The merge of the buckets in the destination order. -/
def getChangesForTopicScopedOrderedAccess : List CacheChange :=
  mergeBuckets h.destinationOrderKind h.sampleCount (h.instanceMap.toList.map Bucket.changes)

end Int2Dds.History.DataReaderHistoryCache

namespace Int2Dds.Subscription
open Lib Rtps History

/-! ## States and masks -/

inductive SampleStateKind where
  | read
  | notRead
deriving DecidableEq

inductive ViewStateKind where
  | new
  | notNew
deriving DecidableEq

def SampleStateKind.bits : SampleStateKind → BitVec 32
  | .read => 0x0001
  | .notRead => 0x0002

def ViewStateKind.bits : ViewStateKind → BitVec 32
  | .new => 0x0001
  | .notNew => 0x0002

def instanceStateBits : InstanceStateKind → BitVec 32
  | .alive => 0x0001
  | .notAliveDisposed => 0x0002
  | .notAliveNoWriters => 0x0004

/-- A list of flags, of which the union counts. -/
abbrev StateMask := List (BitVec 32)

def StateMask.matches (mask : StateMask) (state : BitVec 32) : Bool :=
  mask.foldl (· ||| ·) 0 &&& state == state

/-- The generation counts are `i32` in the source; here they do not overflow. -/
structure InstanceInfo where
  key : Bytes
  viewState : ViewStateKind
  instanceState : InstanceStateKind
  disposedGenerationCount : Int
  noWritersGenerationCount : Int
  pendingNotification : Bool
deriving DecidableEq

def InstanceInfo.unknown : InstanceInfo := ⟨[], .new, .alive, 0, 0, false⟩

abbrev InstanceInfos := List (InstanceHandle × InstanceInfo)

def InstanceInfos.modify (infos : InstanceInfos) (handle : InstanceHandle) (f : InstanceInfo → InstanceInfo) :
    InstanceInfos :=
  infos.map fun (other, info) => (other, if other = handle then f info else info)

theorem InstanceInfos.lookup_modify (infos : InstanceInfos) (handle k : InstanceHandle)
    (f : InstanceInfo → InstanceInfo) :
    (infos.modify handle f).lookup k = (infos.lookup k).map (fun info => if k = handle then f info else info) := by
  induction infos with
  | nil => rfl
  | cons entry infos ih =>
    obtain ⟨other, info⟩ := entry
    have hcons : InstanceInfos.modify ((other, info) :: infos) handle f =
        (other, if other = handle then f info else info) :: InstanceInfos.modify infos handle f := rfl
    rw [hcons, List.lookup_cons, List.lookup_cons, ih]
    cases hk : k == other with
    | true =>
      obtain rfl : k = other := by simpa using hk
      rfl
    | false => rfl

structure Masks where
  sampleStates : StateMask
  viewStates : StateMask
  instanceStates : StateMask
deriving DecidableEq

def Masks.accepts (masks : Masks) (sampleState : SampleStateKind) (info : InstanceInfo) : Bool :=
  masks.sampleStates.matches sampleState.bits && masks.viewStates.matches info.viewState.bits &&
    masks.instanceStates.matches (instanceStateBits info.instanceState)

/-! ## Samples -/

structure SampleInfo where
  sourceTimestamp : RtpsTime
  sampleState : SampleStateKind
  viewState : ViewStateKind
  instanceHandle : InstanceHandle
  instanceState : InstanceStateKind
  disposedGenerationCount : Int
  noWritersGenerationCount : Int
  absoluteGenerationRank : Int
  sampleRank : Int
  generationRank : Int
  publicationHandle : InstanceHandle
  validData : Bool
deriving DecidableEq

def instanceHandleFromGuid (guid : Guid) : InstanceHandle := ⟨guid.guidPrefix ++ guid.entityId, true⟩

/-- An element of the result. A sample without change only reports the state of its instance. -/
structure Sample where
  change : Option CacheChange
  info : SampleInfo
deriving DecidableEq

def hasValidData : ChangeKind → Bool
  | .alive | .aliveFiltered => true
  | .notAliveDisposed | .notAliveUnregistered | .notAliveDisposedUnregistered => false

def sampleInfoWithInfos (change : CacheChange) (instanceHandle : InstanceHandle) (sampleState : SampleStateKind)
    (infos : InstanceInfos) : Except DdsError SampleInfo :=
  match infos.lookup instanceHandle with
  | none => .error (.error "Instance not found")
  | some info =>
    match change.sourceTimestamp with
    | none => .error (.error "CacheChange's source timestamp is not properly initialized")
    | some sourceTimestamp => .ok {
        sourceTimestamp
        sampleState
        viewState := info.viewState
        instanceHandle
        instanceState := info.instanceState
        disposedGenerationCount := info.disposedGenerationCount
        noWritersGenerationCount := info.noWritersGenerationCount
        absoluteGenerationRank := 0
        sampleRank := 0
        generationRank := 0
        publicationHandle := instanceHandleFromGuid change.writerGuid
        validData := hasValidData change.kind }

/-- The first sample has the highest rank. -/
def updateAllSampleRanks (samples : List Sample) : List Sample :=
  samples.mapIdx fun i sample =>
    { sample with info := { sample.info with sampleRank := samples.length - 1 - i } }

/-! ## The reader -/

/-- The expression of a `QueryCondition` with its parameters. -/
structure Query (Foo : Type*) where
  evaluate : Foo → Except DdsError Bool
  orderByFields : Option (List String)

structure ReadCondition (Foo : Type*) where
  masks : Masks
  query : Option (Query Foo)
  triggerValue : Bool

/-- What a call asks of its surroundings: the clock, the lifespan settings, the type support. -/
structure Environment (Foo V : Type*) where
  view : DataReaderView
  now : RtpsTime
  deserialize : Bytes → Except DdsError Foo
  getFieldValue : Foo → String → Except DdsError V
  compareForOrdering : V → V → Ordering

inductive AccessScopeKind where
  | instanceScope
  | topicScope
  | groupScope
deriving DecidableEq

structure Subscriber where
  accessScope : AccessScopeKind
  orderedAccess : Bool
  /-- The calling thread runs `on_data_on_readers` of this subscriber. -/
  isInsideOnDataOnReaders : Bool
  accessDepth : ℕ
  /-- The participant is still there. -/
  hasParticipant : Bool

namespace Subscriber

variable (sub : Subscriber)

def isGroupAccessBlockOpen : Bool :=
  decide (sub.accessScope ≠ .groupScope) || sub.isInsideOnDataOnReaders || decide (0 < sub.accessDepth)

def presentationGroupOrdered : Bool := sub.orderedAccess && decide (sub.accessScope = .groupScope)

def presentationTopicOrdered : Bool := sub.orderedAccess && decide (sub.accessScope = .topicScope)

def isGroupOrderEnforced : Bool := sub.presentationGroupOrdered && !sub.isInsideOnDataOnReaders

end Subscriber

structure DataReader (Foo : Type*) where
  /-- The lifecycle lets an operation begin. -/
  isAlive : Bool
  enabled : Bool
  subscriber : Option Subscriber
  cache : DataReaderHistoryCache
  /-- The changes of the RTPS reader's cache, while there is an RTPS reader. -/
  rtpsChanges : Option (List CacheChange)
  instanceInfos : InstanceInfos
  readSamples : List (Guid × Int)
  readConditions : List (ReadCondition Foo)

/-- An enabled reader that has received nothing. -/
def DataReader.created {Foo : Type*} (cache : DataReaderHistoryCache) (readConditions : List (ReadCondition Foo)) :
    DataReader Foo where
  isAlive := true
  enabled := true
  subscriber := some ⟨.instanceScope, false, false, 0, true⟩
  cache
  rtpsChanges := some []
  instanceInfos := []
  readSamples := []
  readConditions

structure Request (Foo : Type*) where
  maxSamples : Int
  handle : InstanceHandle
  directSampleStates : Option StateMask
  directViewStates : Option StateMask
  directInstanceStates : Option StateMask
  condition : Option (ReadCondition Foo)
  singleInstance : Bool
  exact : Bool
  take : Bool

structure Selection (Foo : Type*) where
  handle : InstanceHandle
  exact : Bool
  masks : Masks
  query : Option (Query Foo)
  infos : InstanceInfos
  changes : List CacheChange
  limit : Int

inductive Verdict where
  | skipped
  | failed (e : DdsError)
  | unusable
  | selected (info : SampleInfo)
deriving DecidableEq

namespace DataReader

variable {Foo V : Type*}

/-! ### The cache -/

def removeChange (s : DataReader Foo) (change : CacheChange) : Except DdsError Unit × DataReader Foo :=
  let s := { s with cache := s.cache.removeChange change }
  match s.rtpsChanges with
  | none => (.error (.error "RTPS Reader is not initialized"), s)
  | some changes => (.ok (), { s with rtpsChanges := some (changes.eraseP (fun d => decide (d.id = change.id))) })

variable (env : Environment Foo V) (s : DataReader Foo) (writerGuid : Guid) (req : Request Foo) (sel : Selection Foo)
  (seqNum : Int)

/-- The samples in the order of the presentation QoS, after those that have expired are gone. -/
def getAvailableChanges : List CacheChange × DataReader Foo :=
  let s := { s with cache := s.cache.purgeExpiredOnRead env.view env.now }
  if s.subscriber.any Subscriber.presentationGroupOrdered then (s.cache.getChangesForGroupScopedOrderedAccess, s)
  else if s.subscriber.any Subscriber.presentationTopicOrdered then
    (s.cache.getChangesForTopicScopedOrderedAccess, s)
  else (s.cache.getChanges, s)

def isSampleRead : Bool := s.readSamples.contains (writerGuid, seqNum)

/-- A sample that is no longer in the cache counts as read. -/
def getSampleState : SampleStateKind :=
  if s.isSampleRead writerGuid seqNum then .read
  else if (s.cache.getChange seqNum writerGuid).isSome then .notRead
  else .read

def markSampleAsRead : DataReader Foo := { s with readSamples := s.readSamples.insert (writerGuid, seqNum) }

/-- The records below the lowest number its writer has in the snapshot are dropped. -/
def pruneReadSamplesToCache (changes : List CacheChange) : DataReader Foo :=
  { s with readSamples := s.readSamples.filter fun (writerGuid, seqNum) =>
      changes.any fun c => decide (c.writerGuid = writerGuid) && decide (c.sequenceNumber ≤ seqNum) }

def markInstanceAsViewed (handle : InstanceHandle) : DataReader Foo :=
  { s with instanceInfos := s.instanceInfos.modify handle (fun info => { info with viewState := .notNew }) }

def clearPendingNotification (handle : InstanceHandle) : DataReader Foo :=
  { s with instanceInfos := s.instanceInfos.modify handle (fun info => { info with pendingNotification := false }) }

/-! ### Before the walk -/

/-- The checks that need nothing of the cache. The answer: only one sample may be handed out. -/
def checkCall : Except DdsError Bool :=
  if !s.isAlive then .error .alreadyDeleted
  else if !s.enabled then .error .notEnabled
  else if s.rtpsChanges.isNone then .error (.error "RTPS Reader is not initialized")
  else if s.subscriber.any (fun sub => !sub.isGroupAccessBlockOpen) then .error .preconditionNotMet
  else if req.maxSamples = 0 then .error .badParameter
  else .ok (s.subscriber.any Subscriber.isGroupOrderEnforced)

/-- The least handle above `previous` with a sample or a pending notification. -/
def findNextInstanceHandle (previous : InstanceHandle) : InstanceHandle × DataReader Foo :=
  let (changes, s) := s.getAvailableChanges env
  let pending := (s.instanceInfos.filter (fun entry => entry.2.pendingNotification)).map Prod.fst
  let handles := (changes.map CacheChange.instanceHandle ++ pending).mergeSort (fun a b => decide (a ≤ b))
  if previous.isNil then (handles.head?.getD .nil, s)
  else ((handles.find? (fun handle => decide (previous < handle))).getD .nil, s)

def resolveInstance : Except DdsError (InstanceHandle × Bool) × DataReader Foo :=
  if req.singleInstance && !req.exact then
    let (next, s) := s.findNextInstanceHandle env req.handle
    if next.isNil then (.error .noData, s) else (.ok (next, true), s)
  else if req.exact && req.handle.isNil then (.error .badParameter, s)
  else (.ok (req.handle, req.exact), s)

/-- The read status is also cleared at the subscriber and at its participant. -/
def setReadCommunicationStatus : Except DdsError Unit :=
  match s.subscriber with
  | none => .error (.error "Subscriber reference is invalid or expired")
  | some sub => if sub.hasParticipant then .ok () else .error (.error "Participant reference is invalid or expired")

def fieldValue (field : String) (change : CacheChange) : Except DdsError V :=
  (sampleInfoWithInfos change change.instanceHandle .notRead s.instanceInfos).bind fun info =>
    if info.validData then
      (env.deserialize change.dataPayload).bind fun data => env.getFieldValue data field
    else .error .noData

/-- A field that one of the two samples lacks is passed over. -/
def compareByOrderFields (env : Environment Foo V) (s : DataReader Foo) (a b : CacheChange) :
    List String → Ordering
  | [] => compare a.sequenceNumber b.sequenceNumber
  | field :: fields =>
    match s.fieldValue env field a, s.fieldValue env field b with
    | .ok v, .ok w =>
      match env.compareForOrdering v w with
      | .eq => s.compareByOrderFields env a b fields
      | other => other
    | _, _ => s.compareByOrderFields env a b fields

def sortChangesByOrderFields (fields : List String) (changes : List CacheChange) : List CacheChange :=
  changes.mergeSort fun a b => decide (s.compareByOrderFields env a b fields ≠ .gt)

def masksOf : Option Masks :=
  match req.condition with
  | some condition => some condition.masks
  | none =>
    match req.directSampleStates, req.directViewStates, req.directInstanceStates with
    | some sampleStates, some viewStates, some instanceStates => some ⟨sampleStates, viewStates, instanceStates⟩
    | _, _, _ => none

def limitOf (isLimitedToOneSample : Bool) : Int :=
  if isLimitedToOneSample then 1 else if req.maxSamples = -1 then 2 ^ 31 - 1 else req.maxSamples

def prepare : Except DdsError (Selection Foo) × DataReader Foo :=
  match s.checkCall req with
  | .error e => (.error e, s)
  | .ok isLimitedToOneSample =>
    match s.resolveInstance env req with
    | (.error e, s) => (.error e, s)
    | (.ok (handle, exact), s) =>
      match s.setReadCommunicationStatus with
      | .error e => (.error e, s)
      | .ok () =>
        let (changes, s) := s.getAvailableChanges env
        match masksOf req with
        | none => (.error .badParameter, s)
        | some masks =>
          let query := req.condition.bind ReadCondition.query
          let changes := match query.bind Query.orderByFields with
            | some fields => s.sortChangesByOrderFields env fields changes
            | none => changes
          (.ok { handle, exact, masks, query, changes
                 infos := s.instanceInfos
                 limit := limitOf req isLimitedToOneSample }, s)

/-! ### The walk -/

def judgeQuery (query : Query Foo) (change : CacheChange) (info : SampleInfo) : Verdict :=
  if !info.validData then .skipped
  else
    match (env.deserialize change.dataPayload).bind query.evaluate with
    | .error e => .failed e
    | .ok false => .skipped
    | .ok true => .selected info

def judge (change : CacheChange) : Verdict :=
  if sel.exact && decide (change.instanceHandle ≠ sel.handle) then .skipped
  else
    let sampleState := s.getSampleState change.writerGuid change.sequenceNumber
    if !sel.masks.accepts sampleState ((sel.infos.lookup change.instanceHandle).getD .unknown) then .skipped
    else
      match sampleInfoWithInfos change change.instanceHandle sampleState sel.infos with
      | .error _ => .unusable
      | .ok info =>
        match sel.query with
        | none => .selected info
        | some query => judgeQuery env query change info

/-- The walk: the samples, what is left of the limit, and the reader. -/
def walk (env : Environment Foo V) (sel : Selection Foo) (take : Bool) :
    DataReader Foo → Int → List CacheChange → Except DdsError (List Sample × Int) × DataReader Foo
  | s, remaining, [] => (.ok ([], remaining), s)
  | s, remaining, change :: changes =>
    if remaining ≤ 0 then (.ok ([], remaining), s)
    else
      match s.judge env sel change with
      | .skipped => walk env sel take s remaining changes
      | .failed e => (.error e, s)
      | .unusable =>
        match if take then s.removeChange change else (.ok (), s) with
        | (.error e, s) => (.error e, s)
        | (.ok (), s) => walk env sel take s remaining changes
      | .selected info =>
        match if take then s.removeChange change
          else (.ok (), s.markSampleAsRead change.writerGuid change.sequenceNumber) with
        | (.error e, s) => (.error e, s)
        | (.ok (), s) =>
          match walk env sel take s (remaining - 1) changes with
          | (.error e, s) => (.error e, s)
          | (.ok (samples, remaining), s) => (.ok (⟨some change, info⟩ :: samples, remaining), s)

/-! ### After the walk -/

/-- A pending notification that passes the masks and the instance of the call. -/
def isDrained (entry : InstanceHandle × InstanceInfo) : Bool :=
  entry.2.pendingNotification && (!sel.exact || decide (sel.handle = entry.1)) &&
    sel.masks.viewStates.matches entry.2.viewState.bits &&
    sel.masks.instanceStates.matches (instanceStateBits entry.2.instanceState) &&
    decide (entry.2.instanceState = .notAliveNoWriters)

def syntheticSample (now : RtpsTime) (entry : InstanceHandle × InstanceInfo) : Sample where
  change := none
  info := {
    sourceTimestamp := now
    sampleState := .notRead
    viewState := entry.2.viewState
    instanceHandle := entry.1
    instanceState := entry.2.instanceState
    disposedGenerationCount := entry.2.disposedGenerationCount
    noWritersGenerationCount := entry.2.noWritersGenerationCount
    absoluteGenerationRank := 0
    sampleRank := 0
    generationRank := 0
    publicationHandle := .nil
    validData := false }

def drainPendingNotifications (max : Int) : List Sample × DataReader Foo :=
  if max ≤ 0 || !sel.masks.sampleStates.matches SampleStateKind.notRead.bits then ([], s)
  else
    let drained := (sel.infos.filter (isDrained sel)).take max.toNat
    (drained.map (syntheticSample env.now), (drained.map Prod.fst).foldl clearPendingNotification s)

/-- A condition that a sample of the snapshot makes true. -/
def matchingSample (env : Environment Foo V) (s : DataReader Foo) (condition : ReadCondition Foo) :
    List CacheChange → Except DdsError Bool
  | [] => .ok false
  | change :: changes =>
    let sampleState := if s.isSampleRead change.writerGuid change.sequenceNumber then .read else .notRead
    if !condition.masks.accepts sampleState ((s.instanceInfos.lookup change.instanceHandle).getD .unknown) then
      s.matchingSample env condition changes
    else
      match condition.query with
      | none => .ok true
      | some query =>
        match sampleInfoWithInfos change change.instanceHandle sampleState s.instanceInfos with
        | .error e => .error e
        | .ok info =>
          if !info.validData then s.matchingSample env condition changes
          else
            match env.deserialize change.dataPayload with
            | .error e => .error e
            | .ok data =>
              -- an expression that fails here counts as false
              match query.evaluate data with
              | .ok true => .ok true
              | _ => s.matchingSample env condition changes

def hasMatchingSamplesForCondition (condition : ReadCondition Foo) : Except DdsError Bool × DataReader Foo :=
  let (changes, s) := s.getAvailableChanges env
  (s.matchingSample env condition changes, s)

/-- The conditions from the front on, until one cannot be evaluated. -/
def reevaluate (env : Environment Foo V) :
    DataReader Foo → List (ReadCondition Foo) → Except DdsError Unit × List (ReadCondition Foo) × DataReader Foo
  | s, [] => (.ok (), [], s)
  | s, condition :: conditions =>
    match s.hasMatchingSamplesForCondition env condition with
    | (.error e, s) => (.error e, condition :: conditions, s)
    | (.ok hasMatching, s) =>
      let (result, conditions, s) := reevaluate env s conditions
      (result, { condition with triggerValue := hasMatching } :: conditions, s)

def reevaluateAllConditions : Except DdsError Unit × DataReader Foo :=
  let (result, readConditions, s) := reevaluate env s s.readConditions
  (result, { s with readConditions })

/-- The steps after the walk that cannot fail: the synthetic samples, the view states, the read records. -/
def settle (samples : List Sample) (remaining : Int) : List Sample × DataReader Foo :=
  let (synthetic, s) := s.drainPendingNotifications env sel remaining
  let samples := samples ++ synthetic
  let s := samples.foldl (fun s sample => s.markInstanceAsViewed sample.info.instanceHandle) s
  (samples, s.pruneReadSamplesToCache sel.changes)

def conclude (samples : List Sample) (remaining : Int) : Except DdsError (List Sample) × DataReader Foo :=
  let (samples, s) := s.settle env sel samples remaining
  match s.reevaluateAllConditions env with
  | (.error e, s) => (.error e, s)
  | (.ok (), s) => if samples.isEmpty then (.error .noData, s) else (.ok (updateAllSampleRanks samples), s)

def selectSamples : Except DdsError (List Sample) × DataReader Foo :=
  match s.prepare env req with
  | (.error e, s) => (.error e, s)
  | (.ok sel, s) =>
    match walk env sel req.take s sel.limit sel.changes with
    | (.error e, s) => (.error e, s)
    | (.ok (samples, remaining), s) => s.conclude env sel samples remaining

end DataReader

end Int2Dds.Subscription
