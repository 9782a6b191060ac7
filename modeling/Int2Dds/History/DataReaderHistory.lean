import Int2Dds.History.CacheChange
import Int2Dds.Lib.OrdList
import Int2Dds.Writer.DataWriterHistory
import Mathlib.Data.List.AList
import Mathlib.Data.List.MinMax

/-!
# The history of a data reader

`DataReaderHistoryCache` holds the samples of a reader, one bucket for each instance, under its History, Resource
Limits, Destination Order, Ownership and Time Based Filter QoS. The samples of a bucket are of its own instance, by
a field of `Bucket`.

What the cache asks of its surroundings during a call (the keys of the type, the reader's bookkeeping of instance
states, the content filter, the QoS that can change while the reader runs, the clock) is a `DataReaderView`.
-/

namespace Int2Dds.History
open Lib Rtps
open Writer (asI32 cap saturatingMul HistoryKind ReliabilityKind)

inductive DdsError where
  | error (message : String)
  | badParameter
  | preconditionNotMet
  | outOfResources
  | notEnabled
  | alreadyDeleted
  | noData
  | illegalOperation
deriving DecidableEq

/-! ## QoS -/

inductive DestinationOrderKind where
  | byReceptionTimestamp
  | bySourceTimestamp
deriving DecidableEq

inductive OwnershipKind where
  | shared
  | exclusive
deriving DecidableEq

inductive LifespanReferenceKind where
  | bySourceTimestamp
  | byReceptionTimestamp
deriving DecidableEq

inductive InstanceStateKind where
  | alive
  | notAliveDisposed
  | notAliveNoWriters
deriving DecidableEq

/-- What a reader's history asks of its surroundings during one call. -/
structure DataReaderView where
  isSubscriberCoherent : Bool
  isComputeKeyProvided : Bool
  /-- The handle from the key in the payload. -/
  computeKey : CacheChange → Except DdsError InstanceHandle
  /-- Whether the reader takes a new state of an instance. -/
  updateInstanceState : InstanceHandle → InstanceStateKind → Option CacheChange → Except DdsError Unit
  passesContentFilter : Option (CacheChange → Bool)
  minimumSeparation : Duration
  lifespanReference : LifespanReferenceKind
  /-- The clock when a change is stamped. -/
  receivedAt : CacheChange → RtpsTime
  /-- The clock when the time based filter sees a change. -/
  filteredAt : CacheChange → RtpsTime

namespace DataReaderView

/-- A reader without keys and filters, which takes every state of an instance. -/
def plain : DataReaderView where
  isSubscriberCoherent := false
  isComputeKeyProvided := false
  computeKey := fun c => .ok c.instanceHandle
  updateInstanceState := fun _ _ _ => .ok ()
  passesContentFilter := none
  minimumSeparation := ⟨0, 0⟩
  lifespanReference := .bySourceTimestamp
  receivedAt := fun _ => ⟨0, 0⟩
  filteredAt := fun _ => ⟨0, 0⟩

variable (r : DataReaderView)

def fallbackInstanceHandle (change : CacheChange) : Except DdsError InstanceHandle :=
  if !change.instanceHandle.isNil || !r.isComputeKeyProvided then .ok change.instanceHandle
  else r.computeKey change

def addInfoToCacheChange (change : CacheChange) : Except DdsError CacheChange :=
  (r.fallbackInstanceHandle change).map fun instanceHandle =>
    { change with instanceHandle, receptionTimestamp := some (r.receivedAt change) }

def drops (c : CacheChange) : Bool := r.passesContentFilter.any (fun passes => !passes c)

end DataReaderView

/-! ## Lifespan -/

def sampleExpiry (change : CacheChange) (lifespan : Duration) (reference : LifespanReferenceKind) : Option RtpsTime :=
  let base := match reference with
    | .bySourceTimestamp => change.sourceTimestamp
    | .byReceptionTimestamp => change.receptionTimestamp
  base.map (fun ts => ts.addNanos (max lifespan.asNanos 0).toNat)

/-! ## The time based filter -/

structure InstanceFilterState where
  lastDelivered : RtpsTime
  pending : Option CacheChange
  hasPendingTimer : Bool
deriving DecidableEq

abbrev TimeBasedFilter := AList (fun _ : InstanceHandle => InstanceFilterState)

namespace TimeBasedFilter

variable (f : TimeBasedFilter)

/-- Whether a sample is held back, and the new state of its instance. -/
def onAliveSample (change : CacheChange) (minSeparationNanos : Nat) (now : RtpsTime) : Bool × TimeBasedFilter :=
  let instanceHandle := change.instanceHandle
  match f.lookup instanceHandle with
  | none => (false, f.insert instanceHandle ⟨now, none, false⟩)
  | some state =>
    if state.hasPendingTimer then (true, f.insert instanceHandle { state with pending := some change })
    else if state.lastDelivered.addNanos minSeparationNanos ≤ now then
      (false, f.insert instanceHandle { state with lastDelivered := now })
    else (true, f.insert instanceHandle { state with pending := some change, hasPendingTimer := true })

def discardPending (instanceHandle : InstanceHandle) : TimeBasedFilter :=
  match f.lookup instanceHandle with
  | none => f
  | some state => f.insert instanceHandle { state with pending := none }

def removeInstance (instanceHandle : InstanceHandle) : TimeBasedFilter := f.erase instanceHandle

end TimeBasedFilter

/-! ## Owners -/

structure OwnershipInfo where
  ownershipStrength : Int
  ownerGuid : Guid
deriving DecidableEq

/-- Stronger writers first, then by name. -/
def OwnershipInfo.rank (o : OwnershipInfo) : ℤ ×ₗ ℕ ×ₗ ℕ :=
  toLex (-o.ownershipStrength, toLex (o.ownerGuid.guidPrefix.toNat, o.ownerGuid.entityId.toNat))

abbrev OwnerCandidates := AList (fun _ : InstanceHandle => OrdList OwnershipInfo.rank)

/-! ## The cache -/

structure Bucket where
  instanceHandle : InstanceHandle
  changes : List CacheChange
  own : ∀ c ∈ changes, c.instanceHandle = instanceHandle
deriving DecidableEq

abbrev InstanceMap := OrdList Bucket.instanceHandle

structure DataReaderHistoryCache where
  maxSamples : Int
  maxInstances : Int
  maxSamplesPerInstance : Int
  instanceMap : InstanceMap
  destinationOrderKind : DestinationOrderKind
  canAutoRemove : Bool
  ownershipKind : OwnershipKind
  ownerCandidates : OwnerCandidates
  timeBasedFilter : TimeBasedFilter
  seenFiniteLifespan : Bool

/-- The place of a change in the destination order. A change without timestamp comes first. -/
def destOrderKey (change : CacheChange) (kind : DestinationOrderKind) : WithBot RtpsTime ×ₗ ℤ :=
  let ts := match kind with
    | .byReceptionTimestamp => change.receptionTimestamp
    | .bySourceTimestamp => change.sourceTimestamp
  toLex (ts, change.sequenceNumber)

namespace Bucket

def empty (instanceHandle : InstanceHandle) : Bucket := ⟨instanceHandle, [], by simp⟩

def filter (b : Bucket) (p : CacheChange → Bool) : Bucket :=
  ⟨b.instanceHandle, b.changes.filter p, fun c hc => b.own c (List.mem_of_mem_filter hc)⟩

theorem instanceHandle_filter (b : Bucket) (p : CacheChange → Bool) :
    (b.filter p).instanceHandle = b.instanceHandle := rfl

/-- The list with the change put at the end, or after those that do not come later in the destination order. -/
def insertSorted (kind : DestinationOrderKind) (changes : List CacheChange) (c : CacheChange) : List CacheChange :=
  match kind with
  | .byReceptionTimestamp => changes ++ [c]
  | .bySourceTimestamp =>
    let before := fun d => decide (destOrderKey d kind ≤ destOrderKey c kind)
    changes.takeWhile before ++ c :: changes.dropWhile before

theorem insertSorted_perm (kind : DestinationOrderKind) (changes : List CacheChange) (c : CacheChange) :
    (insertSorted kind changes c).Perm (c :: changes) := by
  cases kind with
  | byReceptionTimestamp => exact List.perm_append_singleton c changes
  | bySourceTimestamp =>
    refine List.perm_middle.trans (List.Perm.cons c ?_)
    rw [List.takeWhile_append_dropWhile]

def insert (kind : DestinationOrderKind) (c : CacheChange) (b : Bucket) : Bucket :=
  if h : c.instanceHandle = b.instanceHandle then
    ⟨b.instanceHandle, insertSorted kind b.changes c, fun d hd => by
      rcases List.mem_cons.1 ((insertSorted_perm kind b.changes c).mem_iff.1 hd) with rfl | hd
      · exact h
      · exact b.own d hd⟩
  else b

theorem instanceHandle_insert (kind : DestinationOrderKind) (c : CacheChange) (b : Bucket) :
    (b.insert kind c).instanceHandle = b.instanceHandle := by
  unfold insert
  split_ifs <;> rfl

end Bucket

/-- `as usize` of an `i32`. -/
def asUsize (v : Int) : Nat := (v % 2 ^ 64).toNat

namespace DataReaderHistoryCache

def new (reliability : ReliabilityKind) (history : HistoryKind) (maxSamples maxInstances maxSamplesPerInstance : Int)
    (hasKey : Bool) (ownershipKind : OwnershipKind) (destinationOrderKind : DestinationOrderKind) :
    DataReaderHistoryCache :=
  let maxSamplesPerInstance := match history with
    | .keepLast depth => depth
    | .keepAll => cap maxSamplesPerInstance
  let maxInstances := if hasKey then cap maxInstances else 1
  { maxSamples := min (cap maxSamples) (saturatingMul maxInstances maxSamplesPerInstance)
    maxInstances
    maxSamplesPerInstance
    instanceMap := OrdList.empty
    destinationOrderKind
    canAutoRemove := history != .keepAll || reliability == .bestEffort
    ownershipKind
    ownerCandidates := ∅
    timeBasedFilter := ∅
    seenFiniteLifespan := false }

variable (h : DataReaderHistoryCache) (r : DataReaderView) (handle : InstanceHandle) (c : CacheChange)
  (writerGuid : Guid)

def getChanges : List CacheChange := h.instanceMap.toList.flatMap Bucket.changes

def bucketOf : List CacheChange := (h.instanceMap.find? handle).elim [] Bucket.changes

def insertChangeSorted : DataReaderHistoryCache :=
  { h with
    seenFiniteLifespan := h.seenFiniteLifespan || c.lifespanDuration.any (fun d => !d.isInfinite)
    instanceMap := h.instanceMap.upsert (Bucket.empty c.instanceHandle) (Bucket.insert h.destinationOrderKind c)
      (Bucket.instanceHandle_insert h.destinationOrderKind c) }

/-- Takes out, of the instance of `c`, what has the name of `c`. -/
def removeChange : DataReaderHistoryCache :=
  { h with
    instanceMap := h.instanceMap.modify c.instanceHandle (fun b => b.filter (fun d => decide (d.id ≠ c.id)))
      (fun b => b.instanceHandle_filter _) }

/-! ### Counts and limits -/

def sampleCount : Nat := h.getChanges.length

def instanceCount : Nat := h.instanceMap.toList.length

def containsInstance : Bool := (h.instanceMap.find? handle).isSome

def sampleCountOfInstance : Nat := (h.bucketOf handle).length

def isMaxInstancesExceeded : Bool := !h.containsInstance handle && decide (h.maxInstances ≤ asI32 h.instanceCount)

def isMaxSamplesExceeded : Bool := decide (h.maxSamples ≤ asI32 h.sampleCount)

def isMaxSamplesPerInstanceExceeded : Bool :=
  if handle.isNil then h.isMaxSamplesExceeded
  else h.containsInstance handle && decide (h.maxSamplesPerInstance ≤ asI32 (h.sampleCountOfInstance handle))

/-- The dry run for a batch, given the handle of each change: the source counts them by handle. -/
def ensureCapacityDry (handles : List InstanceHandle) : Bool :=
  handles.all (fun handle => handle.isNil ||
    decide ((if h.canAutoRemove then 0 else h.sampleCountOfInstance handle) + handles.count handle ≤
      asUsize h.maxSamplesPerInstance)) &&
  decide (h.instanceCount + (handles.dedup.filter (fun handle => !handle.isNil && !h.containsInstance handle)).length ≤
    asUsize h.maxInstances) &&
  decide ((if h.canAutoRemove then 0 else h.sampleCount) + handles.length ≤ asUsize h.maxSamples)

/-! ### Owners -/

def getOwnerOfInstance : Option Guid :=
  (h.ownerCandidates.lookup handle).bind fun candidates => candidates.first?.map OwnershipInfo.ownerGuid

def isWriterOwnerOfInstance (handle : InstanceHandle) : Bool :=
  h.ownershipKind == .shared || h.getOwnerOfInstance handle == some writerGuid

def addToOwnerCandidateIfNew (ownershipStrength : Int) (ownerGuid : Guid) : DataReaderHistoryCache :=
  let entry := (h.ownerCandidates.lookup handle).getD OrdList.empty
  let entry :=
    if entry.toList.any (fun info => info.ownerGuid == ownerGuid) then entry
    else entry.insertNew ⟨ownershipStrength, ownerGuid⟩
  { h with ownerCandidates := h.ownerCandidates.insert handle entry }

/-- The writer no longer writes the instance; without any writer left the instance is not alive. -/
def revokeWriterOwnership (handle : InstanceHandle) : Except DdsError Unit × DataReaderHistoryCache :=
  match h.ownerCandidates.lookup handle with
  | none => (.ok (), h)
  | some candidates =>
    let candidates := candidates.filter (fun info => info.ownerGuid != writerGuid)
    let h := { h with ownerCandidates := h.ownerCandidates.insert handle candidates }
    (if candidates.toList.isEmpty then r.updateInstanceState handle .notAliveNoWriters none else .ok (), h)

/-- Refuses the change of a writer that is not the owner, and tells the reader the new state of the instance. -/
def updateInstanceState (h : DataReaderHistoryCache) (r : DataReaderView) (c : CacheChange) :
    Except DdsError Unit × DataReaderHistoryCache :=
  let taken : Except DdsError Unit := match c.kind with
    | .notAliveUnregistered => .ok ()
    | kind =>
      if h.isWriterOwnerOfInstance c.writerGuid c.instanceHandle then
        let newState := match kind with
          | .alive | .aliveFiltered => InstanceStateKind.alive
          | _ => InstanceStateKind.notAliveDisposed
        r.updateInstanceState c.instanceHandle newState (some c)
      else .error .illegalOperation
  match taken with
  | .error e => (.error e, h)
  | .ok () => match c.kind with
    | .notAliveUnregistered | .notAliveDisposedUnregistered =>
      h.revokeWriterOwnership r c.writerGuid c.instanceHandle
    | _ => (.ok (), h)

/-! ### Room for a change -/

/-- Drops an instance: its bucket and what the time based filter keeps of it. -/
def removeAllInstanceResources : DataReaderHistoryCache :=
  { h with
    instanceMap := h.instanceMap.filter (fun b => decide (b.instanceHandle ≠ handle))
    timeBasedFilter := h.timeBasedFilter.removeInstance handle }

/-- The first instance without samples and without writers. -/
def unusedInstance : Option InstanceHandle :=
  (h.instanceMap.toList.find? fun b => b.changes.isEmpty && (h.getOwnerOfInstance b.instanceHandle).isNone).map
    Bucket.instanceHandle

def removeUnusedInstance : Bool × DataReaderHistoryCache :=
  match h.unusedInstance with
  | some handle => (true, h.removeAllInstanceResources handle)
  | none => (false, h)

-- the order of the integers that computes
local instance : LinearOrder ℤ := Int.instLinearOrder

local instance : Preorder ℤ := Int.instLinearOrder.toPreorder

def oldestChangeOfAll : Option CacheChange :=
  (h.instanceMap.toList.filterMap (fun b => b.changes.head?)).argmin (fun c => destOrderKey c h.destinationOrderKind)

/-- Takes out the change that was found to be the oldest, or says that there is none. -/
def removeOldest (oldest : Option CacheChange) (message : String) :
    Except DdsError (Option CacheChange) × DataReaderHistoryCache :=
  match oldest with
  | some c => (.ok (some c), h.removeChange c)
  | none => (.error (.error message), h)

def tryRemoveOldestChangeOfAll : Except DdsError (Option CacheChange) × DataReaderHistoryCache :=
  h.removeOldest h.oldestChangeOfAll "There is no change to remove, this should never happen"

def tryRemoveOldestChangeOfInstance : Except DdsError (Option CacheChange) × DataReaderHistoryCache :=
  h.removeOldest (h.bucketOf handle).head? "There is no change to remove in this instance, this should never happen"

def ensureSampleCapacity : Except DdsError (Option CacheChange) × DataReaderHistoryCache :=
  if h.isMaxSamplesExceeded then
    if h.canAutoRemove then h.tryRemoveOldestChangeOfAll else (.error .outOfResources, h)
  else (.ok none, h)

def ensureCapacity : Except DdsError (Option CacheChange) × DataReaderHistoryCache :=
  if handle.isNil then h.ensureSampleCapacity
  else if h.isMaxSamplesPerInstanceExceeded handle then
    if h.canAutoRemove then h.tryRemoveOldestChangeOfInstance handle else (.error .outOfResources, h)
  else if h.isMaxInstancesExceeded handle then
    match h.removeUnusedInstance with
    | (false, h) => (.error .outOfResources, h)
    | (true, h) => h.ensureSampleCapacity
  else h.ensureSampleCapacity

/-! ### Storage -/

/-- The time based filter on a change: whether it is held back. -/
def applyTimeBasedFilter (applyFilter : Bool) : Bool × DataReaderHistoryCache :=
  if applyFilter && !r.minimumSeparation.isZero then
    if c.kind == .alive then
      if h.isWriterOwnerOfInstance c.writerGuid c.instanceHandle then
        let (held, filter) :=
          h.timeBasedFilter.onAliveSample c (max r.minimumSeparation.asNanos 0).toNat (r.filteredAt c)
        (held, { h with timeBasedFilter := filter })
      else (false, h)
    else (false, { h with timeBasedFilter := h.timeBasedFilter.discardPending c.instanceHandle })
  else (false, h)

/-- Stores a change, unless a filter drops or holds it. The result: what had to leave, and whether the time based
filter held it. -/
def addChangeWithCleanup (applyFilter : Bool) : Except DdsError (Option CacheChange × Bool) × DataReaderHistoryCache :=
  if r.drops c then (.ok (none, false), h)
  else
    let h := h.addToOwnerCandidateIfNew c.instanceHandle (c.ownershipStrength.getD 0) c.writerGuid
    match h.applyTimeBasedFilter r c applyFilter with
    | (true, h) => (.ok (none, true), h)
    | (false, h) => match h.updateInstanceState r c with
      | (.error e, h) => (.error e, h)
      | (.ok (), h) => match h.ensureCapacity c.instanceHandle with
        | (.error e, h) => (.error e, h)
        | (.ok removed, h) => (.ok (removed, false), h.insertChangeSorted c)

/-! ### Expiry -/

/-- The expired samples of one writer in a bucket. In a bucket in the order of expiry the walk ends at the first that
has not. -/
def expiredOfBucket (h : DataReaderHistoryCache) (r : DataReaderView) (writerGuid : Guid) (lifespan : Duration)
    (now : RtpsTime) : List CacheChange → List CacheChange
  | [] => []
  | c :: changes =>
    if c.writerGuid != writerGuid then h.expiredOfBucket r writerGuid lifespan now changes
    else match sampleExpiry c lifespan r.lifespanReference with
      | none => h.expiredOfBucket r writerGuid lifespan now changes
      | some expiry =>
        if expiry ≤ now then c :: h.expiredOfBucket r writerGuid lifespan now changes
        else match h.destinationOrderKind, r.lifespanReference with
          | .bySourceTimestamp, .bySourceTimestamp => []
          | .byReceptionTimestamp, .byReceptionTimestamp => []
          | _, _ => h.expiredOfBucket r writerGuid lifespan now changes

def collectLifespanExpired (lifespan : Duration) (now : RtpsTime) : List CacheChange :=
  h.instanceMap.toList.flatMap fun b => h.expiredOfBucket r writerGuid lifespan now b.changes

def removeChanges (cs : List CacheChange) : DataReaderHistoryCache := cs.foldl removeChange h

def removeLifespanExpiredChanges (lifespan : Duration) (now : RtpsTime) : DataReaderHistoryCache :=
  h.removeChanges (h.collectLifespanExpired r writerGuid lifespan now)

def isExpired (now : RtpsTime) (c : CacheChange) : Bool :=
  c.lifespanDuration.any fun lifespan =>
    !lifespan.isInfinite && (sampleExpiry c lifespan r.lifespanReference).any (fun expiry => decide (expiry ≤ now))

def purgeExpiredOnRead (now : RtpsTime) : DataReaderHistoryCache :=
  if h.seenFiniteLifespan then h.removeChanges (h.getChanges.filter (isExpired r now)) else h

end DataReaderHistoryCache

end Int2Dds.History
