import Int2Dds.History.CoherentBuffer
import Int2Dds.History.DataReaderHistory

/-!
# The two histories of a reader

A change that arrives at a user reader is stored twice: in the RTPS history `changes` and in the DCPS history
`dataReaderCache`. `commitChangesToDataReaderCache` stores what an arrival lets through, set by set; a set that
cannot be stored in full is dropped. On an error what was stored before it stays.
-/

namespace Int2Dds.History
open Lib Rtps

structure ReaderHistoryCache where
  changes : List CacheChange
  buffer : CoherentBuffer
  /-- The cache of the DataReader, which the source reaches through a pointer. -/
  dataReaderCache : DataReaderHistoryCache

def isSameCoherentSet (previous next : CacheChange × Bool) : Bool :=
  match previous.1.groupCoherentSet, next.1.groupCoherentSet with
  | some previousSet, some nextSet => previousSet == nextSet
  | none, none =>
    previous.1.coherentSet.isSome && previous.1.coherentSet == next.1.coherentSet &&
      previous.1.writerGuid == next.1.writerGuid
  | _, _ => false

namespace ReaderHistoryCache

def new (limit : Nat) (dataReaderCache : DataReaderHistoryCache) : ReaderHistoryCache :=
  ⟨[], CoherentBuffer.new limit, dataReaderCache⟩

variable (h : ReaderHistoryCache) (r : DataReaderView)

/-- Takes out the first change with the name of `c`. -/
def removeChange (c : CacheChange) : ReaderHistoryCache :=
  { h with changes := h.changes.eraseP (fun d => decide (d.id = c.id)) }

def removeChangeByIdSet (ids : List (Guid × Int)) : ReaderHistoryCache :=
  { h with changes := h.changes.filter (fun d => !ids.contains d.id) }

/-- One change into both histories. `some` in the result when it is made available. -/
def commitChange (change : CacheChange) (applyFilter : Bool) :
    Except DdsError (Option CacheChange) × ReaderHistoryCache :=
  match r.addInfoToCacheChange change with
  | .error e => (.error e, h)
  | .ok shared =>
    match h.dataReaderCache.addChangeWithCleanup r shared applyFilter with
    | (.error e, cache) => (.error e, { h with dataReaderCache := cache })
    | (.ok (_, true), cache) => (.ok none, { h with dataReaderCache := cache })
    | (.ok (removed, false), cache) =>
      let h := { h with dataReaderCache := cache, changes := h.changes ++ [shared] }
      (.ok (some shared), removed.elim h h.removeChange)

/-- Changes one after another, up to the first error. -/
def commitAll (r : DataReaderView) : List (CacheChange × Bool) → ReaderHistoryCache →
    Except DdsError (List CacheChange) × ReaderHistoryCache
  | [], h => (.ok [], h)
  | (change, applyFilter) :: rest, h =>
    match h.commitChange r change applyFilter with
    | (.error e, h) => (.error e, h)
    | (.ok stored, h) =>
      let (result, h) := commitAll r rest h
      (result.map (stored.toList ++ ·), h)

/-- The sets one after another; a set of two or more that does not fit is left out. -/
def commitSets (r : DataReaderView) : List (List (CacheChange × Bool)) → ReaderHistoryCache →
    Except DdsError (List CacheChange) × ReaderHistoryCache
  | [], h => (.ok [], h)
  | set :: rest, h =>
    if 1 < set.length && !h.dataReaderCache.ensureCapacityDry (set.map (fun a => a.1.instanceHandle)) then
      commitSets r rest h
    else
      match commitAll r set h with
      | (.error e, h) => (.error e, h)
      | (.ok stored, h) =>
        let (result, h) := commitSets r rest h
        (result.map (stored ++ ·), h)

/-- Under coherent access a batch is stored set by set, otherwise change by change. -/
def commitChangesToDataReaderCache (changes : List (CacheChange × Bool)) :
    Except DdsError (List CacheChange) × ReaderHistoryCache :=
  commitSets r (if r.isSubscriberCoherent then changes.splitBy isSameCoherentSet else changes.map ([·])) h

/-- What one arrival does: the changes made available, or the error that ended the call. -/
def addChange (change : CacheChange) (applyFilter : Bool) : Except DdsError (List CacheChange) × ReaderHistoryCache :=
  let (changes, buffer) := h.buffer.prepareChangesToCommit r.isSubscriberCoherent change applyFilter
  { h with buffer }.commitChangesToDataReaderCache r changes

end ReaderHistoryCache

end Int2Dds.History
