import Int2Dds.Lib.Wire
import Int2Dds.Rtps.Common
import Int2Dds.Rtps.Time

/-!
# A change on the side of its readers

`CacheChange` has the fields the reader's and the subscriber's histories read. A change without payload stands for
the end of a set of coherent changes: `isCoherentEndMarker` for a set of one writer, `isEndCoherentSet` for a set
of all writers of a publisher.
-/

namespace Int2Dds.History
open Lib Rtps

inductive ChangeKind where
  | alive
  | aliveFiltered
  | notAliveDisposed
  | notAliveUnregistered
  | notAliveDisposedUnregistered
deriving DecidableEq

/-- The inline QoS of a sample that places it in a coherent set and in the order of its group. -/
structure PresentationInfo where
  /-- The first sequence number of the writer's coherent set. -/
  coherentSet : Option Int
  groupSeqNum : Option Int
  /-- The first group sequence number of the group's coherent set. -/
  groupCoherentSet : Option Int
deriving DecidableEq

structure CacheChange where
  kind : ChangeKind
  writerGuid : Guid
  sequenceNumber : Int
  dataPayload : Bytes
  presentationInfo : PresentationInfo
  instanceHandle : InstanceHandle
  sourceTimestamp : Option RtpsTime
  receptionTimestamp : Option RtpsTime
  ownershipStrength : Option Int
  lifespanDuration : Option Duration
deriving DecidableEq

namespace CacheChange

def new (kind : ChangeKind) (writerGuid : Guid) (instanceHandle : InstanceHandle) (sequenceNumber : Int)
    (dataPayload : Bytes) (sourceTimestamp : Option RtpsTime) : CacheChange where
  kind := kind
  writerGuid := writerGuid
  sequenceNumber := sequenceNumber
  dataPayload := dataPayload
  presentationInfo := ⟨none, none, none⟩
  instanceHandle := instanceHandle
  sourceTimestamp := sourceTimestamp
  receptionTimestamp := none
  ownershipStrength := none
  lifespanDuration := none

abbrev coherentSet (c : CacheChange) : Option Int := c.presentationInfo.coherentSet

abbrev groupSeqNum (c : CacheChange) : Option Int := c.presentationInfo.groupSeqNum

abbrev groupCoherentSet (c : CacheChange) : Option Int := c.presentationInfo.groupCoherentSet

def isCoherentEndMarker (c : CacheChange) : Bool :=
  (c.coherentSet == none || c.coherentSet == some snUnknown) && c.kind == .alive && c.dataPayload.isEmpty

def isEndCoherentSet (c : CacheChange) : Bool := c.dataPayload.isEmpty && c.groupCoherentSet.isSome

def id (c : CacheChange) : Guid × Int := (c.writerGuid, c.sequenceNumber)

end CacheChange

end Int2Dds.History
