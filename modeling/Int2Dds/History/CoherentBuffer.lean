import Int2Dds.History.CacheChange
import Mathlib.Data.List.AList

/-!
# The open coherent sets of a reader

A reader with coherent access holds back the members of a set of coherent changes until the set ends.
`CoherentBuffer` is the part of `ReaderHistoryCache` that does so, and `prepareChangesToCommit` decides what one
arrival lets through. A set ends with its marker, or, when the marker was lost, with the first later change of the
writer, which then stands for a marker right before it.
-/

namespace Int2Dds.History
open Lib Rtps

/-- A writer's open coherent set, named by the sequence number of its first member. -/
structure PendingCoherentSet where
  setStartSn : Int
  changes : List CacheChange
deriving DecidableEq

inductive CoherentSetCloseResult where
  | noOpenSet
  | incomplete
  | complete (members : List CacheChange)
deriving DecidableEq

def CoherentSetCloseResult.intoCompleteMembers : CoherentSetCloseResult → List CacheChange
  | complete members => members
  | noOpenSet => []
  | incomplete => []

/-- The members have, one after another, the sequence numbers from the start of the set to `endSn`. -/
def PendingCoherentSet.isComplete (set : PendingCoherentSet) (endSn : Int) : Bool :=
  (List.range (endSn - set.setStartSn).toNat).all fun idx =>
    (set.changes[idx]?).map CacheChange.sequenceNumber == some (set.setStartSn + idx)

/-- The fields of a reader's history that hold open sets. -/
structure CoherentBuffer where
  coherentPending : AList (fun _ : Guid => PendingCoherentSet)
  presentationBufferLimit : Nat

namespace CoherentBuffer

def new (limit : Nat) : CoherentBuffer := ⟨∅, limit⟩

variable (b : CoherentBuffer) (writerGuid : Guid)

def coherentPendingChangeCount : Nat := (b.coherentPending.entries.map fun e => e.2.changes.length).sum

/-- Past the limit the set keeps its entry without members, so that it ends incomplete. -/
def bufferCoherentMember (setId : Int) (change : CacheChange) : CoherentBuffer :=
  let pending := (b.coherentPending.lookup writerGuid).getD ⟨setId, []⟩
  let changes := if b.presentationBufferLimit ≤ b.coherentPendingChangeCount then [] else pending.changes ++ [change]
  { b with coherentPending := b.coherentPending.insert writerGuid { pending with changes } }

def closeAndTakeCoherentSet (endSn : Int) : CoherentSetCloseResult × CoherentBuffer :=
  match b.coherentPending.lookup writerGuid with
  | none => (.noOpenSet, b)
  | some pending =>
    (if pending.isComplete endSn then .complete pending.changes else .incomplete,
      { b with coherentPending := b.coherentPending.erase writerGuid })

/-- The members of a set an arrival ends, to be stored without the time based filter. -/
def closed (endSn : Int) : List (CacheChange × Bool) × CoherentBuffer :=
  let (result, b) := b.closeAndTakeCoherentSet writerGuid endSn
  (result.intoCompleteMembers.map (·, false), b)

/-- What one arrival lets through, with whether the time based filter applies to it. -/
def prepareChangesToCommit (isCoherentAccess : Bool) (change : CacheChange) (applyFilter : Bool) :
    List (CacheChange × Bool) × CoherentBuffer :=
  let writerGuid := change.writerGuid
  if change.isCoherentEndMarker then b.closed writerGuid change.sequenceNumber
  else if change.isEndCoherentSet then ([], b)
  else if isCoherentAccess then
    match change.coherentSet with
    | some setId =>
      let (members, b) :=
        if (b.coherentPending.lookup writerGuid).any (fun pending => pending.setStartSn != setId) then
          b.closed writerGuid (change.sequenceNumber - 1)
        else ([], b)
      (members, b.bufferCoherentMember writerGuid setId change)
    | none =>
      let (members, b) :=
        if (b.coherentPending.lookup writerGuid).isSome then b.closed writerGuid (change.sequenceNumber - 1)
        else ([], b)
      (members ++ [(change, applyFilter)], b)
  else ([(change, applyFilter)], b)

end CoherentBuffer

end Int2Dds.History
