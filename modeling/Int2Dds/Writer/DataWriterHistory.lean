import Int2Dds.Lib.OrdList
import Int2Dds.Rtps.Common
import Mathlib.Algebra.Order.Ring.Int
import Mathlib.Data.List.MinMax

/-!
# The history of a writer

`DataWriterHistoryCache` holds the changes a writer keeps under its History and Resource Limits QoS, and writes
through to the transmit queue of the RTPS writer, `WriterHistoryCache`.

* `ensureCapacity` decides what has to leave before a change can be stored (`Capacity`). A reliable KEEP_ALL writer
  never evicts: it only waits for an acknowledged change (`ensureCapacity_ne_evict`).
* `LosesOnly gone` relates two histories: what the second no longer holds satisfies `gone`. There is one lemma for
  each operation, and they compose.

The lifespan timer is represented by what it does: the position at which a change is inserted and the changes an
expiry removes are inputs.
-/

namespace Int2Dds.Writer
open Lib Rtps List

inductive DdsError where
  | error (message : String)
  | badParameter
  | outOfResources
  | timeout
deriving DecidableEq

structure CacheChange where
  sequenceNumber : Int
  instanceHandle : InstanceHandle
  dataPayload : List (BitVec 8)
  groupCoherentSet : Option Int
deriving DecidableEq

/-- The change is a marker that closes a group coherent set, not a sample. -/
def CacheChange.isEndCoherentSet (c : CacheChange) : Bool := c.dataPayload.isEmpty && c.groupCoherentSet.isSome

/-! ## The transmit queue -/

abbrev ChangeMap := OrdList CacheChange.sequenceNumber

structure WriterHistoryCache where
  changes : ChangeMap
  highestSn : Int
deriving DecidableEq

namespace WriterHistoryCache

def new : WriterHistoryCache := ⟨OrdList.empty, 0⟩

def addChange (h : WriterHistoryCache) (c : CacheChange) : WriterHistoryCache where
  changes := h.changes.insert c
  highestSn := if h.highestSn < c.sequenceNumber then c.sequenceNumber else h.highestSn

def removeChange (h : WriterHistoryCache) (c : CacheChange) : WriterHistoryCache :=
  { h with changes := h.changes.filter (fun d => decide (d.sequenceNumber ≠ c.sequenceNumber)) }

end WriterHistoryCache

/-! ## QoS -/

inductive ReliabilityKind where
  | bestEffort
  | reliable
deriving DecidableEq

inductive DurabilityKind where
  | volatile
  | transientLocal
  | transient
  | persistent
deriving DecidableEq

inductive HistoryKind where
  | keepLast (depth : Int)
  | keepAll
deriving DecidableEq

/-- The QoS a writer's history is made from. Limits are `i32` values, -1 for no limit. -/
structure DataWriterQos where
  reliability : ReliabilityKind
  durability : DurabilityKind
  history : HistoryKind
  strict : Bool
  maxSamples : Int
  maxInstances : Int
  maxSamplesPerInstance : Int
deriving DecidableEq

/-- Whether the writer removes what all readers acknowledged, by the all-acked callback. -/
def DataWriterQos.removesAcked (q : DataWriterQos) : Bool :=
  q.durability == .volatile && q.history == .keepAll && !q.strict && q.reliability == .reliable

/-! ## The history cache -/

abbrev InstanceMap := OrdList (fun e : InstanceHandle × List CacheChange => e.1)

structure DataWriterHistoryCache where
  maxSamples : Int
  maxInstances : Int
  maxSamplesPerInstance : Int
  changes : List CacheChange
  instanceMap : InstanceMap
  isKeepAll : Bool
  isReliable : Bool
  purgeSentChanges : Bool
  hasKey : Bool
  endCoherentSetCount : Nat
  /-- The transmit queue of the RTPS writer, which every change goes through to. -/
  rtpsCache : WriterHistoryCache
deriving DecidableEq

inductive Capacity where
  | free
  | evict (c : CacheChange)
  /-- `remove_first_acked_change_or_block` on these candidates. -/
  | awaitAcked (candidates : List CacheChange)
  | error (e : DdsError)
deriving DecidableEq

/-- `as i32` of a `usize`. -/
def asI32 (n : Nat) : Int := Int.bmod n (2 ^ 32)

def i32Max : Int := 2 ^ 31 - 1

theorem asI32_le (n : Nat) : asI32 n ≤ n := by
  unfold asI32
  rw [Int.bmod_def]
  split_ifs <;> omega

theorem asI32_of_le {n : Nat} (h : (n : Int) ≤ i32Max) : asI32 n = n := by
  unfold asI32 i32Max at *
  rw [Int.bmod_def]
  split_ifs <;> omega

def saturatingMul (a b : Int) : Int := max (-2 ^ 31) (min i32Max (a * b))

/-- A limit of the Resource Limits QoS, with "no limit" made the largest one. -/
def cap (v : Int) : Int := if v = -1 then i32Max else v

/-- A limit as `check_values` of the QoS policies accepts it, in the range of an `i32`. -/
def PositiveLimit (v : Int) : Prop := v = -1 ∨ (1 ≤ v ∧ v ≤ i32Max)

theorem PositiveLimit.cap {v : Int} (h : PositiveLimit v) : 1 ≤ Writer.cap v ∧ Writer.cap v ≤ i32Max := by
  unfold Writer.cap
  split_ifs with hv
  · exact ⟨by decide, le_rfl⟩
  · exact h.resolve_left hv

theorem saturatingMul_bounds {a b : Int} (ha : 1 ≤ a) (hb : 1 ≤ b) :
    1 ≤ saturatingMul a b ∧ saturatingMul a b ≤ i32Max := by
  have hab : 1 ≤ a * b := one_le_mul_of_one_le_of_one_le ha hb
  unfold saturatingMul i32Max
  omega

namespace DataWriterHistoryCache

def new (q : DataWriterQos) (hasKey : Bool) : DataWriterHistoryCache :=
  let maxSamplesPerInstance := match q.history with
    | .keepLast depth => depth
    | .keepAll => cap q.maxSamplesPerInstance
  let maxInstances := if hasKey then cap q.maxInstances else 1
  { maxSamples := min (cap q.maxSamples) (saturatingMul maxInstances maxSamplesPerInstance)
    maxInstances
    maxSamplesPerInstance
    changes := []
    instanceMap := OrdList.empty
    isKeepAll := q.history == .keepAll
    isReliable := q.reliability == .reliable
    purgeSentChanges :=
      q.reliability == .bestEffort && q.durability == .volatile && q.history == .keepAll && !q.strict
    hasKey
    endCoherentSetCount := 0
    rtpsCache := WriterHistoryCache.new }

/-! ### Counts and limits -/

def sampleCount (h : DataWriterHistoryCache) : Nat := h.changes.length - h.endCoherentSetCount

def containsInstance (h : DataWriterHistoryCache) (handle : InstanceHandle) : Bool :=
  (h.instanceMap.find? handle).isSome

def sampleCountOfInstance (h : DataWriterHistoryCache) (handle : InstanceHandle) : Nat :=
  (h.instanceMap.find? handle).elim 0 (fun e => e.2.length)

def isMaxInstancesExceeded (h : DataWriterHistoryCache) (handle : InstanceHandle) : Bool :=
  !h.containsInstance handle && decide (h.maxInstances ≤ asI32 h.instanceMap.toList.length)

def isMaxSamplesExceeded (h : DataWriterHistoryCache) : Bool := decide (h.maxSamples ≤ asI32 h.sampleCount)

def isMaxSamplesPerInstanceExceeded (h : DataWriterHistoryCache) (handle : InstanceHandle) : Bool :=
  if handle.isNil then h.isMaxSamplesExceeded
  else h.containsInstance handle && decide (h.maxSamplesPerInstance ≤ asI32 (h.sampleCountOfInstance handle))

/-! ### Room for a change -/

/-- The changes of the instances that hold more than one; `order` is that of the walk over the map. -/
def getRemovableChanges (h : DataWriterHistoryCache) (order : List InstanceHandle) : List CacheChange :=
  order.flatMap fun handle => match h.instanceMap.find? handle with
    | some (_, changes) => if 1 < changes.length then changes else []
    | none => []

def removeOldestChangeOfAll (h : DataWriterHistoryCache) : Capacity :=
  match h.changes.find? (fun c => !c.isEndCoherentSet) with
  | some c => .evict c
  | none => .error (.error "No changes found to remove")

def removeOldestChangeOfAllReliable (h : DataWriterHistoryCache) (order : List InstanceHandle) : Capacity :=
  let removable := h.getRemovableChanges order
  if h.hasKey && removable.isEmpty then .error .outOfResources
  else if h.isKeepAll then .awaitAcked removable
  else h.removeOldestChangeOfAll

-- the order of the integers that computes
local instance : Preorder ℤ := Int.instLinearOrder.toPreorder

def removeOldestChangeOfInstanceReliable (h : DataWriterHistoryCache) (handle : InstanceHandle) : Capacity :=
  if h.isKeepAll then
    match h.instanceMap.find? handle with
    | some (_, changes) => .awaitAcked changes
    | none => .error (.error "instance_map does not contain the instance_handle")
  else if handle.isNil then .error .badParameter
  else match h.instanceMap.find? handle with
    | some (_, changes) => match changes.argmin CacheChange.sequenceNumber with
      | some c => .evict c
      | none => .error (.error "No changes found in instance to remove")
    | none => .error (.error "instance_map does not contain the instance_handle")

def tryRemoveOldestChangeOfAll (h : DataWriterHistoryCache) (order : List InstanceHandle) : Capacity :=
  if h.isReliable then h.removeOldestChangeOfAllReliable order else h.removeOldestChangeOfAll

def tryRemoveOldestChangeOfInstance (h : DataWriterHistoryCache) (handle : InstanceHandle) : Capacity :=
  if h.isReliable && h.hasKey then h.removeOldestChangeOfInstanceReliable handle
  -- without a key the instance is the whole cache
  else if h.isReliable && h.isKeepAll then .awaitAcked h.changes
  else h.removeOldestChangeOfAll

def ensureCapacity (h : DataWriterHistoryCache) (order : List InstanceHandle) (handle : InstanceHandle) : Capacity :=
  if h.hasKey && h.isMaxInstancesExceeded handle then .error .outOfResources
  else if h.isMaxSamplesPerInstanceExceeded handle then h.tryRemoveOldestChangeOfInstance handle
  else if h.isMaxSamplesExceeded then h.tryRemoveOldestChangeOfAll order
  else .free

theorem ensureCapacity_ne_evict {h : DataWriterHistoryCache} (hr : h.isReliable = true) (hk : h.isKeepAll = true)
    (order : List InstanceHandle) (handle : InstanceHandle) (c : CacheChange) :
    h.ensureCapacity order handle ≠ .evict c := by
  simp only [ensureCapacity, tryRemoveOldestChangeOfInstance, tryRemoveOldestChangeOfAll,
    removeOldestChangeOfInstanceReliable, removeOldestChangeOfAllReliable, hr, Bool.true_and]
  split_ifs <;> (try split) <;> exact nofun

/-- The candidates without the markers, which do not count toward the limit being freed. -/
def candidateChanges (h : DataWriterHistoryCache) (changes : List CacheChange) : List CacheChange :=
  if h.endCoherentSetCount = 0 then changes else changes.filter (fun c => !c.isEndCoherentSet)

/-! ### Removal and storage -/

/-- A change is identified by its sequence number, which no two changes of a writer share. -/
def removeChange (h : DataWriterHistoryCache) (c : CacheChange) : DataWriterHistoryCache :=
  let changes := h.changes.filter (fun d => decide (d.sequenceNumber ≠ c.sequenceNumber))
  { h with
    changes
    endCoherentSetCount :=
      if changes.length < h.changes.length ∧ c.isEndCoherentSet = true then h.endCoherentSetCount - 1
      else h.endCoherentSetCount
    instanceMap :=
      if h.hasKey then
        h.instanceMap.modify c.instanceHandle
          (fun e => (e.1, e.2.filter (fun d => decide (d.sequenceNumber ≠ c.sequenceNumber)))) (fun _ => rfl)
      else h.instanceMap
    rtpsCache := h.rtpsCache.removeChange c }

def removeChanges (h : DataWriterHistoryCache) (cs : List CacheChange) : DataWriterHistoryCache :=
  cs.foldl removeChange h

def removeChangesAckedUpTo (h : DataWriterHistoryCache) (maxAcked : Int) : DataWriterHistoryCache :=
  h.removeChanges (h.changes.filter (fun c => decide (c.sequenceNumber ≤ maxAcked)))

/-- The markers whose set has no member left, of those `acked` says all readers acknowledged. -/
def endCoherentSetsToRelease (h : DataWriterHistoryCache) (acked : Int → Bool) : List CacheChange :=
  let stored := (h.changes.filter (fun c => !c.isEndCoherentSet)).filterMap CacheChange.groupCoherentSet
  h.changes.filter fun c => c.isEndCoherentSet && c.groupCoherentSet.any (fun g => !stored.contains g) &&
    acked c.sequenceNumber

def releaseEndCoherentSetsWithoutMembers (h : DataWriterHistoryCache) (acked : Int → Bool) :
    DataWriterHistoryCache :=
  if h.endCoherentSetCount = 0 then h else h.removeChanges (h.endCoherentSetsToRelease acked)

/-- The tail of `add_change_with_cleanup`: the change enters where the search by timestamp lands (`position`) if the
writer has a lifespan, else at the end. -/
def storeChange (h : DataWriterHistoryCache) (c : CacheChange) (position : Option Nat) : DataWriterHistoryCache :=
  { h with
    changes := h.changes.insertIdx (min (position.getD h.changes.length) h.changes.length) c
    instanceMap :=
      if h.hasKey then
        h.instanceMap.upsert (c.instanceHandle, []) (fun e => (e.1, e.2 ++ [c])) (fun _ => rfl)
      else h.instanceMap
    rtpsCache := h.rtpsCache.addChange c }

/-- What a writer that keeps no sent change does: into the transmit queue and out of it. -/
def purgeSent (h : DataWriterHistoryCache) (c : CacheChange) : DataWriterHistoryCache :=
  { h with rtpsCache := (h.rtpsCache.addChange c).removeChange c }

def addEndCoherentSet (h : DataWriterHistoryCache) (acked : Int → Bool) (c : CacheChange) : DataWriterHistoryCache :=
  let h := h.releaseEndCoherentSetsWithoutMembers acked
  if h.purgeSentChanges then h.purgeSent c
  else { h with
    changes := h.changes ++ [c]
    endCoherentSetCount := h.endCoherentSetCount + 1
    rtpsCache := h.rtpsCache.addChange c }

def registerInstance (h : DataWriterHistoryCache) (handle : InstanceHandle) : Except DdsError DataWriterHistoryCache :=
  if h.isMaxInstancesExceeded handle then .error .outOfResources
  else .ok { h with instanceMap := h.instanceMap.insertNew (handle, []) }

/-! ## What an operation can lose -/

/-- The number `n` is stored in `h` and not in `h'`, in the history or in the transmit queue. -/
def Leaves (h h' : DataWriterHistoryCache) (n : Int) : Prop :=
  ((∃ c ∈ h.changes, c.sequenceNumber = n) ∧ ∀ c ∈ h'.changes, c.sequenceNumber ≠ n) ∨
    ((∃ c ∈ h.rtpsCache.changes, c.sequenceNumber = n) ∧ ∀ c ∈ h'.rtpsCache.changes, c.sequenceNumber ≠ n)

/-- From `h` to `h'` only numbers with `gone` are lost, and the kind of the writer stays. -/
structure LosesOnly (gone : Int → Prop) (h h' : DataWriterHistoryCache) : Prop where
  changes : ∀ c ∈ h.changes, (∃ d ∈ h'.changes, d.sequenceNumber = c.sequenceNumber) ∨ gone c.sequenceNumber
  rtps : ∀ c ∈ h.rtpsCache.changes,
    (∃ d ∈ h'.rtpsCache.changes, d.sequenceNumber = c.sequenceNumber) ∨ gone c.sequenceNumber
  isReliable : h'.isReliable = h.isReliable
  isKeepAll : h'.isKeepAll = h.isKeepAll
  purgeSentChanges : h'.purgeSentChanges = h.purgeSentChanges

theorem LosesOnly.of_leaves {gone : Int → Prop} {h h' : DataWriterHistoryCache} (hl : LosesOnly gone h h') {n : Int}
    (hn : Leaves h h' n) : gone n := by
  rcases hn with ⟨⟨c, hc, rfl⟩, hno⟩ | ⟨⟨c, hc, rfl⟩, hno⟩
  · rcases hl.changes c hc with ⟨d, hd, hdc⟩ | hgone
    · exact absurd hdc (hno d hd)
    · exact hgone
  · rcases hl.rtps c hc with ⟨d, hd, hdc⟩ | hgone
    · exact absurd hdc (hno d hd)
    · exact hgone

variable {gone : Int → Prop} (h : DataWriterHistoryCache) (c : CacheChange)

theorem LosesOnly.refl : LosesOnly gone h h :=
  ⟨fun c hc => .inl ⟨c, hc, rfl⟩, fun c hc => .inl ⟨c, hc, rfl⟩, rfl, rfl, rfl⟩

theorem not_leaves_self {n : Int} : ¬ Leaves h h n := by
  have hrefl : LosesOnly (fun _ => False) h h := LosesOnly.refl h
  exact fun hn => hrefl.of_leaves hn

theorem LosesOnly.trans {h₁ h₂ h₃ : DataWriterHistoryCache} (h12 : LosesOnly gone h₁ h₂) (h23 : LosesOnly gone h₂ h₃) :
    LosesOnly gone h₁ h₃ := by
  refine ⟨fun c hc => ?_, fun c hc => ?_, h23.isReliable.trans h12.isReliable, h23.isKeepAll.trans h12.isKeepAll,
    h23.purgeSentChanges.trans h12.purgeSentChanges⟩
  · rcases h12.changes c hc with ⟨d, hd, hdc⟩ | hgone
    · rw [← hdc]
      exact h23.changes d hd
    · exact .inr hgone
  · rcases h12.rtps c hc with ⟨d, hd, hdc⟩ | hgone
    · rw [← hdc]
      exact h23.rtps d hd
    · exact .inr hgone

theorem losesOnly_removeChange {c : CacheChange} (hc : gone c.sequenceNumber) :
    LosesOnly gone h (h.removeChange c) := by
  refine ⟨fun d hd => ?_, fun d hd => ?_, rfl, rfl, rfl⟩
  · by_cases hdc : d.sequenceNumber = c.sequenceNumber
    · exact .inr (hdc ▸ hc)
    · exact .inl ⟨d, mem_filter.2 ⟨hd, decide_eq_true hdc⟩, rfl⟩
  · by_cases hdc : d.sequenceNumber = c.sequenceNumber
    · exact .inr (hdc ▸ hc)
    · exact .inl ⟨d, OrdList.mem_filter.2 ⟨hd, decide_eq_true hdc⟩, rfl⟩

theorem losesOnly_removeChanges {cs : List CacheChange} (hcs : ∀ c ∈ cs, gone c.sequenceNumber) :
    LosesOnly gone h (h.removeChanges cs) := by
  induction cs generalizing h with
  | nil => exact LosesOnly.refl h
  | cons c cs ih =>
    have hfirst := losesOnly_removeChange h (hcs c mem_cons_self)
    exact hfirst.trans (ih (h.removeChange c) (forall_mem_cons.1 hcs).2)

theorem losesOnly_removeChangesAckedUpTo {maxAcked : Int} (hgone : ∀ n ≤ maxAcked, gone n) :
    LosesOnly gone h (h.removeChangesAckedUpTo maxAcked) := by
  apply losesOnly_removeChanges
  intro c hc
  exact hgone _ (by simpa using (mem_filter.1 hc).2)

theorem losesOnly_releaseEndCoherentSets {acked : Int → Bool} (hgone : ∀ n, acked n = true → gone n) :
    LosesOnly gone h (h.releaseEndCoherentSetsWithoutMembers acked) := by
  unfold releaseEndCoherentSetsWithoutMembers
  split_ifs
  · exact LosesOnly.refl h
  · apply losesOnly_removeChanges
    intro c hc
    have hmem := (mem_filter.1 hc).2
    simp only [Bool.and_eq_true] at hmem
    exact hgone _ hmem.2

theorem rtps_addChange {q : WriterHistoryCache} (c d : CacheChange) (hd : d ∈ q.changes) :
    ∃ e ∈ (q.addChange c).changes, e.sequenceNumber = d.sequenceNumber := by
  by_cases hdc : d.sequenceNumber = c.sequenceNumber
  · exact ⟨c, OrdList.mem_insert.2 (.inr rfl), hdc.symm⟩
  · exact ⟨d, OrdList.mem_insert.2 (.inl ⟨hd, hdc⟩), rfl⟩

theorem losesOnly_storeChange (position : Option Nat) : LosesOnly gone h (h.storeChange c position) := by
  refine ⟨fun d hd => .inl ⟨d, ?_, rfl⟩, fun d hd => .inl (rtps_addChange c d hd), rfl, rfl, rfl⟩
  exact (mem_insertIdx (min_le_right _ _)).2 (.inr hd)

theorem losesOnly_addEndCoherentSet {acked : Int → Bool} (hkeep : h.purgeSentChanges = false)
    (hgone : ∀ n, acked n = true → gone n) : LosesOnly gone h (h.addEndCoherentSet acked c) := by
  have hrelease := losesOnly_releaseEndCoherentSets h hgone
  refine hrelease.trans ?_
  have hpurge := hrelease.purgeSentChanges.trans hkeep
  simp only [addEndCoherentSet, hpurge]
  exact ⟨fun d hd => .inl ⟨d, mem_append_left _ hd, rfl⟩, fun d hd => .inl (rtps_addChange c d hd), rfl, rfl,
    hpurge.symm⟩

end DataWriterHistoryCache

end Int2Dds.Writer
