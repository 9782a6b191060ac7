import Int2Dds.Writer.DataWriterHistory

/-!
# A reliable writer and its matched readers

`StatefulWriter` is a writer with its history, the proxies of its matched readers, and the threads under way:

* `blocked` : a `write` that holds the lock of the history and polls for an acknowledged change to remove;
* `notifiers` : threads in `process_acked_changes`. Each reads the floor of the acknowledgements, and with no lock held
  passes the latch and runs the callback that removes what lies below (`advance`).

ACKNACKs, discovery and the application have threads of their own, so each `Input` can come between any two steps of
a notifier. A check of `isChangeAckedByAll` and the removal that follows it are one step.

* `step_retains` : what one step can remove from the history of a reliable KEEP_ALL writer. Outside lifespan expiry it
  is only changes that every reader matched as reliable after the step has acknowledged, as long as readers come in
  `undisturbed`: not below the floor of a notifier under way.
-/

namespace Int2Dds.Writer
open Lib Rtps DataWriterHistoryCache List

structure ReaderProxy where
  remoteReaderGuid : Guid
  isReliable : Bool
  maxAckedSn : Int
  requestedChanges : List Int
  lastAcknackCount : Option (BitVec 32)
  lastAcknackAt : Option Nat
deriving DecidableEq

namespace ReaderProxy

def new (remoteReaderGuid : Guid) (isReliable : Bool) (maxAckedSn : Int) : ReaderProxy :=
  ⟨remoteReaderGuid, isReliable, maxAckedSn, [], none, none⟩

def ackedChangesSet (p : ReaderProxy) (committedSeqNum : Int) : ReaderProxy :=
  if p.maxAckedSn < committedSeqNum then { p with maxAckedSn := committedSeqNum } else p

end ReaderProxy

/-- An ACKNACK as read from the wire: a valid set, or the base 0 without bits of a preemptive one. -/
structure AckNack where
  readerSnState : SequenceNumberSet
  count : BitVec 32
  finalFlag : Bool
  valid : readerSnState.isValid = true ∨ (readerSnState.bitmapBase = 0 ∧ readerSnState.numBits = 0)
deriving DecidableEq

/-- The reader asks for a HEARTBEAT, and acknowledges nothing. -/
def AckNack.isPreemptive (a : AckNack) : Bool :=
  a.readerSnState.numBits == 0 && !a.finalFlag && decide (a.readerSnState.bitmapBase ≤ 1)

/-- The proxy after an ACKNACK: everything below its base is acknowledged. -/
def ReaderProxy.acknowledge (p : ReaderProxy) (a : AckNack) (missing : List Int) (now : Nat) : ReaderProxy :=
  { p.ackedChangesSet (a.readerSnState.bitmapBase - 1) with
    lastAcknackCount := some a.count
    lastAcknackAt := some now
    requestedChanges := if missing.isEmpty then p.requestedChanges else missing }

/-- A `write` that waits: the change, where it is to be inserted, and the changes whose acknowledgement frees room. -/
structure BlockedWrite where
  change : CacheChange
  position : Option Nat
  candidates : List CacheChange
deriving DecidableEq

/-- Where a thread is in `process_acked_changes`. -/
inductive Notifier where
  | entered
  /-- It found no reliable reader to wait for. -/
  | unawaited
  /-- It has read the floor. -/
  | floor (sn : Int)
  /-- It has passed the latch, and is to run the callback. -/
  | notified (sn : Int)
deriving DecidableEq

/-- The thread does not go beyond what is acknowledged up to `acked`. -/
def Notifier.allows (acked : Int) : Notifier → Bool
  | .entered => true
  | .unawaited => false
  | .floor sn | .notified sn => decide (sn ≤ acked)

structure StatefulWriter where
  cache : DataWriterHistoryCache
  matchedReaders : List ReaderProxy
  lastAckedNotifySn : Int
  allAckedCallbackSet : Bool
  blocked : Option BlockedWrite
  notifiers : List Notifier
deriving DecidableEq

/-- Every reader in `readers` that is reliable has acknowledged `n`. -/
def AckedByAll (readers : List ReaderProxy) (n : Int) : Prop :=
  ∀ p ∈ readers, p.isReliable = true → n ≤ p.maxAckedSn

/-- What a thread has read of the readers still holds of them. -/
def Notifier.Holds (readers : List ReaderProxy) : Notifier → Prop
  | .entered => True
  | .unawaited => ∀ p ∈ readers, p.isReliable = false
  | .floor sn | .notified sn => AckedByAll readers sn

/-- A reliable reader was there with no more acknowledged, or the thread allows it. -/
theorem Notifier.Holds.of_readers {n : Notifier} {readers readers' : List ReaderProxy} (h : n.Holds readers)
    (hsub : ∀ p' ∈ readers', p'.isReliable = true →
      (∃ p ∈ readers, p.isReliable = true ∧ p.maxAckedSn ≤ p'.maxAckedSn) ∨ n.allows p'.maxAckedSn = true) :
    n.Holds readers' := by
  cases n with
  | entered => trivial
  | unawaited =>
    intro p' hp'
    rw [← Bool.not_eq_true]
    intro hr
    rcases hsub p' hp' hr with ⟨p, hp, hpr, -⟩ | hallows
    · rw [h p hp] at hpr
      cases hpr
    · cases hallows
  | floor sn | notified sn =>
    intro p' hp' hr
    rcases hsub p' hp' hr with ⟨p, hp, hpr, hle⟩ | hallows
    · exact (h p hp hpr).trans hle
    · exact of_decide_eq_true hallows

namespace StatefulWriter

def new (q : DataWriterQos) (hasKey : Bool) : StatefulWriter :=
  ⟨DataWriterHistoryCache.new q hasKey, [], 0, q.removesAcked, none, []⟩

/-! ## Acknowledgement -/

def isChangeAckedByAll (w : StatefulWriter) (seqNum : Int) : Bool :=
  (w.matchedReaders.filter ReaderProxy.isReliable).all (fun p => decide (seqNum ≤ p.maxAckedSn))

def getMinAckedSequenceNumber (w : StatefulWriter) : Option Int :=
  ((w.matchedReaders.filter ReaderProxy.isReliable).map ReaderProxy.maxAckedSn).min?

/-- The thread enters `process_acked_changes`, if there is a callback. -/
def processAckedChanges (w : StatefulWriter) : StatefulWriter :=
  if w.allAckedCallbackSet then { w with notifiers := w.notifiers ++ [.entered] } else w

/-- The next step of the thread `i` in `process_acked_changes`. With no reliable reader, all that was transmitted is
acknowledged. The callback locks the history, so it waits for a blocked `write`. -/
def advance (w : StatefulWriter) (i : Nat) : Option StatefulWriter :=
  match w.notifiers[i]? with
  | none => none
  | some .entered => match w.getMinAckedSequenceNumber with
    | some sn => some { w with notifiers := w.notifiers.set i (.floor sn) }
    | none => some { w with notifiers := w.notifiers.set i .unawaited }
  | some .unawaited => some { w with notifiers := w.notifiers.set i (.floor w.cache.rtpsCache.highestSn) }
  | some (.floor sn) =>
    if sn ≤ w.lastAckedNotifySn then some { w with notifiers := w.notifiers.eraseIdx i }
    else some { w with lastAckedNotifySn := sn, notifiers := w.notifiers.set i (.notified sn) }
  | some (.notified sn) =>
    if w.blocked = none then
      some { w with cache := w.cache.removeChangesAckedUpTo sn, notifiers := w.notifiers.eraseIdx i }
    else none

/-- `none` for an overflow in the set of missing numbers. -/
def handleAcknackMessage (w : StatefulWriter) (reader : Guid) (a : AckNack) (now : Nat) : Option StatefulWriter :=
  match w.matchedReaders.find? (fun p => p.remoteReaderGuid == reader) with
  | none => some w
  | some p =>
    if shouldAcceptCount a.count p.lastAcknackCount p.lastAcknackAt a.isPreemptive now = false then some w
    else if a.isPreemptive then some w
    else a.readerSnState.extractNumbers.map fun missing =>
      processAckedChanges { w with
        matchedReaders := w.matchedReaders.replaceF (fun q =>
          if q.remoteReaderGuid == reader then some (q.acknowledge a missing now) else none) }

/-! ## Matching -/

def matchedReaderAdd (w : StatefulWriter) (p : ReaderProxy) : StatefulWriter :=
  if w.matchedReaders.any (fun q => q.remoteReaderGuid == p.remoteReaderGuid) then w
  else { w with matchedReaders := w.matchedReaders ++ [p] }

/-- `swap_remove`: the last element takes the place of the removed one. -/
def swapRemove {α : Type} (l : List α) (i : Nat) : List α :=
  match l.getLast? with
  | some last => (l.set i last).dropLast
  | none => l

def removeMatchedReader (w : StatefulWriter) (reader : Guid) : StatefulWriter :=
  match w.matchedReaders.findIdx? (fun p => p.remoteReaderGuid == reader) with
  | none => w
  | some i => processAckedChanges { w with matchedReaders := swapRemove w.matchedReaders i }

/-! ## Writing -/

/-- A stored change, then the purge of a completed `write`. `completes` is false when the send fails, and for a set
marker, which is not followed by a purge. -/
def store (w : StatefulWriter) (c : CacheChange) (position : Option Nat) (completes : Bool) : StatefulWriter :=
  let w := { w with cache := w.cache.storeChange c position, blocked := none }
  if completes then w.processAckedChanges else w

/-- `remove_first_acked_change_or_block` on `candidates`, up to the next poll. -/
def awaitAcked (w : StatefulWriter) (b : BlockedWrite) (completes : Bool) : StatefulWriter :=
  match b.candidates.find? (fun c => w.isChangeAckedByAll c.sequenceNumber) with
  | some c => store { w with cache := w.cache.removeChange c } b.change b.position completes
  | none => { w with blocked := some b }

def addChangeWithCleanup (w : StatefulWriter) (c : CacheChange) (position : Option Nat) (order : List InstanceHandle)
    (completes : Bool) : StatefulWriter :=
  if w.cache.purgeSentChanges then
    let w := { w with cache := w.cache.purgeSent c }
    if completes then w.processAckedChanges else w
  else
    let w := { w with cache := w.cache.releaseEndCoherentSetsWithoutMembers w.isChangeAckedByAll }
    match w.cache.ensureCapacity order c.instanceHandle with
    | .free => w.store c position completes
    | .evict old => store { w with cache := w.cache.removeChange old } c position completes
    | .awaitAcked candidates => w.awaitAcked ⟨c, position, w.cache.candidateChanges candidates⟩ completes
    | .error _ => w

/-! ## Steps -/

inductive Input where
  | write (c : CacheChange) (position : Option Nat) (order : List InstanceHandle) (completes : Bool)
  | poll (completes : Bool)
  | timeout
  | endCoherentSet (c : CacheChange)
  | registerInstance (handle : InstanceHandle)
  | expire (cs : List CacheChange)
  | matchReader (p : ReaderProxy)
  | unmatchReader (reader : Guid)
  /-- A reader whose QoS became incompatible is dropped without a purge. -/
  | dropReader (reader : Guid)
  | syncReader (reader : Guid) (isReliable : Bool)
  | acknack (reader : Guid) (a : AckNack) (now : Nat)
  | advance (notifier : Nat)

/-- `none` when the step is not enabled: the lock is taken, or there is no such thread. -/
def step (w : StatefulWriter) : Input → Option StatefulWriter
  | .write c position order completes =>
    if w.blocked = none ∧ order.Perm (w.cache.instanceMap.toList.map Prod.fst) then
      some (w.addChangeWithCleanup c position order completes)
    else none
  | .poll completes => w.blocked.map fun b => w.awaitAcked b completes
  | .timeout => if w.blocked.isSome then some { w with blocked := none } else none
  | .endCoherentSet c =>
    if w.blocked = none then some { w with cache := w.cache.addEndCoherentSet w.isChangeAckedByAll c } else none
  | .registerInstance handle =>
    if w.blocked = none then match w.cache.registerInstance handle with
      | .ok cache => some { w with cache }
      | .error _ => some w
    else none
  | .expire cs => if w.blocked = none then some { w with cache := w.cache.removeChanges cs } else none
  | .matchReader p => some (w.matchedReaderAdd p)
  | .unmatchReader reader => some (w.removeMatchedReader reader)
  | .dropReader reader =>
    some { w with matchedReaders := w.matchedReaders.filter (fun p => p.remoteReaderGuid != reader) }
  | .syncReader reader isReliable =>
    some { w with matchedReaders := w.matchedReaders.replaceF (fun p =>
      if p.remoteReaderGuid == reader then some { p with isReliable } else none) }
  | .acknack reader a now => w.handleAcknackMessage reader a now
  | .advance notifier => w.advance notifier

/-- No reader is matched as reliable, or becomes reliable, below the floor of a thread in `process_acked_changes`. -/
def undisturbed (w : StatefulWriter) : Input → Bool
  | .matchReader p => !p.isReliable || w.matchedReaders.any (fun q => q.remoteReaderGuid == p.remoteReaderGuid) ||
      w.notifiers.all (Notifier.allows p.maxAckedSn)
  | .syncReader reader true => w.matchedReaders.all fun p =>
      p.remoteReaderGuid != reader || p.isReliable || w.notifiers.all (Notifier.allows p.maxAckedSn)
  | _ => true

/-! ## What one step can remove -/

variable {w w' : StatefulWriter} {i : Input}

theorem isChangeAckedByAll_iff {n : Int} : w.isChangeAckedByAll n = true ↔ AckedByAll w.matchedReaders n := by
  simp only [isChangeAckedByAll, AckedByAll, all_eq_true, mem_filter, decide_eq_true_eq, and_imp]

theorem ackedByAll_min {n : Int} (h : w.getMinAckedSequenceNumber = some n) : AckedByAll w.matchedReaders n := by
  intro p hp hr
  exact (min?_eq_some_iff.1 h).2 _ (mem_map_of_mem (mem_filter.2 ⟨hp, hr⟩))

def NotifiersOk (w : StatefulWriter) : Prop := ∀ n ∈ w.notifiers, n.Holds w.matchedReaders

/-- The writer is reliable, keeps all changes, and retains what it sent. -/
structure KeepsAll (h : DataWriterHistoryCache) : Prop where
  isReliable : h.isReliable = true
  isKeepAll : h.isKeepAll = true
  retains : h.purgeSentChanges = false

open DataWriterHistoryCache (LosesOnly)

theorem KeepsAll.of_losesOnly {gone : Int → Prop} {h h' : DataWriterHistoryCache} (hk : KeepsAll h)
    (hl : LosesOnly gone h h') : KeepsAll h' :=
  ⟨hl.isReliable.trans hk.isReliable, hl.isKeepAll.trans hk.isKeepAll, hl.purgeSentChanges.trans hk.retains⟩

/-- From `w` to `w'` only changes acknowledged by all readers of `w'` leave. -/
structure Retains (w w' : StatefulWriter) : Prop where
  loses : LosesOnly (AckedByAll w'.matchedReaders) w.cache w'.cache
  notifiers : NotifiersOk w'

theorem Retains.of_cache (hp : NotifiersOk w) {cache : DataWriterHistoryCache}
    (hl : LosesOnly (AckedByAll w.matchedReaders) w.cache cache) (blocked : Option BlockedWrite) :
    Retains w { w with cache, blocked } := ⟨hl, hp⟩

theorem Retains.trans_same {w₁ w₂ w₃ : StatefulWriter} (h12 : Retains w₁ w₂) (h23 : Retains w₂ w₃)
    (hsame : w₃.matchedReaders = w₂.matchedReaders) : Retains w₁ w₃ := by
  refine ⟨?_, h23.notifiers⟩
  have h := h12.loses
  rw [← hsame] at h
  exact h.trans h23.loses

theorem processAckedChanges_matchedReaders : w.processAckedChanges.matchedReaders = w.matchedReaders := by
  unfold processAckedChanges
  split_ifs <;> rfl

theorem retains_processAckedChanges (hp : NotifiersOk w) : Retains w w.processAckedChanges := by
  unfold processAckedChanges
  split_ifs
  · refine ⟨LosesOnly.refl _, fun n hn => ?_⟩
    rcases mem_append.1 hn with hn | hn
    · exact hp n hn
    · rw [mem_singleton.1 hn]
      trivial
  · exact ⟨LosesOnly.refl _, hp⟩

theorem advance_matchedReaders {i : Nat} (h : w.advance i = some w') : w'.matchedReaders = w.matchedReaders := by
  unfold advance at h
  split at h
  · cases h
  · split at h <;> cases h <;> rfl
  · cases h
    rfl
  · split_ifs at h <;> cases h <;> rfl
  · split_ifs at h
    cases h
    rfl

theorem retains_advance (hp : NotifiersOk w) {i : Nat} (h : w.advance i = some w') : Retains w w' := by
  have hset {n : Notifier} (hn : n.Holds w.matchedReaders) : ∀ m ∈ w.notifiers.set i n, m.Holds w.matchedReaders := by
    intro m hm
    rcases mem_or_eq_of_mem_set hm with hm | rfl
    · exact hp m hm
    · exact hn
  have herase : ∀ m ∈ w.notifiers.eraseIdx i, m.Holds w.matchedReaders := fun m hm => hp m (mem_of_mem_eraseIdx hm)
  unfold advance at h
  split at h
  · cases h
  · split at h
    · next sn hmin =>
      cases h
      exact ⟨LosesOnly.refl _, hset (n := .floor sn) (ackedByAll_min hmin)⟩
    · next hmin =>
      cases h
      rw [getMinAckedSequenceNumber, min?_eq_none_iff, map_eq_nil_iff, filter_eq_nil_iff] at hmin
      exact ⟨LosesOnly.refl _, hset (n := .unawaited) fun p hp => by simpa using hmin p hp⟩
  · next hget =>
    cases h
    have hnone : ∀ p ∈ w.matchedReaders, p.isReliable = false := hp _ (mem_of_getElem? hget)
    refine ⟨LosesOnly.refl _, hset (n := .floor _) fun p hpr hr => ?_⟩
    rw [hnone p hpr] at hr
    cases hr
  · next sn hget =>
    have hacked : AckedByAll w.matchedReaders sn := hp _ (mem_of_getElem? hget)
    split_ifs at h
    · cases h
      exact ⟨LosesOnly.refl _, herase⟩
    · cases h
      exact ⟨LosesOnly.refl _, hset (n := .notified sn) hacked⟩
  · next sn hget =>
    have hacked : AckedByAll w.matchedReaders sn := hp _ (mem_of_getElem? hget)
    split_ifs at h
    cases h
    refine ⟨losesOnly_removeChangesAckedUpTo _ fun n hn p hpr hr => ?_, herase⟩
    exact hn.trans (hacked p hpr hr)

variable {completes : Bool} {position : Option Nat} {c : CacheChange}

theorem store_matchedReaders : (w.store c position completes).matchedReaders = w.matchedReaders := by
  unfold store
  split_ifs
  · exact processAckedChanges_matchedReaders
  · rfl

theorem retains_store (hp : NotifiersOk w) : Retains w (w.store c position completes) := by
  have hstored := Retains.of_cache hp (losesOnly_storeChange w.cache c position) none
  unfold store
  split_ifs
  · exact hstored.trans_same (retains_processAckedChanges hstored.notifiers) (processAckedChanges_matchedReaders)
  · exact hstored

theorem awaitAcked_matchedReaders (b : BlockedWrite) :
    (w.awaitAcked b completes).matchedReaders = w.matchedReaders := by
  unfold awaitAcked
  split
  · exact store_matchedReaders
  · rfl

theorem retains_awaitAcked (hp : NotifiersOk w) (b : BlockedWrite) : Retains w (w.awaitAcked b completes) := by
  unfold awaitAcked
  split
  · next c hc =>
    have hacked : AckedByAll w.matchedReaders c.sequenceNumber :=
      isChangeAckedByAll_iff.1 (by simpa using find?_some hc)
    have hremoved := Retains.of_cache hp (losesOnly_removeChange w.cache hacked) w.blocked
    exact hremoved.trans_same (retains_store hremoved.notifiers) (store_matchedReaders)
  · exact Retains.of_cache hp (LosesOnly.refl _) (some b)

theorem retains_addChangeWithCleanup (hp : NotifiersOk w) (hk : KeepsAll w.cache) (order : List InstanceHandle) :
    Retains w (w.addChangeWithCleanup c position order completes) := by
  have hrelease : LosesOnly (AckedByAll w.matchedReaders) w.cache _ :=
    losesOnly_releaseEndCoherentSets w.cache (fun _ hn => isChangeAckedByAll_iff.1 hn)
  have hreleased := Retains.of_cache hp hrelease w.blocked
  have hk' := hk.of_losesOnly hrelease
  unfold addChangeWithCleanup
  rw [if_neg (by rw [hk.retains]; exact Bool.false_ne_true)]
  simp only
  split
  · exact hreleased.trans_same (retains_store hreleased.notifiers) (store_matchedReaders)
  · next old hcap => exact absurd hcap (ensureCapacity_ne_evict hk'.isReliable hk'.isKeepAll _ _ _)
  · exact hreleased.trans_same (retains_awaitAcked hreleased.notifiers _) (awaitAcked_matchedReaders _)
  · exact hreleased

theorem mem_of_mem_swapRemove {α : Type} {l : List α} {i : Nat} {x : α} (h : x ∈ swapRemove l i) : x ∈ l := by
  unfold swapRemove at h
  split at h
  · next last hlast =>
    rcases mem_or_eq_of_mem_set (mem_of_mem_dropLast h) with hx | rfl
    · exact hx
    · exact mem_of_mem_getLast? hlast
  · exact h

theorem mem_of_mem_replaceF {α : Type} {f : α → Option α} {l : List α} {x : α} (h : x ∈ l.replaceF f) :
    x ∈ l ∨ ∃ y ∈ l, f y = some x := by
  induction l with
  | nil => cases h
  | cons y l ih =>
    rw [replaceF_cons] at h
    cases hy : f y <;> rw [hy] at h <;> grind

theorem acknowledge_acked (p : ReaderProxy) (a : AckNack) (missing : List Int) (now : Nat) :
    (p.acknowledge a missing now).remoteReaderGuid = p.remoteReaderGuid ∧
      (p.acknowledge a missing now).isReliable = p.isReliable ∧
      p.maxAckedSn ≤ (p.acknowledge a missing now).maxAckedSn ∧
      ((p.acknowledge a missing now).maxAckedSn = p.maxAckedSn ∨
        (p.acknowledge a missing now).maxAckedSn = a.readerSnState.bitmapBase - 1) := by
  simp only [ReaderProxy.acknowledge, ReaderProxy.ackedChangesSet]
  split_ifs with hlt
  · exact ⟨rfl, rfl, hlt.le, .inr rfl⟩
  · exact ⟨rfl, rfl, le_rfl, .inl rfl⟩

/-- A step that only changes the proxies loses nothing. -/
theorem Retains.of_readers (hp : NotifiersOk w) {readers : List ReaderProxy}
    (hsub : ∀ p' ∈ readers, p'.isReliable = true →
      (∃ p ∈ w.matchedReaders, p.isReliable = true ∧ p.maxAckedSn ≤ p'.maxAckedSn) ∨
        w.notifiers.all (Notifier.allows p'.maxAckedSn) = true) :
    Retains w { w with matchedReaders := readers } :=
  ⟨LosesOnly.refl _, fun n hn => (hp n hn).of_readers fun p' hp' hr =>
    (hsub p' hp' hr).imp_right fun hall => all_eq_true.1 hall n hn⟩

theorem Retains.of_subset (hp : NotifiersOk w) {readers : List ReaderProxy}
    (hsub : ∀ p ∈ readers, p ∈ w.matchedReaders) : Retains w { w with matchedReaders := readers } :=
  Retains.of_readers hp fun p hpr hr => .inl ⟨p, hsub p hpr, hr, le_rfl⟩

theorem Retains.process {readers : List ReaderProxy} (h : Retains w { w with matchedReaders := readers }) :
    Retains w (processAckedChanges { w with matchedReaders := readers }) :=
  h.trans_same (retains_processAckedChanges h.notifiers) processAckedChanges_matchedReaders

theorem retains_handleAcknackMessage (hp : NotifiersOk w) {reader : Guid} {a : AckNack} {now : Nat}
    (h : w.handleAcknackMessage reader a now = some w') : Retains w w' := by
  have hsame : Retains w w := Retains.of_subset hp fun _ hp => hp
  unfold handleAcknackMessage at h
  split at h
  · cases h
    exact hsame
  · split_ifs at h
    · cases h
      exact hsame
    · cases h
      exact hsame
    · obtain ⟨missing, -, rfl⟩ := Option.map_eq_some_iff.1 h
      refine Retains.process (Retains.of_readers hp fun p' hp' hr => .inl ?_)
      rcases mem_of_mem_replaceF hp' with hold | ⟨p, hpw, hf⟩
      · exact ⟨p', hold, hr, le_rfl⟩
      · split_ifs at hf
        cases hf
        obtain ⟨-, hreliable, hle, -⟩ := acknowledge_acked p a missing now
        exact ⟨p, hpw, hreliable.symm.trans hr, hle⟩

/-- **What a step can remove.** Every undisturbed step but an expiry takes from a reliable KEEP_ALL writer's history
only changes that all readers matched as reliable have acknowledged. -/
theorem step_retains (hp : NotifiersOk w) (hk : KeepsAll w.cache) (hi : ∀ cs, i ≠ .expire cs)
    (hu : w.undisturbed i = true) (h : w.step i = some w') : Retains w w' := by
  cases i with simp only [step] at h
  | write c position order completes =>
    split_ifs at h
    cases h
    exact retains_addChangeWithCleanup hp hk order
  | poll completes =>
    obtain ⟨b, -, rfl⟩ := Option.map_eq_some_iff.1 h
    exact retains_awaitAcked hp b
  | timeout =>
    split_ifs at h
    cases h
    exact Retains.of_cache hp (LosesOnly.refl _) none
  | endCoherentSet c =>
    split_ifs at h
    cases h
    exact ⟨losesOnly_addEndCoherentSet w.cache c hk.retains
      (fun _ hn => isChangeAckedByAll_iff.1 hn), hp⟩
  | registerInstance handle =>
    simp only [registerInstance] at h
    split_ifs at h
    · cases h
      exact ⟨LosesOnly.refl _, hp⟩
    · cases h
      exact ⟨⟨fun c hc => .inl ⟨c, hc, rfl⟩, fun c hc => .inl ⟨c, hc, rfl⟩, rfl, rfl, rfl⟩, hp⟩
  | expire cs => exact absurd rfl (hi cs)
  | matchReader p =>
    simp only [matchedReaderAdd] at h
    split_ifs at h with hany
    · cases h
      exact Retains.of_subset hp fun _ hp => hp
    · cases h
      refine Retains.of_readers hp fun p' hp' hr => ?_
      rcases mem_append.1 hp' with hold | hnew
      · exact .inl ⟨p', hold, hr, le_rfl⟩
      · cases mem_singleton.1 hnew
        rw [undisturbed, hr, Bool.eq_false_iff.2 hany] at hu
        exact .inr hu
  | unmatchReader reader =>
    simp only [removeMatchedReader] at h
    cases h
    split
    · exact Retains.of_subset hp fun _ hp => hp
    · exact Retains.process (Retains.of_subset hp fun _ hp => mem_of_mem_swapRemove hp)
  | dropReader =>
    cases h
    exact Retains.of_subset hp fun _ hp => (mem_filter.1 hp).1
  | syncReader reader isReliable =>
    cases h
    refine Retains.of_readers hp fun p' hp' hr => ?_
    rcases mem_of_mem_replaceF hp' with hold | ⟨p, hpw, hf⟩
    · exact .inl ⟨p', hold, hr, le_rfl⟩
    · split_ifs at hf with hg
      cases hf
      obtain rfl : isReliable = true := hr
      cases hpr : p.isReliable with
      | true => exact .inl ⟨p, hpw, hpr, le_rfl⟩
      | false =>
        have hall := all_eq_true.1 hu p hpw
        rw [bne, hg, hpr] at hall
        exact .inr hall
  | acknack reader a now => exact retains_handleAcknackMessage hp h
  | advance notifier => exact retains_advance hp h

/-! ## Where the proxies come from -/

/-- Where the proxy `p'` after the step comes from: it was there and acknowledged as much, its reader was just
matched, or the step is its reader's ACKNACK. -/
inductive Origin (w : StatefulWriter) (i : Input) (p' : ReaderProxy) : Prop where
  | kept (p : ReaderProxy) (mem : p ∈ w.matchedReaders) (guid : p'.remoteReaderGuid = p.remoteReaderGuid)
      (acked : p'.maxAckedSn = p.maxAckedSn)
  | matched (step : i = .matchReader p')
      (fresh : ∀ p ∈ w.matchedReaders, p.remoteReaderGuid ≠ p'.remoteReaderGuid)
  | acknowledged (a : AckNack) (now : Nat) (step : i = .acknack p'.remoteReaderGuid a now)
      (acked : p'.maxAckedSn = a.readerSnState.bitmapBase - 1)

theorem Origin.same {p : ReaderProxy} (h : p ∈ w.matchedReaders) : Origin w i p :=
  Origin.kept p h rfl rfl

theorem addChangeWithCleanup_matchedReaders (order : List InstanceHandle) :
    (w.addChangeWithCleanup c position order completes).matchedReaders = w.matchedReaders := by
  unfold addChangeWithCleanup
  split_ifs
  · exact processAckedChanges_matchedReaders
  · rfl
  · simp only
    split
    · exact store_matchedReaders
    · exact store_matchedReaders
    · exact awaitAcked_matchedReaders _
    · rfl

theorem origin_handleAcknackMessage {reader : Guid} {a : AckNack} {now : Nat}
    (h : w.handleAcknackMessage reader a now = some w') {p' : ReaderProxy} (hp : p' ∈ w'.matchedReaders) :
    Origin w (.acknack reader a now) p' := by
  unfold handleAcknackMessage at h
  split at h
  · cases h
    exact Origin.same hp
  · split_ifs at h
    · cases h
      exact Origin.same hp
    · cases h
      exact Origin.same hp
    · obtain ⟨missing, -, rfl⟩ := Option.map_eq_some_iff.1 h
      rw [processAckedChanges_matchedReaders] at hp
      rcases mem_of_mem_replaceF hp with hp | ⟨p, hpw, hf⟩
      · exact Origin.same hp
      · split_ifs at hf with hg
        cases hf
        obtain ⟨hguid, -, -, hacked | hacked⟩ := acknowledge_acked p a missing now
        · exact Origin.kept p hpw hguid hacked
        · refine Origin.acknowledged a now ?_ hacked
          rw [hguid, eq_of_beq hg]

theorem step_origin (h : w.step i = some w') {p' : ReaderProxy} (hp : p' ∈ w'.matchedReaders) : Origin w i p' := by
  cases i with simp only [step] at h
  | write c position order completes =>
    split_ifs at h
    cases h
    rw [addChangeWithCleanup_matchedReaders] at hp
    exact Origin.same hp
  | poll completes =>
    obtain ⟨b, -, rfl⟩ := Option.map_eq_some_iff.1 h
    rw [awaitAcked_matchedReaders] at hp
    exact Origin.same hp
  | timeout | endCoherentSet | expire =>
    split_ifs at h
    cases h
    exact Origin.same hp
  | registerInstance handle =>
    split_ifs at h
    split at h
    · cases h
      exact Origin.same hp
    · cases h
      exact Origin.same hp
  | matchReader p =>
    simp only [matchedReaderAdd] at h
    split_ifs at h with hany
    · cases h
      exact Origin.same hp
    · cases h
      rcases mem_append.1 hp with hp | hp
      · exact Origin.same hp
      · cases mem_singleton.1 hp
        refine Origin.matched rfl ?_
        intro q hq heq
        exact hany (any_eq_true.2 ⟨q, hq, beq_of_eq heq⟩)
  | unmatchReader reader =>
    simp only [removeMatchedReader] at h
    cases h
    split at hp
    · exact Origin.same hp
    · rw [processAckedChanges_matchedReaders] at hp
      exact Origin.same (mem_of_mem_swapRemove hp)
  | dropReader reader =>
    cases h
    exact Origin.same (mem_filter.1 hp).1
  | syncReader reader isReliable =>
    cases h
    rcases mem_of_mem_replaceF hp with hp | ⟨p, hpw, hf⟩
    · exact Origin.same hp
    · split_ifs at hf
      cases hf
      exact Origin.kept p hpw rfl rfl
  | acknack reader a now => exact origin_handleAcknackMessage h hp
  | advance notifier =>
    rw [advance_matchedReaders h] at hp
    exact Origin.same hp

end StatefulWriter

end Int2Dds.Writer
