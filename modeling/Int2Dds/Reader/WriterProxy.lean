import Int2Dds.Lib.OrdList
import Int2Dds.Reader.FragmentSet
import Int2Dds.Rtps.Common

/-!
# The reader's record of one matched writer

`WriterProxy` holds the receive ledger `changesFromWriter` (what is known of each sequence number), the delivery
cursor `expectedSn`, and the changes that arrived ahead of the cursor, `bufferedChange`. Sequence numbers are
`i64` values; a step whose sequence number arithmetic overflows does not complete (`none`).

* ledger: the operations, each with what it does to the entry of every sequence number (`find?_…`);
* ACKNACK base: `calculateBitmapBase` and the walk `firstUnsettledFrom` (`firstUnsettledFrom_spec`);
* buffer: `addBufferedChange`, `flushBufferedChanges` (`Flushed`), `giveUpOldestHoleIfFull`.
-/

namespace Int2Dds.Reader
open Lib Rtps OrdList

/-! ## Data types -/

inductive NotAvailable
  | filtered
  | removed
  | unspecified
deriving DecidableEq

inductive ChangeFromWriterStatusKind
  | unknown
  | missing
  | received
  | notAvailable (reason : NotAvailable)
deriving DecidableEq

structure FragmentInfo where
  totalFragments : Nat
  receivedFragments : FragmentSet
  isComplete : Bool
deriving DecidableEq

def FragmentInfo.start (total : Nat) : FragmentInfo := ⟨total, FragmentSet.new, false⟩

def FragmentInfo.forget (info : FragmentInfo) : FragmentInfo :=
  { info with receivedFragments := info.receivedFragments.clear, isComplete := false }

structure ChangeFromWriter where
  sequenceNumber : Int
  status : ChangeFromWriterStatusKind
  isRelevant : Bool
  fragmentInfo : Option FragmentInfo
deriving DecidableEq

def ChangeFromWriter.irrelevant (c : ChangeFromWriter) : ChangeFromWriter :=
  { c with status := .received, isRelevant := false }

variable (c : ChangeFromWriter)

theorem ChangeFromWriter.irrelevant_sn : c.irrelevant.sequenceNumber = c.sequenceNumber := rfl

def ChangeFromWriter.arrived (c : ChangeFromWriter) : ChangeFromWriter := { c with status := .received }

theorem ChangeFromWriter.arrived_sn : c.arrived.sequenceNumber = c.sequenceNumber := rfl

def ChangeFromWriter.announced (c : ChangeFromWriter) : ChangeFromWriter :=
  if c.status = .unknown then { c with status := .missing } else c

theorem ChangeFromWriter.announced_sn : c.announced.sequenceNumber = c.sequenceNumber := by
  unfold announced; split_ifs <;> rfl

def ChangeFromWriter.forget (c : ChangeFromWriter) : ChangeFromWriter :=
  { c with fragmentInfo := c.fragmentInfo.map FragmentInfo.forget }

theorem ChangeFromWriter.forget_sn : c.forget.sequenceNumber = c.sequenceNumber := rfl

/-- An entry with at least empty fragment knowledge of `total` fragments. -/
def ChangeFromWriter.seeded (total : Nat) (c : ChangeFromWriter) : ChangeFromWriter :=
  match c.fragmentInfo with
  | none => { c with fragmentInfo := some (FragmentInfo.start total) }
  | some _ => c

theorem ChangeFromWriter.seeded_sn (total : Nat) (c : ChangeFromWriter) :
    (c.seeded total).sequenceNumber = c.sequenceNumber := by
  unfold seeded; split <;> rfl

/-- The fragments known after a DATA_FRAG of a sample of `total` brought `received`. A new total replaces the one on
record, and fragments above it go. -/
def FragmentInfo.merge (info : FragmentInfo) (total : Nat) (received : List Nat) : FragmentInfo :=
  let kept := if total ≠ info.totalFragments then info.receivedFragments.truncate total else info.receivedFragments
  let merged := (received.filter (fun f => decide (1 ≤ f ∧ f ≤ total))).foldl FragmentSet.insert kept
  ⟨total, merged, decide (merged.len = total)⟩

def ChangeFromWriter.merged (total : Nat) (received : List Nat) (c : ChangeFromWriter) : ChangeFromWriter :=
  { c with fragmentInfo := some ((c.fragmentInfo.getD (FragmentInfo.start total)).merge total received) }

theorem ChangeFromWriter.merged_sn (total : Nat) (received : List Nat) (c : ChangeFromWriter) :
    (c.merged total received).sequenceNumber = c.sequenceNumber := rfl

/-- A change, with its place in the writer's order and its payload. -/
structure CacheChange where
  sequenceNumber : Int
  dataValue : List UInt8
deriving DecidableEq

abbrev Ledger := OrdList ChangeFromWriter.sequenceNumber

/-- Changes ahead of the cursor, ordered by sequence number alone. -/
abbrev ChangeBuffer := OrdList CacheChange.sequenceNumber

structure WriterProxy where
  changesFromWriter : Ledger
  expectedSn : Int
  bufferedChange : ChangeBuffer
  bufferedBytes : Nat
  lastHeartbeatCount : Option (BitVec 32)
  lastHeartbeatAt : Option Nat
  lastHeartbeatFragCount : Option (BitVec 32)
deriving DecidableEq

def maxFragmentsPerSample : Nat := 2 ^ 20

namespace WriterProxy

def new : WriterProxy where
  changesFromWriter := OrdList.empty
  expectedSn := snUnknown
  bufferedChange := OrdList.empty
  bufferedBytes := 0
  lastHeartbeatCount := none
  lastHeartbeatAt := none
  lastHeartbeatFragCount := none

def entry (p : WriterProxy) (sn : Int) : Option ChangeFromWriter := p.changesFromWriter.find? sn

/-! ## Ledger updates -/

/-- `changes_from_writer.entry(d.sequence_number).or_insert(d)`, then `f`. -/
def upsertChange (p : WriterProxy) (d : ChangeFromWriter) (f : ChangeFromWriter → ChangeFromWriter)
    (hf : ∀ c, (f c).sequenceNumber = c.sequenceNumber) : WriterProxy :=
  { p with changesFromWriter := p.changesFromWriter.upsert d f hf }

theorem entry_upsertChange (p : WriterProxy) (d : ChangeFromWriter) (f : ChangeFromWriter → ChangeFromWriter)
    (hf : ∀ c, (f c).sequenceNumber = c.sequenceNumber) (k : Int) :
    (p.upsertChange d f hf).entry k =
      if k = d.sequenceNumber then some (f ((p.entry k).getD d)) else p.entry k :=
  find?_upsert _ _ _ hf _

def markChangeReceived (p : WriterProxy) (sn : Int) (fragmentInfo : Option FragmentInfo) : WriterProxy :=
  p.upsertChange ⟨sn, .received, true, fragmentInfo⟩ ChangeFromWriter.arrived ChangeFromWriter.arrived_sn

variable {info : Option FragmentInfo} {p : WriterProxy}

@[simp] theorem markChangeReceived_expectedSn (sn : Int) :
    (p.markChangeReceived sn info).expectedSn = p.expectedSn := rfl

@[simp] theorem markChangeReceived_bufferedChange (sn : Int) :
    (p.markChangeReceived sn info).bufferedChange = p.bufferedChange := rfl

@[simp] theorem markChangeReceived_lastHeartbeatCount (sn : Int) :
    (p.markChangeReceived sn info).lastHeartbeatCount = p.lastHeartbeatCount := rfl

def irrelevantChangeSet (p : WriterProxy) (sn : Int) : WriterProxy :=
  p.upsertChange ⟨sn, .received, false, none⟩ ChangeFromWriter.irrelevant ChangeFromWriter.irrelevant_sn

/-- A HEARTBEAT_FRAG announced fragments up to `lastFragmentNum`; a total the DATA_FRAGs settled wins. -/
def seedFragmentTotal (p : WriterProxy) (sn : Int) (lastFragmentNum : Nat) : WriterProxy :=
  let total := min lastFragmentNum maxFragmentsPerSample
  p.upsertChange ⟨sn, .received, true, none⟩ (ChangeFromWriter.seeded total) (ChangeFromWriter.seeded_sn total)

/-- DATA_FRAGs of a sample of `total` fragments brought the fragments `received`. -/
def markFragReceived (p : WriterProxy) (sn : Int) (total : Nat) (received : List Nat) : WriterProxy :=
  p.upsertChange ⟨sn, .received, true, some (FragmentInfo.start total)⟩ (ChangeFromWriter.merged total received)
    (ChangeFromWriter.merged_sn total received)

/-- Undoes `markFragReceived`: the bytes behind the record are gone. -/
def forgetFragments (p : WriterProxy) (sn : Int) : WriterProxy :=
  { p with changesFromWriter := p.changesFromWriter.modify sn ChangeFromWriter.forget ChangeFromWriter.forget_sn }

theorem entry_forgetFragments (p : WriterProxy) (sn k : Int) :
    (p.forgetFragments sn).entry k =
      if k = sn then (p.entry k).map ChangeFromWriter.forget else p.entry k :=
  find?_modify _ ChangeFromWriter.forget_sn _

/-- Advances to `firstAvailable` and forgets what is below it. -/
def dropChangesBelow (p : WriterProxy) (firstAvailable : Int) : WriterProxy :=
  { p with
    expectedSn := max p.expectedSn firstAvailable
    changesFromWriter := p.changesFromWriter.filter (fun c => decide (firstAvailable ≤ c.sequenceNumber)) }

/-- `lost_changes_update`; the SAMPLE_LOST callbacks do not touch the proxy. -/
def lostChangesUpdate (p : WriterProxy) (firstAvailable : Int) : WriterProxy :=
  dropChangesBelow { p with expectedSn := max p.expectedSn firstAvailable } firstAvailable

theorem entry_dropChangesBelow (first k : Int) :
    (p.dropChangesBelow first).entry k = if first ≤ k then p.entry k else none := by
  have h := find?_filter p.changesFromWriter (fun c => decide (first ≤ c.sequenceNumber)) k
  rw [show (p.dropChangesBelow first).entry k = _ from h, show p.changesFromWriter.find? k = p.entry k from rfl]
  cases he : p.entry k with
  | none => simp
  | some c =>
    obtain ⟨-, rfl⟩ := find?_eq_some.1 he
    split_ifs with hk <;> simp [Option.filter, hk]

/-! ## The ACKNACK base -/

/-- The writer owes nothing more for `change`: it arrived whole, or was declared removed. -/
def isSettled (change : ChangeFromWriter) : Bool :=
  match change.status with
  | .received => (change.fragmentInfo.map FragmentInfo.isComplete).getD true
  | .notAvailable .removed => true
  | _ => false

variable {c : ChangeFromWriter} {base start : Int} {p p' : WriterProxy}

theorem isSettled_iff : isSettled c = true ↔
    (c.status = .received ∧ ∀ info ∈ c.fragmentInfo, info.isComplete = true) ∨
      c.status = .notAvailable .removed := by
  unfold isSettled
  split <;> rename_i hst
  · cases c.fragmentInfo <;> simp [hst]
  · simp [hst]
  · simp_all

/-- The walk of `first_unsettled_from` over the entries from `next` on. -/
def unsettledWalk : List ChangeFromWriter → Int → Option Int
  | [], next => some next
  | c :: rest, next =>
    if c.sequenceNumber ≠ next ∨ isSettled c = false then some next
    else (addI64 c.sequenceNumber 1).bind (unsettledWalk rest)

/-- The first sequence number at or after `start` that is not settled. -/
def firstUnsettledFrom (p : WriterProxy) (start : Int) : Option Int :=
  unsettledWalk (p.changesFromWriter.filter (fun c => decide (start ≤ c.sequenceNumber))).toList start

/-- The base an ACKNACK carries: the walk from the oldest entry, or 1 when there is none. -/
def calculateBitmapBase (p : WriterProxy) : Option Int :=
  match p.changesFromWriter.first? with
  | none => some 1
  | some c => p.firstUnsettledFrom c.sequenceNumber

def changesFromWriterMax (p : WriterProxy) : Int :=
  match p.changesFromWriter.toList.getLast? with
  | none => snUnknown
  | some c => c.sequenceNumber

theorem unsettledWalk_spec {l : List ChangeFromWriter} {next : Int} (h : unsettledWalk l next = some base) :
    next ≤ base ∧ ∀ k, next ≤ k → k < base → ∃ c ∈ l, c.sequenceNumber = k ∧ isSettled c = true := by
  induction l generalizing next with
  | nil =>
    obtain rfl : next = base := by simpa [unsettledWalk] using h
    exact ⟨le_rfl, fun k h1 h2 => absurd h2 (not_lt.2 h1)⟩
  | cons c rest ih =>
    unfold unsettledWalk at h
    split_ifs at h with hc
    · obtain rfl : next = base := by simpa using h
      exact ⟨le_rfl, fun k h1 h2 => absurd h2 (not_lt.2 h1)⟩
    · push Not at hc
      obtain ⟨hsn, hset⟩ := hc
      obtain ⟨n, hn, hw⟩ := Option.bind_eq_some_iff.1 h
      obtain ⟨rfl, -⟩ := addI64_eq_some.1 hn
      obtain ⟨hle, hall⟩ := ih hw
      refine ⟨by omega, fun k h1 h2 => ?_⟩
      rcases eq_or_lt_of_le h1 with rfl | hlt
      · exact ⟨c, List.mem_cons_self, hsn, by simpa using hset⟩
      · obtain ⟨d, hd, hk⟩ := hall k (by omega) h2
        exact ⟨d, List.mem_cons_of_mem _ hd, hk⟩

theorem firstUnsettledFrom_spec (h : p.firstUnsettledFrom start = some base) :
    start ≤ base ∧ ∀ k, start ≤ k → k < base → ∃ c, p.entry k = some c ∧ isSettled c = true := by
  obtain ⟨hle, hall⟩ := unsettledWalk_spec h
  refine ⟨hle, fun k h1 h2 => ?_⟩
  obtain ⟨c, hc, hk, hs⟩ := hall k h1 h2
  exact ⟨c, find?_eq_some.2 ⟨(mem_filter.1 hc).1, hk⟩, hs⟩

theorem unsettledWalk_stop {l : List ChangeFromWriter} {next : Int} (h : unsettledWalk l next = some base)
    (hl : l.Pairwise (fun a b => a.sequenceNumber < b.sequenceNumber)) (hge : ∀ c ∈ l, next ≤ c.sequenceNumber) :
    ∀ c ∈ l, c.sequenceNumber = base → isSettled c = false := by
  induction l generalizing next with
  | nil => exact nofun
  | cons c rest ih =>
    have hrest := fun x (hx : x ∈ rest) => List.rel_of_pairwise_cons hl hx
    have hc := hge c List.mem_cons_self
    unfold unsettledWalk at h
    split_ifs at h with hstop
    · obtain rfl : next = base := by simpa using h
      intro d hd hdn
      rcases List.mem_cons.1 hd with rfl | hd
      · exact hstop.resolve_left (not_not.2 hdn)
      · have := hrest d hd
        omega
    · obtain ⟨n, hn, hw⟩ := Option.bind_eq_some_iff.1 h
      obtain ⟨rfl, -⟩ := addI64_eq_some.1 hn
      have hle := (unsettledWalk_spec hw).1
      intro d hd hdn
      rcases List.mem_cons.1 hd with rfl | hd
      · omega
      · exact ih hw hl.of_cons (fun x hx => by have := hrest x hx; omega) d hd hdn

theorem firstUnsettledFrom_stop (h : p.firstUnsettledFrom start = some base) (hc : p.entry base = some c) :
    isSettled c = false := by
  obtain ⟨hmem, hsn⟩ := find?_eq_some.1 hc
  have hle := (firstUnsettledFrom_spec h).1
  refine unsettledWalk_stop h (OrdList.sorted _) (fun d hd => ?_) c (mem_filter.2 ⟨hmem, ?_⟩) hsn
  · simpa using (mem_filter.1 hd).2
  · simpa [hsn] using hle

theorem settled_of_lt_base {n : Int} (hb : p.calculateBitmapBase = some base) (hc : p.entry n = some c)
    (hlt : n < base) : ∃ d, p.entry n = some d ∧ isSettled d = true := by
  obtain ⟨hmem, rfl⟩ := find?_eq_some.1 hc
  unfold calculateBitmapBase at hb
  cases hf : p.changesFromWriter.first? with
  | none => exact absurd hmem (first?_eq_none.1 hf c)
  | some first =>
    rw [hf] at hb
    exact (firstUnsettledFrom_spec hb).2 _ (first?_le hf hmem) hlt

/-! ## HEARTBEAT ranges -/

def announceChange (p : WriterProxy) (sn : Int) : WriterProxy :=
  p.upsertChange ⟨sn, .missing, true, none⟩ ChangeFromWriter.announced ChangeFromWriter.announced_sn

/-- `count` turns of the loop of `update_changes_for_heartbeat_range`, from `currentSn` on. -/
def announceFrom (p : WriterProxy) (currentSn : Int) : Nat → Option WriterProxy
  | 0 => some p
  | count + 1 => (addI64 currentSn 1).bind (fun next => (p.announceChange currentSn).announceFrom next count)

theorem announceFrom_spec {sn : Int} {count : Nat} (h : p.announceFrom sn count = some p') :
    p'.expectedSn = p.expectedSn ∧ p'.bufferedChange = p.bufferedChange ∧ p'.bufferedBytes = p.bufferedBytes ∧
      p'.lastHeartbeatCount = p.lastHeartbeatCount ∧
      ∀ k, p'.entry k = if sn ≤ k ∧ k < sn + count then
        some ((p.entry k).getD ⟨k, .missing, true, none⟩).announced else p.entry k := by
  induction count generalizing p sn with
  | zero =>
    cases h
    exact ⟨rfl, rfl, rfl, rfl, fun k => (if_neg (by push_cast; omega)).symm⟩
  | succ count ih =>
    obtain ⟨next, hnext, h⟩ := Option.bind_eq_some_iff.1 h
    obtain ⟨rfl, -⟩ := addI64_eq_some.1 hnext
    obtain ⟨h1, h2, h3, h4, h5⟩ := ih h
    refine ⟨h1, h2, h3, h4, fun k => ?_⟩
    rw [h5 k, announceChange, entry_upsertChange]
    rcases eq_or_ne k sn with rfl | hne
    · rw [if_neg (by omega), if_pos rfl, if_pos (by omega)]
    · simp only [hne]
      exact if_congr (by push_cast; omega) rfl rfl

def updateChangesForHeartbeatRange (p : WriterProxy) (firstSn lastSn : Int) : Option WriterProxy :=
  p.announceFrom firstSn (lastSn + 1 - firstSn).toNat

/-- `count` turns of the loop of `missing_changes_for_heartbeat`, from `currentSn` on. -/
def missingFrom (p : WriterProxy) (currentSn : Int) : Nat → Option (List Int)
  | 0 => some []
  | count + 1 =>
    (addI64 currentSn 1).bind fun next => (p.missingFrom next count).map fun rest =>
      match p.entry currentSn with
      | some c => if c.status ≠ .missing then rest else currentSn :: rest
      | none => currentSn :: rest

def missingChangesForHeartbeat (p : WriterProxy) (firstSn lastSn : Int) : Option (List Int) :=
  p.missingFrom firstSn (lastSn + 1 - firstSn).toNat

/-- Folds a HEARTBEAT into the ledger; the ACKNACK base and the numbers to request. -/
def processHeartbeat (p : WriterProxy) (firstSn lastSn : Int) : Option (WriterProxy × Int × List Int) := do
  let p := p.lostChangesUpdate firstSn
  let firstSn := max firstSn p.expectedSn
  let p ← p.updateChangesForHeartbeatRange firstSn lastSn
  let base ← p.calculateBitmapBase
  let missing ← p.missingChangesForHeartbeat firstSn lastSn
  some (p, base, missing)

theorem calculateBitmapBase_congr {q : WriterProxy} (h : p.changesFromWriter = q.changesFromWriter) :
    p.calculateBitmapBase = q.calculateBitmapBase := by
  unfold calculateBitmapBase firstUnsettledFrom; rw [h]

/-- Entries below `firstSn` go, numbers from the cursor on to `lastSn` get one. -/
theorem processHeartbeat_spec {firstSn lastSn : Int} {missing : List Int}
    (h : p.processHeartbeat firstSn lastSn = some (p', base, missing)) :
    p'.expectedSn = max p.expectedSn firstSn ∧ p'.bufferedChange = p.bufferedChange ∧
      p'.lastHeartbeatCount = p.lastHeartbeatCount ∧ p'.calculateBitmapBase = some base ∧
      ∀ k, p'.entry k = if max p.expectedSn firstSn ≤ k ∧ k ≤ lastSn then
          some ((p.entry k).getD ⟨k, .missing, true, none⟩).announced
        else if firstSn ≤ k then p.entry k else none := by
  unfold processHeartbeat at h
  have hcur : (p.lostChangesUpdate firstSn).expectedSn = max p.expectedSn firstSn := by
    simp [lostChangesUpdate, dropChangesBelow]
  simp only [Option.bind_eq_bind, Option.bind_eq_some_iff] at h
  obtain ⟨q, hq, b, hb, m, -, heq⟩ := h
  cases heq
  obtain ⟨h1, h2, -, h4, h5⟩ := announceFrom_spec hq
  refine ⟨h1.trans hcur, h2, h4, hb, fun k => ?_⟩
  have hdrop : (p.lostChangesUpdate firstSn).entry k = if firstSn ≤ k then p.entry k else none :=
    entry_dropChangesBelow _ _
  rw [h5 k, hdrop]
  by_cases hin : max p.expectedSn firstSn ≤ k ∧ k ≤ lastSn
  · rw [if_pos (by omega), if_pos hin, if_pos (by omega)]
  · rw [if_neg (by omega), if_neg hin]

theorem entry_foldl_irrelevantChangeSet (p : WriterProxy) (sns : List Int) (k : Int) :
    (sns.foldl irrelevantChangeSet p).entry k =
      if k ∈ sns then some ((p.entry k).getD ⟨k, .received, false, none⟩).irrelevant else p.entry k := by
  induction sns generalizing p with
  | nil => simp
  | cons sn sns ih =>
    rw [List.foldl_cons, ih, irrelevantChangeSet, entry_upsertChange]
    rcases eq_or_ne k sn with rfl | hne
    · simp only [List.mem_cons_self]
      split_ifs <;> rfl
    · simp only [hne, if_false, List.mem_cons, false_or]

theorem foldl_irrelevantChangeSet_frame (p : WriterProxy) (sns : List Int) :
    (sns.foldl irrelevantChangeSet p).expectedSn = p.expectedSn ∧
      (sns.foldl irrelevantChangeSet p).bufferedChange = p.bufferedChange ∧
      (sns.foldl irrelevantChangeSet p).lastHeartbeatCount = p.lastHeartbeatCount := by
  induction sns generalizing p with
  | nil => exact ⟨rfl, rfl, rfl⟩
  | cons sn sns ih => exact ih (p.irrelevantChangeSet sn)

/-! ## The buffer -/

/-- Keeps a change that is ahead of the cursor; one already held stays. -/
def addBufferedChange (p : WriterProxy) (change : CacheChange) : WriterProxy :=
  match p.bufferedChange.find? change.sequenceNumber with
  | some _ => p
  | none =>
    { p with
      bufferedChange := p.bufferedChange.insertNew change
      bufferedBytes := p.bufferedBytes + change.dataValue.length }

/-- The loop of `flush_buffered_changes`: the changes released, the buffer left, the cursor and the byte count. The
cursor moves by one for each change released, wherever that lies. -/
def flushLoop : (buffer : List CacheChange) →
    buffer.Pairwise (fun a b => a.sequenceNumber < b.sequenceNumber) → Int → Nat →
    Option (List CacheChange × ChangeBuffer × Int × Nat)
  | [], h, expected, bytes => some ([], ⟨[], h⟩, expected, bytes)
  | change :: rest, h, expected, bytes =>
    if change.sequenceNumber ≤ expected then
      (addI64 expected 1).bind fun next =>
        (flushLoop rest h.of_cons next (bytes - change.dataValue.length)).map fun (out, left) =>
          (change :: out, left)
    else some ([], ⟨change :: rest, h⟩, expected, bytes)

def flushBufferedChanges (p : WriterProxy) : Option (WriterProxy × List CacheChange) :=
  (flushLoop p.bufferedChange.toList p.bufferedChange.sorted p.expectedSn p.bufferedBytes).map
    fun (out, buffer, expected, bytes) =>
      ({ p with bufferedChange := buffer, expectedSn := expected, bufferedBytes := bytes }, out)

/-- Gives up the oldest hole once the buffer holds `limitBytes`. -/
def giveUpOldestHoleIfFull (p : WriterProxy) (limitBytes : Nat) : Option (WriterProxy × List CacheChange) :=
  if p.bufferedBytes < limitBytes then some (p, [])
  else match p.bufferedChange.first? with
    | none => some (p, [])
    | some firstBuffered => (p.dropChangesBelow firstBuffered.sequenceNumber).flushBufferedChanges

/-- A flush from cursor `start` releases an initial part `out` of the buffer and stops at the first change above the
cursor it has reached. -/
structure Flushed (buffer : ChangeBuffer) (start : Int) (out : List CacheChange) (rest : ChangeBuffer)
    (stop : Int) : Prop where
  split : buffer.toList = out ++ rest.toList
  stop_eq : stop = start + out.length
  out_lt : ∀ c ∈ out, c.sequenceNumber < stop
  lt_rest : ∀ c ∈ rest, stop < c.sequenceNumber
  /-- With nothing buffered below the cursor the changes released are exactly the numbers it passes. -/
  covers : (∀ c ∈ buffer, start ≤ c.sequenceNumber) →
    ∀ n, start ≤ n → n < stop → ∃ c ∈ out, c.sequenceNumber = n

theorem flushLoop_flushed {l : List CacheChange} {h : l.Pairwise (fun a b => a.sequenceNumber < b.sequenceNumber)}
    {stop : Int} {bytes bytes' : Nat} {out : List CacheChange} {rest : ChangeBuffer}
    (hf : flushLoop l h start bytes = some (out, rest, stop, bytes')) : Flushed ⟨l, h⟩ start out rest stop := by
  induction l generalizing start bytes out with
  | nil =>
    obtain ⟨rfl, rfl, rfl, -⟩ := hf
    exact ⟨rfl, by simp, by simp, by simp [mem_def], fun _ n h1 h2 => absurd h2 (not_lt.2 h1)⟩
  | cons c l ih =>
    have hc := fun x (hx : x ∈ l) => List.rel_of_pairwise_cons h hx
    unfold flushLoop at hf
    split_ifs at hf with hle
    · obtain ⟨next, hnext, hf⟩ := Option.bind_eq_some_iff.1 hf
      obtain ⟨rfl, -⟩ := addI64_eq_some.1 hnext
      obtain ⟨⟨out', left⟩, hf, heq⟩ := Option.map_eq_some_iff.1 hf
      obtain ⟨rfl, rfl⟩ := heq
      have ih := ih hf
      have hstop := ih.stop_eq
      refine ⟨congrArg (c :: ·) ih.split, ?_, ?_, ih.lt_rest, fun hge n h1 h2 => ?_⟩
      · rw [List.length_cons]; push_cast; omega
      · intro d hd
        rcases List.mem_cons.1 hd with rfl | hd
        · omega
        · exact ih.out_lt d hd
      · -- the head sits at the cursor, and the tail at or above the next number
        have hhead : start ≤ c.sequenceNumber := hge c List.mem_cons_self
        rcases eq_or_lt_of_le h1 with rfl | hlt
        · exact ⟨c, List.mem_cons_self, by omega⟩
        · obtain ⟨d, hd, hk⟩ := ih.covers (fun d hd => by have := hc d hd; omega) n (by omega) h2
          exact ⟨d, List.mem_cons_of_mem _ hd, hk⟩
    · obtain ⟨rfl, rfl, rfl, -⟩ := hf
      refine ⟨rfl, by simp, by simp, fun d hd => ?_, fun _ n h1 h2 => absurd h2 (not_lt.2 h1)⟩
      rcases List.mem_cons.1 hd with rfl | hd
      · exact not_le.1 hle
      · exact (not_le.1 hle).trans (hc d hd)

theorem flushBufferedChanges_spec {out : List CacheChange} (h : p.flushBufferedChanges = some (p', out)) :
    Flushed p.bufferedChange p.expectedSn out p'.bufferedChange p'.expectedSn ∧
      p'.changesFromWriter = p.changesFromWriter ∧ p'.lastHeartbeatCount = p.lastHeartbeatCount := by
  obtain ⟨⟨o, b, e, n⟩, hl, heq⟩ := Option.map_eq_some_iff.1 h
  obtain ⟨rfl, rfl⟩ := heq
  exact ⟨flushLoop_flushed hl, rfl, rfl⟩

theorem mem_addBufferedChange {change c : CacheChange} (h : c ∈ (p.addBufferedChange change).bufferedChange) :
    c = change ∨ c ∈ p.bufferedChange := by
  unfold addBufferedChange at h
  split at h
  · exact .inr h
  · rcases mem_insertNew.1 h with h | ⟨rfl, -⟩
    · exact .inr h
    · exact .inl rfl

theorem mem_addBufferedChange_of_mem (change : CacheChange) {c : CacheChange} (h : c ∈ p.bufferedChange) :
    c ∈ (p.addBufferedChange change).bufferedChange := by
  unfold addBufferedChange
  split
  · exact h
  · exact mem_insertNew.2 (.inl h)

theorem exists_mem_addBufferedChange (p : WriterProxy) (change : CacheChange) :
    ∃ c ∈ (p.addBufferedChange change).bufferedChange, c.sequenceNumber = change.sequenceNumber := by
  unfold addBufferedChange
  split
  · next c hc => exact ⟨c, find?_eq_some.1 hc⟩
  · next hno => exact ⟨change, mem_insertNew.2 (.inr ⟨rfl, find?_eq_none.1 hno⟩), rfl⟩

end WriterProxy

end Int2Dds.Reader
