import Int2Dds.Lib.Run
import Int2Dds.Reader.WriterProxy
import Int2Dds.Rtps.NumberSet

/-!
# The reliable reader as a transition system

The handlers of the user traffic logic that touch one `WriterProxy` of a reliable reader, as functions of it, and
their runs: samples are handed on in order (`handed_increasing`), and none that comes in time is lost
(`arrivals_conserved`).
-/

namespace Int2Dds.Reader
open Lib Rtps WriterProxy List Option OrdList
open WriterProxy (Flushed)

/-! ## Handlers -/

/-- The payload bytes one writer may pin while a hole is open. -/
def inOrderBufferBytes : Nat := 16 * 1024 * 1024

/-- A DATA, or a sample whose last fragment arrived: the proxy and the changes handed on. -/
def deliverChangeToReader (p : WriterProxy) (change : CacheChange) (fragmentInfo : Option FragmentInfo) :
    Option (WriterProxy × List CacheChange) :=
  let p := p.markChangeReceived change.sequenceNumber fragmentInfo
  if change.sequenceNumber = p.expectedSn then
    (addI64 p.expectedSn 1).bind fun next =>
      ({ p with expectedSn := next }.flushBufferedChanges).map fun (p, flushed) => (p, change :: flushed)
  else if p.expectedSn < change.sequenceNumber then
    (p.addBufferedChange change).giveUpOldestHoleIfFull inOrderBufferBytes
  else some (p, [])

/-- A HEARTBEAT as its parser accepts it, and the time it arrives. -/
structure Heartbeat where
  firstSn : Int
  lastSn : Int
  count : BitVec 32
  now : Nat
  first_pos : 0 < firstSn

/-- The proxy, the changes handed on, and the ACKNACK base with the numbers to request. A HEARTBEAT whose count is not
accepted does nothing. -/
def handleHeartbeatMessage (p : WriterProxy) (hb : Heartbeat) :
    Option (WriterProxy × List CacheChange × Option (Int × List Int)) :=
  if shouldAcceptCount hb.count p.lastHeartbeatCount p.lastHeartbeatAt false hb.now = false then some (p, [], none)
  else
    let p := { p with lastHeartbeatCount := some hb.count, lastHeartbeatAt := some hb.now }
    (p.processHeartbeat hb.firstSn hb.lastSn).bind fun (p, base, missing) =>
      let p := if p.expectedSn = snUnknown then { p with expectedSn := hb.firstSn } else p
      p.flushBufferedChanges.map fun (p, pending) => (p, pending, some (base, missing))

structure Gap where
  gapStart : Int
  gapList : SequenceNumberSet
  start_pos : 0 < gapStart
  list_valid : gapList.isValid = true

/-- The numbers `lo`, `lo + 1`, …, `hi - 1`. -/
def snRange (lo hi : Int) : List Int := (List.range (hi - lo).toNat).map (fun i : Nat => lo + (i : Int))

/-- The numbers a GAP names: `gapStart` up to the base of its list, and the members of the list. -/
def Gap.irrelevantChanges (g : Gap) : Option (List Int) :=
  g.gapList.extractNumbers.map (fun numbers => snRange g.gapStart g.gapList.bitmapBase ++ numbers)

theorem mem_snRange {lo hi n : Int} : n ∈ snRange lo hi ↔ lo ≤ n ∧ n < hi := by
  simp only [snRange, List.mem_map, List.mem_range]
  constructor
  · rintro ⟨i, hi', rfl⟩; omega
  · intro h; exact ⟨(n - lo).toNat, by omega, by omega⟩

theorem pairwise_snRange (lo hi : Int) : (snRange lo hi).Pairwise (· < ·) := by
  refine pairwise_map.2 (pairwise_lt_range.imp ?_)
  omega

theorem Gap.irrelevantChanges_eq (g : Gap) :
    g.irrelevantChanges = if ∀ p ∈ g.gapList.setPositions, g.gapList.bitmapBase + (p : Int) < 2 ^ 63 then
      some (snRange g.gapStart g.gapList.bitmapBase ++
        g.gapList.setPositions.map fun p : Nat => g.gapList.bitmapBase + (p : Int)) else none := by
  have hread := @NumberSet.map_mapM_add Int addI64 id (2 ^ 63) g.gapList.bitmapBase g.gapList.setPositions
    (fun p _ => by rw [Option.map_id]; rfl)
  simp only [List.map_id_fun, Option.map_id, id_eq] at hread
  rw [irrelevantChanges, show g.gapList.extractNumbers = _ from hread]
  split_ifs <;> rfl

section

variable {g : Gap} {irrelevant : List Int} (h : g.irrelevantChanges = some irrelevant)
include h

theorem Gap.pairwise_irrelevantChanges : irrelevant.Pairwise (· < ·) := by
  rw [Gap.irrelevantChanges_eq] at h
  split_ifs at h
  cases h
  refine pairwise_append.2 ⟨pairwise_snRange _ _, pairwise_map.2 ?_, ?_⟩
  · exact (NumberSet.pairwise_setPositions).imp (fun hlt => by omega)
  · intro a ha b hb
    have hlt := (mem_snRange.1 ha).2
    obtain ⟨p, -, rfl⟩ := mem_map.1 hb
    omega

theorem Gap.le_last {n last : Int}
    (hlast : irrelevant.getLast? = some last) (hn : n ∈ irrelevant) : n ≤ last := by
  obtain ⟨init, rfl⟩ := getLast?_eq_some_iff.1 hlast
  rcases mem_append.1 hn with hn | hn
  · exact ((pairwise_append.1 (g.pairwise_irrelevantChanges h)).2.2 n hn last mem_cons_self).le
  · exact (mem_singleton.1 hn).le

theorem Gap.irrelevantChanges_pos
    {n : Int} (hn : n ∈ irrelevant) : 1 ≤ n := by
  obtain ⟨numbers, hnum, rfl⟩ := map_eq_some_iff.1 h
  have hstart := g.start_pos
  have hbase := SequenceNumberSet.base_pos g.list_valid
  rcases mem_append.1 hn with hn | hn
  · have := mem_snRange.1 hn; omega
  · have := SequenceNumberSet.base_le hnum hn; omega

end

/-- The cursor moved past the last number a GAP names, when that number is not already below it. -/
def advancePastGap (p : WriterProxy) (last : Option Int) : Option (WriterProxy × List CacheChange) :=
  match last with
  | none => some (p, [])
  | some last =>
    if p.expectedSn ≤ last then (addI64 last 1).bind fun next => { p with expectedSn := next }.flushBufferedChanges
    else some (p, [])

def handleGapMessage (p : WriterProxy) (g : Gap) : Option (WriterProxy × List CacheChange) :=
  g.irrelevantChanges.bind fun irrelevant =>
    (advancePastGap p irrelevant.getLast?).map fun (p, pending) =>
      (irrelevant.foldl irrelevantChangeSet p, pending)

/-- A HEARTBEAT_FRAG: a count that does not increase is dropped. -/
def handleHeartbeatFragMessage (p : WriterProxy) (sn : Int) (lastFragmentNum : Nat) (count : BitVec 32) :
    WriterProxy :=
  if p.lastHeartbeatFragCount.any (fun last => decide (count.toNat ≤ last.toNat)) then p
  else { p with lastHeartbeatFragCount := some count }.seedFragmentTotal sn lastFragmentNum

/-- The base and the missing numbers of an ACKNACK that answers no HEARTBEAT; `some none` when none is sent. -/
def prepareAcknack (p : WriterProxy) (isPreemptive finalFlag : Bool) : Option (Option (Int × List Int)) :=
  if isPreemptive then
    if p.expectedSn ≠ snUnknown then some none else some (some (0, []))
  else do
    let base ← p.calculateBitmapBase
    let missing ← p.missingChangesForHeartbeat base p.changesFromWriterMax
    some (if missing.isEmpty && finalFlag then none else some (base, missing))

/-! ## Runs -/

/-- The messages and events of a run, with what their parsers guarantee. -/
inductive Input
  | data (change : CacheChange) (fragmentInfo : Option FragmentInfo) (pos : 0 < change.sequenceNumber)
  | dataFrag (sn : Int) (total : Nat) (received : List Nat) (pos : 0 < sn) (total_pos : 0 < total)
  | heartbeat (hb : Heartbeat)
  | heartbeatFrag (sn : Int) (lastFragmentNum : Nat) (count : BitVec 32) (pos : 0 < sn)
      (last_pos : 0 < lastFragmentNum)
  | gap (g : Gap)
  | forgetFragments (sn : Int)

/-- What happened so far. Nothing in the program reads it. -/
structure History where
  /-- The changes handed to the reader cache, in order. -/
  handed : List CacheChange
  /-- The sequence numbers of the samples that arrived whole. -/
  received : List Int
  /-- The numbers named by the GAPs. -/
  named : List Int
  /-- The first numbers of the HEARTBEATs. -/
  firsts : List Int
  /-- The spans given up: from the cursor to the first buffered change. -/
  givenUp : List (Int × Int)
  /-- The fragments of each sample that arrived since they were last forgotten. -/
  held : Int → Finset Nat
  /-- The ACKNACK bases answered to HEARTBEATs. -/
  bases : List Int

def History.start : History := ⟨[], [], [], [], [], fun _ => ∅, []⟩

structure ReaderState where
  proxy : WriterProxy
  history : History

def ReaderState.start : ReaderState := ⟨WriterProxy.new, History.start⟩

def giveUpSpan (p : WriterProxy) (limitBytes : Nat) : List (Int × Int) :=
  if p.bufferedBytes < limitBytes then []
  else match p.bufferedChange.first? with
    | none => []
    | some firstBuffered => [(p.expectedSn, firstBuffered.sequenceNumber)]

def abandoned (p : WriterProxy) (change : CacheChange) : List (Int × Int) :=
  if p.expectedSn < change.sequenceNumber then giveUpSpan (p.addBufferedChange change) inOrderBufferBytes else []

def History.hold (h : History) (sn : Int) (total : Nat) (received : List Nat) : History :=
  let now := h.held sn ∪ (received.filter (fun f => decide (1 ≤ f ∧ f ≤ total))).toFinset
  { h with
    held := Function.update h.held sn now
    received := if Finset.Icc 1 total ⊆ now then sn :: h.received else h.received }

def ReaderState.step (s : ReaderState) : Input → Option ReaderState
  | .data change fragmentInfo _ =>
    (deliverChangeToReader s.proxy change fragmentInfo).map fun (p, out) =>
      ⟨p, { s.history with
        handed := s.history.handed ++ out
        received := change.sequenceNumber :: s.history.received
        givenUp := abandoned s.proxy change ++ s.history.givenUp }⟩
  | .dataFrag sn total received _ _ =>
    some ⟨s.proxy.markFragReceived sn total received, s.history.hold sn total received⟩
  | .heartbeat hb =>
    (handleHeartbeatMessage s.proxy hb).map fun (p, out, answer) =>
      match answer with
      | none => ⟨p, s.history⟩
      | some (base, _) =>
        ⟨p, { s.history with
          handed := s.history.handed ++ out
          firsts := hb.firstSn :: s.history.firsts
          bases := base :: s.history.bases }⟩
  | .heartbeatFrag sn lastFragmentNum count _ _ =>
    some { s with proxy := handleHeartbeatFragMessage s.proxy sn lastFragmentNum count }
  | .gap g =>
    (handleGapMessage s.proxy g).bind fun (p, out) => g.irrelevantChanges.map fun irrelevant =>
      ⟨p, { s.history with
        handed := s.history.handed ++ out
        named := irrelevant ++ s.history.named }⟩
  | .forgetFragments sn =>
    some ⟨s.proxy.forgetFragments sn, { s.history with held := Function.update s.history.held sn ∅ }⟩

/-! ## What the handlers can do -/

@[simp] theorem WriterProxy.addBufferedChange_expectedSn (p : WriterProxy) (c : CacheChange) :
    (p.addBufferedChange c).expectedSn = p.expectedSn := by
  unfold addBufferedChange; split <;> rfl

@[simp] theorem WriterProxy.addBufferedChange_changesFromWriter (p : WriterProxy) (c : CacheChange) :
    (p.addBufferedChange c).changesFromWriter = p.changesFromWriter := by
  unfold addBufferedChange; split <;> rfl

@[simp] theorem WriterProxy.addBufferedChange_lastHeartbeatCount (p : WriterProxy) (c : CacheChange) :
    (p.addBufferedChange c).lastHeartbeatCount = p.lastHeartbeatCount := by
  unfold addBufferedChange; split <;> rfl

theorem addBufferedChange_markChangeReceived (p : WriterProxy) (c : CacheChange) (sn : Int)
    (info : Option FragmentInfo) :
    (p.markChangeReceived sn info).addBufferedChange c = (p.addBufferedChange c).markChangeReceived sn info := by
  unfold addBufferedChange
  simp only [markChangeReceived, upsertChange]
  split <;> rfl

variable {out : List CacheChange} {p p' : WriterProxy} {s : ReaderState}

/-- Everything `give_up_oldest_hole_if_full` can do to a proxy that holds a change. -/
theorem giveUpOldestHoleIfFull_cases {limit : Nat} (hne : p.bufferedChange.first? ≠ none)
    (h : p.giveUpOldestHoleIfFull limit = some (p', out)) :
    (p.bufferedBytes < limit ∧ p' = p ∧ out = [] ∧ giveUpSpan p limit = []) ∨
    (limit ≤ p.bufferedBytes ∧ ∃ f, p.bufferedChange.first? = some f ∧
      giveUpSpan p limit = [(p.expectedSn, f.sequenceNumber)] ∧
      Flushed p.bufferedChange (max p.expectedSn f.sequenceNumber) out p'.bufferedChange p'.expectedSn ∧
      p'.changesFromWriter = (p.dropChangesBelow f.sequenceNumber).changesFromWriter ∧
      p'.lastHeartbeatCount = p.lastHeartbeatCount) := by
  unfold giveUpOldestHoleIfFull at h
  unfold giveUpSpan
  split_ifs at h ⊢ with hlt
  · cases h
    exact .inl ⟨hlt, rfl, rfl, rfl⟩
  · cases hf : p.bufferedChange.first? with
    | none => exact absurd hf hne
    | some f =>
      rw [hf] at h
      exact .inr ⟨not_lt.1 hlt, f, rfl, rfl, flushBufferedChanges_spec h⟩

theorem first?_addBufferedChange_ne_none (c : CacheChange) : (p.addBufferedChange c).bufferedChange.first? ≠ none := by
  intro h
  rw [first?_eq_none] at h
  unfold addBufferedChange at h
  split at h
  · next d hd => exact h d (find?_eq_some.1 hd).1
  · next hno => exact h c (mem_insertNew.2 (.inr ⟨rfl, find?_eq_none.1 hno⟩))

/-- A delivery hands the change and what it releases, keeps it, keeps it and gives up the oldest hole, or drops it. -/
theorem deliverChangeToReader_cases {c : CacheChange} {info : Option FragmentInfo}
    (h : deliverChangeToReader p c info = some (p', out)) :
    p'.lastHeartbeatCount = p.lastHeartbeatCount ∧
    ((c.sequenceNumber = p.expectedSn ∧ abandoned p c = [] ∧ (∃ flushed, out = c :: flushed ∧
        Flushed p.bufferedChange (p.expectedSn + 1) flushed p'.bufferedChange p'.expectedSn) ∧
        p'.changesFromWriter = (p.markChangeReceived c.sequenceNumber info).changesFromWriter) ∨
      (p.expectedSn < c.sequenceNumber ∧ abandoned p c = [] ∧ out = [] ∧
        p' = (p.addBufferedChange c).markChangeReceived c.sequenceNumber info) ∨
      (p.expectedSn < c.sequenceNumber ∧ inOrderBufferBytes ≤ (p.addBufferedChange c).bufferedBytes ∧
        ∃ f, (p.addBufferedChange c).bufferedChange.first? = some f ∧
          abandoned p c = [(p.expectedSn, f.sequenceNumber)] ∧
          Flushed (p.addBufferedChange c).bufferedChange (max p.expectedSn f.sequenceNumber) out
            p'.bufferedChange p'.expectedSn ∧
          p'.changesFromWriter = ((p.markChangeReceived c.sequenceNumber info).dropChangesBelow
            f.sequenceNumber).changesFromWriter) ∨
      (c.sequenceNumber < p.expectedSn ∧ abandoned p c = [] ∧ out = [] ∧
        p' = p.markChangeReceived c.sequenceNumber info)) := by
  unfold deliverChangeToReader at h
  simp only [show (p.markChangeReceived c.sequenceNumber info).expectedSn = p.expectedSn from rfl] at h
  unfold abandoned
  split_ifs at h with heq hlt
  · obtain ⟨next, hnext, h⟩ := bind_eq_some_iff.1 h
    obtain ⟨rfl, -⟩ := addI64_eq_some.1 hnext
    obtain ⟨⟨q, flushed⟩, hfl, he⟩ := map_eq_some_iff.1 h
    cases he
    obtain ⟨hF, hledger, hhb⟩ := flushBufferedChanges_spec hfl
    exact ⟨hhb, .inl ⟨heq, if_neg (by omega), ⟨flushed, rfl, hF⟩, hledger⟩⟩
  · rw [addBufferedChange_markChangeReceived] at h
    rw [if_pos hlt]
    rcases giveUpOldestHoleIfFull_cases
        (p := (p.addBufferedChange c).markChangeReceived c.sequenceNumber info)
        (first?_addBufferedChange_ne_none c) h with
      ⟨-, rfl, rfl, hspan⟩ | ⟨hfull, f, hf, hspan, hF, hledger, hhb⟩
    · exact ⟨by simp, .inr (.inl ⟨hlt, hspan, rfl, rfl⟩)⟩
    · refine ⟨hhb.trans (by simp), .inr (.inr (.inl ⟨hlt, hfull, f, hf, ?_, ?_, ?_⟩))⟩
      · rw [← addBufferedChange_expectedSn p c]; exact hspan
      · rw [← addBufferedChange_expectedSn p c]; exact hF
      · rw [hledger]
        simp [dropChangesBelow, markChangeReceived, upsertChange]
  · cases h
    exact ⟨rfl, .inr (.inr (.inr ⟨by omega, if_neg hlt, rfl, rfl⟩))⟩

/-- A HEARTBEAT does nothing, or advances the cursor to `firstSn`, releases what is then due, and leaves the ledger
`processHeartbeat` makes. -/
theorem handleHeartbeatMessage_cases {hb : Heartbeat} {answer : Option (Int × List Int)}
    (h : handleHeartbeatMessage p hb = some (p', out, answer)) :
    (p' = p ∧ out = [] ∧ answer = none) ∨
    ∃ base missing, answer = some (base, missing) ∧
      shouldAcceptCount hb.count p.lastHeartbeatCount p.lastHeartbeatAt false hb.now = true ∧
      p'.lastHeartbeatCount = some hb.count ∧
        Flushed p.bufferedChange (max p.expectedSn hb.firstSn) out p'.bufferedChange p'.expectedSn ∧
      p'.calculateBitmapBase = some base ∧
      ∀ k, p'.entry k = if max p.expectedSn hb.firstSn ≤ k ∧ k ≤ hb.lastSn then
          some ((p.entry k).getD ⟨k, .missing, true, none⟩).announced
        else if hb.firstSn ≤ k then p.entry k else none := by
  unfold handleHeartbeatMessage at h
  split_ifs at h with hacc
  · cases h
    exact .inl ⟨rfl, rfl, rfl⟩
  · obtain ⟨⟨q, base, missing⟩, hq, h⟩ := bind_eq_some_iff.1 h
    obtain ⟨h1, h2, h3, h4, h5⟩ := processHeartbeat_spec hq
    -- the cursor is at least the positive `firstSn`, so the branch for an unknown cursor is dead
    have hne : q.expectedSn ≠ snUnknown := by
      have := hb.first_pos
      unfold snUnknown
      omega
    simp only [hne, if_false] at h
    obtain ⟨⟨r, pending⟩, hr, heq⟩ := map_eq_some_iff.1 h
    cases heq
    obtain ⟨hF, hledger, hcount⟩ := flushBufferedChanges_spec hr
    rw [h1, h2] at hF
    refine .inr ⟨base, missing, rfl, by simpa using hacc, hcount.trans h3, hF, ?_, fun k => ?_⟩
    · rw [calculateBitmapBase_congr hledger, h4]
    · rw [entry, hledger]; exact h5 k

/-- A GAP marks what it names and, if its last number is not below the cursor, moves the cursor past it and releases
what is then due. -/
theorem handleGapMessage_cases {g : Gap} (h : handleGapMessage p g = some (p', out)) :
    ∃ irrelevant, g.irrelevantChanges = some irrelevant ∧ p'.lastHeartbeatCount = p.lastHeartbeatCount ∧
      (∀ k, p'.entry k = if k ∈ irrelevant then some ((p.entry k).getD ⟨k, .received, false, none⟩).irrelevant
        else p.entry k) ∧
      ((∃ last, irrelevant.getLast? = some last ∧ p.expectedSn ≤ last ∧
          Flushed p.bufferedChange (last + 1) out p'.bufferedChange p'.expectedSn) ∨
        ((∀ last, irrelevant.getLast? = some last → last < p.expectedSn) ∧ out = [] ∧
          p'.bufferedChange = p.bufferedChange ∧ p'.expectedSn = p.expectedSn)) := by
  obtain ⟨irrelevant, hirr, h⟩ := bind_eq_some_iff.1 h
  obtain ⟨⟨q, pending⟩, hq, heq⟩ := map_eq_some_iff.1 h
  cases heq
  obtain ⟨hfe, hfb, hfc⟩ := foldl_irrelevantChangeSet_frame q irrelevant
  have hentry := entry_foldl_irrelevantChangeSet q irrelevant
  rw [hfe, hfb, hfc]
  refine ⟨irrelevant, hirr, ?_⟩
  unfold advancePastGap at hq
  cases hlast : irrelevant.getLast? with
  | none =>
    rw [hlast] at hq
    cases hq
    exact ⟨rfl, hentry, .inr ⟨by simp, rfl, rfl, rfl⟩⟩
  | some last =>
    simp only [hlast] at hq
    split_ifs at hq with hle
    · obtain ⟨next, hnext, hq⟩ := bind_eq_some_iff.1 hq
      obtain ⟨rfl, -⟩ := addI64_eq_some.1 hnext
      obtain ⟨hF, hledger, hcount⟩ := flushBufferedChanges_spec hq
      refine ⟨hcount, fun k => ?_, .inl ⟨last, rfl, hle, hF⟩⟩
      rw [hentry k, show q.entry k = p.entry k by rw [entry, hledger]; rfl]
    · cases hq
      refine ⟨rfl, hentry, .inr ⟨fun l hl => ?_, rfl, rfl, rfl⟩⟩
      cases hl
      exact not_le.1 hle

/-- The steps that leave the cursor, the buffer and the changes handed as they are. -/
theorem step_frame {s' : ReaderState} {m : Input} (h : s.step m = some s') (hm : ∀ c i pos, m ≠ .data c i pos)
    (hhb : ∀ hb, m ≠ .heartbeat hb) (hg : ∀ g, m ≠ .gap g) :
    s'.proxy.expectedSn = s.proxy.expectedSn ∧ s'.proxy.bufferedChange = s.proxy.bufferedChange ∧
      s'.proxy.lastHeartbeatCount = s.proxy.lastHeartbeatCount ∧ s'.history.handed = s.history.handed ∧
      s'.history.named = s.history.named ∧ s'.history.firsts = s.history.firsts ∧
      s'.history.givenUp = s.history.givenUp ∧ s'.history.bases = s.history.bases := by
  cases m with
  | data c i pos => exact absurd rfl (hm c i pos)
  | heartbeat hb => exact absurd rfl (hhb hb)
  | gap g => exact absurd rfl (hg g)
  | dataFrag | forgetFragments => cases h; exact ⟨rfl, rfl, rfl, rfl, rfl, rfl, rfl, rfl⟩
  | heartbeatFrag sn last count pos lpos =>
    cases h
    unfold handleHeartbeatFragMessage
    split <;> exact ⟨rfl, rfl, rfl, rfl, rfl, rfl, rfl, rfl⟩

/-! ## In-order delivery -/

/-- The changes handed lie below the cursor in increasing order, the buffered ones above it. -/
structure Ordered (s : ReaderState) : Prop where
  cursor : s.proxy.expectedSn = snUnknown ∨ 1 ≤ s.proxy.expectedSn
  increasing : s.history.handed.Pairwise (fun a b => a.sequenceNumber < b.sequenceNumber)
  handed_lt : ∀ c ∈ s.history.handed, c.sequenceNumber < s.proxy.expectedSn
  buffer_gt : ∀ c ∈ s.proxy.bufferedChange, s.proxy.expectedSn < c.sequenceNumber
  buffer_pos : ∀ c ∈ s.proxy.bufferedChange, 0 < c.sequenceNumber

theorem ordered_start : Ordered ReaderState.start :=
  ⟨.inl rfl, Pairwise.nil, nofun, nofun, nofun⟩

theorem Flushed.ordered {buffer rest : ChangeBuffer} {start stop : Int} {l : List CacheChange}
    (hF : Flushed buffer start out rest stop) (hstart : 1 ≤ start)
    (hinc : l.Pairwise (fun a b => a.sequenceNumber < b.sequenceNumber)) (hlt : ∀ c ∈ l, c.sequenceNumber < start)
    (hbuf : ∀ c ∈ l, ∀ b ∈ buffer, c.sequenceNumber < b.sequenceNumber) (hpos : ∀ b ∈ buffer, 0 < b.sequenceNumber)
    (hh : s.history.handed = l ++ out) (hb : s.proxy.bufferedChange = rest) (he : s.proxy.expectedSn = stop) :
    Ordered s := by
  have hsub : ∀ c ∈ out, c ∈ buffer := fun c hc => by
    rw [OrdList.mem_def, hF.split]; exact mem_append_left _ hc
  have hrest : ∀ c ∈ rest, c ∈ buffer := fun c hc => by
    rw [OrdList.mem_def, hF.split]; exact mem_append_right _ hc
  have hout : out.Pairwise (fun a b => a.sequenceNumber < b.sequenceNumber) := by
    have hs := buffer.sorted
    rw [hF.split] at hs
    exact (pairwise_append.1 hs).1
  have hstop := hF.stop_eq
  refine ⟨.inr (by omega), ?_, ?_, ?_, ?_⟩
  · rw [hh]
    exact pairwise_append.2 ⟨hinc, hout, fun c hc b hb => hbuf c hc b (hsub b hb)⟩
  · intro c hc
    rw [hh] at hc
    rw [he]
    rcases mem_append.1 hc with hc | hc
    · have := hlt c hc; omega
    · exact hF.out_lt c hc
  · rw [hb, he]; exact hF.lt_rest
  · rw [hb]; exact fun c hc => hpos c (hrest c hc)

theorem Ordered.first_gt {c f : CacheChange} (hs : Ordered s) (hlt : s.proxy.expectedSn < c.sequenceNumber)
    (hf : (s.proxy.addBufferedChange c).bufferedChange.first? = some f) : s.proxy.expectedSn < f.sequenceNumber := by
  rcases mem_addBufferedChange (first?_mem hf) with rfl | hfb
  · exact hlt
  · exact hs.buffer_gt f hfb

theorem ordered_step {s' : ReaderState} {m : Input} (hs : Ordered s) (h : s.step m = some s') : Ordered s' := by
  have hcross : ∀ c ∈ s.history.handed, ∀ b ∈ s.proxy.bufferedChange, c.sequenceNumber < b.sequenceNumber :=
    fun c hc b hb => (hs.handed_lt c hc).trans (hs.buffer_gt b hb)
  cases m with
  | data c info pos =>
    obtain ⟨⟨p', out⟩, hd, heq⟩ := map_eq_some_iff.1 h
    cases heq
    have hbuf : ∀ b ∈ (s.proxy.addBufferedChange c).bufferedChange, 0 < b.sequenceNumber ∧
        (s.proxy.expectedSn < c.sequenceNumber → s.proxy.expectedSn < b.sequenceNumber) := by
      intro b hb
      rcases mem_addBufferedChange hb with rfl | hb
      · exact ⟨pos, id⟩
      · exact ⟨hs.buffer_pos b hb, fun _ => hs.buffer_gt b hb⟩
    obtain ⟨-, ⟨heq, -, ⟨flushed, rfl, hF⟩, -⟩ | ⟨hlt, -, rfl, rfl⟩ | ⟨hlt, -, f, hf, -, hF, -⟩ | ⟨-, -, rfl, rfl⟩⟩ :=
      deliverChangeToReader_cases hd
    · refine Flushed.ordered (l := s.history.handed ++ [c]) hF (by omega) ?_ ?_ ?_ hs.buffer_pos (by simp)
        rfl rfl
      · refine pairwise_append.2 ⟨hs.increasing, pairwise_singleton _ _, fun a ha b hb => ?_⟩
        obtain rfl := mem_singleton.1 hb
        rw [heq]; exact hs.handed_lt a ha
      · intro a ha
        rcases mem_append.1 ha with ha | ha
        · have := hs.handed_lt a ha; omega
        · obtain rfl := mem_singleton.1 ha; omega
      · intro a ha b hb
        rcases mem_append.1 ha with ha | ha
        · exact hcross a ha b hb
        · obtain rfl := mem_singleton.1 ha
          rw [heq]; exact hs.buffer_gt b hb
    · refine ⟨?_, by simpa using hs.increasing, ?_, ?_, fun b hb => (hbuf b hb).1⟩
      · simpa using hs.cursor
      · simpa using hs.handed_lt
      · intro b hb
        simpa using (hbuf b hb).2 hlt
    · have hfmem := first?_mem hf
      have hfpos := (hbuf f hfmem).1
      exact Flushed.ordered hF (by omega) hs.increasing (fun a ha => by have := hs.handed_lt a ha; omega)
        (fun a ha b hb => (hs.handed_lt a ha).trans ((hbuf b hb).2 hlt)) (fun b hb => (hbuf b hb).1) rfl rfl rfl
    · exact ⟨hs.cursor, by simpa using hs.increasing, by simpa using hs.handed_lt, hs.buffer_gt, hs.buffer_pos⟩
  | heartbeat hb =>
    obtain ⟨⟨p', out, answer⟩, hd, heq⟩ := map_eq_some_iff.1 h
    rcases handleHeartbeatMessage_cases hd with ⟨rfl, rfl, rfl⟩ | ⟨base, missing, rfl, -, -, hF, -⟩
    · cases heq; exact hs
    · cases heq
      have hpos := hb.first_pos
      exact Flushed.ordered hF (by omega) hs.increasing (fun a ha => by have := hs.handed_lt a ha; omega) hcross
        hs.buffer_pos rfl rfl rfl
  | gap g =>
    obtain ⟨⟨p', out⟩, hd, h⟩ := bind_eq_some_iff.1 h
    obtain ⟨irrelevant, -, heq⟩ := map_eq_some_iff.1 h
    cases heq
    obtain ⟨irr, hirr, -, -, ⟨last, hlast, hle, hF⟩ | ⟨-, rfl, hb, he⟩⟩ := handleGapMessage_cases hd
    · have hpos := Gap.irrelevantChanges_pos hirr (mem_of_mem_getLast? hlast)
      exact Flushed.ordered hF (by omega) hs.increasing (fun a ha => by have := hs.handed_lt a ha; omega) hcross
        hs.buffer_pos rfl rfl rfl
    · exact ⟨by rw [he]; exact hs.cursor, by simpa using hs.increasing, by simpa [he] using hs.handed_lt,
        by rw [hb, he]; exact hs.buffer_gt, by rw [hb]; exact hs.buffer_pos⟩
  | dataFrag | heartbeatFrag | forgetFragments =>
    obtain ⟨he, hb, -, hh, -⟩ := step_frame h nofun nofun nofun
    exact ⟨he ▸ hs.cursor, hh ▸ hs.increasing, he ▸ hh ▸ hs.handed_lt, he ▸ hb ▸ hs.buffer_gt, hb ▸ hs.buffer_pos⟩

/-- **In-order delivery.** In every state a run reaches, the changes handed to the reader cache are strictly
increasing in their sequence numbers, and the buffer lies above a known cursor. -/
theorem handed_increasing (ms : List Input) (s : ReaderState)
    (h : run ReaderState.step ReaderState.start ms = some s) :
    (s.history.handed.map CacheChange.sequenceNumber).Pairwise (· < ·) ∧
      (s.proxy.expectedSn ≠ snUnknown →
        ∀ c ∈ s.proxy.bufferedChange, s.proxy.expectedSn < c.sequenceNumber) := by
  have hs := run_invariant (fun _ _ _ => ordered_step) ordered_start h
  exact ⟨pairwise_map.2 hs.increasing, fun _ => hs.buffer_gt⟩

def emptyData (n : Nat) : Input := .data ⟨n + 1, []⟩ none (by dsimp only; omega)

def heartbeatOf (first : Nat) (last : Int) (count : BitVec 32) : Input :=
  .heartbeat ⟨first + 1, last, count, 0, by omega⟩

theorem handed_increasing_reordered :
    ∃ s, run ReaderState.step ReaderState.start [emptyData 1, heartbeatOf 0 2 1, emptyData 0] = some s ∧
      s.history.handed.map CacheChange.sequenceNumber = [1, 2] ∧ s.proxy.expectedSn = 3 ∧
      (s.history.handed.map CacheChange.sequenceNumber).Pairwise (· < ·) ∧
      (s.proxy.expectedSn ≠ snUnknown →
        ∀ c ∈ s.proxy.bufferedChange, s.proxy.expectedSn < c.sequenceNumber) := by
  obtain ⟨s, hs, h1, h2⟩ : ∃ s, run ReaderState.step ReaderState.start [emptyData 1, heartbeatOf 0 2 1, emptyData 0] =
      some s ∧ s.history.handed.map CacheChange.sequenceNumber = [1, 2] ∧ s.proxy.expectedSn = 3 :=
    exists_run (by decide)
  exact ⟨s, hs, h1, h2, handed_increasing _ s hs⟩

/-! ## Nothing is lost -/

/-- The changes handed to the reader cache, and those that wait for their turn. -/
def ReaderState.kept (s : ReaderState) : List CacheChange := s.history.handed ++ s.proxy.bufferedChange.toList

section

variable {s' t : ReaderState} {m : Input} {ms : List Input}

/-- A sample joins what is kept, unless it is late or there is one of its number. -/
theorem kept_data {c : CacheChange} {info : Option FragmentInfo} {pos : 0 < c.sequenceNumber}
    (h : s.step (.data c info pos) = some s') :
    c.sequenceNumber = s.proxy.expectedSn ∧ s'.kept = s.history.handed ++ c :: s.proxy.bufferedChange.toList ∨
      s.proxy.expectedSn < c.sequenceNumber ∧
        s'.kept = s.history.handed ++ (s.proxy.addBufferedChange c).bufferedChange.toList ∨
      c.sequenceNumber < s.proxy.expectedSn ∧ s'.kept = s.kept := by
  obtain ⟨⟨p', out⟩, hd, rfl⟩ := map_eq_some_iff.1 h
  unfold ReaderState.kept
  dsimp only
  rw [append_assoc]
  obtain ⟨-, ⟨heq, -, ⟨flushed, rfl, hF⟩, -⟩ | ⟨hlt, -, rfl, rfl⟩ | ⟨hlt, -, f, -, -, hF, -⟩ | ⟨hlt, -, rfl, rfl⟩⟩ :=
    deliverChangeToReader_cases hd
  · exact .inl ⟨heq, by rw [hF.split, cons_append]⟩
  · exact .inr (.inl ⟨hlt, rfl⟩)
  · exact .inr (.inl ⟨hlt, by rw [hF.split]⟩)
  · exact .inr (.inr ⟨hlt, rfl⟩)

theorem mem_kept_step (h : s.step m = some s') (c : CacheChange) :
    (c ∈ s.kept → c ∈ s'.kept) ∧ (c ∈ s'.kept → c ∈ s.kept ∨ ∃ info pos, m = .data c info pos) := by
  -- a flush moves changes from the buffer to what was handed
  have hsame (heq : s'.kept = s.kept) :
      (c ∈ s.kept → c ∈ s'.kept) ∧ (c ∈ s'.kept → c ∈ s.kept ∨ ∃ info pos, m = .data c info pos) :=
    heq ▸ ⟨id, .inl⟩
  cases m with
  | data d i pos =>
    have hold : c ∈ s.proxy.bufferedChange.toList → c ∈ (s.proxy.addBufferedChange d).bufferedChange.toList :=
      mem_addBufferedChange_of_mem d
    have hnew : c ∈ (s.proxy.addBufferedChange d).bufferedChange.toList → c = d ∨ c ∈ s.proxy.bufferedChange.toList :=
      mem_addBufferedChange
    rcases kept_data h with ⟨-, hk⟩ | ⟨-, hk⟩ | ⟨-, hk⟩ <;> rw [hk] <;> unfold ReaderState.kept <;> grind
  | heartbeat hb =>
    obtain ⟨⟨p', out, answer⟩, hd, heq⟩ := map_eq_some_iff.1 h
    rcases handleHeartbeatMessage_cases hd with ⟨rfl, rfl, rfl⟩ | ⟨base, missing, rfl, -, -, hF, -⟩ <;> cases heq
    · exact hsame rfl
    · exact hsame (by rw [ReaderState.kept, ReaderState.kept, hF.split, append_assoc])
  | gap g =>
    obtain ⟨⟨p', out⟩, hd, h⟩ := bind_eq_some_iff.1 h
    obtain ⟨irrelevant, -, heq⟩ := map_eq_some_iff.1 h
    cases heq
    obtain ⟨irr, -, -, -, ⟨last, -, -, hF⟩ | ⟨-, rfl, hb, -⟩⟩ := handleGapMessage_cases hd
    · exact hsame (by rw [ReaderState.kept, ReaderState.kept, hF.split, append_assoc])
    · exact hsame (by rw [ReaderState.kept, ReaderState.kept, hb, append_nil])
  | dataFrag | heartbeatFrag | forgetFragments =>
    obtain ⟨-, hb, -, hh, -⟩ := step_frame h nofun nofun nofun
    exact hsame (by rw [ReaderState.kept, hh, hb, ReaderState.kept])

theorem mem_kept_run (h : run ReaderState.step s ms = some t) (c : CacheChange) :
    (c ∈ s.kept → c ∈ t.kept) ∧ (c ∈ t.kept → c ∈ s.kept ∨ ∃ info pos, .data c info pos ∈ ms) := by
  induction ms generalizing s with
  | nil =>
    cases h
    exact ⟨id, .inl⟩
  | cons m ms ih =>
    obtain ⟨s', hs, hr⟩ := run_cons.1 h
    obtain ⟨hkeeps, hcame⟩ := mem_kept_step hs c
    refine ⟨fun hc => (ih hr).1 (hkeeps hc), fun hc => ?_⟩
    rcases (ih hr).2 hc with hc | ⟨info, pos, hm⟩
    · refine (hcame hc).imp_right ?_
      rintro ⟨info, pos, rfl⟩
      exact ⟨info, pos, mem_cons_self⟩
    · exact .inr ⟨info, pos, mem_cons_of_mem m hm⟩

end

/-- **Nothing that comes in time is lost, and nothing is made up.** What was handed or waits came as a DATA. A sample
that came when the cursor was not past its number was handed if the cursor now is, and waits if it is not. -/
theorem arrivals_conserved (ms : List Input) (t : ReaderState)
    (h : run ReaderState.step ReaderState.start ms = some t) :
    (∀ c ∈ t.kept, ∃ info pos, Input.data c info pos ∈ ms) ∧
    ∀ (before after : List Input) (change : CacheChange) (info : Option FragmentInfo) (pos : 0 < change.sequenceNumber)
      (u : ReaderState), ms = before ++ .data change info pos :: after →
      run ReaderState.step ReaderState.start before = some u → u.proxy.expectedSn ≤ change.sequenceNumber →
      ∃ c, c.sequenceNumber = change.sequenceNumber ∧
        (c ∈ t.history.handed ∧ c.sequenceNumber < t.proxy.expectedSn ∨
          c ∈ t.proxy.bufferedChange ∧ t.proxy.expectedSn < c.sequenceNumber) := by
  refine ⟨fun c hc => ((mem_kept_run h c).2 hc).resolve_left not_mem_nil, ?_⟩
  rintro before after change info pos u rfl hu hdue
  obtain ⟨u', hu', hrest⟩ := run_append.1 h
  obtain rfl : u = u' := some.inj (hu.symm.trans hu')
  obtain ⟨v, hv, hrest⟩ := run_cons.1 hrest
  obtain ⟨c, hc, hsn⟩ : ∃ c ∈ v.kept, c.sequenceNumber = change.sequenceNumber := by
    rcases kept_data hv with ⟨-, hk⟩ | ⟨-, hk⟩ | ⟨hlt, -⟩
    · exact ⟨change, by simp [hk], rfl⟩
    · obtain ⟨c, hc, hsn⟩ := exists_mem_addBufferedChange u.proxy change
      exact ⟨c, hk ▸ mem_append_right _ hc, hsn⟩
    · exact absurd hlt (not_lt.2 hdue)
  have hs := run_invariant (fun _ _ _ => ordered_step) ordered_start h
  refine ⟨c, hsn, ?_⟩
  rcases mem_append.1 ((mem_kept_run hrest c).1 hc) with hc | hc
  · exact .inl ⟨hc, hs.handed_lt c hc⟩
  · exact .inr ⟨hc, hs.buffer_gt c hc⟩

theorem arrivals_conserved_ahead :
    ∃ t, run ReaderState.step ReaderState.start [emptyData 1, heartbeatOf 0 3 1] = some t ∧
      ∃ c, c.sequenceNumber = 2 ∧ (c ∈ t.history.handed ∧ c.sequenceNumber < t.proxy.expectedSn ∨
        c ∈ t.proxy.bufferedChange ∧ t.proxy.expectedSn < c.sequenceNumber) :=
  ⟨_, rfl, (arrivals_conserved _ _ rfl).2 [] [heartbeatOf 0 3 1] ⟨2, []⟩ none (by decide) _ rfl rfl (by decide)⟩

end Int2Dds.Reader
