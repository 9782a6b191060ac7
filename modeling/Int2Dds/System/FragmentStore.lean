import Mathlib.Data.List.AList
import Mathlib.Data.List.Sort
import Int2Dds.Messages.DataFragWire
import Int2Dds.Messages.FragmentBuffer
import Int2Dds.Reader.FragmentLedger

/-!
# Reassembly buffers and the ledgers behind them

A participant keeps one reassembly buffer for each writer, reader and sequence number, and each reliable reader keeps
a ledger of the fragments it has for each writer. The two are updated in different places: by a DATA_FRAG as it comes,
when a sample is complete, when a buffer is evicted, and by the HEARTBEATs that drop ledger entries.

* `UserLogic.step` : one message, with the evictions it causes;
* `fragments_backed` : in a run whose DATA_FRAGs meet `TurnOk`, every fragment of an incomplete entry is in the
  buffer, and every fragment the buffer lacks is asked for.
-/

namespace Int2Dds.System

open Lib Rtps Messages List Option
open Reader (WriterProxy FragmentInfo FragmentSet deliverChangeToReader)

abbrev BufferKey := Guid × EntityId × Int

def fragmentBufferLimit : Nat := 128

/-- `FRAGMENT_BUFFER_BYTES`. -/
def fragmentBufferBudget : Nat := 1024 * 1024 * 1024

def entityIdUnknown : EntityId := 0

/-- The user traffic logic of a participant: its readers, their matches and their buffers. -/
structure UserLogic where
  readers : List EntityId
  /-- The writers a best-effort reader is matched with. -/
  stateless : EntityId → Guid → Bool
  /-- The writers of this participant that are gone. -/
  orphaned : Guid → Bool
  /-- The proxies of the reliable readers. -/
  proxies : EntityId → Guid → Option WriterProxy
  fragmentBuffers : AList (fun _ : BufferKey => FragmentBuffer)
  fragmentBufferBytes : Nat
  proxies_mem : ∀ r w, (proxies r w).isSome → r ∈ readers

/-- A DATA_FRAG as accepted, with its timestamp, the time, and what the system answers: whether the buffer of a reader
can be allocated and its cache locked. -/
structure FragMessage where
  guidPrefix : GuidPrefix
  frag : DataFrag
  accepted : frag.Accepted
  sourceTimestamp : Option Messages.RtpsTime
  now : Nat
  allocates : EntityId → Bool
  cacheHealthy : EntityId → Bool

namespace FragMessage

variable (m : FragMessage)

def writer : Guid := ⟨m.guidPrefix, m.frag.writerId⟩

def sn : Int := m.frag.writerSn.toI64

def key (r : EntityId) : BufferKey := (m.writer, r, m.sn)

def total : Nat := slotCount m.frag.fragmentSize.toNat m.frag.sampleSize.toNat

def Covers (f : Nat) : Prop :=
  m.frag.fragmentStartingNum.toNat ≤ f ∧ f < m.frag.fragmentStartingNum.toNat + m.frag.fragmentsInSubmessage.toNat

instance (m : FragMessage) (f : Nat) : Decidable (m.Covers f) := inferInstanceAs (Decidable (_ ∧ _))

end FragMessage

namespace UserLogic

/-! ## Readers and their proxies -/

variable (s : UserLogic) (m : FragMessage) (key : BufferKey) (w : Guid) (matched : List EntityId) (r : EntityId)
  (b : FragmentBuffer)

def isMatched (w : Guid) : Bool := (s.proxies r w).isSome || s.stateless r w

def getMatchedReaders (readerId : EntityId) : List EntityId :=
  if readerId ≠ entityIdUnknown then
    if readerId ∈ s.readers ∧ (s.isMatched readerId w = true ∨ s.orphaned w = true) then [readerId] else []
  else s.readers.filter (fun r => s.isMatched r w)

def updateProxy (w : Guid) (f : WriterProxy → WriterProxy) : UserLogic :=
  { s with
    proxies := fun r' w' => if r' = r ∧ w' = w then (s.proxies r w).map f else s.proxies r' w'
    proxies_mem := by
      intro r' w' h
      split_ifs at h with heq
      · rw [Option.isSome_map] at h
        rw [heq.1]
        exact s.proxies_mem r w h
      · exact s.proxies_mem r' w' h }

/-- A handler on the proxy of `w` at the reader `r`, if any; `none` when it does not complete. -/
def withProxy (w : Guid) (f : WriterProxy → Option WriterProxy) : Option UserLogic :=
  match s.proxies r w with
  | none => some s
  | some p => (f p).map fun p' => s.updateProxy r w (fun _ => p')

/-! ## The buffers -/

def insertFragmentBuffer : UserLogic :=
  { s with
    fragmentBuffers := s.fragmentBuffers.insert key b
    fragmentBufferBytes := s.fragmentBufferBytes + b.totalSize }

def storeFragmentBuffer : UserLogic := { s with fragmentBuffers := s.fragmentBuffers.insert key b }

def removeFragmentBuffer : UserLogic :=
  match s.fragmentBuffers.lookup key with
  | none => s
  | some b =>
    { s with
      fragmentBuffers := s.fragmentBuffers.erase key
      fragmentBufferBytes := s.fragmentBufferBytes - b.totalSize }

def isOver (maxSize maxBytes incomingBytes count bytes : Nat) : Bool :=
  decide (maxSize < count ∨ maxBytes < bytes + incomingBytes)

/-- The candidates, in order, until what is left is within the limits. -/
def takeVictims (maxSize maxBytes incomingBytes : Nat) :
    List (BufferKey × FragmentBuffer) → Nat → Nat → List BufferKey
  | [], _, _ => []
  | (key, b) :: rest, count, bytes =>
    if isOver maxSize maxBytes incomingBytes count bytes then
      key :: takeVictims maxSize maxBytes incomingBytes rest (count - 1) (bytes - b.totalSize)
    else []

/-- Incomplete buffers come first, stalest first; then complete ones, oldest first. -/
def evictsBefore (a b : BufferKey × FragmentBuffer) : Prop :=
  let age (b : FragmentBuffer) := if b.allFragmentsReceived then (1, b.createdAt) else (0, b.lastUpdated)
  (age a.2).1 < (age b.2).1 ∨ ((age a.2).1 = (age b.2).1 ∧ (age a.2).2 ≤ (age b.2).2)

instance : DecidableRel evictsBefore := fun _ _ => inferInstanceAs (Decidable (_ ∨ _))

def selectEvictionVictims (incomingBytes : Nat) (exclude : List BufferKey) : List BufferKey :=
  let held := s.fragmentBuffers.entries.map fun e => (e.1, e.2)
  if isOver fragmentBufferLimit fragmentBufferBudget incomingBytes held.length s.fragmentBufferBytes then
    takeVictims fragmentBufferLimit fragmentBufferBudget incomingBytes
      ((held.filter (fun e => e.1 ∉ exclude)).insertionSort evictsBefore) held.length s.fragmentBufferBytes
  else []

/-- The ledger of the reader that lost a buffer no longer claims what was in it, unless it was delivered. -/
def retractLedger : UserLogic :=
  (s.getMatchedReaders key.1 key.2.1).foldl
    (fun s r => s.updateProxy r key.1 fun p =>
      if p.allFragmentsReceived key.2.2 then p else p.forgetFragments key.2.2) s

/-- Buffers are removed first, then the ledgers behind them are retracted. -/
def evictFragmentBuffersIfFull (sn : Int) (incomingBytes : Nat) : UserLogic :=
  let victims := s.selectEvictionVictims incomingBytes (matched.map fun r => (w, r, sn))
  victims.foldl retractLedger (victims.foldl removeFragmentBuffer s)

/-- The bytes that the sample holds once every reader matched to `w` has a buffer. -/
def fragmentSampleFootprint (addressed : EntityId) (addressedReaders totalSize : Nat) : Nat :=
  totalSize * if addressed = entityIdUnknown then addressedReaders
    else max (s.getMatchedReaders w entityIdUnknown).length addressedReaders

/-! ## DATA_FRAG -/

/-- The buffer of the sample for the reader `r`, opened if need be; `none` where it cannot be. -/
def findOrOpenBuffer : UserLogic × Option FragmentBuffer :=
  match s.fragmentBuffers.lookup (m.key r) with
  | some b => (s, some b)
  | none =>
    if fragmentBufferBudget <
        s.fragmentSampleFootprint m.writer m.frag.readerId matched.length m.frag.sampleSize.toNat then (s, none)
    else
      let s := s.evictFragmentBuffersIfFull m.writer matched m.sn m.frag.sampleSize.toNat
      if m.allocates r then
        let b := FragmentBuffer.new m.frag.sampleSize.toNat m.frag.fragmentSize.toNat m.now m.accepted.size_pos
        (s.insertFragmentBuffer (m.key r) b, some b)
      else (s, none)

/-- A complete sample leaves its buffer. Without a timestamp or a lock on the cache, the ledger is retracted instead. -/
def deliverSample : Option UserLogic :=
  let s := s.removeFragmentBuffer (m.key r)
  if (b.sourceTimestamp.or m.sourceTimestamp).isNone ∨ m.cacheHealthy r = false then
    some (s.updateProxy r m.writer fun p => p.forgetFragments m.sn)
  else
    let payload := (b.intoBytes.getD []).map UInt8.ofBitVec
    s.withProxy r m.writer fun p =>
      (deliverChangeToReader p ⟨m.sn, payload⟩ (some ⟨b.totalFragments, FragmentSet.new, true⟩)).map Prod.fst

/-- The fragments go into the buffer, and what it took into the ledger. -/
def takeFragments : UserLogic × FragmentBuffer :=
  let (accepted, b') := m.frag.copyInto m.sourceTimestamp m.now b
  ((s.storeFragmentBuffer (m.key r) b').updateProxy r m.writer fun p =>
    p.markFragReceived m.sn b'.totalFragments accepted, b')

def turn (s : UserLogic) (r : EntityId) : Option UserLogic :=
  match s.findOrOpenBuffer m matched r with
  | (s, none) => some s
  | (s, some b) =>
    let (s, b') := s.takeFragments m r b
    if b'.allFragmentsReceived then s.deliverSample m r b' else some s

def handleDatafragMessage : Option UserLogic :=
  let matched := s.getMatchedReaders m.writer m.frag.readerId
  run (turn m matched) s matched

/-! ## Runs -/

def forMatched (readerId : EntityId) (f : WriterProxy → Option WriterProxy) : Option UserLogic :=
  run (fun s r => s.withProxy r w f) s (s.getMatchedReaders w readerId)

end UserLogic

/-- The messages of a run. A DATA comes without fragment information. -/
inductive TrafficInput
  | dataFrag (m : FragMessage)
  | heartbeat (w : Guid) (readerId : EntityId) (hb : Reader.Heartbeat)
  | heartbeatFrag (w : Guid) (readerId : EntityId) (sn : Int) (lastFragmentNum : Nat) (count : BitVec 32)
  | data (w : Guid) (readerId : EntityId) (change : Reader.CacheChange)
  | gap (w : Guid) (readerId : EntityId) (g : Reader.Gap)

namespace UserLogic

def step (s : UserLogic) : TrafficInput → Option UserLogic
  | .dataFrag m => s.handleDatafragMessage m
  | .heartbeat w readerId hb =>
    s.forMatched w readerId fun p => (Reader.handleHeartbeatMessage p hb).map Prod.fst
  | .heartbeatFrag w readerId sn last count =>
    s.forMatched w readerId fun p => some (Reader.handleHeartbeatFragMessage p sn last count)
  | .data w readerId change =>
    s.forMatched w readerId fun p => (deliverChangeToReader p change none).map Prod.fst
  | .gap w readerId g => s.forMatched w readerId fun p => (Reader.handleGapMessage p g).map Prod.fst

structure IsStart (s : UserLogic) : Prop where
  proxies : ∀ r w p, s.proxies r w = some p → p = WriterProxy.new
  buffers : s.fragmentBuffers = ∅
  bytes : s.fragmentBufferBytes = 0

end UserLogic

/-! ## One record and its buffer -/

def IsFilled (b : FragmentBuffer) (f : Nat) : Prop := 1 ≤ f ∧ b.filled[f - 1]? = some true

instance (b : FragmentBuffer) (f : Nat) : Decidable (IsFilled b f) := inferInstanceAs (Decidable (_ ∧ _))

structure Backed (buffer : Option FragmentBuffer) (info : FragmentInfo) : Prop where
  within : ∀ f ∈ info.receivedFragments.numbers, 1 ≤ f ∧ f ≤ info.totalFragments
  complete : info.isComplete = true → ∀ f, 1 ≤ f → f ≤ info.totalFragments → f ∈ info.receivedFragments.numbers
  total : info.receivedFragments.numbers ≠ ∅ → ∀ b, buffer = some b → info.totalFragments = b.totalFragments
  filled : info.receivedFragments.numbers ≠ ∅ → info.isComplete = false →
    ∃ b, buffer = some b ∧ ∀ f ∈ info.receivedFragments.numbers, IsFilled b f

variable {info : FragmentInfo}

theorem Backed.of_isBlank (h : info.IsBlank) (buffer : Option FragmentBuffer) :
    Backed buffer info where
  within f hf := by rw [h.empty] at hf; cases hf
  complete hc := by rw [h.incomplete] at hc; cases hc
  total hne := absurd h.empty hne
  filled hne := absurd h.empty hne

theorem Backed.of_complete {buffer : Option FragmentBuffer} (h : Backed buffer info) (hc : info.isComplete = true) :
    Backed none info :=
  ⟨h.within, h.complete, fun _ => nofun, fun _ hf => by rw [hc] at hf; cases hf⟩

/-- A buffer can be filled further: the record is empty, is that of a sample already whole, or lies within it. -/
def Ready (b : FragmentBuffer) (info : FragmentInfo) : Prop :=
  (∀ f ∈ info.receivedFragments.numbers, 1 ≤ f ∧ f ≤ info.totalFragments) ∧
    (info.receivedFragments.numbers = ∅ ∨
      (b.totalFragments ≤ info.totalFragments ∧
        ∀ f, 1 ≤ f → f ≤ info.totalFragments → f ∈ info.receivedFragments.numbers) ∨
      (info.totalFragments = b.totalFragments ∧ ∀ f ∈ info.receivedFragments.numbers, IsFilled b f))

theorem Backed.ready {b : FragmentBuffer} (h : Backed (some b) info) : Ready b info := by
  refine ⟨h.within, ?_⟩
  by_cases hempty : info.receivedFragments.numbers = ∅
  · exact .inl hempty
  have htotal := h.total hempty b rfl
  cases hc : info.isComplete with
  | true => exact .inr (.inl ⟨htotal.ge, h.complete hc⟩)
  | false =>
    obtain ⟨b', hb, hfilled⟩ := h.filled hempty hc
    cases hb
    exact .inr (.inr ⟨htotal, hfilled⟩)

section Merge

variable {b b' : FragmentBuffer} {info : FragmentInfo} {accepted : List Nat}

theorem mem_merge_of_took (hready : Ready b info) (htook : FragmentBuffer.Took b accepted b') {f : Nat} :
    f ∈ (info.merge b'.totalFragments accepted).receivedFragments.numbers ↔
      (f ∈ info.receivedFragments.numbers ∧ f ≤ b.totalFragments) ∨ f ∈ accepted := by
  rw [htook.totalFragments]
  exact FragmentInfo.mem_merge_iff hready.1 htook.within

theorem isFilled_of_took (htook : FragmentBuffer.Took b accepted b') {f : Nat} :
    IsFilled b' f ↔ IsFilled b f ∨ f ∈ accepted := by
  by_cases hf : 1 ≤ f
  · rw [IsFilled, IsFilled, htook.filled, Nat.sub_add_cancel hf, and_iff_right hf, and_iff_right hf]
  · exact iff_of_false (fun h => hf h.1) (fun h => hf (h.elim And.left (fun h => (htook.within f h).1)))

theorem backed_merge (hready : Ready b info) (htook : FragmentBuffer.Took b accepted b') :
    Backed (some b') (info.merge b'.totalFragments accepted) := by
  have hmem := fun f => mem_merge_of_took (f := f) hready htook
  constructor
  case within =>
    intro f hf
    exact (FragmentInfo.mem_merge hready.1 hf).2
  case complete =>
    intro hc
    exact (FragmentInfo.isComplete_merge_iff hready.1).1 hc
  case total =>
    rintro - _ ⟨⟩
    rfl
  case filled =>
    intro _ hc
    refine ⟨b', rfl, fun f hf => ?_⟩
    rw [isFilled_of_took htook]
    rcases (hmem f).1 hf with ⟨hf, hle⟩ | hf
    · rcases hready.2 with hempty | ⟨hle', hall⟩ | ⟨-, hfilled⟩
      · rw [hempty] at hf
        cases hf
      · -- the record of a whole sample stays complete
        exfalso
        rw [← Bool.not_eq_true, FragmentInfo.isComplete_merge_iff hready.1] at hc
        refine hc (fun g h1 h2 => (hmem g).2 (.inl ?_))
        rw [htook.totalFragments] at h2
        exact ⟨hall g h1 (h2.trans hle'), h2⟩
      · exact .inl (hfilled f hf)
    · exact .inr hf

/-- A buffer that becomes complete leaves a complete record, if the record had all that was in it. -/
theorem isComplete_merge (hready : Ready b info) (htook : FragmentBuffer.Took b accepted b')
    (hall : b'.allFragmentsReceived)
    (hknown : ∀ f, 1 ≤ f → f ≤ b.totalFragments → IsFilled b f → f ∈ info.receivedFragments.numbers) :
    (info.merge b'.totalFragments accepted).isComplete = true := by
  rw [FragmentInfo.isComplete_merge_iff hready.1]
  intro f h1 h2
  rw [mem_merge_of_took hready htook]
  have hfilled : IsFilled b' f := ⟨h1, FragmentBuffer.allFragmentsReceived_iff.1 hall (f - 1) (by omega)⟩
  rw [htook.totalFragments] at h2
  rcases (isFilled_of_took htook).1 hfilled with hf | hf
  · exact .inl ⟨hknown f h1 h2 hf, h2⟩
  · exact .inr hf

end Merge

namespace UserLogic

/-! ## Ledgers -/

/-- What the reader `r` has on record of the sample `k` of `w`. -/
def ledger (s : UserLogic) (r : EntityId) (w : Guid) (k : Int) : Option FragmentInfo :=
  (s.proxies r w).bind fun p => p.fragments k

/-- Every record is backed by the buffer of its reader, writer and sample. -/
def Inv (s : UserLogic) : Prop :=
  ∀ r w k info, s.ledger r w k = some info → Backed (s.fragmentBuffers.lookup (w, r, k)) info

section

variable (s : UserLogic) (r : EntityId) (w : Guid) (f : WriterProxy → WriterProxy)

theorem ledger_updateProxy (r' : EntityId)
    (w' : Guid) (k : Int) :
    (s.updateProxy r w f).ledger r' w' k =
      if r' = r ∧ w' = w then (s.proxies r w).bind fun p => (f p).fragments k else s.ledger r' w' k := by
  unfold ledger updateProxy
  dsimp only
  split_ifs
  · rw [bind_map]
    rfl
  · rfl

theorem isSome_proxies_updateProxy
    (r' : EntityId) (w' : Guid) : ((s.updateProxy r w f).proxies r' w').isSome = (s.proxies r' w').isSome := by
  unfold updateProxy
  dsimp only
  split_ifs with h
  · rw [isSome_map, h.1, h.2]
  · rfl

end

/-- The buffers stay, and each record stays or is dropped or made blank. -/
structure Loses (s s' : UserLogic) : Prop where
  buffers : s'.fragmentBuffers = s.fragmentBuffers
  ledger : ∀ r w k info, s'.ledger r w k = some info → s.ledger r w k = some info ∨ info.IsBlank
  proxies : ∀ r w, (s'.proxies r w).isSome = (s.proxies r w).isSome

theorem Loses.refl (s : UserLogic) : Loses s s := ⟨rfl, fun _ _ _ _ h => .inl h, fun _ _ => rfl⟩

variable {s s' : UserLogic} {r : EntityId} {w : Guid} {matched : List EntityId} {b b' : FragmentBuffer}
  {m : FragMessage}

theorem Loses.trans {s'' : UserLogic} (h : Loses s s') (h' : Loses s' s'') : Loses s s'' where
  buffers := h'.buffers.trans h.buffers
  ledger r w k info hinfo := (h'.ledger r w k info hinfo).elim (h.ledger r w k info) .inr
  proxies r w := (h'.proxies r w).trans (h.proxies r w)

theorem Loses.inv (h : Loses s s') (hs : s.Inv) : s'.Inv := by
  intro r w k info hinfo
  rw [h.buffers]
  rcases h.ledger r w k info hinfo with hold | hblank
  · exact hs r w k info hold
  · exact Backed.of_isBlank hblank _

theorem loses_updateProxy {f : WriterProxy → WriterProxy}
    (h : ∀ p, s.proxies r w = some p → WriterProxy.Sheds p (f p)) : Loses s (s.updateProxy r w f) where
  buffers := rfl
  proxies := isSome_proxies_updateProxy s r w f
  ledger r' w' k info hinfo := by
    rw [ledger_updateProxy] at hinfo
    split_ifs at hinfo with heq
    · obtain ⟨p, hp, hfrag⟩ := bind_eq_some_iff.1 hinfo
      refine (h p hp k info hfrag).imp_left (fun hold => ?_)
      rw [UserLogic.ledger, heq.1, heq.2, hp, bind_some, hold]
    · exact .inl hinfo

variable {f : WriterProxy → Option WriterProxy}

theorem loses_withProxy (hf : ∀ p p', s.proxies r w = some p → f p = some p' → WriterProxy.Sheds p p')
    (h : s.withProxy r w f = some s') : Loses s s' := by
  unfold withProxy at h
  cases hp : s.proxies r w with
  | none =>
    rw [hp] at h
    cases h
    exact Loses.refl s
  | some p =>
    rw [hp] at h
    obtain ⟨p', hp', rfl⟩ := map_eq_some_iff.1 h
    refine loses_updateProxy (fun q hq => ?_)
    rw [hp] at hq
    cases hq
    exact hf p p' hp hp'

theorem loses_forMatched {readerId : EntityId} (hf : ∀ p p', f p = some p' → WriterProxy.Sheds p p')
    (h : s.forMatched w readerId f = some s') : Loses s s' :=
  run_invariant (I := Loses s) (fun _ _ _ hl hw => hl.trans (loses_withProxy (fun p p' _ => hf p p') hw))
    (Loses.refl s) h

/-! ## Eviction -/

theorem mem_getMatchedReaders (h : (s.proxies r w).isSome) : r ∈ s.getMatchedReaders w r := by
  have hmem := s.proxies_mem r w h
  have hmatched : s.isMatched r w = true := by rw [isMatched, h, Bool.true_or]
  unfold getMatchedReaders
  split_ifs with hunknown hin
  · exact mem_singleton_self r
  · exact absurd ⟨hmem, .inl hmatched⟩ hin
  · exact mem_filter.2 ⟨hmem, hmatched⟩

/-- No record of the sample is left that would need a buffer. -/
def Settled (s : UserLogic) (r : EntityId) (w : Guid) (k : Int) : Prop :=
  ∀ info, s.ledger r w k = some info → info.isComplete = true ∨ info.IsBlank

theorem Settled.of_loses {k : Int} (h : s.Settled r w k) (hl : Loses s s') :
    s'.Settled r w k := fun info hinfo => (hl.ledger r w k info hinfo).elim (h info) .inr

/-- The proxy of an evicted sample, which keeps a complete record and forgets any other. -/
def retract (k : Int) (p : WriterProxy) : WriterProxy := if p.allFragmentsReceived k then p else p.forgetFragments k

theorem sheds_retract (k : Int) (p : WriterProxy) : WriterProxy.Sheds p (retract k p) := by
  unfold retract
  split_ifs
  · exact WriterProxy.Sheds.refl p
  · exact WriterProxy.sheds_forgetFragments k

theorem settled_retract (k : Int) : (s.updateProxy r w (retract k)).Settled r w k := by
  intro info hinfo
  rw [ledger_updateProxy, if_pos ⟨rfl, rfl⟩] at hinfo
  obtain ⟨p, -, hfrag⟩ := bind_eq_some_iff.1 hinfo
  unfold retract at hfrag
  split_ifs at hfrag with hall
  · rw [WriterProxy.allFragmentsReceived, hfrag] at hall
    exact .inl hall
  · rw [WriterProxy.fragments_forgetFragments, if_pos rfl] at hfrag
    obtain ⟨info', -, rfl⟩ := map_eq_some_iff.1 hfrag
    exact .inr info'.isBlank_forget

theorem loses_foldl {ι : Type} {f : UserLogic → ι → UserLogic} {r : ι → EntityId} {w : ι → Guid} {k : ι → Int}
    (hf : ∀ s i, Loses s (f s i) ∧ (f s i).Settled (r i) (w i) (k i)) (is : List ι) (s : UserLogic) :
    Loses s (is.foldl f s) ∧ ∀ i ∈ is, (is.foldl f s).Settled (r i) (w i) (k i) := by
  induction is generalizing s with
  | nil => exact ⟨Loses.refl s, nofun⟩
  | cons i is ih =>
    obtain ⟨hl, hsettled⟩ := ih (f s i)
    refine ⟨(hf s i).1.trans hl, fun j hj => ?_⟩
    rcases mem_cons.1 hj with rfl | hj
    · exact (hf s j).2.of_loses hl
    · exact hsettled j hj

theorem retractLedger_spec (s : UserLogic) (key : BufferKey) :
    Loses s (s.retractLedger key) ∧ (s.retractLedger key).Settled key.2.1 key.1 key.2.2 := by
  obtain ⟨hl, hsettled⟩ := loses_foldl (r := id) (w := fun _ => key.1) (fun s r =>
    ⟨loses_updateProxy fun p _ => sheds_retract key.2.2 p, settled_retract key.2.2⟩)
    (s.getMatchedReaders key.1 key.2.1) s
  refine ⟨hl, fun info hinfo => ?_⟩
  have hsome : (s.proxies key.2.1 key.1).isSome := by
    rw [← hl.proxies]
    obtain ⟨p, hp, -⟩ := bind_eq_some_iff.1 hinfo
    exact isSome_iff_exists.2 ⟨p, hp⟩
  exact hsettled key.2.1 (mem_getMatchedReaders hsome) info hinfo

theorem retractLedger_foldl (keys : List BufferKey) :
    Loses s (keys.foldl retractLedger s) ∧
      ∀ key ∈ keys, (keys.foldl retractLedger s).Settled key.2.1 key.1 key.2.2 := loses_foldl retractLedger_spec keys s

theorem proxies_removeFragmentBuffer (s : UserLogic) (key : BufferKey) :
    (s.removeFragmentBuffer key).proxies = s.proxies := by
  unfold removeFragmentBuffer
  split <;> rfl

theorem lookup_removeFragmentBuffer (s : UserLogic) (key key' : BufferKey) :
    (s.removeFragmentBuffer key).fragmentBuffers.lookup key' =
      if key' = key then none else s.fragmentBuffers.lookup key' := by
  unfold removeFragmentBuffer
  cases h : s.fragmentBuffers.lookup key with
  | none =>
    split_ifs with hkey
    · rw [hkey, h]
    · rfl
  | some b =>
    split_ifs with hkey
    · rw [hkey, AList.lookup_erase]
    · exact AList.lookup_erase_ne hkey

theorem removeFragmentBuffer_foldl (keys : List BufferKey) (s : UserLogic) :
    (keys.foldl removeFragmentBuffer s).proxies = s.proxies ∧
      ∀ key, (keys.foldl removeFragmentBuffer s).fragmentBuffers.lookup key =
        if key ∈ keys then none else s.fragmentBuffers.lookup key := by
  induction keys generalizing s with
  | nil => exact ⟨rfl, fun key => by rw [if_neg not_mem_nil]; rfl⟩
  | cons key keys ih =>
    obtain ⟨hproxies, hlookup⟩ := ih (s.removeFragmentBuffer key)
    refine ⟨hproxies.trans (proxies_removeFragmentBuffer s key), fun key' => ?_⟩
    rw [foldl_cons, hlookup, lookup_removeFragmentBuffer]
    by_cases h : key' ∈ keys
    · rw [if_pos h, if_pos (mem_cons_of_mem _ h)]
    · rw [if_neg h]
      by_cases heq : key' = key
      · rw [if_pos heq, if_pos (heq ▸ mem_cons_self)]
      · rw [if_neg heq, if_neg (fun hmem => (mem_cons.1 hmem).elim heq h)]

variable {key : BufferKey} {incomingBytes : Nat}

theorem mem_of_mem_takeVictims {maxSize maxBytes : Nat} {es : List (BufferKey × FragmentBuffer)} {count bytes : Nat}
    (h : key ∈ takeVictims maxSize maxBytes incomingBytes es count bytes) : ∃ b, (key, b) ∈ es := by
  induction es generalizing count bytes with
  | nil => cases h
  | cons e es ih =>
    unfold takeVictims at h
    split_ifs at h
    · rcases mem_cons.1 h with rfl | h
      · exact ⟨e.2, mem_cons_self⟩
      · exact (ih h).imp fun _ => mem_cons_of_mem _
    · cases h

theorem notMem_selectEvictionVictims {exclude : List BufferKey} (h : key ∈ exclude) :
    key ∉ s.selectEvictionVictims incomingBytes exclude := by
  intro hkey
  unfold selectEvictionVictims at hkey
  dsimp only at hkey
  split_ifs at hkey
  · obtain ⟨b, hb⟩ := mem_of_mem_takeVictims hkey
    rw [mem_insertionSort, mem_filter, decide_eq_true_iff] at hb
    exact hb.2 h
  · cases hkey

theorem lookup_evict_arriving (s : UserLogic) (w : Guid) (sn : Int) (incomingBytes : Nat) (hr : r ∈ matched) :
    (s.evictFragmentBuffersIfFull w matched sn incomingBytes).fragmentBuffers.lookup (w, r, sn) =
      s.fragmentBuffers.lookup (w, r, sn) := by
  unfold evictFragmentBuffersIfFull
  rw [(retractLedger_foldl _).1.buffers, (removeFragmentBuffer_foldl _ s).2, if_neg]
  exact notMem_selectEvictionVictims (mem_map_of_mem hr)

theorem evict_spec (hs : s.Inv) (w : Guid) (matched : List EntityId) (sn : Int) (incomingBytes : Nat) :
    (s.evictFragmentBuffersIfFull w matched sn incomingBytes).Inv ∧
      ∀ r w' k info, (s.evictFragmentBuffersIfFull w matched sn incomingBytes).ledger r w' k = some info →
        s.ledger r w' k = some info ∨ info.IsBlank := by
  unfold evictFragmentBuffersIfFull
  generalize s.selectEvictionVictims incomingBytes (matched.map fun r => (w, r, sn)) = victims
  obtain ⟨hproxies, hlookup⟩ := removeFragmentBuffer_foldl victims s
  obtain ⟨hl, hsettled⟩ := retractLedger_foldl victims
  have hledger : ∀ r w' k info,
      (victims.foldl retractLedger (victims.foldl removeFragmentBuffer s)).ledger r w' k = some info →
        s.ledger r w' k = some info ∨ info.IsBlank := by
    intro r w' k info hinfo
    have hold := hl.ledger r w' k info hinfo
    rwa [ledger, hproxies] at hold
  refine ⟨fun r w' k info hinfo => ?_, hledger⟩
  rw [hl.buffers, hlookup]
  rcases hledger r w' k info hinfo with hold | hblank
  · have hbacked := hs r w' k info hold
    split_ifs with hkey
    · rcases hsettled (w', r, k) hkey info hinfo with hc | hblank
      · exact hbacked.of_complete hc
      · exact Backed.of_isBlank hblank none
    · exact hbacked
  · exact Backed.of_isBlank hblank _

/-! ## The turn of one reader -/

def known (s : UserLogic) (r : EntityId) (w : Guid) (k : Int) : Finset Nat :=
  ((s.ledger r w k).map fun info => info.receivedFragments.numbers).getD ∅

/-- The submessage leaves a fragment out of the buffer, or the record has all that the buffer has. -/
def Accounted (s : UserLogic) (m : FragMessage) (r : EntityId) (b : FragmentBuffer) : Prop :=
  (∃ f ∈ List.range' 1 b.totalFragments, ¬ IsFilled b f ∧ ¬ m.Covers f) ∨
    ∀ f ∈ List.range' 1 b.totalFragments, IsFilled b f → f ∈ s.known r m.writer m.sn

instance (s : UserLogic) (m : FragMessage) (r : EntityId) (b : FragmentBuffer) : Decidable (s.Accounted m r b) :=
  inferInstanceAs (Decidable (_ ∨ _))

/-- A new buffer is opened over a record of no fragments, or over one of a whole sample that is no smaller. -/
def OpensOver (total : Nat) (info : FragmentInfo) : Prop :=
  info.receivedFragments.numbers = ∅ ∨ (info.isComplete = true ∧ total ≤ info.totalFragments)

instance (total : Nat) (info : FragmentInfo) : Decidable (OpensOver total info) := inferInstanceAs (Decidable (_ ∨ _))

/-- The condition on the state before the turn of a reliable reader. -/
def TurnOk (m : FragMessage) (s : UserLogic) (r : EntityId) : Prop :=
  (s.proxies r m.writer).isSome →
    match s.fragmentBuffers.lookup (m.key r) with
    | none => ∀ info ∈ s.ledger r m.writer m.sn, OpensOver m.total info
    | some b => s.Accounted m r b

instance (m : FragMessage) (s : UserLogic) (r : EntityId) : Decidable (TurnOk m s r) :=
  match h : s.fragmentBuffers.lookup (m.key r) with
  | none => decidable_of_iff ((s.proxies r m.writer).isSome → ∀ info ∈ s.ledger r m.writer m.sn, OpensOver m.total info)
      (by rw [TurnOk, h])
  | some b => decidable_of_iff ((s.proxies r m.writer).isSome → s.Accounted m r b) (by rw [TurnOk, h])

/-- The state in which the fragments are copied into the buffer `b`. -/
structure Opened (m : FragMessage) (r : EntityId) (s : UserLogic) (b : FragmentBuffer) : Prop where
  others : ∀ r' w k info, (w, r', k) ≠ m.key r → s.ledger r' w k = some info →
    Backed (s.fragmentBuffers.lookup (w, r', k)) info
  ready : ∀ info, s.ledger r m.writer m.sn = some info → Ready b info
  accounted : (s.proxies r m.writer).isSome → s.Accounted m r b

theorem opened_of_lookup (hs : s.Inv) (hok : TurnOk m s r) (h : s.fragmentBuffers.lookup (m.key r) = some b) :
    Opened m r s b where
  others r' w k info _ := hs r' w k info
  ready info hinfo := Backed.ready (h ▸ hs r m.writer m.sn info hinfo)
  accounted hsome := by
    have hacc := hok hsome
    rwa [h] at hacc

theorem opened_insert {now : Nat} (hs' : s'.Inv) (hok : TurnOk m s r)
    (hnone : s.fragmentBuffers.lookup (m.key r) = none)
    (hledger : ∀ info, s'.ledger r m.writer m.sn = some info → s.ledger r m.writer m.sn = some info ∨ info.IsBlank) :
    Opened m r
      (s'.insertFragmentBuffer (m.key r)
        (FragmentBuffer.new m.frag.sampleSize.toNat m.frag.fragmentSize.toNat now m.accepted.size_pos))
      (FragmentBuffer.new m.frag.sampleSize.toNat m.frag.fragmentSize.toNat now m.accepted.size_pos) where
  others r' w k info hne hinfo := by
    show Backed ((s'.fragmentBuffers.insert (m.key r) _).lookup (w, r', k)) info
    rw [AList.lookup_insert_ne hne]
    exact hs' r' w k info hinfo
  ready info hinfo := by
    have hwithin := (hs' r m.writer m.sn info hinfo).within
    have hcomplete := (hs' r m.writer m.sn info hinfo).complete
    rcases hledger info hinfo with hold | hblank
    · obtain ⟨p, hp, -⟩ := bind_eq_some_iff.1 hold
      have hover := hok (isSome_iff_exists.2 ⟨p, hp⟩)
      rw [hnone] at hover
      rcases hover info hold with hempty | ⟨hc, hle⟩
      · exact ⟨hwithin, .inl hempty⟩
      · exact ⟨hwithin, .inr (.inl ⟨hle, hcomplete hc⟩)⟩
    · exact ⟨hwithin, .inl hblank.empty⟩
  accounted _ := .inr fun f _ hf => by cases eq_of_mem_replicate (mem_of_getElem? hf.2)

/-- What is found or opened: a buffer ready to take fragments, or none and the records still backed. -/
theorem findOrOpenBuffer_spec {ob : Option FragmentBuffer} (hs : s.Inv) (hok : TurnOk m s r)
    (h : s.findOrOpenBuffer m matched r = (s', ob)) : (ob = none ∧ s'.Inv) ∨ ∃ b, ob = some b ∧ Opened m r s' b := by
  unfold findOrOpenBuffer at h
  cases hlookup : s.fragmentBuffers.lookup (m.key r) with
  | some b =>
    rw [hlookup] at h
    cases h
    exact .inr ⟨b, rfl, opened_of_lookup hs hok hlookup⟩
  | none =>
    rw [hlookup] at h
    obtain ⟨hinv, hledger⟩ := evict_spec hs m.writer matched m.sn m.frag.sampleSize.toNat
    split_ifs at h
    · cases h
      exact .inl ⟨rfl, hs⟩
    · cases h
      exact .inr ⟨_, rfl, opened_insert hinv hok hlookup (hledger r m.writer m.sn)⟩
    · cases h
      exact .inl ⟨rfl, hinv⟩

theorem took_takeFragments (h : s.takeFragments m r b = (s', b')) :
    ∃ accepted, FragmentBuffer.Took (b.annotate m.sourceTimestamp m.frag.inlineQos) accepted b' ∧
      (∀ f ∈ accepted, m.Covers f) ∧
      s' = (s.storeFragmentBuffer (m.key r) b').updateProxy r m.writer fun p =>
        p.markFragReceived m.sn b'.totalFragments accepted := by
  cases h
  exact ⟨_, DataFrag.took_copyFrom m.frag m.now _ 0 _, fun f hf => DataFrag.mem_copyFrom hf, rfl⟩

theorem ledger_takeFragments {accepted : List Nat} (ho : Opened m r s b) {info : FragmentInfo}
    (h : ((s.storeFragmentBuffer (m.key r) b').updateProxy r m.writer fun p =>
      p.markFragReceived m.sn b'.totalFragments accepted).ledger r m.writer m.sn = some info) :
    (s.proxies r m.writer).isSome ∧ ∃ info', info = info'.merge b'.totalFragments accepted ∧ Ready b info' ∧
      s.known r m.writer m.sn = info'.receivedFragments.numbers := by
  rw [ledger_updateProxy, if_pos ⟨rfl, rfl⟩] at h
  obtain ⟨p, hp, hfrag⟩ := bind_eq_some_iff.1 h
  have hp : s.proxies r m.writer = some p := hp
  have hledger : s.ledger r m.writer m.sn = p.fragments m.sn := by rw [ledger, hp, bind_some]
  rw [WriterProxy.fragments_markFragReceived, if_pos rfl] at hfrag
  refine ⟨isSome_iff_exists.2 ⟨p, hp⟩, _, (some.inj hfrag).symm, ?_, ?_⟩
  · cases hold : p.fragments m.sn with
    | none => exact ⟨nofun, .inl rfl⟩
    | some info' => exact ho.ready info' (hledger.trans hold)
  · rw [known, hledger]
    cases p.fragments m.sn <;> rfl

theorem inv_takeFragments (ho : Opened m r s b) (h : s.takeFragments m r b = (s', b')) : s'.Inv := by
  obtain ⟨accepted, htook, -, rfl⟩ := took_takeFragments h
  intro r' w k info hinfo
  by_cases hkey : (w, r', k) = m.key r
  · cases hkey
    obtain ⟨-, info', rfl, hready, -⟩ := ledger_takeFragments ho hinfo
    show Backed ((s.fragmentBuffers.insert (m.key r) b').lookup (m.key r)) _
    rw [AList.lookup_insert]
    exact backed_merge (b := b.annotate m.sourceTimestamp m.frag.inlineQos) hready htook
  · show Backed ((s.fragmentBuffers.insert (m.key r) b').lookup (w, r', k)) _
    rw [AList.lookup_insert_ne hkey]
    refine ho.others r' w k info hkey ?_
    rw [ledger_updateProxy] at hinfo
    split_ifs at hinfo with heq
    · obtain ⟨rfl, rfl⟩ := heq
      have hk : k ≠ m.sn := fun hk => hkey (by rw [hk]; rfl)
      simp only [WriterProxy.fragments_markFragReceived, if_neg hk] at hinfo
      exact hinfo
    · exact hinfo

theorem isComplete_takeFragments (ho : Opened m r s b) (h : s.takeFragments m r b = (s', b'))
    (hall : b'.allFragmentsReceived) {info : FragmentInfo} (hinfo : s'.ledger r m.writer m.sn = some info) :
    info.isComplete = true := by
  obtain ⟨accepted, htook, hcovers, rfl⟩ := took_takeFragments h
  obtain ⟨hsome, info', rfl, hready, hknown⟩ := ledger_takeFragments ho hinfo
  refine isComplete_merge (b := b.annotate m.sourceTimestamp m.frag.inlineQos) hready htook hall ?_
  intro f h1 h2 hf
  rcases ho.accounted hsome with ⟨g, hg, hempty, hout⟩ | hacc
  · -- a fragment that is neither there nor brought keeps the buffer incomplete
    exfalso
    rw [mem_range'_1] at hg
    have hlt : g - 1 < b'.totalFragments := by
      rw [htook.totalFragments]
      show g - 1 < b.totalFragments
      omega
    have hfilled : IsFilled b' g := ⟨hg.1, FragmentBuffer.allFragmentsReceived_iff.1 hall (g - 1) hlt⟩
    exact ((isFilled_of_took htook).1 hfilled).elim hempty (fun hg' => hout (hcovers g hg'))
  · have h2 : f ≤ b.totalFragments := h2
    rw [← hknown]
    exact hacc f (mem_range'_1.2 ⟨h1, by omega⟩) hf

theorem inv_deliverSample (hs : s.Inv)
    (hcomplete : ∀ info, s.ledger r m.writer m.sn = some info → info.isComplete = true)
    (hentry : ∀ p, s.proxies r m.writer = some p → p.entry m.sn ≠ none) (h : s.deliverSample m r b = some s') :
    s'.Inv := by
  have hproxies := proxies_removeFragmentBuffer s (m.key r)
  have hremoved : (s.removeFragmentBuffer (m.key r)).Inv := by
    intro r' w k info hinfo
    rw [ledger, hproxies] at hinfo
    rw [lookup_removeFragmentBuffer]
    split_ifs with hkey
    · cases hkey
      exact (hs r m.writer m.sn info hinfo).of_complete (hcomplete info hinfo)
    · exact hs r' w k info hinfo
  unfold deliverSample at h
  split_ifs at h
  · cases h
    exact (loses_updateProxy (fun p _ => WriterProxy.sheds_forgetFragments m.sn)).inv hremoved
  · refine (loses_withProxy (fun p p' hp hdeliver => ?_) h).inv hremoved
    obtain ⟨⟨q, out⟩, hq, rfl⟩ := map_eq_some_iff.1 hdeliver
    rw [hproxies] at hp
    exact WriterProxy.sheds_deliver hq (.inr (hentry p hp))

theorem entry_takeFragments (h : s.takeFragments m r b = (s', b')) {p : WriterProxy}
    (hp : s'.proxies r m.writer = some p) : p.entry m.sn ≠ none := by
  obtain ⟨accepted, -, -, rfl⟩ := took_takeFragments h
  unfold updateProxy at hp
  dsimp only at hp
  rw [if_pos ⟨rfl, rfl⟩] at hp
  obtain ⟨q, -, rfl⟩ := map_eq_some_iff.1 hp
  rw [WriterProxy.markFragReceived, WriterProxy.entry_upsertChange, if_pos rfl]
  exact some_ne_none _

theorem inv_turn (hs : s.Inv) (hok : TurnOk m s r) (h : turn m matched s r = some s') : s'.Inv := by
  unfold turn at h
  rcases hfind : s.findOrOpenBuffer m matched r with ⟨s₁, ob⟩
  rw [hfind] at h
  rcases findOrOpenBuffer_spec hs hok hfind with ⟨rfl, hinv⟩ | ⟨b, rfl, ho⟩
  · cases h
    exact hinv
  · rcases htake : s₁.takeFragments m r b with ⟨s₂, b'⟩
    dsimp only at h
    rw [htake] at h
    have hinv := inv_takeFragments ho htake
    split_ifs at h with hall
    · exact inv_deliverSample hinv (fun info => isComplete_takeFragments ho htake hall)
        (fun p hp => entry_takeFragments htake hp) h
    · cases h
      exact hinv

/-! ## Whole runs -/

/-- The condition on a message: a DATA_FRAG meets `TurnOk` at each of its readers. -/
def StepOk (s : UserLogic) : TrafficInput → Prop
  | .dataFrag m =>
    AllSteps (turn m (s.getMatchedReaders m.writer m.frag.readerId)) (TurnOk m) s
      (s.getMatchedReaders m.writer m.frag.readerId)
  | _ => True

instance (s : UserLogic) : ∀ e, Decidable (StepOk s e)
  | .dataFrag m => inferInstanceAs (Decidable (AllSteps _ (TurnOk m) s _))
  | .heartbeat .. | .heartbeatFrag .. | .data .. | .gap .. => isTrue trivial

theorem inv_step {e : TrafficInput} (hs : s.Inv) (hok : StepOk s e) (h : s.step e = some s') : s'.Inv := by
  cases e with
  | dataFrag m => exact run_invariant_of_allSteps (fun _ _ _ hi hm hturn => inv_turn hi hm hturn) hs hok h
  | heartbeat w readerId hb =>
    refine (loses_forMatched (fun p p' hp => ?_) h).inv hs
    obtain ⟨⟨q, out, answer⟩, hq, rfl⟩ := map_eq_some_iff.1 hp
    exact WriterProxy.sheds_heartbeat hq
  | heartbeatFrag w readerId sn last count =>
    refine (loses_forMatched (fun p p' hp => ?_) h).inv hs
    cases hp
    exact WriterProxy.sheds_heartbeatFrag sn last count
  | data w readerId change =>
    refine (loses_forMatched (fun p p' hp => ?_) h).inv hs
    obtain ⟨⟨q, out⟩, hq, rfl⟩ := map_eq_some_iff.1 hp
    exact WriterProxy.sheds_deliver hq (.inl rfl)
  | gap w readerId g =>
    refine (loses_forMatched (fun p p' hp => ?_) h).inv hs
    obtain ⟨⟨q, out⟩, hq, rfl⟩ := map_eq_some_iff.1 hp
    exact WriterProxy.sheds_gap hq

theorem IsStart.inv (h : s.IsStart) : s.Inv := by
  intro r w k info hinfo
  obtain ⟨p, hp, hfrag⟩ := bind_eq_some_iff.1 hinfo
  cases h.proxies r w p hp
  cases hfrag

/-- The fragments on record of an incomplete sample are in its buffer, and the others are asked for. -/
def FragmentsBacked (s : UserLogic) : Prop :=
  ∀ r w p sn info, s.proxies r w = some p → p.fragments sn = some info → info.receivedFragments.numbers ≠ ∅ →
    info.isComplete = false →
      ∃ b, s.fragmentBuffers.lookup (w, r, sn) = some b ∧ (∀ f ∈ info.receivedFragments.numbers, IsFilled b f) ∧
        ∀ f, 1 ≤ f → f ≤ b.totalFragments → ¬ IsFilled b f → f ∈ p.getAscendingMissingFnList sn

theorem Inv.fragmentsBacked (hs : s.Inv) : s.FragmentsBacked := by
  intro r w p sn info hp hinfo hne hc
  have hbacked : Backed (s.fragmentBuffers.lookup (w, r, sn)) info :=
    hs r w sn info (by rw [ledger, hp, bind_some, hinfo])
  obtain ⟨b, hb, hfilled⟩ := hbacked.filled hne hc
  refine ⟨b, hb, hfilled, fun f h1 h2 hf => ?_⟩
  rw [WriterProxy.mem_getAscendingMissingFnList hinfo hc]
  rw [← hbacked.total hne b hb] at h2
  exact ⟨⟨h1, h2⟩, fun hmem => hf (hfilled f hmem)⟩

theorem fragments_backed {s t : UserLogic} {es : List TrafficInput} (hs : s.IsStart) (hok : AllSteps step StepOk s es)
    (h : run step s es = some t) : t.FragmentsBacked :=
  Inv.fragmentsBacked (run_invariant_of_allSteps (fun _ _ _ hi hm hstep => inv_step hi hm hstep) hs.inv hok h)

/-! ## Where the two records part -/

/-- An incomplete record of the sample claims a fragment that no buffer has. -/
def stranded (s : UserLogic) (r : EntityId) (w : Guid) (sn : Int) : Bool :=
  (s.ledger r w sn).any fun info => !info.isComplete && decide (∃ f ∈ info.receivedFragments.numbers,
    ∀ b ∈ s.fragmentBuffers.lookup (w, r, sn), ¬ IsFilled b f)

theorem not_fragmentsBacked {sn : Int} (h : s.stranded r w sn = true) : ¬ s.FragmentsBacked := by
  intro hbacked
  obtain ⟨info, hinfo, hlost⟩ := (any_eq_true _ _).1 h
  obtain ⟨p, hp, hfrag⟩ := bind_eq_some_iff.1 hinfo
  rw [Bool.and_eq_true, Bool.not_eq_true', decide_eq_true_iff] at hlost
  obtain ⟨hc, f, hf, hnone⟩ := hlost
  obtain ⟨b, hb, hfilled, -⟩ := hbacked r w p sn info hp hfrag (Finset.ne_empty_of_mem hf) hc
  exact hnone b hb (hfilled f hf)

def oneReader : UserLogic where
  readers := [1]
  stateless _ _ := false
  orphaned _ := false
  proxies r w := if r = 1 ∧ w = ⟨0, 2⟩ then some WriterProxy.new else none
  fragmentBuffers := ∅
  fragmentBufferBytes := 0
  proxies_mem r w h := by
    split_ifs at h with hr
    · rw [hr.1]
      exact List.mem_singleton_self 1
    · cases h

theorem isStart_oneReader : oneReader.IsStart where
  proxies r w p hp := by
    unfold oneReader at hp
    dsimp only at hp
    split_ifs at hp
    exact (some.inj hp).symm
  buffers := rfl
  bytes := rfl

/-- Fragment `n` of sample 1, which has `size` fragments of one byte. -/
def piece (size n : BitVec 32) (hsize : 0 < size.toNat) (hn : 0 < n.toNat) : TrafficInput :=
  .dataFrag
    { guidPrefix := 0
      frag := ⟨0, 2, ⟨0, 1⟩, n, 1, 1, size, none, [7]⟩
      accepted := ⟨by show IsSampleSn ⟨0, 1⟩; decide, hn, by show 0 < (1 : BitVec 16).toNat; decide,
        by show 0 < (1 : BitVec 16).toNat; decide, hsize⟩
      sourceTimestamp := some ⟨0, 0⟩
      now := 0
      allocates := fun _ => true
      cacheHealthy := fun _ => true }

/-- Fragments 1 and 3 of three, and a HEARTBEAT between them. -/
theorem fragments_backed_three :
    ∃ t, run step oneReader [piece 3 1 (by decide) (by decide),
        .heartbeat ⟨0, 2⟩ 0 ⟨1, 1, 1, 0, by decide⟩, piece 3 3 (by decide) (by decide)] = some t ∧
      t.ledger 1 ⟨0, 2⟩ 1 ≠ none ∧ t.FragmentsBacked := by
  have hrun : ((run step oneReader [piece 3 1 (by decide) (by decide),
      .heartbeat ⟨0, 2⟩ 0 ⟨1, 1, 1, 0, by decide⟩, piece 3 3 (by decide) (by decide)]).any
        fun t => (t.ledger 1 ⟨0, 2⟩ 1).isSome) = true := by decide +kernel
  obtain ⟨t, ht, hsome⟩ := (any_eq_true _ _).1 hrun
  refine ⟨t, ht, fun hnone => ?_, fragments_backed isStart_oneReader (by decide +kernel) ht⟩
  rw [hnone] at hsome
  cases hsome

/-- A HEARTBEAT that drops the record while the buffer stays, and a larger sample under a delivered number, leave a
record with fragments that no buffer has. -/
theorem fragments_stranded :
    (∃ t, run step oneReader [piece 2 1 (by decide) (by decide), .heartbeat ⟨0, 2⟩ 0 ⟨2, 2, 1, 0, by decide⟩,
        piece 2 2 (by decide) (by decide)] = some t ∧ ¬ t.FragmentsBacked) ∧
      ∃ t, run step oneReader [piece 2 1 (by decide) (by decide), piece 2 2 (by decide) (by decide),
        piece 4 3 (by decide) (by decide)] = some t ∧ ¬ t.FragmentsBacked := by
  have hdropped : ((run step oneReader [piece 2 1 (by decide) (by decide),
      .heartbeat ⟨0, 2⟩ 0 ⟨2, 2, 1, 0, by decide⟩, piece 2 2 (by decide) (by decide)]).any
        fun t => t.stranded 1 ⟨0, 2⟩ 1) = true := by decide +kernel
  have hlarger : ((run step oneReader [piece 2 1 (by decide) (by decide), piece 2 2 (by decide) (by decide),
      piece 4 3 (by decide) (by decide)]).any fun t => t.stranded 1 ⟨0, 2⟩ 1) = true := by decide +kernel
  obtain ⟨t, ht, hlost⟩ := (any_eq_true _ _).1 hdropped
  obtain ⟨t', ht', hlost'⟩ := (any_eq_true _ _).1 hlarger
  exact ⟨⟨t, ht, not_fragmentsBacked hlost⟩, t', ht', not_fragmentsBacked hlost'⟩

end UserLogic

end Int2Dds.System
