import Int2Dds.Messages.Header
import Mathlib.Data.Nat.Prime.Basic
import Mathlib.Tactic.NormNum.GCD

/-!
# Submessage bodies: acknowledgements, announcements, INFO and PAD

Each body is read by the source's `deserialize` (or by its derived reader) and written field by field in the byte
order of its header. A body that passes the checks made on reading is read back as it was written. The bodies that
carry user data are in `Messages.Data` and `Messages.DataFrag`.
-/

namespace Int2Dds.Messages

open Lib Rtps Decoder Outcome

/-- `submessage_header.endianness_flag().ok_or(..)?`. -/
def endiannessOf (h : SubmessageHeader) : Read Endianness :=
  Decoder.lift (Outcome.okOr h.endiannessFlag RtpsError.unsupported)

def check (c : Prop) [Decidable c] (message : String) : Read Unit :=
  Decoder.lift (Outcome.require c (RtpsError.invalidBody message))

variable {h : SubmessageHeader} {k : SubmessageKind}

theorem decodes_endiannessOf (hk : h.kind = some k) :
    (endiannessOf h).Decodes [] h.byteOrder :=
  decodes_lift (result_okOr.2 (SubmessageHeader.endiannessFlag_of_kind hk))

theorem decodes_check {c : Prop} [Decidable c] {message : String} (hc : c) : (check c message).Decodes [] () :=
  decodes_lift (result_require.2 hc)

variable {bound : Nat}

theorem safe_endiannessOf : (endiannessOf h).Safe bound :=
  safe_lift safe_okOr

theorem safe_check {c : Prop} [Decidable c] {message : String} : (check c message).Safe bound :=
  safe_lift safe_require

def isValidSequenceBase (b : SequenceNumber) : Bool := decide (1 ≤ b.toI64)

def isValidFragmentBase (b : BitVec 32) : Bool := decide (1 ≤ b.toNat)

def readSequenceNumberSet (e : Endianness) : Read (NumberSet SequenceNumber) :=
  readNumberSet (readSequenceNumber e) e

def readFragmentNumberSet (e : Endianness) : Read (NumberSet (BitVec 32)) := readNumberSet (readU32 e) e

def writeSequenceNumberSet (e : Endianness) (s : NumberSet SequenceNumber) : Bytes :=
  writeNumberSet (writeSequenceNumber e) e s

def writeFragmentNumberSet (e : Endianness) (s : NumberSet (BitVec 32)) : Bytes := writeNumberSet (writeU32 e) e s

/-- The words of the bitmap that are not sent are zero. -/
def NumberSetSent {τ : Type} (s : NumberSet τ) : Prop :=
  s.numBits ≤ 256 ∧ (s.bitmap.drop s.numOfLongs).all (· == 0) = true

theorem NumberSetSent.of_isValid {τ : Type} {isValidBase : τ → Bool} {s : NumberSet τ}
    (h : s.isValid isValidBase = true) : NumberSetSent s := by
  simp only [NumberSet.isValid, Bool.and_eq_true, decide_eq_true_eq] at h
  exact ⟨h.1.2, h.2⟩

theorem decodes_readSequenceNumberSet (e : Endianness) {s : NumberSet SequenceNumber} (h : NumberSetSent s) :
    (readSequenceNumberSet e).Decodes (writeSequenceNumberSet e s) s :=
  decodes_readNumberSet (decodes_readSequenceNumber e) e h.1 h.2

theorem decodes_readFragmentNumberSet (e : Endianness) {s : NumberSet (BitVec 32)} (h : NumberSetSent s) :
    (readFragmentNumberSet e).Decodes (writeFragmentNumberSet e s) s :=
  decodes_readNumberSet (decodes_readU32 e) e h.1 h.2

/-! ## ACKNACK -/

structure AckNack where
  readerId : EntityId
  writerId : EntityId
  readerSnState : NumberSet SequenceNumber
  count : Count
deriving DecidableEq

namespace AckNack

/-- A preemptive ACKNACK: an empty set with base zero. -/
def isPreemptive (s : NumberSet SequenceNumber) : Bool :=
  decide (s.bitmapBase = SequenceNumber.fromI64 0 ∧ s.numBits = 0)

def deserialize (h : SubmessageHeader) : Read AckNack := do
  let e ← endiannessOf h
  let readerId ← readEntityId
  let writerId ← readEntityId
  let readerSnState ← readSequenceNumberSet e
  let isValid ← Decoder.lift (checkNumberSet isValidSequenceBase readerSnState)
  check (isPreemptive readerSnState = true ∨ isValid = true) "Invalid sequence number set for reader SN state"
  let count ← readU32 e
  pure ⟨readerId, writerId, readerSnState, count⟩

def writeTo (e : Endianness) (a : AckNack) : Bytes :=
  writeEntityId a.readerId ++ (writeEntityId a.writerId ++ (writeSequenceNumberSet e a.readerSnState ++
    writeU32 e a.count))

structure Valid (a : AckNack) : Prop where
  set : isPreemptive a.readerSnState = true ∨ a.readerSnState.isValid isValidSequenceBase = true
  sent : NumberSetSent a.readerSnState

theorem decodes (hk : h.kind = some k) {a : AckNack} (ha : a.Valid) :
    (deserialize h).Decodes (a.writeTo h.byteOrder) a := by
  apply (decodes_endiannessOf hk).bind_nil
  apply (decodes_readEntityId a.readerId).bind
  apply (decodes_readEntityId a.writerId).bind
  apply (decodes_readSequenceNumberSet _ ha.sent).bind
  rw [checkNumberSet_eq]
  apply (decodes_lift rfl).bind_nil
  apply (decodes_check ha.set).bind_nil
  exact (decodes_readU32 _ a.count).bind_pure (AckNack.mk a.readerId a.writerId a.readerSnState)

theorem safe (h : SubmessageHeader) : (deserialize h).Safe bound := by
  refine (safe_endiannessOf).bind (fun e => ?_)
  refine safe_readEntityId.bind (fun _ => safe_readEntityId.bind (fun _ => ?_))
  refine (safe_readNumberSet (safe_readSequenceNumber e) e).bind (fun s => ?_)
  rw [checkNumberSet_eq]
  refine (safe_lift (safe_pure _)).bind (fun _ => safe_check.bind (fun _ => ?_))
  exact (safe_readU32 e).bind (fun _ => safe_pure _)

end AckNack

/-! ## GAP -/

structure GapGroupInfo where
  gapStartGsn : SequenceNumber
  gapEndGsn : SequenceNumber
deriving DecidableEq

/-- `GroupInfo::validate`. The subtraction is reached for a positive start only, so it does not overflow. -/
def GapGroupInfo.IsValid (g : GapGroupInfo) : Prop :=
  ¬ (g.gapStartGsn.toI64 ≤ 0 ∨ g.gapEndGsn.toI64 ≤ 0 ∨ g.gapEndGsn.toI64 < g.gapStartGsn.toI64 - 1)

instance (g : GapGroupInfo) : Decidable g.IsValid := inferInstanceAs (Decidable (¬ _))

structure Gap where
  readerId : EntityId
  writerId : EntityId
  gapStart : SequenceNumber
  gapList : NumberSet SequenceNumber
  groupInfo : Option GapGroupInfo
  -- an `i64`, by the two words it is sent in
  filteredCount : Option SequenceNumber
deriving DecidableEq

namespace Gap

def readGroupInfo (e : Endianness) : Read GapGroupInfo := do
  let gapStartGsn ← readSequenceNumber e
  let gapEndGsn ← readSequenceNumber e
  let info : GapGroupInfo := ⟨gapStartGsn, gapEndGsn⟩
  check info.IsValid "invalid group sequence numbers in Gap"
  pure info

def deserialize (h : SubmessageHeader) : Read Gap := do
  let e ← endiannessOf h
  let readerId ← readEntityId
  let writerId ← readEntityId
  let gapStart ← readSequenceNumber e
  check (¬ gapStart.toI64 ≤ 0) "Gap start value should be strictly positive"
  let gapList ← readSequenceNumberSet e
  let isValid ← Decoder.lift (checkNumberSet isValidSequenceBase gapList)
  check (isValid = true) "Invalid sequence number set for gap list"
  let groupInfo ← Decoder.optional (h.groupInfoFlag = some true) (readGroupInfo e)
  let filteredCount ← Decoder.optional (h.filteredCountFlag = some true) (readSequenceNumber e)
  pure ⟨readerId, writerId, gapStart, gapList, groupInfo, filteredCount⟩

def writeGroupInfo (e : Endianness) (g : GapGroupInfo) : Bytes :=
  writeSequenceNumber e g.gapStartGsn ++ writeSequenceNumber e g.gapEndGsn

def writeTo (e : Endianness) (g : Gap) : Bytes :=
  writeEntityId g.readerId ++ (writeEntityId g.writerId ++ (writeSequenceNumber e g.gapStart ++
    (writeSequenceNumberSet e g.gapList ++ (g.groupInfo.elim [] (writeGroupInfo e) ++
      g.filteredCount.elim [] (writeSequenceNumber e)))))

/-- A GAP that passes the checks, under a header whose flags say which elements it has. -/
structure Valid (h : SubmessageHeader) (g : Gap) : Prop where
  start : ¬ g.gapStart.toI64 ≤ 0
  list : g.gapList.isValid isValidSequenceBase = true
  group : ∀ info ∈ g.groupInfo, info.IsValid
  groupFlag : h.groupInfoFlag = some g.groupInfo.isSome
  filteredFlag : h.filteredCountFlag = some g.filteredCount.isSome

theorem decodes_readGroupInfo (e : Endianness) {g : GapGroupInfo} (hg : g.IsValid) :
    (readGroupInfo e).Decodes (writeGroupInfo e g) g := by
  apply (decodes_readSequenceNumber e g.gapStartGsn).bind
  rw [← List.append_nil (writeSequenceNumber e g.gapEndGsn)]
  apply (decodes_readSequenceNumber e g.gapEndGsn).bind
  exact (decodes_check hg).bind_nil (decodes_pure g)

theorem decodes (hk : h.kind = some k) {g : Gap} (hg : g.Valid h) :
    (deserialize h).Decodes (g.writeTo h.byteOrder) g := by
  apply (decodes_endiannessOf hk).bind_nil
  apply (decodes_readEntityId g.readerId).bind
  apply (decodes_readEntityId g.writerId).bind
  apply (decodes_readSequenceNumber _ g.gapStart).bind
  apply (decodes_check hg.start).bind_nil
  apply (decodes_readSequenceNumberSet _ (NumberSetSent.of_isValid hg.list)).bind
  rw [checkNumberSet_eq]
  apply (decodes_lift rfl).bind_nil
  apply (decodes_check hg.list).bind_nil
  rw [hg.groupFlag, hg.filteredFlag]
  apply (decodes_optional (fun info hi => decodes_readGroupInfo _ (hg.group info hi))).bind
  apply (decodes_optional (fun c _ => decodes_readSequenceNumber _ c)).bind_pure
    (Gap.mk g.readerId g.writerId g.gapStart g.gapList g.groupInfo)

theorem safe (h : SubmessageHeader) : (deserialize h).Safe bound := by
  refine (safe_endiannessOf).bind (fun e => ?_)
  have hsn : (readSequenceNumber e).Safe bound := safe_readSequenceNumber e
  have hgroup : (readGroupInfo e).Safe bound :=
    hsn.bind (fun _ => hsn.bind (fun _ => safe_check.bind (fun _ => safe_pure _)))
  refine safe_readEntityId.bind (fun _ => safe_readEntityId.bind (fun _ => hsn.bind (fun _ => ?_)))
  refine safe_check.bind (fun _ => (safe_readNumberSet hsn e).bind (fun s => ?_))
  rw [checkNumberSet_eq]
  refine (safe_lift (safe_pure _)).bind (fun _ => safe_check.bind (fun _ => ?_))
  refine (safe_optional hgroup).bind (fun _ => ?_)
  exact (safe_optional hsn).bind (fun _ => safe_pure _)

end Gap

/-! ## HEARTBEAT -/

structure HeartbeatGroupInfo where
  currentGsn : SequenceNumber
  firstGsn : SequenceNumber
  lastGsn : SequenceNumber
  writerSet : BitVec 32
  secureWriterSet : BitVec 32
deriving DecidableEq

/-- `GroupInfo::validate`. The subtraction is reached for a positive first number only, so it does not overflow. -/
def HeartbeatGroupInfo.IsValid (g : HeartbeatGroupInfo) : Prop :=
  ¬ (g.currentGsn.toI64 ≤ 0 ∨ g.firstGsn.toI64 ≤ 0 ∨ g.lastGsn.toI64 < 0 ∨
    g.lastGsn.toI64 < g.firstGsn.toI64 - 1 ∨ g.currentGsn.toI64 < g.firstGsn.toI64)

instance (g : HeartbeatGroupInfo) : Decidable g.IsValid := inferInstanceAs (Decidable (¬ _))

structure Heartbeat where
  readerId : EntityId
  writerId : EntityId
  firstSn : SequenceNumber
  lastSn : SequenceNumber
  count : Count
  groupInfo : Option HeartbeatGroupInfo
deriving DecidableEq

namespace Heartbeat

def readGroupInfo (e : Endianness) : Read HeartbeatGroupInfo := do
  let currentGsn ← readSequenceNumber e
  let firstGsn ← readSequenceNumber e
  let lastGsn ← readSequenceNumber e
  let writerSet ← readOctets 4 32
  let secureWriterSet ← readOctets 4 32
  let info : HeartbeatGroupInfo := ⟨currentGsn, firstGsn, lastGsn, writerSet, secureWriterSet⟩
  check info.IsValid "invalid group sequence numbers in Heartbeat"
  pure info

def deserialize (h : SubmessageHeader) : Read Heartbeat := do
  let e ← endiannessOf h
  let readerId ← readEntityId
  let writerId ← readEntityId
  let firstSn ← readSequenceNumber e
  let lastSn ← readSequenceNumber e
  let count ← readU32 e
  let groupInfo ← Decoder.optional (h.groupInfoFlag = some true) (readGroupInfo e)
  check (¬ firstSn.toI64 ≤ 0) "firstSN value is zero or negative"
  pure ⟨readerId, writerId, firstSn, lastSn, count, groupInfo⟩

def writeGroupInfo (e : Endianness) (g : HeartbeatGroupInfo) : Bytes :=
  writeSequenceNumber e g.currentGsn ++ (writeSequenceNumber e g.firstGsn ++ (writeSequenceNumber e g.lastGsn ++
    (writeOctets 4 g.writerSet ++ writeOctets 4 g.secureWriterSet)))

def writeTo (e : Endianness) (b : Heartbeat) : Bytes :=
  writeEntityId b.readerId ++ (writeEntityId b.writerId ++ (writeSequenceNumber e b.firstSn ++
    (writeSequenceNumber e b.lastSn ++ (writeU32 e b.count ++ b.groupInfo.elim [] (writeGroupInfo e)))))

/-- A HEARTBEAT that passes the checks, under a header that says whether it has group numbers. -/
structure Valid (h : SubmessageHeader) (b : Heartbeat) : Prop where
  first : ¬ b.firstSn.toI64 ≤ 0
  group : ∀ info ∈ b.groupInfo, info.IsValid
  groupFlag : h.groupInfoFlag = some b.groupInfo.isSome

theorem decodes_readGroupInfo (e : Endianness) {g : HeartbeatGroupInfo} (hg : g.IsValid) :
    (readGroupInfo e).Decodes (writeGroupInfo e g) g := by
  apply (decodes_readSequenceNumber e g.currentGsn).bind
  apply (decodes_readSequenceNumber e g.firstGsn).bind
  apply (decodes_readSequenceNumber e g.lastGsn).bind
  apply (decodes_readEntityId g.writerSet).bind
  rw [← List.append_nil (writeOctets 4 g.secureWriterSet)]
  apply (decodes_readEntityId g.secureWriterSet).bind
  exact (decodes_check hg).bind_nil (decodes_pure g)

theorem decodes (hk : h.kind = some k) {b : Heartbeat} (hb : b.Valid h) :
    (deserialize h).Decodes (b.writeTo h.byteOrder) b := by
  apply (decodes_endiannessOf hk).bind_nil
  apply (decodes_readEntityId b.readerId).bind
  apply (decodes_readEntityId b.writerId).bind
  apply (decodes_readSequenceNumber _ b.firstSn).bind
  apply (decodes_readSequenceNumber _ b.lastSn).bind
  apply (decodes_readU32 _ b.count).bind
  rw [hb.groupFlag, ← List.append_nil (b.groupInfo.elim [] _)]
  apply (decodes_optional (fun info hi => decodes_readGroupInfo _ (hb.group info hi))).bind
  exact (decodes_check hb.first).bind_nil (decodes_pure b)

theorem safe (h : SubmessageHeader) : (deserialize h).Safe bound := by
  refine (safe_endiannessOf).bind (fun e => ?_)
  have hsn : (readSequenceNumber e).Safe bound := safe_readSequenceNumber e
  have hdigest : (readOctets 4 32).Safe bound := safe_readOctets 4 32
  have hgroup : (readGroupInfo e).Safe bound := by
    refine hsn.bind (fun _ => hsn.bind (fun _ => hsn.bind (fun _ => ?_)))
    exact hdigest.bind (fun _ => hdigest.bind (fun _ => safe_check.bind (fun _ => safe_pure _)))
  refine safe_readEntityId.bind (fun _ => safe_readEntityId.bind (fun _ => ?_))
  refine hsn.bind (fun _ => hsn.bind (fun _ => (safe_readU32 e).bind (fun _ => ?_)))
  exact (safe_optional hgroup).bind (fun _ => safe_check.bind (fun _ => safe_pure _))

end Heartbeat

/-! ## HEARTBEAT_FRAG and NACK_FRAG -/

structure HeartbeatFrag where
  readerId : EntityId
  writerId : EntityId
  writerSn : SequenceNumber
  lastFragmentNum : BitVec 32
  count : Count
deriving DecidableEq

namespace HeartbeatFrag

def deserialize (h : SubmessageHeader) : Read HeartbeatFrag := do
  let e ← endiannessOf h
  let readerId ← readEntityId
  let writerId ← readEntityId
  let writerSn ← readSequenceNumber e
  let lastFragmentNum ← readU32 e
  let count ← readU32 e
  check (¬ writerSn.toI64 ≤ 0) "writerSN value is zero or negative"
  check (lastFragmentNum ≠ 0) "Last fragment number is zero"
  pure ⟨readerId, writerId, writerSn, lastFragmentNum, count⟩

def writeTo (e : Endianness) (b : HeartbeatFrag) : Bytes :=
  writeEntityId b.readerId ++ (writeEntityId b.writerId ++ (writeSequenceNumber e b.writerSn ++
    (writeU32 e b.lastFragmentNum ++ writeU32 e b.count)))

structure Valid (b : HeartbeatFrag) : Prop where
  sn : ¬ b.writerSn.toI64 ≤ 0
  last : b.lastFragmentNum ≠ 0

theorem decodes (hk : h.kind = some k) {b : HeartbeatFrag}
    (hb : b.Valid) : (deserialize h).Decodes (b.writeTo h.byteOrder) b := by
  apply (decodes_endiannessOf hk).bind_nil
  apply (decodes_readEntityId b.readerId).bind
  apply (decodes_readEntityId b.writerId).bind
  apply (decodes_readSequenceNumber _ b.writerSn).bind
  apply (decodes_readU32 _ b.lastFragmentNum).bind
  rw [← List.append_nil (writeU32 _ b.count)]
  apply (decodes_readU32 _ b.count).bind
  exact (decodes_check hb.sn).bind_nil ((decodes_check hb.last).bind_nil (decodes_pure b))

theorem safe (h : SubmessageHeader) : (deserialize h).Safe bound := by
  refine (safe_endiannessOf).bind (fun e => ?_)
  refine safe_readEntityId.bind (fun _ => safe_readEntityId.bind (fun _ => ?_))
  refine (safe_readSequenceNumber e).bind (fun _ => (safe_readU32 e).bind (fun _ => ?_))
  refine (safe_readU32 e).bind (fun _ => safe_check.bind (fun _ => ?_))
  exact safe_check.bind (fun _ => safe_pure _)

end HeartbeatFrag

structure NackFrag where
  readerId : EntityId
  writerId : EntityId
  writerSn : SequenceNumber
  fragmentNumberState : NumberSet (BitVec 32)
  count : Count
deriving DecidableEq

namespace NackFrag

def deserialize (h : SubmessageHeader) : Read NackFrag := do
  let e ← endiannessOf h
  let readerId ← readEntityId
  let writerId ← readEntityId
  let writerSn ← readSequenceNumber e
  check (¬ writerSn.toI64 ≤ 0) "writerSN value should be strictly positive"
  let fragmentNumberState ← readFragmentNumberSet e
  let isValid ← Decoder.lift (checkNumberSet isValidFragmentBase fragmentNumberState)
  check (isValid = true) "Invalid fragment number set"
  let count ← readU32 e
  pure ⟨readerId, writerId, writerSn, fragmentNumberState, count⟩

def writeTo (e : Endianness) (n : NackFrag) : Bytes :=
  writeEntityId n.readerId ++ (writeEntityId n.writerId ++ (writeSequenceNumber e n.writerSn ++
    (writeFragmentNumberSet e n.fragmentNumberState ++ writeU32 e n.count)))

structure Valid (n : NackFrag) : Prop where
  sn : ¬ n.writerSn.toI64 ≤ 0
  set : n.fragmentNumberState.isValid isValidFragmentBase = true

theorem decodes (hk : h.kind = some k) {n : NackFrag} (hn : n.Valid) :
    (deserialize h).Decodes (n.writeTo h.byteOrder) n := by
  apply (decodes_endiannessOf hk).bind_nil
  apply (decodes_readEntityId n.readerId).bind
  apply (decodes_readEntityId n.writerId).bind
  apply (decodes_readSequenceNumber _ n.writerSn).bind
  apply (decodes_check hn.sn).bind_nil
  apply (decodes_readFragmentNumberSet _ (NumberSetSent.of_isValid hn.set)).bind
  rw [checkNumberSet_eq]
  apply (decodes_lift rfl).bind_nil
  apply (decodes_check hn.set).bind_nil
  exact (decodes_readU32 _ n.count).bind_pure (NackFrag.mk n.readerId n.writerId n.writerSn n.fragmentNumberState)

theorem safe (h : SubmessageHeader) : (deserialize h).Safe bound := by
  refine (safe_endiannessOf).bind (fun e => ?_)
  refine safe_readEntityId.bind (fun _ => safe_readEntityId.bind (fun _ => ?_))
  refine (safe_readSequenceNumber e).bind (fun _ => safe_check.bind (fun _ => ?_))
  refine (safe_readNumberSet (safe_readU32 e) e).bind (fun s => ?_)
  rw [checkNumberSet_eq]
  refine (safe_lift (safe_pure _)).bind (fun _ => safe_check.bind (fun _ => ?_))
  exact (safe_readU32 e).bind (fun _ => safe_pure _)

end NackFrag

/-! ## INFO_TS -/

/-- A point in time: seconds (an `i32`) and nanoseconds below one second. -/
@[ext]
structure InfoTimestamp where
  seconds : BitVec 32
  nanos : Fin 1000000000
deriving DecidableEq

namespace InfoTimestamp

/-- `Utc.timestamp_opt`: a date for every `i32` of seconds and every nanosecond of a second. -/
def timestampOpt (seconds : BitVec 32) (nanos : Nat) : Option InfoTimestamp :=
  if h : nanos < 1000000000 then some ⟨seconds, ⟨nanos, h⟩⟩ else none

/-- The nanoseconds of a fraction of 2^-32 seconds, rounded down. -/
def nanosOfFraction (fraction : Nat) : Nat := (fraction * 1000000000) >>> 32

/-- The fraction of 2^-32 seconds of the nanoseconds, rounded down. -/
def fraction (t : InfoTimestamp) : BitVec 32 := BitVec.ofNat 32 ((t.nanos.val <<< 32) / 1000000000)

def readFrom (e : Endianness) : Read InfoTimestamp := do
  let seconds ← readU32 e
  let fraction ← readU32 e
  Decoder.lift (Outcome.unwrap (timestampOpt seconds (nanosOfFraction fraction.toNat)))

/-- The body in the given byte order. The source writes it little-endian whatever the header says. -/
def writeTo (e : Endianness) (t : InfoTimestamp) : Bytes := writeU32 e t.seconds ++ writeU32 e t.fraction

theorem nanosOfFraction_lt (fraction : BitVec 32) : nanosOfFraction fraction.toNat < 1000000000 := by
  rw [nanosOfFraction]
  omega

def ofFraction (seconds fraction : BitVec 32) : InfoTimestamp :=
  ⟨seconds, ⟨nanosOfFraction fraction.toNat, nanosOfFraction_lt fraction⟩⟩

theorem decodes (e : Endianness) (t : InfoTimestamp) :
    (readFrom e).Decodes (t.writeTo e) (ofFraction t.seconds t.fraction) := by
  apply (decodes_readU32 e t.seconds).bind
  rw [← List.append_nil (writeU32 e t.fraction)]
  apply (decodes_readU32 e t.fraction).bind
  apply decodes_lift
  rw [timestampOpt, dif_pos (nanosOfFraction_lt t.fraction)]
  rfl

def fractionsPerSecond : Nat := 2 ^ 32

def nanosPerSecond : Nat := 1000000000

theorem toNat_fraction (t : InfoTimestamp) : t.fraction.toNat = t.nanos.val * fractionsPerSecond / nanosPerSecond := by
  have hlt : t.nanos.val * fractionsPerSecond / nanosPerSecond < fractionsPerSecond := by
    apply Nat.div_lt_of_lt_mul
    exact Nat.mul_lt_mul_of_pos_right t.nanos.isLt (by decide)
  rw [fraction, BitVec.toNat_ofNat, Nat.shiftLeft_eq]
  exact Nat.mod_eq_of_lt hlt

theorem div_mul_div_eq_self_iff {a b : Nat} (hb : 0 < b) (n : Nat) : n * b / a * a / b = n ↔ a ∣ n * b := by
  constructor
  · intro h
    have hle : n * b ≤ n * b / a * a := by
      rw [← Nat.le_div_iff_mul_le hb, h]
    have heq : n * b / a * a = n * b := le_antisymm (Nat.div_mul_le_self _ _) hle
    exact Dvd.intro_left _ heq
  · intro h
    rw [Nat.div_mul_cancel h, Nat.mul_div_cancel n hb]

theorem nanosPerSecond_dvd_iff (n : Nat) : nanosPerSecond ∣ n * fractionsPerSecond ↔ 1953125 ∣ n := by
  have hcop : Nat.Coprime 1953125 (2 ^ 23) := by norm_num
  have hnanos : nanosPerSecond = 1953125 * 2 ^ 9 := by decide
  have hfractions : fractionsPerSecond = 2 ^ 23 * 2 ^ 9 := by decide
  rw [hnanos, hfractions, ← Nat.mul_assoc, Nat.mul_dvd_mul_iff_right (by decide), Nat.Coprime.dvd_mul_right hcop]

theorem nanosOfFraction_eq (f : Nat) : nanosOfFraction f = f * nanosPerSecond / fractionsPerSecond :=
  Nat.shiftRight_eq_div_pow _ 32

theorem ofFraction_eq_iff {seconds fraction : BitVec 32} {t : InfoTimestamp} :
    ofFraction seconds fraction = t ↔ seconds = t.seconds ∧ nanosOfFraction fraction.toNat = t.nanos.val := by
  rw [InfoTimestamp.ext_iff, Fin.ext_iff]
  rfl

/-- Rounding down twice loses a nanosecond, unless the nanoseconds are a whole number of fractions. -/
theorem ofFraction_fraction_eq_iff (t : InfoTimestamp) :
    ofFraction t.seconds t.fraction = t ↔ 1953125 ∣ t.nanos.val := by
  rw [ofFraction_eq_iff, nanosOfFraction_eq, toNat_fraction, div_mul_div_eq_self_iff (by decide),
    nanosPerSecond_dvd_iff]
  exact and_iff_right rfl

theorem safe (e : Endianness) : (readFrom e).Safe bound := by
  refine (safe_readU32 e).bind (fun seconds => (safe_readU32 e).bind (fun fraction => ?_))
  exact safe_lift (safe_unwrap.2 (by rw [timestampOpt, dif_pos (nanosOfFraction_lt fraction)]; rfl))

end InfoTimestamp

/-! ## INFO_DST, INFO_SRC, INFO_REPLY and INFO_REPLY_IP4 -/

structure InfoDestination where
  guidPrefix : GuidPrefix
deriving DecidableEq

namespace InfoDestination

def readFrom : Read InfoDestination := do
  let guidPrefix ← readGuidPrefix
  pure ⟨guidPrefix⟩

def writeTo (d : InfoDestination) : Bytes := writeGuidPrefix d.guidPrefix

theorem decodes (d : InfoDestination) : readFrom.Decodes d.writeTo d :=
  (decodes_readGuidPrefix d.guidPrefix).bind_pure InfoDestination.mk

theorem safe : readFrom.Safe bound := (safe_readOctets 12 96).bind (fun _ => safe_pure _)

end InfoDestination

structure InfoSource where
  protocolVersion : Byte × Byte
  vendorId : BitVec 16
  guidPrefix : GuidPrefix
deriving DecidableEq

namespace InfoSource

def readFrom (e : Endianness) : Read InfoSource := do
  let _unusedLong ← readU32 e
  let major ← readOctets 1 8
  let minor ← readOctets 1 8
  let vendorId ← readOctets 2 16
  let guidPrefix ← readGuidPrefix
  pure ⟨(major, minor), vendorId, guidPrefix⟩

theorem safe (e : Endianness) : (readFrom e).Safe bound := by
  refine (safe_readU32 e).bind (fun _ => (safe_readOctets 1 8).bind (fun _ => ?_))
  refine (safe_readOctets 1 8).bind (fun _ => (safe_readOctets 2 16).bind (fun _ => ?_))
  exact (safe_readOctets 12 96).bind (fun _ => safe_pure _)

end InfoSource

structure Locator where
  kind : BitVec 32
  port : BitVec 32
  address : BitVec 128
deriving DecidableEq

namespace Locator

/-- The bytes one locator takes in memory and on the wire. -/
def size : Nat := 24

def invalid : Locator := ⟨-1, 0, 0⟩

def readFrom (e : Endianness) : Read Locator := do
  let kind ← readU32 e
  let port ← readU32 e
  let address ← readOctets 16 128
  pure ⟨kind, port, address⟩

theorem safe (e : Endianness) : (readFrom e).Safe bound := by
  refine (safe_readU32 e).bind (fun _ => (safe_readU32 e).bind (fun _ => ?_))
  exact (safe_readOctets 16 128).bind (fun _ => safe_pure _)

end Locator

structure InfoReply where
  unicastLocatorList : List Locator
  multicastLocatorList : List Locator
deriving DecidableEq

namespace InfoReply

/-- A count and that many locators, with `Vec::with_capacity` of the count. -/
def readLocatorList (e : Endianness) : Read (List Locator) := do
  let numLocators ← readU32 e
  Decoder.lift (Outcome.request (Locator.size * numLocators.toNat))
  Decoder.times numLocators.toNat (Locator.readFrom e)

def deserialize (h : SubmessageHeader) : Read InfoReply := do
  let e ← endiannessOf h
  let unicastLocatorList ← readLocatorList e
  let multicast ← Decoder.lift (Outcome.okOr h.multicastFlag RtpsError.unsupported)
  let multicastLocatorList ← Decoder.optional (multicast = true) (readLocatorList e)
  pure ⟨unicastLocatorList, multicastLocatorList.getD []⟩

end InfoReply

structure LocatorUDPv4 where
  address : BitVec 32
  port : BitVec 32
deriving DecidableEq

namespace LocatorUDPv4

def readFrom (e : Endianness) : Read LocatorUDPv4 := do
  let address ← readU32 e
  let port ← readU32 e
  pure ⟨address, port⟩

/-- The address goes to the last four octets, in the byte order it came in. -/
def toLocator (l : LocatorUDPv4) (e : Endianness) : Locator :=
  ⟨1, l.port, BitVec.ofNat 128 (Endianness.big.get (writeU32 e l.address))⟩

theorem safe (e : Endianness) : (readFrom e).Safe bound :=
  (safe_readU32 e).bind (fun _ => (safe_readU32 e).bind (fun _ => safe_pure _))

end LocatorUDPv4

structure InfoReplyIp4 where
  unicastLocator : LocatorUDPv4
  multicastLocator : Option LocatorUDPv4
deriving DecidableEq

namespace InfoReplyIp4

def deserialize (h : SubmessageHeader) : Read InfoReplyIp4 := do
  let e ← endiannessOf h
  let unicastLocator ← LocatorUDPv4.readFrom e
  let multicast ← Decoder.lift (Outcome.okOr h.multicastFlag RtpsError.unsupported)
  let multicastLocator ← Decoder.optional (multicast = true) (LocatorUDPv4.readFrom e)
  pure ⟨unicastLocator, multicastLocator⟩

theorem safe (h : SubmessageHeader) : (deserialize h).Safe bound := by
  refine (safe_endiannessOf).bind (fun e => (LocatorUDPv4.safe e).bind (fun _ => ?_))
  refine (safe_lift safe_okOr).bind (fun _ => ?_)
  exact (safe_optional (LocatorUDPv4.safe e)).bind (fun _ => safe_pure _)

end InfoReplyIp4

end Int2Dds.Messages
