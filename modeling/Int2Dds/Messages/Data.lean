import Int2Dds.Lib.Slots
import Int2Dds.Messages.InlineQos

/-!
# DATA and DATA_FRAG

`deserialize` of the two submessages that carry user data, with every slice and every subtraction on the way that
could panic. DATA is safe on every body, with room for what it collects. DATA_FRAG is safe exactly where its inline QoS
is: `DataFrag.Fits`.
-/

namespace Int2Dds.Messages

open Lib Rtps Outcome

/-- 8.3.7.2.3 and 8.3.7.3.3: the sequence number of a sample. -/
def IsSampleSn (sn : SequenceNumber) : Prop := ¬ (sn.toI64 ≤ 0 ∨ sn = SequenceNumber.unknown)

instance (sn : SequenceNumber) : Decidable (IsSampleSn sn) := inferInstanceAs (Decidable (¬ _))

def invalidSampleSn : RtpsError :=
  RtpsError.invalidBody "writerSN value should be strictly positive or not SEQUENCENUMBER_UNKNOWN"

/-- `flag.ok_or_else(..)?`. -/
def flagOf (flag : Option Bool) : Outcome RtpsError Bool := okOr flag RtpsError.unsupported

/-! ## DATA -/

structure Data where
  extraFlags : BitVec 16
  readerId : EntityId
  writerId : EntityId
  writerSn : SequenceNumber
  inlineQos : Option ParameterList
  serializedData : Bytes
  octetsToInlineQos : BitVec 16
deriving DecidableEq

namespace Data

/-- The 20 octets before the inline QoS. -/
structure Fixed where
  extraFlags : BitVec 16
  octetsToInlineQos : BitVec 16
  readerId : EntityId
  writerId : EntityId
  writerSn : SequenceNumber

def readFixed (e : Endianness) : Read Fixed := do
  let extraFlags ← readU16 e
  let octetsToInlineQos ← readU16 e
  let readerId ← readEntityId
  let writerId ← readEntityId
  let writerSn ← readSequenceNumber e
  pure ⟨extraFlags, octetsToInlineQos, readerId, writerId, writerSn⟩

/-- The inline QoS, and where the payload starts. `octetsToInlineQos` is not looked at. -/
def readInlineQos (e : Endianness) (inlineQosFlag : Bool) (buffer : Bytes) :
    Outcome RtpsError (Option ParameterList × Nat) :=
  if inlineQosFlag then
    if 20 < buffer.length then do
      let inlineQosData ← slice buffer 20 buffer.length
      (InlineQosParser.parseInlineQos e inlineQosData).onError (pure (none, buffer.length))
        fun (parameters, consumed) => pure (some parameters, 20 + consumed)
    else pure (none, 20)
  else pure (none, 20)

def invalidHeader (message : String) : RtpsError := RtpsError.new .invalidSubmessageHeader (some message)

/-- The payload, which only the data and the key form have. -/
def payloadFrom (hasPayload : Bool) (buffer : Bytes) (startPos : Nat) : Outcome RtpsError Bytes :=
  if hasPayload then slice buffer startPos buffer.length else pure []

def deserialize (buffer : Bytes) (h : SubmessageHeader) : Outcome RtpsError Data := do
  let e ← okOr h.endiannessFlag RtpsError.unsupported
  let inlineQosFlag ← flagOf h.inlineQosFlag
  let dataFlag ← flagOf h.dataFlag
  let keyFlag ← flagOf h.keyFlag
  require (¬ (dataFlag = true ∧ keyFlag = true)) (invalidHeader "DataFlag and KeyFlag cannot be set together")
  let fixed ← (readFixed e).runOn buffer
  require (IsSampleSn fixed.writerSn) invalidSampleSn
  let (inlineQos, startPos) ← readInlineQos e inlineQosFlag buffer
  let serializedData ← payloadFrom (dataFlag || keyFlag) buffer startPos
  let statusInfo := inlineQos.bind ParameterList.getStatusInfo
  let hasLifecycle := statusInfo.any (fun si => si &&& 0x03 ≠ 0)
  let canHaveKey := statusInfo.any (fun si => si &&& 0x07 ≠ 0)
  require (¬ (dataFlag = true ∧ hasLifecycle = true))
    (invalidHeader "DataFlag set with dispose/unregister StatusInfo")
  require (¬ (keyFlag = true ∧ canHaveKey = false))
    (invalidHeader "KeyFlag set without dispose/unregister/filtered StatusInfo")
  pure ⟨fixed.extraFlags, fixed.readerId, fixed.writerId, fixed.writerSn, inlineQos, serializedData,
    fixed.octetsToInlineQos⟩

variable {bound : Nat}

variable {e : Endianness}

theorem fixedSize_readFixed : (readFixed e).FixedSize 20 := by
  have hsn : (readSequenceNumber e).FixedSize 8 :=
    (Decoder.fixedSize_word _ e 4 32).bind (fun _ => (Decoder.fixedSize_word _ e 4 32).bind_pure _)
  refine (Decoder.fixedSize_word _ e 2 16).bind (n := 18) (fun _ => ?_)
  refine (Decoder.fixedSize_word _ e 2 16).bind (n := 16) (fun _ => ?_)
  refine (Decoder.fixedSize_word _ .big 4 32).bind (n := 12) (fun _ => ?_)
  exact (Decoder.fixedSize_word _ .big 4 32).bind (n := 8) (fun _ => hsn.bind_pure _)

theorem safe_readFixed : (readFixed e).Safe bound := by
  refine (safe_readU16 e).bind (fun _ => (safe_readU16 e).bind (fun _ => safe_readEntityId.bind (fun _ => ?_)))
  exact safe_readEntityId.bind (fun _ => (safe_readSequenceNumber e).bind (fun _ => Decoder.safe_pure _))

variable {buffer : Bytes}

theorem safe_readInlineQos (flag : Bool) (hroom : InlineQosParser.growthRoom ≤ bound) :
    (readInlineQos e flag buffer).Safe bound := by
  unfold readInlineQos
  split_ifs with _ hlen
  · rw [slice_of_le ⟨by omega, le_refl _⟩]
    exact (InlineQosParser.safe_parseInlineQos e hroom).onError (Outcome.safe_pure _) (fun _ _ => Outcome.safe_pure _)
  · exact Outcome.safe_pure _
  · exact Outcome.safe_pure _

theorem startPos_le {flag : Bool} (hlen : 20 ≤ buffer.length) {p : Option ParameterList × Nat}
    (h : (readInlineQos e flag buffer).result = .ok p) : p.2 ≤ buffer.length := by
  unfold readInlineQos at h
  split_ifs at h with _ hlt
  · rw [slice_of_le ⟨by omega, le_refl _⟩, pure_bind] at h
    obtain ⟨r, hr, hp⟩ := result_bind_eq_ok.1 h
    rcases result_attempt_eq_ok.1 hr with ⟨⟨ps, consumed⟩, hparse, rfl⟩ | ⟨_, -, rfl⟩
    · have hconsumed := InlineQosParser.consumed_le hparse
      rw [List.take_length, List.length_drop] at hconsumed
      cases hp
      omega
    · cases hp
      exact le_refl _
  · cases h
    exact hlen
  · cases h
    exact hlen

theorem safe_payloadFrom (hasPayload : Bool) {startPos : Nat} (h : startPos ≤ buffer.length) :
    (payloadFrom hasPayload buffer startPos).Safe bound := by
  unfold payloadFrom
  split_ifs
  · exact Outcome.safe_slice.2 ⟨h, le_refl _⟩
  · exact Outcome.safe_pure _

theorem safe (hroom : InlineQosParser.growthRoom ≤ bound) (h : SubmessageHeader) :
    (deserialize buffer h).Safe bound := by
  refine safe_okOr.bind (fun e _ => safe_okOr.bind (fun inlineQosFlag _ => ?_))
  refine safe_okOr.bind (fun dataFlag _ => safe_okOr.bind (fun keyFlag _ => ?_))
  refine safe_require.bind (fun _ _ => ?_)
  refine ((safe_readFixed).runOn buffer).bind (fun fixed hfixed => ?_)
  have hlen : 20 ≤ buffer.length := by
    obtain ⟨p, hp, -⟩ := result_bind_eq_ok.1 hfixed
    exact ((fixedSize_readFixed).of_ok hp).1
  refine safe_require.bind (fun _ _ => ?_)
  refine (safe_readInlineQos inlineQosFlag hroom).bind (fun p hp => ?_)
  refine (safe_payloadFrom _ (startPos_le hlen hp)).bind (fun _ _ => ?_)
  refine safe_require.bind (fun _ _ => ?_)
  exact safe_require.bind (fun _ _ => Outcome.safe_pure _)

end Data

/-! ## DATA_FRAG -/

structure DataFrag where
  readerId : EntityId
  writerId : EntityId
  writerSn : SequenceNumber
  fragmentStartingNum : BitVec 32
  fragmentsInSubmessage : BitVec 16
  fragmentSize : BitVec 16
  sampleSize : BitVec 32
  inlineQos : Option ParameterList
  serializedData : Bytes
deriving DecidableEq

namespace DataFrag

def maxFragmentsPerSample : Nat := 1048576

def fixedBodyLen : Nat := 32

variable (e : Endianness) (buffer : Bytes)

/-- `k` octets of the body from `offset` on, as a number. -/
def wordAt (offset k w : Nat) : BitVec w := BitVec.ofNat w (e.get ((buffer.drop offset).take k))

def octetsToInlineQos : BitVec 16 := wordAt e buffer 2 2 16

def writerSnAt : SequenceNumber := ⟨wordAt e buffer 12 4 32, wordAt e buffer 16 4 32⟩

/-- The payload of the claimed fragments, without padding, or why it is refused: 8.3.7.3.3 and the bounds the receiver
needs. -/
def checkFragments (startingNum fragmentsInSubmessage fragmentSize sampleSize : Nat) (payload : Bytes) :
    Outcome RtpsError Bytes := do
  require (¬ (startingNum = 0 ∨ fragmentsInSubmessage = 0 ∨ fragmentSize = 0))
    (RtpsError.invalidBody "Invalid DATA_FRAG fragment numbering or size")
  require (¬ sampleSize < fragmentSize) (RtpsError.invalidBody "Fragment size exceeds sample size")
  let total ← checked 32 (sampleSize / fragmentSize + if sampleSize % fragmentSize ≠ 0 then 1 else 0)
  require (¬ maxFragmentsPerSample < total)
    (RtpsError.invalidBody "Total fragment count exceeds the maximum allowed for a single sample")
  let before ← checkedSub startingNum 1
  let startOffset ← checked 64 (before * fragmentSize)
  require (¬ sampleSize ≤ startOffset) (RtpsError.invalidBody "FragmentStartingNum exceeds sample_size")
  let maxFragmentDataSize ← checked 64 (fragmentsInSubmessage * fragmentSize)
  let remainingSampleSize ← checkedSub sampleSize startOffset
  let expectedDataSize := min maxFragmentDataSize remainingSampleSize
  let allowed ← checked 64 (expectedDataSize + 3)
  require (¬ allowed < payload.length)
    (RtpsError.invalidBody ("Serialized data size exceeds the expected size based on fragments_in_submessage " ++
      "and fragment_size"))
  let actualLen := min payload.length expectedDataSize
  let fullFragments ← checkedSub fragmentsInSubmessage 1
  let minDataSize ← checked 64 (fullFragments * fragmentSize)
  require (¬ actualLen ≤ minDataSize)
    (RtpsError.invalidBody "Serialized data size is too small to reach the last claimed fragment")
  slice payload 0 actualLen

/-- The inline QoS, and where the payload starts. The cursor stands where `octetsToInlineQos` says; past the end
nothing is read. -/
def readInlineQos (inlineQosFlag : Bool) (buffer : Bytes) : Outcome RtpsError (Option ParameterList × Nat) :=
  let cursor := 4 + (octetsToInlineQos e buffer).toNat
  if inlineQosFlag then do
    let (parameters, rest) ← ParameterList.readFrom e (buffer.drop cursor)
    pure (some parameters, buffer.length - rest.length)
  else pure (none, cursor)

/-- What follows the inline QoS. The fixed fields are read in place. -/
def readPayload (inlineQos : Option ParameterList) (startPos : Nat) : Outcome RtpsError DataFrag := do
  let fragmentStartingNum : BitVec 32 := wordAt e buffer 20 4 32
  let fragmentsInSubmessage : BitVec 16 := wordAt e buffer 24 2 16
  let fragmentSize : BitVec 16 := wordAt e buffer 26 2 16
  let sampleSize : BitVec 32 := wordAt e buffer 28 4 32
  require (¬ buffer.length < startPos)
    (RtpsError.invalidBody "octetsToInlineQos points past the end of the DATA_FRAG body")
  let payload ← slice buffer startPos buffer.length
  let serializedData ← checkFragments fragmentStartingNum.toNat fragmentsInSubmessage.toNat fragmentSize.toNat
    sampleSize.toNat payload
  pure ⟨wordAt .big buffer 4 4 32, wordAt .big buffer 8 4 32, writerSnAt e buffer, fragmentStartingNum,
    fragmentsInSubmessage, fragmentSize, sampleSize, inlineQos, serializedData⟩

def deserialize (h : SubmessageHeader) : Outcome RtpsError DataFrag := do
  let e ← okOr h.endiannessFlag RtpsError.unsupported
  let inlineQosFlag ← flagOf h.inlineQosFlag
  require (fixedBodyLen ≤ buffer.length) (RtpsError.new .io (some "DATA_FRAG body too short"))
  require (IsSampleSn (writerSnAt e buffer)) invalidSampleSn
  let (inlineQos, startPos) ← readInlineQos e inlineQosFlag buffer
  readPayload e buffer inlineQos startPos

variable {bound : Nat}

/-- The fragments that `length` octets, padding included, may claim. -/
structure Claimable (start count size sample length : Nat) : Prop where
  start_pos : 0 < start
  count_pos : 0 < count
  size_pos : 0 < size
  size_le : size ≤ sample
  total_le : slotCount size sample ≤ maxFragmentsPerSample
  start_lt : (start - 1) * size < sample
  length_le : length ≤ min (count * size) (sample - (start - 1) * size) + 3
  lt_length : (count - 1) * size < min length (min (count * size) (sample - (start - 1) * size))

theorem mul_lt_two_pow {a b : Nat} (ha : a < 2 ^ 32) (hb : b < 2 ^ 16) : a * b < 2 ^ 64 := by
  calc a * b ≤ 2 ^ 32 * 2 ^ 16 := Nat.mul_le_mul ha.le hb.le
    _ < 2 ^ 64 := by decide

/-- An error, or what is not padding: no sum, product or difference is out of range. -/
theorem checkFragments_cases {start count size sample : Nat} (hstart : start < 2 ^ 32) (hcount : count < 2 ^ 16)
    (hsize : size < 2 ^ 16) (hsample : sample < 2 ^ 32) (payload : Bytes) :
    (Claimable start count size sample payload.length ∧ checkFragments start count size sample payload =
        pure (payload.take (min payload.length (min (count * size) (sample - (start - 1) * size))))) ∨
      (¬ Claimable start count size sample payload.length ∧
        ∃ e, checkFragments start count size sample payload = Outcome.error e) := by
  have hrefused {c : Prop} [Decidable c] {e : RtpsError} {f : Unit → Outcome RtpsError Bytes} (hc : ¬ c) :
      ∃ e', (require c e >>= f) = Outcome.error e' := by
    rw [require, if_neg hc]
    exact ⟨e, rfl⟩
  unfold checkFragments
  by_cases hpos : 0 < start ∧ 0 < count ∧ 0 < size
  swap
  · exact .inr ⟨fun h => hpos ⟨h.start_pos, h.count_pos, h.size_pos⟩, hrefused (by omega)⟩
  rw [require_of (by omega), pure_bind]
  by_cases hle : size ≤ sample
  swap
  · exact .inr ⟨fun h => hle h.size_le, hrefused (by omega)⟩
  have hslots : slotCount size sample ≤ sample := by
    refine Nat.le_of_not_lt fun hlt => ?_
    have hmul := (lt_slotCount_iff hpos.2.2).1 hlt
    exact absurd (Nat.le_mul_of_pos_right sample hpos.2.2) (Nat.not_le.2 hmul)
  rw [require_of (by omega), pure_bind, ← slotCount, checked_of_lt (by omega), pure_bind]
  by_cases htotal : slotCount size sample ≤ maxFragmentsPerSample
  swap
  · exact .inr ⟨fun h => htotal h.total_le, hrefused (by omega)⟩
  rw [require_of (by omega), pure_bind, checkedSub_of_le (by omega), pure_bind,
    checked_of_lt (mul_lt_two_pow (by omega) hsize), pure_bind]
  by_cases hoffset : (start - 1) * size < sample
  swap
  · exact .inr ⟨fun h => hoffset h.start_lt, hrefused (by omega)⟩
  rw [require_of (by omega), pure_bind, checked_of_lt (mul_lt_two_pow (by omega) hsize), pure_bind,
    checkedSub_of_le (by omega), pure_bind]
  dsimp only
  rw [checked_of_lt (by omega), pure_bind]
  by_cases hlength : payload.length ≤ min (count * size) (sample - (start - 1) * size) + 3
  swap
  · exact .inr ⟨fun h => hlength h.length_le, hrefused (by omega)⟩
  rw [require_of (by omega), pure_bind, checkedSub_of_le (by omega), pure_bind,
    checked_of_lt (mul_lt_two_pow (by omega) hsize), pure_bind]
  by_cases hlast : (count - 1) * size < min payload.length (min (count * size) (sample - (start - 1) * size))
  swap
  · exact .inr ⟨fun h => hlast h.lt_length, hrefused (by omega)⟩
  refine .inl ⟨⟨hpos.1, hpos.2.1, hpos.2.2, hle, htotal, hoffset, hlength, hlast⟩, ?_⟩
  rw [require_of (by omega), pure_bind, slice_of_le ⟨Nat.zero_le _, Nat.min_le_left _ _⟩, List.drop_zero]

theorem safe_checkFragments (startingNum : BitVec 32) (fragmentsInSubmessage fragmentSize : BitVec 16)
    (sampleSize : BitVec 32) (payload : Bytes) :
    (checkFragments startingNum.toNat fragmentsInSubmessage.toNat fragmentSize.toNat sampleSize.toNat payload).Safe
      bound := by
  rcases checkFragments_cases startingNum.isLt fragmentsInSubmessage.isLt fragmentSize.isLt sampleSize.isLt payload with
    ⟨-, h⟩ | ⟨-, e, h⟩ <;> rw [h]
  · exact Outcome.safe_pure _
  · exact Outcome.safe_error e

/-- Where the reading of the inline QoS starts. -/
def inlineQosBytes : Bytes := buffer.drop (4 + (octetsToInlineQos e buffer).toNat)

/-- The inline QoS that `deserialize` comes to can be read. -/
def Fits (bound : Nat) (buffer : Bytes) (h : SubmessageHeader) : Prop :=
  h.inlineQosFlag = some true → fixedBodyLen ≤ buffer.length → IsSampleSn (writerSnAt h.byteOrder buffer) →
    ParameterList.Fits bound h.byteOrder (inlineQosBytes h.byteOrder buffer)

theorem safe_readInlineQos_iff {e : Endianness} {flag : Bool} {buffer : Bytes} :
    (readInlineQos e flag buffer).Safe bound ↔
      (flag = true → ParameterList.Fits bound e (inlineQosBytes e buffer)) := by
  unfold readInlineQos
  cases flag with
  | false => exact iff_of_true (Outcome.safe_pure _) nofun
  | true =>
    rw [if_pos rfl, safe_bind, ParameterList.safe_readFrom_iff]
    constructor
    · intro h _
      exact h.1
    · intro h
      exact ⟨h rfl, fun _ _ => Outcome.safe_pure _⟩

theorem safe_readPayload (e : Endianness) (buffer : Bytes) (inlineQos : Option ParameterList) (startPos : Nat) :
    (readPayload e buffer inlineQos startPos).Safe bound := by
  unfold readPayload
  rw [safe_require_bind]
  intro hstart
  refine (Outcome.safe_slice.2 ⟨by omega, le_refl _⟩).bind (fun payload _ => ?_)
  exact (safe_checkFragments _ _ _ _ payload).bind (fun _ _ => Outcome.safe_pure _)

theorem safe_iff {buffer : Bytes} {h : SubmessageHeader} (hk : h.kind = some .dataFrag) :
    (deserialize buffer h).Safe bound ↔ Fits bound buffer h := by
  have hflag : h.inlineQosFlag = some (h.hasFlag 0x02) := by rw [SubmessageHeader.inlineQosFlag, hk]
  unfold deserialize
  rw [SubmessageHeader.endiannessFlag_of_kind hk, hflag]
  show Outcome.Safe bound (require _ _ >>= _) ↔ _
  rw [safe_require_bind]
  rw [safe_require_bind, Fits, hflag, Option.some_inj]
  rw [safe_bind, safe_readInlineQos_iff]
  constructor
  · intro hs hinline hlen hsn
    exact (hs hlen hsn).1 hinline
  · intro hf hlen hsn
    exact ⟨fun hinline => hf hinline hlen hsn, fun p _ => safe_readPayload _ _ p.1 p.2⟩

end DataFrag

end Int2Dds.Messages
