import Int2Dds.Lib.Wire
import Int2Dds.Rtps.Common

/-!
# Submessage headers, and the elements of submessage bodies

* `RtpsError` : an error code and its text. Errors of the byte reader carry the reader's own text.
* `SubmessageHeader` : the id, the flags and `octetsToNextHeader`. `writeTo` writes the length in the byte order the
  E flag names; `readFromBuffer` reads it in the reader's default order, which is little-endian.
* Entity ids, sequence numbers and number sets: how each is read, how it is written, and that the one undoes the
  other.
-/

namespace Int2Dds.Messages

open Lib Rtps List Decoder

/-! ## Errors -/

inductive RtpsErrorCode where
  | io
  | bufferTooShortForRtpsHeader
  | invalidRtpsMagic
  | invalidRtpsHeader
  | invalidSubmessageHeader
  | invalidSubmessageBody
  | unsupportedSubmessageType
deriving DecidableEq

def RtpsErrorCode.defaultMessage : RtpsErrorCode → String
  | .io => "IO Error"
  | .bufferTooShortForRtpsHeader => "Buffer is too short for RTPS header"
  | .invalidRtpsMagic => "Invalid RTPS magic number"
  | .invalidRtpsHeader => "Invalid RTPS header"
  | .invalidSubmessageHeader => "Invalid RTPS submessage header"
  | .invalidSubmessageBody => "Invalid RTPS submessage body"
  | .unsupportedSubmessageType => "Unsupported RTPS submessage type"

/-- The text of an error. `reader` stands for the text of the byte reader's error. -/
inductive ErrorMessage where
  | text (s : String)
  | reader
deriving DecidableEq

structure RtpsError where
  code : RtpsErrorCode
  message : ErrorMessage
deriving DecidableEq

namespace RtpsError

def new (code : RtpsErrorCode) (message : Option String) : RtpsError :=
  ⟨code, .text (message.getD code.defaultMessage)⟩

/-- `map_speedy_err`. -/
def ofReader : RtpsError := ⟨.io, .reader⟩

def invalidBody (message : String) : RtpsError := new .invalidSubmessageBody (some message)

def unsupported : RtpsError := new .unsupportedSubmessageType none

end RtpsError

abbrev Read := Decoder Bytes RtpsError

/-! ## Submessage headers -/

inductive SubmessageKind where
  | pad
  | acknack
  | heartbeat
  | gap
  | infoTs
  | infoSrc
  | infoReplyIp4
  | infoDst
  | infoReply
  | nackFrag
  | heartbeatFrag
  | data
  | dataFrag
deriving DecidableEq

namespace SubmessageKind

/-- `SubmessageId`. -/
def id : SubmessageKind → Byte
  | .pad => 0x01
  | .acknack => 0x06
  | .heartbeat => 0x07
  | .gap => 0x08
  | .infoTs => 0x09
  | .infoSrc => 0x0C
  | .infoReplyIp4 => 0x0D
  | .infoDst => 0x0E
  | .infoReply => 0x0F
  | .nackFrag => 0x12
  | .heartbeatFrag => 0x13
  | .data => 0x15
  | .dataFrag => 0x16

def all : List SubmessageKind :=
  [.pad, .acknack, .heartbeat, .gap, .infoTs, .infoSrc, .infoReplyIp4, .infoDst, .infoReply, .nackFrag,
    .heartbeatFrag, .data, .dataFrag]

def ofId (b : Byte) : Option SubmessageKind := all.find? (fun k => k.id = b)

@[simp] theorem ofId_id (k : SubmessageKind) : ofId k.id = some k := by cases k <;> rfl

end SubmessageKind

structure SubmessageHeader where
  submessageId : Byte
  flags : Byte
  submessageLength : BitVec 16
deriving DecidableEq

namespace SubmessageHeader

variable (h : SubmessageHeader)

def kind : Option SubmessageKind := SubmessageKind.ofId h.submessageId

def hasFlag (mask : Byte) : Bool := h.flags &&& mask ≠ 0

/-- E=0 means big-endian, E=1 means little-endian. -/
def endiannessFlag : Option Endianness := h.kind.map fun _ => if h.hasFlag 0x01 then .little else .big

def groupInfoFlag : Option Bool :=
  match h.kind with
  | some .heartbeat => some (h.hasFlag 0x08)
  | some .gap => some (h.hasFlag 0x02)
  | _ => none

def filteredCountFlag : Option Bool :=
  match h.kind with
  | some .gap => some (h.hasFlag 0x04)
  | _ => none

def inlineQosFlag : Option Bool :=
  match h.kind with
  | some .data | some .dataFrag => some (h.hasFlag 0x02)
  | _ => none

def dataFlag : Option Bool :=
  match h.kind with
  | some .data => some (h.hasFlag 0x04)
  | _ => none

def keyFlag : Option Bool :=
  match h.kind with
  | some .data => some (h.hasFlag 0x08)
  | some .dataFrag => some (h.hasFlag 0x04)
  | _ => none

def multicastFlag : Option Bool :=
  match h.kind with
  | some .infoReply | some .infoReplyIp4 => some (h.hasFlag 0x02)
  | _ => none

def invalidateFlag : Option Bool :=
  match h.kind with
  | some .infoTs => some (h.hasFlag 0x02)
  | _ => none

/-- The byte order the E bit of `h` names, whatever the id. -/
def byteOrder : Endianness := if h.hasFlag 0x01 then .little else .big

theorem endiannessFlag_of_kind {h : SubmessageHeader} {k : SubmessageKind} (hk : h.kind = some k) :
    h.endiannessFlag = some h.byteOrder := by rw [endiannessFlag, hk]; rfl

end SubmessageHeader

/-! ## Elements -/

abbrev EntityId := BitVec 32

abbrev GuidPrefix := BitVec 96

abbrev Count := BitVec 32

variable (e : Endianness)

def readU16 : Read (BitVec 16) := Decoder.word RtpsError.ofReader e 2 16

def readU32 : Read (BitVec 32) := Decoder.word RtpsError.ofReader e 4 32

def writeU16 (v : BitVec 16) : Bytes := e.put 2 v.toNat

def writeU32 (v : BitVec 32) : Bytes := e.put 4 v.toNat

/-- Octets have no byte order: they are taken as one number, first octet first. -/
def readOctets (n w : Nat) : Read (BitVec w) := Decoder.word RtpsError.ofReader .big n w

def writeOctets (n : Nat) {w : Nat} (v : BitVec w) : Bytes := Endianness.big.put n v.toNat

def readEntityId : Read EntityId := readOctets 4 32

def writeEntityId (i : EntityId) : Bytes := writeOctets 4 i

def readGuidPrefix : Read GuidPrefix := readOctets 12 96

def writeGuidPrefix (g : GuidPrefix) : Bytes := writeOctets 12 g

def readSequenceNumber : Read SequenceNumber := do
  let high ← readU32 e
  let low ← readU32 e
  pure ⟨high, low⟩

def writeSequenceNumber (s : SequenceNumber) : Bytes := writeU32 e s.high ++ writeU32 e s.low

theorem decodes_readU32 (e : Endianness) (v : BitVec 32) : (readU32 e).Decodes (writeU32 e v) v :=
  decodes_word _ e (by decide) v

theorem decodes_readEntityId (i : EntityId) : readEntityId.Decodes (writeEntityId i) i :=
  decodes_word _ .big (by decide) i

theorem decodes_readGuidPrefix (g : GuidPrefix) : readGuidPrefix.Decodes (writeGuidPrefix g) g :=
  decodes_word _ .big (by decide) g

theorem decodes_readSequenceNumber (e : Endianness) (s : SequenceNumber) :
    (readSequenceNumber e).Decodes (writeSequenceNumber e s) s :=
  (decodes_readU32 e s.high).bind ((decodes_readU32 e s.low).bind_pure (SequenceNumber.mk s.high))

/-! ## Number sets -/

section NumberSets

variable {τ : Type}

/-- `[0_i32; 8]` with its first words overwritten. -/
def bitmapOf (words : List (BitVec 32)) : List (BitVec 32) := (words ++ List.replicate 8 0).take 8

theorem length_bitmapOf (words : List (BitVec 32)) : (bitmapOf words).length = 8 := by
  simp [bitmapOf]

def readNumberSet (readBase : Read τ) (e : Endianness) : Read (NumberSet τ) := do
  let bitmapBase ← readBase
  let numBits ← readU32 e
  let words ← Decoder.times (min ((numBits.toNat + 31) / 32) 8) (readU32 e)
  pure ⟨bitmapBase, bitmapOf words, numBits.toNat, length_bitmapOf words⟩

/-- Writing a fragment number set indexes the bitmap: it panics for more than eight words, which no valid set has. -/
def writeNumberSet (writeBase : τ → Bytes) (e : Endianness) (s : NumberSet τ) : Bytes :=
  writeBase s.bitmapBase ++ (e.put 4 s.numBits ++ (s.bitmap.take s.numOfLongs).flatMap (writeU32 e))

/-- `is_valid`, with the slice it takes of the bitmap. -/
def checkNumberSet (isValidBase : τ → Bool) (s : NumberSet τ) : Outcome RtpsError Bool :=
  if isValidBase s.bitmapBase then
    if 256 < s.numBits then pure false
    else do
      let tail ← Outcome.slice s.bitmap s.numOfLongs s.bitmap.length
      pure (tail.all (· == 0))
  else pure false

theorem checkNumberSet_eq (isValidBase : τ → Bool) (s : NumberSet τ) :
    checkNumberSet isValidBase s = pure (s.isValid isValidBase) := by
  unfold checkNumberSet NumberSet.isValid
  split_ifs with hbase hbits
  · have : ¬ s.numBits ≤ 256 := by omega
    simp [this]
  · have hlongs : s.numOfLongs ≤ s.bitmap.length := by
      rw [s.bitmap_length, NumberSet.numOfLongs]
      omega
    have hle : s.numBits ≤ 256 := by omega
    rw [Outcome.slice, if_pos ⟨hlongs, le_refl _⟩]
    simp [hbase, hle]
  · simp [hbase]

theorem bitmapOf_take {bitmap : List (BitVec 32)} (hlen : bitmap.length = 8) {n : Nat}
    (hzero : (bitmap.drop n).all (· == 0) = true) : bitmapOf (bitmap.take n) = bitmap := by
  have hrest : bitmap.drop n = replicate (8 - n) 0 := by
    apply eq_replicate_iff.2
    refine ⟨by rw [length_drop, hlen], fun b hb => ?_⟩
    exact eq_of_beq (all_eq_true.1 hzero b hb)
  rw [bitmapOf, take_append, length_take]
  conv_rhs => rw [← take_append_drop n bitmap, hrest]
  congr 1
  · apply take_of_length_le
    rw [length_take]
    omega
  · rw [take_replicate]
    congr 1
    omega

theorem decodes_readNumberSet {readBase : Read τ} {writeBase : τ → Bytes}
    (hbase : ∀ b, readBase.Decodes (writeBase b) b) (e : Endianness) {s : NumberSet τ} (hbits : s.numBits ≤ 256)
    (hzero : (s.bitmap.drop s.numOfLongs).all (· == 0) = true) :
    (readNumberSet readBase e).Decodes (writeNumberSet writeBase e s) s := by
  have hnum : (BitVec.ofNat 32 s.numBits).toNat = s.numBits := by
    rw [BitVec.toNat_ofNat]
    omega
  have hwords : (times (min ((s.numBits + 31) / 32) 8) (readU32 e)).Decodes
      ((s.bitmap.take s.numOfLongs).flatMap (writeU32 e)) (s.bitmap.take s.numOfLongs) := by
    have hlen : (s.bitmap.take s.numOfLongs).length = min ((s.numBits + 31) / 32) 8 := by
      rw [length_take, s.bitmap_length, NumberSet.numOfLongs]
    rw [← hlen]
    exact decodes_times (fun w _ => decodes_readU32 e w)
  have hbitmap := bitmapOf_take s.bitmap_length hzero
  have hnumBits := decodes_readU32 e (BitVec.ofNat 32 s.numBits)
  rw [writeU32, hnum] at hnumBits
  apply (hbase s.bitmapBase).bind
  apply hnumBits.bind
  rw [hnum]
  obtain ⟨base, bitmap, numBits, hlen⟩ := s
  have hpure := hwords.bind_pure (fun words => NumberSet.mk base (bitmapOf words) numBits (length_bitmapOf words))
  simpa only [hbitmap] using hpure

end NumberSets

section Safety

variable {bound : Nat}

theorem safe_readNumberSet {τ : Type} {readBase : Read τ} (h : readBase.Safe bound) (e : Endianness) :
    (readNumberSet readBase e).Safe bound := by
  apply h.bind
  intro base
  apply (safe_word _ e).bind
  intro numBits
  exact (safe_times (safe_word _ e)).bind (fun _ => safe_pure _)

theorem safe_readU16 (e : Endianness) : (readU16 e).Safe bound := safe_word _ e

theorem safe_readU32 (e : Endianness) : (readU32 e).Safe bound := safe_word _ e

theorem safe_readOctets (n w : Nat) : (readOctets n w).Safe bound := safe_word _ .big

theorem safe_readEntityId : readEntityId.Safe bound := safe_readOctets 4 32

theorem safe_readSequenceNumber (e : Endianness) : (readSequenceNumber e).Safe bound :=
  (safe_readU32 e).bind (fun _ => (safe_readU32 e).bind (fun _ => safe_pure _))

end Safety

end Int2Dds.Messages
