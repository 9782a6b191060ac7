import Int2Dds.Lib.Memory
import Int2Dds.Lib.Wire

/-!
# The ring buffer in shared memory

Messages of several writers go through one ring. A writer reserves a range of positions by a compare-and-exchange on
`reservePos`, copies its message there, and then moves `commitPos` over the range, in the order of the reservations.
Position `p` lives at offset `p % bufferSize` of the data area; a message that does not fit before the end starts at
offset 0, and a wrap marker takes the place of what is left, if there is room for one.

Positions are `u64`: a step that would go over does not complete.
-/

namespace Int2Dds.Shm
open Lib

inductive RingBufferError
  | bufferFull
  | messageTooLarge
  | bufferTooSmall
deriving DecidableEq

/-- The header in front of each message. A wrap marker has `dataLen = 0`. -/
structure MessageHeader where
  totalLen : Nat
  dataLen : Nat
  sequence : Nat
deriving DecidableEq

namespace MessageHeader

def size : Nat := 16

/-- As it lies in memory: two `u32` and a `u64`. -/
def toBytes (h : MessageHeader) : Bytes := leBytes 4 h.totalLen ++ (leBytes 4 h.dataLen ++ leBytes 8 h.sequence)

def ofBytes (bs : Bytes) : MessageHeader :=
  ⟨ofLeBytes (bs.take 4), ofLeBytes ((bs.drop 4).take 4), ofLeBytes (bs.drop 8)⟩

@[simp] theorem length_toBytes (h : MessageHeader) : h.toBytes.length = size := by simp [toBytes, size]

theorem ofBytes_toBytes {h : MessageHeader} (ht : h.totalLen < 2 ^ 32) (hd : h.dataLen < 2 ^ 32)
    (hs : h.sequence < 2 ^ 64) : ofBytes h.toBytes = h := by
  have h4 (n : Nat) (hn : n < 2 ^ 32) : ofLeBytes (leBytes 4 n) = n := by
    rw [ofLeBytes_leBytes]
    exact Nat.mod_eq_of_lt hn
  have h8 : ofLeBytes (leBytes 8 h.sequence) = h.sequence := by
    rw [ofLeBytes_leBytes]
    exact Nat.mod_eq_of_lt hs
  have hempty : (leBytes 4 h.totalLen).drop 8 = [] := List.drop_of_length_le (by simp)
  simp [ofBytes, toBytes, List.drop_append, hempty, h4 _ ht, h4 _ hd, h8]

end MessageHeader

/-- `(value + alignment - 1) & !(alignment - 1)` on `usize`. -/
def alignUp (value alignment : Nat) : Nat :=
  (BitVec.ofNat 64 (value + alignment - 1) &&& ~~~BitVec.ofNat 64 (alignment - 1)).toNat

theorem and_not_seven (x : BitVec 64) : x &&& ~~~7#64 = (x >>> 3) <<< 3 := by
  apply BitVec.eq_of_getLsbD_eq
  intro i hi
  have h7 : (7#64).getLsbD i = decide (i < 3) := by
    simp only [BitVec.getLsbD_ofNat, hi, decide_true, Bool.true_and]
    rw [show (7 : Nat) = 2 ^ 3 - 1 from rfl, Nat.testBit_two_pow_sub_one]
  rw [BitVec.getLsbD_and, BitVec.getLsbD_not, h7]
  by_cases h3 : i < 3
  · simp [h3]
  · have hi3 : 3 + (i - 3) = i := by omega
    simp [h3, hi, hi3]

theorem alignUp_eight {value : Nat} (h : value + 7 < 2 ^ 64) : alignUp value 8 = (value + 7) / 8 * 8 := by
  have hx : (BitVec.ofNat 64 (value + 7)).toNat = value + 7 := by
    rw [BitVec.toNat_ofNat, Nat.mod_eq_of_lt h]
  show (BitVec.ofNat 64 (value + 7) &&& ~~~7#64).toNat = _
  rw [and_not_seven, BitVec.toNat_shiftLeft, BitVec.toNat_ushiftRight, hx, Nat.shiftRight_eq_div_pow,
    Nat.shiftLeft_eq, Nat.mod_eq_of_lt (by omega)]

/-! ## The shared segment -/

structure Ring where
  bufferSize : Nat
  maxMessageSize : Nat
  reservePos : Nat
  commitPos : Nat
  sequence : Nat
  data : Memory Byte
  /-- The ranges of the data area, as offset and length, that were touched so far. -/
  accesses : List (Nat × Nat)
  bufferSize_lt : bufferSize < 2 ^ 32
  maxMessageSize_lt : maxMessageSize < 2 ^ 32

namespace Ring

def init (bufferSize maxMessageSize : Nat) (data : Memory Byte) (hb : bufferSize < 2 ^ 32)
    (hm : maxMessageSize < 2 ^ 32) : Ring :=
  ⟨bufferSize, maxMessageSize, 0, 0, 0, data, [], hb, hm⟩

def touch (r : Ring) (offset length : Nat) : Ring := { r with accesses := r.accesses ++ [(offset, length)] }

/-- `copy_nonoverlapping` into the data area. -/
def copyIn (r : Ring) (offset : Nat) (bs : Bytes) : Ring :=
  { r.touch offset bs.length with data := r.data.store offset bs }

end Ring

/-! ## The writer -/

def maxCasRetries : Nat := 100

def maxCommitSpin : Nat := 10000

def totalSize (data : Bytes) : Nat := alignUp (MessageHeader.size + data.length) 8

theorem totalSize_pos {data : Bytes} (h : data.length < 2 ^ 32) : 0 < totalSize data := by
  unfold totalSize MessageHeader.size
  rw [alignUp_eight (by omega)]
  omega

structure Reservation where
  reservedPos : Nat
  reservedSize : Nat
  /-- The offset of the wrap marker and the marker. -/
  marker : Option (Nat × MessageHeader)
deriving DecidableEq

/-- What a writer asks for that finds the ring reserved up to `currentPos`. -/
def reserve (bufferSize totalSize currentPos : Nat) : Reservation :=
  let writeOffset := currentPos % bufferSize
  let remainingSpace := bufferSize - writeOffset
  if remainingSpace < totalSize then
    { reservedPos := currentPos + remainingSpace
      reservedSize := remainingSpace + totalSize
      -- without room for a header the rest of the ring is skipped
      marker := if MessageHeader.size ≤ remainingSpace then some (writeOffset, ⟨remainingSpace, 0, 0⟩) else none }
  else { reservedPos := currentPos, reservedSize := totalSize, marker := none }

/-- Where `commitPos` has to be before the reservation is committed. -/
def Reservation.commitWaitPos (res : Reservation) (totalSize : Nat) : Nat :=
  res.reservedPos - (res.reservedSize - totalSize)

def Reservation.newCommit (res : Reservation) (totalSize : Nat) : Nat :=
  res.commitWaitPos totalSize + res.reservedSize

theorem commitWaitPos_reserve (bufferSize totalSize currentPos : Nat) :
    (reserve bufferSize totalSize currentPos).commitWaitPos totalSize = currentPos := by
  unfold reserve Reservation.commitWaitPos
  dsimp only
  split_ifs <;> simp

theorem reservedSize_pos (bufferSize currentPos : Nat) {size : Nat} (h : 0 < size) :
    0 < (reserve bufferSize size currentPos).reservedSize := by
  unfold reserve
  dsimp only
  split_ifs <;> dsimp only <;> omega

/-- How far a call of `write` has come. -/
inductive Phase
  | entered
  | loading (retries : Nat)
  | exchanging (retries currentPos : Nat)
  | marking (res : Reservation)
  | numbering (res : Reservation)
  | copyingHeader (res : Reservation) (sequence : Nat)
  | copyingData (res : Reservation)
  | waiting (res : Reservation) (spinCount : Nat)
  | committing (res : Reservation)
  | forcing (res : Reservation)
  | returned (res : Option Reservation) (result : Except RingBufferError Nat)
  | panicked

def Phase.step (r : Ring) (data : Bytes) : Phase → Phase × Ring
  | entered =>
    if r.maxMessageSize < data.length then (returned none (.error .messageTooLarge), r)
    else if r.bufferSize < totalSize data then (returned none (.error .messageTooLarge), r)
    else (loading 0, r)
  | loading retries =>
    if maxCasRetries ≤ retries then (returned none (.error .bufferFull), r)
    else (exchanging retries r.reservePos, r)
  | exchanging retries currentPos =>
    let res := reserve r.bufferSize (totalSize data) currentPos
    if 2 ^ 64 ≤ currentPos + res.reservedSize then (panicked, r)
    else if r.reservePos = currentPos then
      (if res.marker.isSome then marking res else numbering res,
        { r with reservePos := currentPos + res.reservedSize })
    else (loading (retries + 1), r)
  | marking res => (numbering res, res.marker.elim r (fun (offset, marker) => r.copyIn offset marker.toBytes))
  | numbering res => (copyingHeader res r.sequence, { r with sequence := (r.sequence + 1) % 2 ^ 64 })
  | copyingHeader res sequence =>
    let header : MessageHeader := ⟨MessageHeader.size + data.length, data.length, sequence⟩
    (copyingData res, r.copyIn (res.reservedPos % r.bufferSize) header.toBytes)
  | copyingData res =>
    (waiting res 0, r.copyIn (res.reservedPos % r.bufferSize + MessageHeader.size) data)
  | waiting res spinCount =>
    if r.commitPos = res.commitWaitPos (totalSize data) then (committing res, r)
    else if maxCommitSpin ≤ spinCount + 1 then (forcing res, r)
    else (waiting res (spinCount + 1), r)
  | committing res =>
    (returned (some res) (.ok data.length), { r with commitPos := res.newCommit (totalSize data) })
  | forcing res =>
    (returned (some res) (.ok data.length), { r with commitPos := res.newCommit (totalSize data) })
  | returned res result => (returned res result, r)
  | panicked => (panicked, r)

def Phase.finish (data : Bytes) : Nat → Ring → Phase → Option (Except RingBufferError Nat × Ring)
  | _, r, returned _ result => some (result, r)
  | _, _, panicked => none
  | 0, _, _ => none
  | fuel + 1, r, phase => finish data fuel (phase.step r data).2 (phase.step r data).1

/-- A call that runs alone: its exchange succeeds, and it waits for its turn until it forces it. -/
def Ring.write (r : Ring) (data : Bytes) : Option (Except RingBufferError Nat × Ring) :=
  Phase.entered.finish data (maxCommitSpin + 8) r

/-! ## The reader -/

structure RingBufferReader where
  localReadPos : Nat
  lastSequence : Nat
deriving DecidableEq

namespace RingBufferReader

def new (r : Ring) : RingBufferReader := ⟨r.commitPos, 0⟩

/-- Moves on to the position `pos`, unless it is not a `u64`. -/
def advance (reader : RingBufferReader) (pos : Nat) : Option RingBufferReader :=
  if pos < 2 ^ 64 then some { reader with localReadPos := pos } else none

def lost (reader : RingBufferReader) (sequence : Nat) : Nat :=
  if reader.lastSequence = 0 then 0 else sequence - (reader.lastSequence + 1)

/-- One message into a buffer of `bufferLen` bytes. `none` when it panics or recurs deeper than `fuel`. -/
def read : Nat → Ring → RingBufferReader → Nat →
    Option (Except RingBufferError (Option (Bytes × Nat)) × RingBufferReader × Ring)
  | 0, _, _, _ => none
  | fuel + 1, r, reader, bufferLen =>
    if r.commitPos = reader.localReadPos then some (.ok none, reader, r)
    else if r.bufferSize < r.reservePos - reader.localReadPos then
      -- too far behind: what is there was overwritten
      read fuel r { reader with localReadPos := r.commitPos } bufferLen
    else
      let readOffset := reader.localReadPos % r.bufferSize
      let header := MessageHeader.ofBytes (r.data.load readOffset MessageHeader.size)
      let r := r.touch readOffset MessageHeader.size
      if header.totalLen = 0 ∨ r.bufferSize < header.totalLen then
        some (.ok none, { reader with localReadPos := r.commitPos }, r)
      else if header.dataLen = 0 then
        (reader.advance (reader.localReadPos + header.totalLen)).bind fun reader => read fuel r reader bufferLen
      else if header.totalLen - MessageHeader.size < header.dataLen then
        (reader.advance (reader.localReadPos + alignUp header.totalLen 8)).bind fun reader =>
          read fuel r reader bufferLen
      else if bufferLen < header.dataLen then some (.error .bufferTooSmall, reader, r)
      else if 2 ^ 64 ≤ reader.lastSequence + 1 then none
      else
        let message := r.data.load (readOffset + MessageHeader.size) header.dataLen
        let r := r.touch (readOffset + MessageHeader.size) header.dataLen
        ({ reader with lastSequence := header.sequence }.advance
          (reader.localReadPos + alignUp header.totalLen 8)).map fun next =>
            (.ok (some (message, reader.lost header.sequence)), next, r)

end RingBufferReader

end Int2Dds.Shm
