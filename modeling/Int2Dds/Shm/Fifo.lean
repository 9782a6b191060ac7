import Int2Dds.Lib.Run
import Int2Dds.Shm.RingBuffer

/-!
# One message after another through the ring

Complete calls of `write` and `read` on one ring, one after another. While the reader stays within `bufferSize` of
`reservePos`, what it reads is what was written, byte for byte (`ring_fifo`), as long as no message starts where
exactly eight bytes are left before the end. There the writer leaves no wrap marker, and the reader takes these bytes,
and the eight behind the data area, for a header (`ring_skips_unmarked`).

* `write_eq`, `read_record` : the calls in a state in which no other call is going on.
-/

namespace Int2Dds.Shm
open Lib MessageHeader List

/-! ## Complete calls -/

def Ring.publish (r : Ring) (data : Bytes) (res : Reservation) : Ring :=
  let r := { r with reservePos := r.reservePos + res.reservedSize }
  let header : MessageHeader := ⟨MessageHeader.size + data.length, data.length, r.sequence⟩
  let r := res.marker.elim r (fun (offset, marker) => r.copyIn offset marker.toBytes)
  let r := { r with sequence := (r.sequence + 1) % 2 ^ 64 }
  let r := r.copyIn (res.reservedPos % r.bufferSize) header.toBytes
  let r := r.copyIn (res.reservedPos % r.bufferSize + MessageHeader.size) data
  { r with commitPos := r.reservePos }

def Ring.accepts (r : Ring) (data : Bytes) : Prop :=
  data.length ≤ r.maxMessageSize ∧ totalSize data ≤ r.bufferSize

instance (r : Ring) (data : Bytes) : Decidable (r.accepts data) := inferInstanceAs (Decidable (_ ∧ _))

section

variable (data : Bytes) (fuel : Nat) (r : Ring)

theorem finish_succ (phase : Phase) :
    phase.finish data (fuel + 1) r = (phase.step r data).1.finish data fuel (phase.step r data).2 := by
  cases phase with
  | returned res result => cases fuel <;> rfl
  | panicked => cases fuel <;> rfl
  | _ => rfl

theorem finish_returned (res : Option Reservation)
    (result : Except RingBufferError Nat) : (Phase.returned res result).finish data fuel r = some (result, r) := by
  cases fuel <;> rfl

theorem finish_panicked : Phase.panicked.finish data fuel r = none := by
  cases fuel <;> rfl

end

variable {data : Bytes} {r : Ring}

theorem write_of_not_accepts (h : ¬ r.accepts data) : r.write data = some (.error .messageTooLarge, r) := by
  have hstep : Phase.entered.step r data = (.returned none (.error .messageTooLarge), r) := by
    unfold Ring.accepts at h
    rw [Phase.step]
    split_ifs
    · rfl
    · rfl
    · omega
  rw [Ring.write, finish_succ, hstep, finish_returned]

section

variable {res : Reservation} (fuel : Nat) (hturn : r.commitPos = res.commitWaitPos (totalSize data))
  (hreserve : res.newCommit (totalSize data) = r.reservePos)
include hturn hreserve

theorem finish_waiting :
    (Phase.waiting res 0).finish data (fuel + 2) r = some (.ok data.length, { r with commitPos := r.reservePos }) := by
  rw [finish_succ, Phase.step, if_pos hturn, finish_succ, Phase.step, hreserve, finish_returned]

theorem finish_numbering :
    (Phase.numbering res).finish data (fuel + 5) r =
      some (.ok data.length,
        let header : MessageHeader := ⟨size + data.length, data.length, r.sequence⟩
        let r := { r with sequence := (r.sequence + 1) % 2 ^ 64 }
        let r := r.copyIn (res.reservedPos % r.bufferSize) header.toBytes
        let r := r.copyIn (res.reservedPos % r.bufferSize + size) data
        { r with commitPos := r.reservePos }) := by
  exact finish_waiting fuel hturn hreserve

end

theorem write_eq (h : r.accepts data) (hquiet : r.commitPos = r.reservePos) :
    r.write data =
      if 2 ^ 64 ≤ r.reservePos + (reserve r.bufferSize (totalSize data) r.reservePos).reservedSize then none
      else some (.ok data.length, r.publish data (reserve r.bufferSize (totalSize data) r.reservePos)) := by
  have hstart := commitWaitPos_reserve r.bufferSize (totalSize data) r.reservePos
  have hentered : Phase.entered.step r data = (.loading 0, r) := by
    rw [Phase.step, if_neg (Nat.not_lt.2 h.1), if_neg (Nat.not_lt.2 h.2)]
  have hloading : (Phase.loading 0).step r data = (.exchanging 0 r.reservePos, r) := by
    rw [Phase.step, if_neg (by decide)]
  rw [Ring.write, finish_succ, hentered, finish_succ, hloading, finish_succ, Phase.step, if_pos rfl]
  generalize reserve r.bufferSize (totalSize data) r.reservePos = res at *
  have hturn : r.commitPos = res.commitWaitPos (totalSize data) := hquiet.trans hstart.symm
  have hreserve : res.newCommit (totalSize data) = r.reservePos + res.reservedSize := by
    rw [Reservation.newCommit, hstart]
  unfold Ring.publish
  cases hmarker : res.marker with
  | none =>
    rw [Option.isSome_none, if_neg Bool.false_ne_true]
    split_ifs with hover
    · exact finish_panicked _ _ _
    · exact finish_numbering maxCommitSpin hturn hreserve
  | some marker =>
    rw [Option.isSome_some, if_pos rfl]
    split_ifs with hover
    · exact finish_panicked _ _ _
    · rw [finish_succ, Phase.step, hmarker]
      exact finish_numbering (maxCommitSpin - 1) hturn hreserve

/-! ## What lies in the ring -/

section Records
variable {n : Nat} {m m' : Memory Byte} {p q : Nat} {message : Bytes} {rest : List Bytes}

/-- A message with its header lies at position `p` of a ring of `n` bytes. -/
structure RecordAt (n : Nat) (m : Memory Byte) (p : Nat) (message : Bytes) : Prop where
  nonempty : message ≠ []
  length_lt : MessageHeader.size + message.length < 2 ^ 32
  fits : p % n + totalSize message ≤ n
  header : ∃ sequence, sequence + 1 < 2 ^ 64 ∧ m.load (p % n) MessageHeader.size =
    toBytes ⟨MessageHeader.size + message.length, message.length, sequence⟩
  body : m.load (p % n + MessageHeader.size) message.length = message

structure MarkerAt (n : Nat) (m : Memory Byte) (p : Nat) : Prop where
  room : MessageHeader.size ≤ n - p % n
  header : m.load (p % n) MessageHeader.size = toBytes ⟨n - p % n, 0, 0⟩

/-- From position `p` to `q` lie these messages, each where the one before ends or, behind a wrap marker, at the start
of the ring. -/
inductive Pending (n : Nat) (m : Memory Byte) : Nat → List Bytes → Nat → Prop
  | nil (p : Nat) : Pending n m p [] p
  | direct {p q : Nat} {message : Bytes} {rest : List Bytes} (record : RecordAt n m p message)
      (tail : Pending n m (p + totalSize message) rest q) : Pending n m p (message :: rest) q
  | wrapped {p q : Nat} {message : Bytes} {rest : List Bytes} (marker : MarkerAt n m p)
      (record : RecordAt n m (p + (n - p % n)) message)
      (tail : Pending n m (p + (n - p % n) + totalSize message) rest q) : Pending n m p (message :: rest) q

theorem totalSize_eq (h : size + message.length < 2 ^ 32) : totalSize message = (message.length + 23) / 8 * 8 := by
  unfold totalSize
  unfold size at ⊢
  rw [alignUp_eight (by omega)]
  omega

theorem Pending.le (h : Pending n m p rest q) : p ≤ q := by
  induction h with
  | nil p => exact le_refl p
  | direct record tail ih => exact (Nat.le_add_right _ _).trans ih
  | wrapped marker record tail ih => omega

theorem RecordAt.frame (h : RecordAt n m p message)
    (hm : ∀ k, p ≤ k → k < p + totalSize message → m' (k % n) = m (k % n)) : RecordAt n m' p message := by
  have hsize := totalSize_eq h.length_lt
  have hfits := h.fits
  have hcell (i : Nat) (hi : i < totalSize message) : m' (p % n + i) = m (p % n + i) := by
    rw [← add_mod_of_fits (by omega : p % n + i < n)]
    exact hm (p + i) (by omega) (by omega)
  refine ⟨h.nonempty, h.length_lt, h.fits, ?_, ?_⟩
  · obtain ⟨sequence, hlt, hheader⟩ := h.header
    refine ⟨sequence, hlt, ?_⟩
    rw [← hheader]
    exact Memory.load_congr fun i hi => hcell i (by unfold size at hi; omega)
  · refine (Memory.load_congr fun i hi => ?_).trans h.body
    rw [Nat.add_assoc]
    exact hcell _ (by unfold size; omega)

theorem MarkerAt.frame (h : MarkerAt n m p)
    (hm : ∀ k, p ≤ k → k < p + (n - p % n) → m' (k % n) = m (k % n)) : MarkerAt n m' p := by
  have hroom := h.room
  unfold size at hroom
  refine ⟨h.room, ?_⟩
  rw [← h.header]
  refine Memory.load_congr fun i hi => ?_
  unfold size at hi
  rw [← add_mod_of_fits (by omega : p % n + i < n)]
  exact hm (p + i) (by omega) (by omega)

theorem Pending.frame (h : Pending n m p rest q) (hm : ∀ k, p ≤ k → k < q → m' (k % n) = m (k % n)) :
    Pending n m' p rest q := by
  induction h with
  | nil p => exact .nil p
  | direct record tail ih =>
    have hle := tail.le
    exact .direct (record.frame fun k hk hk' => hm k hk (by omega)) (ih fun k hk hk' => hm k (by omega) hk')
  | wrapped marker record tail ih =>
    have hle := tail.le
    exact .wrapped (marker.frame fun k hk hk' => hm k hk (by omega))
      (record.frame fun k hk hk' => hm k (by omega) (by omega)) (ih fun k hk hk' => hm k (by omega) hk')

theorem Pending.append {q' : Nat} (h : Pending n m p rest q) (hlast : Pending n m q [message] q') :
    Pending n m p (rest ++ [message]) q' := by
  induction h with
  | nil p => exact hlast
  | direct record tail ih => exact .direct record (ih hlast)
  | wrapped marker record tail ih => exact .wrapped marker record (ih hlast)

/-- A copy to position `q` changes no cell of the positions less than a turn before its end. -/
theorem store_frame {k : Nat} {start : Nat} {bs : Bytes} (hfits : q % n + bs.length ≤ n)
    (hlag : q + bs.length ≤ start + n) (hk : start ≤ k) (hkq : k < q) : m.store (q % n) bs (k % n) = m (k % n) := by
  apply Memory.store_outside
  by_contra hinside
  have hi : (q + (k % n - q % n)) % n = k % n := by
    rw [add_mod_of_fits (by omega)]
    omega
  exact mod_ne_mod (by omega : k < q + (k % n - q % n)) (by omega) hi.symm

end Records

/-! ## The calls on what lies in the ring -/

section Calls
variable {r : Ring} {message : Bytes} {header : MessageHeader} {m : Memory Byte} {n q : Nat}

theorem load_store_header {offset : Nat} :
    (m.store offset header.toBytes).load offset size = header.toBytes := by
  exact Memory.load_store

theorem recordAt_store {sequence : Nat} (hne : message ≠ []) (hlen : size + message.length < 2 ^ 32)
    (hfits : q % n + totalSize message ≤ n) (hseq : sequence + 1 < 2 ^ 64) :
    RecordAt n ((m.store (q % n)
      (toBytes ⟨size + message.length, message.length, sequence⟩)).store
        (q % n + size) message) q message := by
  refine ⟨hne, hlen, hfits, ⟨sequence, hseq, ?_⟩, Memory.load_store⟩
  rw [Memory.load_congr fun i hi => Memory.store_outside (.inl (by omega)), load_store_header]

theorem read_record {reader : RingBufferReader} (fuel bufferLen : Nat)
    (hcommit : r.commitPos ≠ reader.localReadPos) (hlag : r.reservePos ≤ reader.localReadPos + r.bufferSize)
    (hlast : reader.lastSequence + 1 < 2 ^ 64) (hrecord : RecordAt r.bufferSize r.data reader.localReadPos message)
    (hpos : reader.localReadPos + totalSize message < 2 ^ 64) :
    ∃ sequence lost, sequence + 1 < 2 ^ 64 ∧ reader.read (fuel + 1) r bufferLen =
      if bufferLen < message.length then
        some (.error .bufferTooSmall, reader, r.touch (reader.localReadPos % r.bufferSize) size)
      else some (.ok (some (message, lost)), ⟨reader.localReadPos + totalSize message, sequence⟩,
        (r.touch (reader.localReadPos % r.bufferSize) size).touch
          (reader.localReadPos % r.bufferSize + size) message.length) := by
  obtain ⟨sequence, hseq, hheader⟩ := hrecord.header
  have hlt := hrecord.length_lt
  have hsize := totalSize_eq hlt
  have hfits := hrecord.fits
  have hlen : 0 < message.length := length_pos_iff.2 hrecord.nonempty
  refine ⟨sequence, reader.lost sequence, hseq, ?_⟩
  rw [RingBufferReader.read, if_neg hcommit, if_neg (by omega)]
  dsimp only
  rw [hheader, ofBytes_toBytes hrecord.length_lt (by dsimp only; omega) (by dsimp only; omega)]
  dsimp only
  have hbad : ¬ (size + message.length = 0 ∨
      (r.touch (reader.localReadPos % r.bufferSize) size).bufferSize <
        size + message.length) := by
    dsimp only [Ring.touch]
    unfold size
    omega
  rw [if_neg hbad, if_neg (by omega), if_neg (by omega), if_neg (by omega : ¬ 2 ^ 64 ≤ reader.lastSequence + 1)]
  split_ifs
  · rfl
  · rw [show (r.touch (reader.localReadPos % r.bufferSize) size).data.load
      (reader.localReadPos % r.bufferSize + size) message.length = message from hrecord.body,
      ← totalSize, RingBufferReader.advance, if_pos hpos]
    rfl

/-- A wrap marker at the position of the reader: it goes on at the start of the ring. -/
theorem read_marker {reader : RingBufferReader} {fuel bufferLen : Nat}
    (hcommit : r.commitPos ≠ reader.localReadPos) (hlag : r.reservePos ≤ reader.localReadPos + r.bufferSize)
    (hmarker : MarkerAt r.bufferSize r.data reader.localReadPos)
    (hpos : reader.localReadPos + (r.bufferSize - reader.localReadPos % r.bufferSize) < 2 ^ 64) :
    reader.read (fuel + 1) r bufferLen =
      RingBufferReader.read fuel (r.touch (reader.localReadPos % r.bufferSize) size)
        { reader with
          localReadPos := reader.localReadPos + (r.bufferSize - reader.localReadPos % r.bufferSize) } bufferLen := by
  have hroom := hmarker.room
  have hbuffer := r.bufferSize_lt
  unfold size at hroom
  rw [RingBufferReader.read, if_neg hcommit, if_neg (by omega)]
  dsimp only
  rw [hmarker.header, ofBytes_toBytes (by dsimp only; omega) (by dsimp only; omega)
    (by dsimp only; omega)]
  rw [if_neg (by dsimp only [Ring.touch]; omega), RingBufferReader.advance, if_pos hpos]
  rfl

/-- What a call of `write` that succeeds does, seen from a reader at `start`. -/
structure Published (r r' : Ring) (start : Nat) (message : Bytes) : Prop where
  bufferSize : r'.bufferSize = r.bufferSize
  quiet : r'.commitPos = r'.reservePos
  reservePos : r'.reservePos = r.reservePos + (reserve r.bufferSize (totalSize message) r.reservePos).reservedSize
  aligned : 8 ∣ r.bufferSize → 8 ∣ r.reservePos → 8 ∣ r'.reservePos
  sequence : r'.sequence = (r.sequence + 1) % 2 ^ 64
  pending : Pending r.bufferSize r'.data r.reservePos [message] r'.reservePos
  frame : ∀ k, start ≤ k → k < r.reservePos → r'.data (k % r.bufferSize) = r.data (k % r.bufferSize)
  accesses : ∀ a ∈ r'.accesses, a ∈ r.accesses ∨ a.1 + a.2 ≤ r.bufferSize

theorem store_message_frame {start k : Nat} (hne : message ≠ []) (hlen : size + message.length < 2 ^ 32)
    (hfits : q % n + totalSize message ≤ n) (hlag : q + totalSize message ≤ start + n) (hk : start ≤ k)
    (hkq : k < q) :
    ((m.store (q % n) header.toBytes).store (q % n + size) message) (k % n) = m (k % n) := by
  have hsize := totalSize_eq hlen
  have hpos : 0 < message.length := length_pos_iff.2 hne
  have hhead : header.toBytes.length = 16 := header.length_toBytes
  have hbody : q % n + size = (q + 16) % n := (add_mod_of_fits (by omega : q % n + 16 < n)).symm
  rw [hbody, store_frame (by rw [← hbody]; unfold size; omega) (by omega) hk (by omega),
    store_frame (by omega) (by omega) hk hkq]

theorem store_message_above {k : Nat} (hlen : size + message.length < 2 ^ 32)
    (hk : q % n + totalSize message ≤ k) :
    ((m.store (q % n) header.toBytes).store (q % n + size) message) k = m k := by
  have hsize := totalSize_eq hlen
  have hhead : header.toBytes.length = 16 := header.length_toBytes
  rw [Memory.store_outside (.inr (by unfold size; omega)), Memory.store_outside (.inr (by omega))]

theorem publish_spec {start : Nat} (h : r.accepts message) (hne : message ≠ [])
    (hseq : r.sequence + 1 < 2 ^ 64) (hstart : start ≤ r.reservePos)
    (hlag : r.reservePos + (reserve r.bufferSize (totalSize message) r.reservePos).reservedSize ≤
      start + r.bufferSize)
    (hroom : size ≤ r.bufferSize - r.reservePos % r.bufferSize) :
    Published r (r.publish message (reserve r.bufferSize (totalSize message) r.reservePos)) start message := by
  have hlen : size + message.length < 2 ^ 32 := by
    have := r.bufferSize_lt
    have := r.maxMessageSize_lt
    have := h.1
    have hle := h.2
    unfold totalSize size at *
    rw [alignUp_eight (by omega)] at hle
    omega
  have hsize := totalSize_eq hlen
  by_cases hwrap : r.bufferSize - r.reservePos % r.bufferSize < totalSize message
  · -- a wrap marker, and the message at the start of the ring
    have hres : reserve r.bufferSize (totalSize message) r.reservePos =
        ⟨r.reservePos + (r.bufferSize - r.reservePos % r.bufferSize),
          r.bufferSize - r.reservePos % r.bufferSize + totalSize message,
          some (r.reservePos % r.bufferSize, ⟨r.bufferSize - r.reservePos % r.bufferSize, 0, 0⟩)⟩ := by
      rw [reserve, if_pos hwrap, if_pos hroom]
    rw [hres] at hlag ⊢
    dsimp only at hlag
    have hoff : r.reservePos % r.bufferSize < r.bufferSize := Nat.mod_lt _ (by omega)
    have hturn := add_sub_mod_mod (p := r.reservePos) (by omega : 0 < r.bufferSize)
    have hfits : (r.reservePos + (r.bufferSize - r.reservePos % r.bufferSize)) % r.bufferSize + totalSize message ≤
        r.bufferSize := by omega
    refine ⟨rfl, rfl, by rw [hres]; rfl, fun hb h8 => ?_, rfl,
      .wrapped ⟨hroom, ?_⟩ (recordAt_store hne hlen hfits hseq) ?_, ?_, ?_⟩
    · show 8 ∣ r.reservePos + (r.bufferSize - r.reservePos % r.bufferSize + totalSize message)
      have hmod : 8 ∣ r.reservePos % r.bufferSize := (Nat.dvd_mod_iff hb).2 h8
      omega
    · -- the message ends before the marker
      refine (Memory.load_congr fun i hi => ?_).trans (load_store_header (m := r.data))
      exact store_message_above (n := r.bufferSize)
        (q := r.reservePos + (r.bufferSize - r.reservePos % r.bufferSize)) hlen (by omega)
    · rw [Nat.add_assoc]
      exact .nil _
    · intro k hk hkq
      refine (store_message_frame hne hlen hfits (by omega) hk (by omega)).trans ?_
      exact store_frame (by rw [length_toBytes]; omega)
        (by rw [length_toBytes]; unfold size at hroom ⊢; omega) hk hkq
    · intro a ha
      simp only [Ring.publish, Ring.copyIn, Ring.touch, Option.elim_some, mem_append, mem_singleton,
        length_toBytes] at ha
      rcases ha with ((ha | rfl) | rfl) | rfl
      · exact .inl ha
      · right
        omega
      · right
        dsimp only
        omega
      · right
        dsimp only
        omega
  · have hres : reserve r.bufferSize (totalSize message) r.reservePos = ⟨r.reservePos, totalSize message, none⟩ := by
      rw [reserve, if_neg hwrap]
    rw [hres] at hlag ⊢
    have hfits : r.reservePos % r.bufferSize + totalSize message ≤ r.bufferSize := by omega
    refine ⟨rfl, rfl,
      by rw [hres]; rfl, fun _ h8 => ?_, rfl, .direct (recordAt_store hne hlen hfits hseq) (.nil _), ?_, ?_⟩
    · show 8 ∣ r.reservePos + totalSize message
      omega
    · intro k hk hkq
      exact store_message_frame hne hlen hfits hlag hk hkq
    · intro a ha
      simp only [Ring.publish, Ring.copyIn, Ring.touch, Option.elim_none, mem_append, mem_singleton,
        length_toBytes] at ha
      rcases ha with (ha | rfl) | rfl
      · exact .inl ha
      · right
        dsimp only
        omega
      · right
        unfold size
        dsimp only
        omega

end Calls

/-! ## Runs of complete calls -/

/-- A ring with a reader, and what was written since the reader attached and what it has returned. -/
structure Channel where
  ring : Ring
  reader : RingBufferReader
  written : List Bytes
  returned : List Bytes

inductive Call
  | attach
  | write (message : Bytes)
  | read (bufferLen : Nat)

namespace Channel

def init (ring : Ring) : Channel := ⟨ring, .new ring, [], []⟩

def message? : Except RingBufferError (Option (Bytes × Nat)) → Option Bytes
  | .ok (some (message, _)) => some message
  | _ => none

def next (fuel : Nat) (s : Channel) : Call → Option Channel
  | .attach => some (init s.ring)
  | .write message => (s.ring.write message).map fun (result, ring) =>
    { s with ring, written := s.written ++ (if result.isOk then [message] else []) }
  | .read bufferLen => (s.reader.read fuel s.ring bufferLen).map fun (result, reader, ring) =>
    { s with ring, reader, returned := s.returned ++ (message? result).toList }

/-- A message that is not empty, after which the reader is not more than `bufferSize` behind. -/
def KeepsUp (s : Channel) : Call → Prop
  | .write message => message ≠ [] ∧ (s.ring.accepts message → s.ring.reservePos +
      (reserve s.ring.bufferSize (totalSize message) s.ring.reservePos).reservedSize ≤
        s.reader.localReadPos + s.ring.bufferSize)
  | _ => True

/-- Not exactly eight bytes are left before the end of the ring. -/
def Marked (s : Channel) : Call → Prop
  | .write message => s.ring.accepts message → s.ring.reservePos % s.ring.bufferSize + 8 ≠ s.ring.bufferSize
  | _ => True

instance (s : Channel) : (call : Call) → Decidable (s.KeepsUp call)
  | .write _ => inferInstanceAs (Decidable (_ ∧ (_ → _)))
  | .attach => isTrue trivial
  | .read _ => isTrue trivial

instance (s : Channel) : (call : Call) → Decidable (s.Marked call)
  | .write _ => inferInstanceAs (Decidable (_ → _))
  | .attach => isTrue trivial
  | .read _ => isTrue trivial

/-- What a `read` with a buffer of `bufferLen` bytes is to return when these messages are to come. -/
inductive Delivers (bufferLen : Nat) : List Bytes → Except RingBufferError (Option (Bytes × Nat)) → Prop
  | empty : Delivers bufferLen [] (.ok none)
  | message {message : Bytes} {rest : List Bytes} (lost : Nat) (room : message.length ≤ bufferLen) :
      Delivers bufferLen (message :: rest) (.ok (some (message, lost)))
  | tooSmall {message : Bytes} {rest : List Bytes} (small : bufferLen < message.length) :
      Delivers bufferLen (message :: rest) (.error .bufferTooSmall)

end Channel

/-- Between the reader and `reservePos` lie the messages that were written and not yet read. -/
structure Fifo (s : Channel) : Prop where
  quiet : s.ring.commitPos = s.ring.reservePos
  multiple : 8 ∣ s.ring.bufferSize
  aligned : 8 ∣ s.ring.reservePos
  bound : s.ring.reservePos < 2 ^ 64
  sequence : s.ring.sequence ≤ s.ring.reservePos
  last : s.reader.lastSequence + 1 < 2 ^ 64
  lag : s.ring.reservePos ≤ s.reader.localReadPos + s.ring.bufferSize
  pending : ∃ rest, s.written = s.returned ++ rest ∧
    Pending s.ring.bufferSize s.ring.data s.reader.localReadPos rest s.ring.reservePos
  accesses : ∀ a ∈ s.ring.accesses, a.1 + a.2 ≤ s.ring.bufferSize

variable {s : Channel}

theorem Fifo.attach (h : Fifo s) : Fifo (.init s.ring) where
  __ := h
  last := Nat.one_lt_two_pow (by decide)
  lag := by
    show s.ring.reservePos ≤ s.ring.commitPos + s.ring.bufferSize
    rw [h.quiet]
    exact Nat.le_add_right _ _
  pending := by
    refine ⟨[], rfl, ?_⟩
    show Pending _ _ s.ring.commitPos [] _
    rw [h.quiet]
    exact .nil _

theorem Fifo.write (h : Fifo s) {message : Bytes} (hkeeps : s.KeepsUp (.write message))
    (hmarked : s.Marked (.write message)) {ring : Ring} {result : Except RingBufferError Nat}
    (hwrite : s.ring.write message = some (result, ring)) :
    Fifo { s with ring, written := s.written ++ (if result.isOk then [message] else []) } := by
  obtain ⟨hne, hlag⟩ := hkeeps
  by_cases hacc : s.ring.accepts message
  · rw [write_eq hacc h.quiet] at hwrite
    split_ifs at hwrite with hover
    cases hwrite
    obtain ⟨rest, hwritten, hpending⟩ := h.pending
    have hroom : size ≤ s.ring.bufferSize - s.ring.reservePos % s.ring.bufferSize := by
      have hmod : 8 ∣ s.ring.reservePos % s.ring.bufferSize := (Nat.dvd_mod_iff h.multiple).2 h.aligned
      have hlt : s.ring.reservePos % s.ring.bufferSize < s.ring.bufferSize :=
        Nat.mod_lt _ ((totalSize_pos (hacc.1.trans_lt s.ring.maxMessageSize_lt)).trans_le hacc.2)
      have h8 := h.multiple
      have hne8 := hmarked hacc
      unfold size
      omega
    have hseq : s.ring.sequence + 1 < 2 ^ 64 := by
      have := h.sequence
      have := h.aligned
      omega
    have hpub := publish_spec hacc hne hseq hpending.le (hlag hacc) hroom
    have hpos := reservedSize_pos s.ring.bufferSize s.ring.reservePos
      (totalSize_pos (hacc.1.trans_lt s.ring.maxMessageSize_lt))
    have hreserve := hpub.reservePos
    exact
      { quiet := hpub.quiet
        multiple := by
          rw [hpub.bufferSize]
          exact h.multiple
        aligned := hpub.aligned h.multiple h.aligned
        bound := by
          dsimp only
          omega
        sequence := by
          have := h.sequence
          dsimp only
          rw [hpub.sequence]
          omega
        last := h.last
        lag := by
          rw [hpub.bufferSize, hreserve]
          exact hlag hacc
        pending := by
          refine ⟨rest ++ [message], ?_, ?_⟩
          · show s.written ++ [message] = s.returned ++ (rest ++ [message])
            rw [hwritten, append_assoc]
          · rw [hpub.bufferSize]
            exact (hpending.frame hpub.frame).append hpub.pending
        accesses := by
          intro a ha
          rw [hpub.bufferSize]
          exact (hpub.accesses a ha).elim (h.accesses a) id }
  · rw [write_of_not_accepts hacc] at hwrite
    cases hwrite
    have hsame : s.written ++ [] = s.written := append_nil _
    show Fifo { s with written := s.written ++ [] }
    rw [hsame]
    exact h

/-- The reader has gone over `bytes` more of the ring, with `touched` read on the way. -/
theorem Fifo.moved (h : Fifo s) (reader : RingBufferReader) (touched : List (Nat × Nat)) (returned rest : List Bytes)
    (hreader : s.reader.localReadPos ≤ reader.localReadPos) (hlast : reader.lastSequence + 1 < 2 ^ 64)
    (hrest : s.written = returned ++ rest)
    (hpending : Pending s.ring.bufferSize s.ring.data reader.localReadPos rest s.ring.reservePos)
    (htouched : ∀ a ∈ touched, a.1 + a.2 ≤ s.ring.bufferSize) :
    Fifo { s with ring := { s.ring with accesses := s.ring.accesses ++ touched }, reader, returned } where
  __ := h
  last := hlast
  lag := by
    have := h.lag
    dsimp only
    omega
  pending := ⟨rest, hrest, hpending⟩
  accesses := by
    intro a ha
    rcases mem_append.1 ha with ha | ha
    · exact h.accesses a ha
    · exact htouched a ha

def Channel.Read (s : Channel) (rest : List Bytes) (bufferLen : Nat)
    (res : Option (Except RingBufferError (Option (Bytes × Nat)) × RingBufferReader × Ring)) : Prop :=
  ∃ result reader ring, res = some (result, reader, ring) ∧ Channel.Delivers bufferLen rest result ∧
    Fifo { s with ring, reader, returned := s.returned ++ (Channel.message? result).toList }

theorem Fifo.read_record (h : Fifo s) {message : Bytes} {rest : List Bytes} (fuel bufferLen : Nat)
    (hwritten : s.written = s.returned ++ message :: rest)
    (hrecord : RecordAt s.ring.bufferSize s.ring.data s.reader.localReadPos message)
    (htail : Pending s.ring.bufferSize s.ring.data (s.reader.localReadPos + totalSize message) rest s.ring.reservePos) :
    s.Read (message :: rest) bufferLen (s.reader.read (fuel + 1) s.ring bufferLen) := by
  have hsize := totalSize_eq hrecord.length_lt
  have hfits := hrecord.fits
  have hle := htail.le
  have hbound := h.bound
  have hquiet := h.quiet
  obtain ⟨sequence, lost, hseq, hread⟩ := Shm.read_record fuel bufferLen (by omega) h.lag h.last
    hrecord (by omega)
  -- both ranges lie before the end of the message
  have hhead : s.reader.localReadPos % s.ring.bufferSize + size ≤ s.ring.bufferSize := by
    unfold size
    omega
  have hbody : s.reader.localReadPos % s.ring.bufferSize + size + message.length ≤ s.ring.bufferSize := by
    unfold size
    omega
  rw [hread]
  split_ifs with hsmall
  · refine ⟨_, _, _, rfl, .tooSmall hsmall, ?_⟩
    refine h.moved _ _ _ (message :: rest) (le_refl _) h.last (hwritten.trans (by simp [Channel.message?]))
      (.direct hrecord htail) ?_
    simpa using hhead
  · refine ⟨_, _, _, rfl, .message lost (Nat.not_lt.1 hsmall), ?_⟩
    have hmoved := h.moved ⟨s.reader.localReadPos + totalSize message, sequence⟩
      [(s.reader.localReadPos % s.ring.bufferSize, size),
        (s.reader.localReadPos % s.ring.bufferSize + size, message.length)]
      (s.returned ++ [message]) rest (Nat.le_add_right _ _) hseq (hwritten.trans (by simp)) htail
      (by simpa using ⟨hhead, hbody⟩)
    simpa [Ring.touch, Channel.message?] using hmoved

theorem Fifo.read (h : Fifo s) (fuel bufferLen : Nat) :
    ∃ rest, s.written = s.returned ++ rest ∧
      s.Read rest bufferLen (s.reader.read (fuel + 2) s.ring bufferLen) := by
  obtain ⟨rest, hwritten, hpending⟩ := h.pending
  refine ⟨rest, hwritten, ?_⟩
  generalize hp : s.reader.localReadPos = p at hpending
  generalize hq : s.ring.reservePos = q at hpending
  cases hpending with
  | nil =>
    have hempty : s.ring.commitPos = s.reader.localReadPos := (h.quiet.trans hq).trans hp.symm
    rw [RingBufferReader.read, if_pos hempty]
    refine ⟨_, _, _, rfl, .empty, ?_⟩
    show Fifo { s with returned := s.returned ++ [] }
    rw [append_nil]
    exact h
  | direct record tail =>
    subst hp hq
    exact h.read_record (fuel + 1) bufferLen hwritten record tail
  | wrapped marker record tail =>
    subst hp hq
    have hle := tail.le
    have hquiet := h.quiet
    have hbound := h.bound
    have hroom := marker.room
    unfold size at hroom
    rw [read_marker (by omega) h.lag marker (by omega)]
    -- behind the marker the reader is at the message
    have htouched : s.reader.localReadPos % s.ring.bufferSize + size ≤ s.ring.bufferSize := by
      unfold size
      omega
    have hmoved := h.moved { s.reader with
        localReadPos := s.reader.localReadPos + (s.ring.bufferSize - s.reader.localReadPos % s.ring.bufferSize) }
      [(s.reader.localReadPos % s.ring.bufferSize, size)] s.returned _ (Nat.le_add_right _ _) h.last hwritten
      (.direct record tail) (by simpa using htouched)
    exact hmoved.read_record fuel bufferLen hwritten record tail

theorem Fifo.next {t : Channel} {fuel : Nat} {call : Call} (h : Fifo s) (hkeeps : s.KeepsUp call)
    (hmarked : s.Marked call) (hnext : s.next (fuel + 2) call = some t) : Fifo t := by
  cases call with
  | attach =>
    cases hnext
    exact h.attach
  | write message =>
    obtain ⟨⟨result, ring⟩, hwrite, rfl⟩ := Option.map_eq_some_iff.1 hnext
    exact h.write hkeeps hmarked hwrite
  | read bufferLen =>
    obtain ⟨rest, hwritten, result, reader, ring, hread, -, hfifo⟩ := h.read fuel bufferLen
    obtain ⟨out, hout, rfl⟩ := Option.map_eq_some_iff.1 hnext
    obtain rfl := Option.some.inj (hread.symm.trans hout)
    exact hfifo

theorem fifo_init {bufferSize maxMessageSize : Nat} {data : Memory Byte} {hb : bufferSize < 2 ^ 32}
    {hm : maxMessageSize < 2 ^ 32} (h8 : 8 ∣ bufferSize) :
    Fifo (.init (.init bufferSize maxMessageSize data hb hm)) where
  quiet := rfl
  multiple := h8
  aligned := Nat.dvd_zero 8
  bound := Nat.two_pow_pos 64
  sequence := le_refl 0
  last := Nat.one_lt_two_pow (by decide)
  lag := Nat.zero_le _
  pending := ⟨[], rfl, .nil _⟩
  accesses := nofun

/-- In every run of complete calls in which the reader keeps up and no message starts where exactly eight bytes are
left, the messages returned are the first of those written, the next `read` returns the next one, and no byte outside
of the data area is touched. -/
theorem ring_fifo {bufferSize maxMessageSize fuel : Nat} {data : Memory Byte} {hb : bufferSize < 2 ^ 32}
    {hm : maxMessageSize < 2 ^ 32} (h8 : 8 ∣ bufferSize) {calls : List Call} {s : Channel}
    (hrun : run (Channel.next (fuel + 2)) (.init (.init bufferSize maxMessageSize data hb hm)) calls = some s)
    (hkeeps :
      AllSteps (Channel.next (fuel + 2)) Channel.KeepsUp (.init (.init bufferSize maxMessageSize data hb hm)) calls)
    (hmarked :
      AllSteps (Channel.next (fuel + 2)) Channel.Marked (.init (.init bufferSize maxMessageSize data hb hm)) calls) :
    (∃ rest, s.written = s.returned ++ rest ∧ ∀ bufferLen, ∃ result reader ring,
      s.reader.read (fuel + 2) s.ring bufferLen = some (result, reader, ring) ∧
        Channel.Delivers bufferLen rest result) ∧
    ∀ a ∈ s.ring.accesses, a.1 + a.2 ≤ s.ring.bufferSize := by
  have hboth := hkeeps.and hmarked
  have h : Fifo s := run_invariant_of_allSteps (fun s call t h hok hnext => h.next hok.1 hok.2 hnext) (fifo_init h8)
    hboth hrun
  obtain ⟨rest, hwritten, -⟩ := h.pending
  refine ⟨⟨rest, hwritten, fun bufferLen => ?_⟩, h.accesses⟩
  obtain ⟨rest', hwritten', result, reader, ring, hread, hdelivers, -⟩ := h.read fuel bufferLen
  obtain rfl := append_cancel_left (hwritten.symm.trans hwritten')
  exact ⟨result, reader, ring, hread, hdelivers⟩

def threeMessages : List Call := [.write [1], .read 8, .write [2], .read 8, .write [3], .read 8]

def ringOf (bufferSize : Nat) (hb : bufferSize < 2 ^ 32) : Ring := .init bufferSize 8 (fun _ => 0) hb (by decide)

/-- In a ring for two messages and eight bytes the third starts anew without a marker: the reader looks behind the
data area and never returns it. -/
theorem ring_skips_unmarked : ∃ s, run (Channel.next 3) (.init (ringOf 56 (by decide))) threeMessages = some s ∧
    AllSteps (Channel.next 3) Channel.KeepsUp (.init (ringOf 56 (by decide))) threeMessages ∧
    s.written = [[1], [2], [3]] ∧ s.returned = [[1], [2]] ∧ s.ring.commitPos = s.reader.localReadPos ∧
    (48, 16) ∈ s.ring.accesses :=
  ⟨_, rfl, by decide +kernel, by decide +kernel, by decide +kernel, by decide +kernel, by decide +kernel⟩

/-- With 16 bytes left the marker finds room. -/
theorem ring_fifo_wraps : ∃ s, run (Channel.next 3) (.init (ringOf 64 (by decide))) threeMessages = some s ∧
    s.returned = [[1], [2], [3]] ∧ ∀ a ∈ s.ring.accesses, a.1 + a.2 ≤ s.ring.bufferSize := by
  have hkeeps : AllSteps (Channel.next 3) Channel.KeepsUp (.init (ringOf 64 (by decide))) threeMessages := by
    decide +kernel
  have hmarked : AllSteps (Channel.next 3) Channel.Marked (.init (ringOf 64 (by decide))) threeMessages := by
    decide +kernel
  refine ⟨_, rfl, by decide +kernel, ?_⟩
  exact (@ring_fifo 64 8 1 _ _ _ (by decide) _ _ rfl hkeeps hmarked).2

end Int2Dds.Shm
