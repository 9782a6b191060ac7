import Int2Dds.Messages.Framing
import Int2Dds.Rtps.NumberSet
import Int2Dds.Writer.StatefulWriter

/-!
# Acknowledgements on the wire

The ACKNACK that `create_acknack_submessage` builds, written, read and handed to the writer. `acknack_sent` : it names
the missing numbers in its window, and the writer takes it for a preemptive one when it starts at 1 and all that is
missing lies beyond the window.
-/

namespace Int2Dds.System
open Lib Rtps List
open Messages (Sent SubmessageHeader EntityId Count isValidSequenceBase)

def finalFlag (h : SubmessageHeader) : Option Bool :=
  match h.kind with
  | some .acknack | some .heartbeat => some (h.hasFlag 0x02)
  | _ => none

def createAcknackSubmessage (readerId writerId : EntityId) (missingChanges : List SequenceNumber) (acknackCount : Count)
    (bitmapBase : SequenceNumber) (isPreemptive : Bool) : Sent :=
  ⟨if missingChanges.isEmpty && !isPreemptive then 0x01 ||| 0x02 else 0x01,
    .ackNack ⟨readerId, writerId,
      if missingChanges.isEmpty then .newEmptyWithBase bitmapBase
      else .fromVec sequenceNumbers.offset bitmapBase missingChanges, acknackCount⟩⟩

def valueSet (s : NumberSet SequenceNumber) : SequenceNumberSet :=
  ⟨s.bitmapBase.toI64, s.bitmap, s.numBits, s.bitmap_length⟩

def receivedAcknack (h : SubmessageHeader) (a : Messages.AckNack)
    (valid : a.readerSnState.isValid isValidSequenceBase = true) : Writer.AckNack :=
  ⟨valueSet a.readerSnState, a.count, (finalFlag h).getD false, .inl valid⟩

/-- Where the count is taken, the reader's proxy records the count and everything below the base. -/
def Recorded (a : Writer.AckNack) : Prop :=
  ∀ (w : Writer.StatefulWriter) (reader : Guid) (now : Nat) (p : Writer.ReaderProxy),
    w.matchedReaders.find? (fun p => p.remoteReaderGuid == reader) = some p →
    shouldAcceptCount a.count p.lastAcknackCount p.lastAcknackAt false now = true →
    ∃ w', w.handleAcknackMessage reader a now = some w' ∧ ∃ q ∈ w'.matchedReaders, q.remoteReaderGuid = reader ∧
      q.lastAcknackCount = some a.count ∧ a.readerSnState.bitmapBase - 1 ≤ q.maxAckedSn

theorem mem_replaceF_of_find? {α : Type} {test : α → Bool} {g : α → α} {l : List α} {x : α}
    (h : l.find? test = some x) :
    g x ∈ l.replaceF fun y => if test y then some (g y) else none := by
  induction l with
  | nil => cases h
  | cons y l ih =>
    rw [find?_cons] at h
    rw [replaceF_cons]
    cases hy : test y <;> rw [hy] at h <;> grind

theorem recorded_of_extractNumbers {a : Writer.AckNack} (ha : a.isPreemptive = false) {numbers : List Int}
    (hread : a.readerSnState.extractNumbers = some numbers) : Recorded a := by
  intro w reader now p hp hcount
  have hguid := find?_some hp
  rw [beq_iff_eq] at hguid
  unfold Writer.StatefulWriter.handleAcknackMessage
  rw [hp, ha]
  dsimp only
  rw [if_neg (by rw [hcount]; decide), hread]
  refine ⟨_, rfl, p.acknowledge a numbers now, ?_, ?_, rfl, ?_⟩
  · rw [Writer.StatefulWriter.processAckedChanges_matchedReaders]
    exact mem_replaceF_of_find? (g := fun q => q.acknowledge a numbers now) hp
  · rw [(Writer.StatefulWriter.acknowledge_acked p a numbers now).1, hguid]
  · show _ ≤ (p.ackedChangesSet (a.readerSnState.bitmapBase - 1)).maxAckedSn
    unfold Writer.ReaderProxy.ackedChangesSet
    split_ifs with hlt
    · exact le_rfl
    · exact not_lt.1 hlt

theorem mapM_map {α β γ : Type} {f : α → Option β} {g : α → Option γ} {h : β → γ} {l : List α}
    (hg : ∀ x ∈ l, g x = (f x).map h) : l.mapM g = (l.mapM f).map (map h) := by
  induction l with
  | nil => rfl
  | cons x l ih =>
    rw [mapM_cons, mapM_cons, hg x mem_cons_self, ih fun y hy => hg y (mem_cons_of_mem x hy)]
    cases f x with
    | none => rfl
    | some y => cases l.mapM f <;> rfl

theorem extractNumbers_valueSet {s : NumberSet SequenceNumber} (hs : s.numBits ≤ 256) :
    (valueSet s).extractNumbers = (s.extractNumbers sequenceNumbers.wrappingAdd).map (map SequenceNumber.toI64) :=
  mapM_map fun p hp =>
    (sequenceNumbers.map_wrappingAdd s.bitmapBase p ((NumberSet.mem_setPositions.1 hp).1.trans_le hs)).symm

variable {base : SequenceNumber} {missing : List SequenceNumber}

/-- **The ACKNACK of a reader, as the writer gets it.** -/
theorem acknack_sent (readerId writerId : EntityId) (count : Count) (hbase : 1 ≤ base.toI64)
    (hmissing : ∀ n ∈ missing, base.toI64 ≤ n.toI64) :
    let m := createAcknackSubmessage readerId writerId missing count base false
    ∃ a valid, ((Messages.AckNack.deserialize m.header).runOn m.bodyBytes).result = .ok a ∧ a.count = count ∧
      a.readerSnState.bitmapBase = base ∧
      (∃ l, a.readerSnState.extractNumbers sequenceNumbers.wrappingAdd = some l ∧
        ∀ n, n ∈ l ↔ n ∈ missing ∧ n.toI64 ≤ base.toI64 + 255) ∧
      ((receivedAcknack m.header a valid).isPreemptive = false ↔
        1 < base.toI64 ∨ missing = [] ∨ ∃ n ∈ missing, n.toI64 ≤ base.toI64 + 255) ∧
      ((receivedAcknack m.header a valid).isPreemptive = false → Recorded (receivedAcknack m.header a valid)) := by
  intro m
  obtain ⟨s, hs⟩ : ∃ s, s = NumberSet.fromVec sequenceNumbers.offset base missing := ⟨_, rfl⟩
  have hvalid : s.isValid isValidSequenceBase = true := by
    rw [hs]
    exact NumberSet.isValid_fromVec (sequenceNumbers.isValidBase_iff base |>.2 hbase)
  have hm : m = ⟨if missing = [] then 0x03 else 0x01, .ackNack ⟨readerId, writerId, s, count⟩⟩ := by
    rw [hs]
    cases missing <;> rfl
  have hbits : s.numBits ≤ 256 := (Messages.NumberSetSent.of_isValid hvalid).1
  have hlow : ∀ n ∈ missing, sequenceNumbers.toInt n < sequenceNumbers.toInt base →
    256 ≤ sequenceNumbers.offset n base :=
    fun n hn hlt => absurd (hmissing n hn) (not_le.2 hlt)
  obtain ⟨l, hl, hmem⟩ := NumberType.extractNumbers_fromVec hbase hlow
  rw [← hs] at hl
  refine ⟨⟨readerId, writerId, s, count⟩, hvalid, ?_, rfl, ?_, ⟨l, hl, fun n => ?_⟩, ?_, fun hpre => ?_⟩
  · rw [hm]
    exact Messages.Sent.runOn_result (Messages.AckNack.decodes (Messages.Sent.kind_header _)
      ⟨.inr hvalid, Messages.NumberSetSent.of_isValid hvalid⟩)
  · rw [hs, NumberSet.bitmapBase_fromVec]
  · rw [hmem]
    refine and_congr_right fun hn => ?_
    have := hmissing n hn
    show base.toI64 ≤ n.toI64 ∧ n.toI64 < base.toI64 + 256 ↔ _
    omega
  · have hempty : s.numBits = 0 ↔ ¬ ∃ n ∈ missing, n.toI64 ≤ base.toI64 + 255 := by
      rw [← Nat.le_zero, hs, NumberSet.numBits_fromVec_le]
      push Not
      refine forall₂_congr fun n hn => ?_
      rw [sequenceNumbers.offset_eq n base (hmissing n hn) hbase]
      show ((n.toI64 - base.toI64).toNat < 256 → (n.toI64 - base.toI64).toNat < 0) ↔ _
      omega
    have hfinal : (finalFlag m.header).getD false = decide (missing = []) := by
      rw [hm]
      show decide ((if missing = [] then 3 else 1) &&& (0x02 : BitVec 8) ≠ 0) = _
      by_cases hnil : missing = [] <;> simp [hnil]
    have hbaseEq : s.bitmapBase = base := by rw [hs, NumberSet.bitmapBase_fromVec]
    show (s.numBits == 0 && !(finalFlag m.header).getD false && decide (s.bitmapBase.toI64 ≤ 1)) = false ↔ _
    rw [hfinal, hbaseEq, ← Bool.not_eq_true]
    simp only [Bool.and_eq_true, beq_iff_eq, Bool.not_eq_true', decide_eq_false_iff_not, decide_eq_true_eq, hempty]
    rw [← not_le, not_and_or, not_and_or, not_not, not_not, or_comm, or_comm (b := missing = [])]
  · exact recorded_of_extractNumbers hpre ((extractNumbers_valueSet hbits).trans (by rw [hl]; rfl))

/-- From 2 on, with 3 and 300 missing. -/
theorem acknack_sent_two :
    let m := createAcknackSubmessage 0 0 [⟨0, 3⟩, ⟨0, 300⟩] 1 ⟨0, 2⟩ false
    ∃ a valid, ((Messages.AckNack.deserialize m.header).runOn m.bodyBytes).result = .ok a ∧
      Recorded (receivedAcknack m.header a valid) := by
  obtain ⟨a, valid, hread, -, -, -, hpre, hrec⟩ :=
    @acknack_sent ⟨0, 2⟩ [⟨0, 3⟩, ⟨0, 300⟩] 0 0 1 (by decide) (by decide)
  exact ⟨a, valid, hread, hrec (hpre.2 (.inl (by decide)))⟩

/-- The ACKNACK of a reader that has nothing and misses only what lies beyond the window is taken for a preemptive
one. -/
theorem acknack_taken_for_preemptive :
    let m := createAcknackSubmessage 0 0 [⟨0, 300⟩] 1 ⟨0, 1⟩ false
    ∃ a valid, ((Messages.AckNack.deserialize m.header).runOn m.bodyBytes).result = .ok a ∧
      (receivedAcknack m.header a valid).isPreemptive = true :=
  ⟨⟨0, 0, .newEmptyWithBase ⟨0, 1⟩, 1⟩, by decide +kernel, by decide +kernel, by decide +kernel⟩

end Int2Dds.System
