import Int2Dds.Messages.DataFragWire
import Int2Dds.Messages.Framing
import Mathlib.Data.Finset.Sort

/-!
# Bursts of fragments

A writer packs the fragments it is asked for into DATA_FRAG datagrams and charges each one to the receive window of the
peer before it is sent.

* `fragmentSendPlan` : the datagrams of a burst; `boundFragmentPlan` : those that fit the window, of which `Bounds` says
  what is to be kept. They are (`fragment_plan_exact`). A sample has at most 2^20 fragments, so that their numbers add
  up in 32 bits.
-/

namespace Int2Dds.System
open Lib Rtps Messages List

/-! ## Datagrams -/

def udpIpHeaderBytes : Nat := 28

def dataFragFixedBytes : Nat := 20 + 16 + 12 + 4 + 32

def heartbeatSubmessageBytes : Nat := 32

/-- The sum, whose terms are all positive, overflows when any part of it does. -/
def dataFragDatagramBytes (payloadBytes : Nat) (withHeartbeat : Bool) : Option Nat :=
  let sum := dataFragFixedBytes + (payloadBytes + 3) / 4 * 4 + (if withHeartbeat then heartbeatSubmessageBytes else 0) +
    udpIpHeaderBytes
  if sum < 2 ^ 64 then some sum else none

structure PresentationParameters where
  coherentSet : Option SequenceNumber
  groupSeqNum : Option SequenceNumber
  groupCoherentSet : Option SequenceNumber
  writerGroupInfo : Option (BitVec 32)
deriving DecidableEq

namespace PresentationParameters

/-- The list is empty at first, and no id is set twice. -/
def addPresentationParameters (p : PresentationParameters) : ParameterList :=
  let encode (id : BitVec 16) (sn : SequenceNumber) := Parameter.new id (writeSequenceNumber .little sn)
  (p.coherentSet.map (encode 0x0056)).toList ++ (p.groupSeqNum.map (encode 0x0064)).toList ++
    (p.groupCoherentSet.map (encode 0x0063)).toList ++
    (p.writerGroupInfo.map fun set => Parameter.new 0x0065 (writeOctets 4 set)).toList

end PresentationParameters

def createHeartbeatSubmessage (b : Heartbeat) (finalFlag livelinessFlag : Bool) : Sent :=
  ⟨0x01 ||| (if livelinessFlag then 0x04 else 0) ||| (if finalFlag then 0x02 else 0) |||
    (if b.groupInfo.isSome then 0x08 else 0), .heartbeat b⟩

/-- Only the first fragment of a sample carries inline QoS. -/
def inlineQosOf (presentation : PresentationParameters) (fragmentStartingNum : BitVec 32) : Option ParameterList :=
  if fragmentStartingNum = 1 then
    let paramList := presentation.addPresentationParameters
    if paramList.isEmpty then none else some paramList
  else none

/-- The message with the fragments of `d`, whose inline QoS is set here; a HEARTBEAT has two flags. -/
def createDataFragMsg (header : Header) (remotePrefix : GuidPrefix) (timestamp : InfoTimestamp)
    (presentation : PresentationParameters) (d : DataFrag) (heartbeat : Option (Heartbeat × Bool × Bool)) :
    Outcome RtpsError Bytes := do
  let d := { d with inlineQos := inlineQosOf presentation d.fragmentStartingNum }
  let bodyLength ← d.unpaddedBodyLength
  let octetsToNextHeader ← Outcome.checked 16 (bodyLength + alignmentPadding bodyLength)
  let flags : Byte := if d.inlineQos.isSome then 0x01 ||| 0x02 else 0x01
  let body ← d.writeTo .little
  pure (MessageReceiver.message header
      [⟨0x01, .infoDestination ⟨remotePrefix⟩⟩, ⟨0x01, .infoTimestamp (some timestamp)⟩] ++
    (SubmessageHeader.writeTo ⟨SubmessageKind.dataFrag.id, flags, BitVec.ofNat 16 octetsToNextHeader⟩ ++ (body ++
      encodeAll (heartbeat.toList.map fun h => createHeartbeatSubmessage h.1 h.2.1 h.2.2))))

theorem length_parameters {l : ParameterList} (h : ∀ p ∈ l, p.parameterId ≠ ParameterId.sentinel) :
    (l.writeTo .little).length = l.totalLength ∧ l.totalLength % 4 = 0 ∧ 4 ≤ l.totalLength := by
  unfold ParameterList.writeTo
  induction l with
  | nil => exact ⟨rfl, rfl, le_rfl⟩
  | cons p l ih =>
    obtain ⟨hlen, hmod, hle⟩ := ih fun q hq => h q (mem_cons_of_mem p hq)
    rw [ParameterList.totalLength, if_neg (h p mem_cons_self), flatMap_cons, append_assoc,
      length_append, hlen]
    have hvalue : (p.value.length + alignmentPadding p.value.length) % 4 = 0 := by
      unfold alignmentPadding
      split_ifs <;> omega
    simp only [Parameter.writeTo, length_append, writeU16, Endianness.length_put, length_replicate]
    omega

variable {p : PresentationParameters}

theorem parameterId_ne_sentinel {q : Parameter} (hq : q ∈ p.addPresentationParameters) :
    q.parameterId ≠ ParameterId.sentinel := by
  simp only [PresentationParameters.addPresentationParameters, mem_append, Option.mem_toList,
    Option.map_eq_some_iff] at hq
  rcases hq with ((⟨_, -, rfl⟩ | ⟨_, -, rfl⟩) | ⟨_, -, rfl⟩) | ⟨_, -, rfl⟩ <;>
    simp [Parameter.new, ParameterId.sentinel]

theorem inlineQosOf_eq_none {start : BitVec 32} :
    inlineQosOf p start = none ↔ start ≠ 1 ∨ p = ⟨none, none, none, none⟩ := by
  unfold inlineQosOf
  split_ifs with hstart
  · obtain ⟨a, b, c, d⟩ := p
    cases a <;> cases b <;> cases c <;> cases d <;>
      simp [PresentationParameters.addPresentationParameters, hstart]
  · exact iff_of_true rfl (.inl hstart)

theorem length_of_inlineQosOf {start : BitVec 32} {l : ParameterList}
    (h : inlineQosOf p start = some l) :
    (l.writeTo .little).length = l.totalLength ∧ l.totalLength % 4 = 0 ∧ 4 ≤ l.totalLength := by
  unfold inlineQosOf at h
  dsimp only at h
  split_ifs at h
  cases h
  exact length_parameters fun q hq => parameterId_ne_sentinel hq

variable {header : Header} {remotePrefix : GuidPrefix} {timestamp : InfoTimestamp}
  {presentation : PresentationParameters} {d : DataFrag} {heartbeat : Option (Heartbeat × Bool × Bool)} {bytes : Bytes}

theorem length_heartbeats (heartbeat : Option (Heartbeat × Bool × Bool)) :
    (encodeAll (heartbeat.toList.map fun h => createHeartbeatSubmessage h.1 h.2.1 h.2.2)).length =
      heartbeat.elim 0 fun h => 32 + h.1.groupInfo.elim 0 fun _ => 32 := by
  cases heartbeat with
  | none => rfl
  | some h =>
    obtain ⟨b, final, alive⟩ := h
    simp only [Option.toList_some, map_cons, encodeAll_cons, length_append, Sent.length_encode]
    cases hg : b.groupInfo <;>
      simp [createHeartbeatSubmessage, Sent.bodyBytes, Sendable.write, Heartbeat.writeTo, Heartbeat.writeGroupInfo,
        writeEntityId, writeSequenceNumber, writeOctets, writeU32, encodeAll, hg]

/-- The body is padded as its payload: the other parts are multiples of four, also in 16 bits. -/
theorem alignmentPadding_lengthSum {inlineQos : Option ParameterList} {payload : Nat}
    (h : ∀ l ∈ inlineQos, l.totalLength % 4 = 0) :
    payload + alignmentPadding (DataFrag.lengthSum inlineQos payload) = (payload + 3) / 4 * 4 := by
  have hmod : DataFrag.lengthSum inlineQos payload % 4 = payload % 4 := by
    unfold DataFrag.lengthSum DataFrag.fixedBodyLen
    cases inlineQos with
    | none => simp only [Option.elim_none]; omega
    | some l =>
      have := h l rfl
      simp only [Option.elim_some]
      omega
  unfold alignmentPadding
  split_ifs <;> omega

theorem length_writeTo_dataFrag (h : (d.writeTo .little).result = .ok bytes)
    (hqos : ∀ l ∈ d.inlineQos, (l.writeTo .little).length = l.totalLength ∧ l.totalLength % 4 = 0) :
    bytes.length = 32 + d.inlineQos.elim 0 ParameterList.totalLength + (d.serializedData.length + 3) / 4 * 4 := by
  obtain ⟨n, hn, hbytes⟩ := Outcome.result_bind_eq_ok.1 h
  obtain rfl : n = DataFrag.lengthSum d.inlineQos d.serializedData.length := by
    unfold DataFrag.unpaddedBodyLength Outcome.checked at hn
    split_ifs at hn
    · cases hn
      rfl
    · cases hn
  cases hbytes
  have hinline : (d.writeInlineQos .little).length = d.inlineQos.elim 0 ParameterList.totalLength := by
    unfold DataFrag.writeInlineQos
    cases hq : d.inlineQos with
    | none => rfl
    | some l => exact (hqos l hq).1
  rw [length_append, length_append, length_append, hinline,
    length_replicate, alignmentPadding_lengthSum fun l hl => (hqos l hl).2, Nat.add_assoc]
  rfl

theorem length_createDataFragMsg
    (h : (createDataFragMsg header remotePrefix timestamp presentation d heartbeat).result = .ok bytes) :
    bytes.length = dataFragFixedBytes + (d.serializedData.length + 3) / 4 * 4 +
      (inlineQosOf presentation d.fragmentStartingNum).elim 0 ParameterList.totalLength +
      heartbeat.elim 0 fun h => 32 + h.1.groupInfo.elim 0 fun _ => 32 := by
  obtain ⟨n, -, h⟩ := Outcome.result_bind_eq_ok.1 h
  obtain ⟨octets, -, h⟩ := Outcome.result_bind_eq_ok.1 h
  obtain ⟨body, hbody, h⟩ := Outcome.result_bind_eq_ok.1 h
  cases h
  have hlen := length_writeTo_dataFrag hbody fun l hl => (length_of_inlineQosOf hl).imp_right And.left
  have hstart : (MessageReceiver.message header
      [⟨0x01, .infoDestination ⟨remotePrefix⟩⟩, ⟨0x01, .infoTimestamp (some timestamp)⟩]).length = 48 := by
    simp [MessageReceiver.message, encodeAll, Sent.length_encode, Sent.bodyBytes, Sendable.write,
      InfoDestination.writeTo, InfoTimestamp.writeTo, writeGuidPrefix, writeOctets, writeU32,
      MessageReceiver.rtpsHeaderLength]
  simp only [length_append, hlen, length_heartbeats, SubmessageHeader.writeTo, length_cons,
    Endianness.length_put, dataFragFixedBytes]
  omega

/-- **What is charged covers what is written** exactly when there is neither inline QoS nor group numbers. -/
theorem charge_covers_iff
    (h : (createDataFragMsg header remotePrefix timestamp presentation d heartbeat).result = .ok bytes)
    (hslice : d.serializedData.length < 2 ^ 63) :
    (∃ cost, dataFragDatagramBytes d.serializedData.length heartbeat.isSome = some cost ∧
        bytes.length + udpIpHeaderBytes ≤ cost) ↔
      (d.fragmentStartingNum ≠ 1 ∨ presentation = ⟨none, none, none, none⟩) ∧
        ∀ hb ∈ heartbeat, hb.1.groupInfo = none := by
  rw [length_createDataFragMsg h, ← inlineQosOf_eq_none]
  have hqos : ∀ l ∈ inlineQosOf presentation d.fragmentStartingNum, 4 ≤ l.totalLength :=
    fun l hl => (length_of_inlineQosOf hl).2.2
  unfold dataFragDatagramBytes dataFragFixedBytes heartbeatSubmessageBytes udpIpHeaderBytes
  generalize inlineQosOf presentation d.fragmentStartingNum = qos at hqos ⊢
  rw [if_pos (by split_ifs <;> omega)]
  cases qos with
  | some l =>
    have := hqos l rfl
    cases heartbeat <;> simp <;> omega
  | none =>
    cases heartbeat with
    | none => simp
    | some hb => cases hg : hb.1.groupInfo <;> simp [hg]

def fragmentOfEight (n : BitVec 32) : DataFrag := ⟨0, 0, ⟨0, 1⟩, n, 1, 4, 8, none, [0, 0, 0, 0]⟩

/-- The second fragment of a sample in a coherent set. -/
theorem charge_covers_iff_second : ∃ bytes,
    (createDataFragMsg MessageReceiver.messageHeader 0 ⟨0, 0⟩ ⟨some ⟨0, 1⟩, none, none, none⟩ (fragmentOfEight 2)
      none).result = .ok bytes ∧
    ∃ cost, dataFragDatagramBytes 4 false = some cost ∧ bytes.length + udpIpHeaderBytes ≤ cost := by
  refine ⟨_, rfl, ?_⟩
  have hiff := @charge_covers_iff MessageReceiver.messageHeader 0 ⟨0, 0⟩ ⟨some ⟨0, 1⟩, none, none, none⟩
    (fragmentOfEight 2) none _ rfl (by decide)
  exact hiff.2 ⟨.inl (by decide), fun _ h => nomatch h⟩

/-- The first fragment of that sample is charged 16 bytes too little, and one with the HEARTBEAT of a group 32. -/
theorem charge_too_low :
    (∃ bytes, (createDataFragMsg MessageReceiver.messageHeader 0 ⟨0, 0⟩ ⟨some ⟨0, 1⟩, none, none, none⟩
        (fragmentOfEight 1) none).result = .ok bytes ∧
      dataFragDatagramBytes 4 false = some (bytes.length + udpIpHeaderBytes - 16)) ∧
    ∃ bytes, (createDataFragMsg MessageReceiver.messageHeader 0 ⟨0, 0⟩ ⟨none, none, none, none⟩ (fragmentOfEight 2)
        (some (⟨0, 0, ⟨0, 1⟩, ⟨0, 1⟩, 1, some ⟨⟨0, 1⟩, ⟨0, 1⟩, ⟨0, 1⟩, 0, 0⟩⟩, false, false))).result = .ok bytes ∧
      dataFragDatagramBytes 4 true = some (bytes.length + udpIpHeaderBytes - 32) :=
  ⟨⟨_, rfl, by decide +kernel⟩, _, rfl, by decide +kernel⟩

/-! ## The plan of a burst -/

/-- One DATA_FRAG: its first fragment, how many it carries, and whether the HEARTBEAT goes with it. -/
structure PlanEntry where
  fragmentNum : Nat
  count : Nat
  isLast : Bool
deriving DecidableEq

def addToRuns (runs : List (Nat × Nat)) (fragmentNum : Nat) : List (Nat × Nat) :=
  match runs.getLast? with
  | some (start, count) =>
    if start + count = fragmentNum then runs.dropLast ++ [(start, count + 1)] else runs ++ [(fragmentNum, 1)]
  | none => runs ++ [(fragmentNum, 1)]

def contiguousFragmentRuns (fragments : Finset Nat) (total : Nat) : List (Nat × Nat) :=
  ((fragments.sort (· ≤ ·)).filter fun n => decide (1 ≤ n ∧ n ≤ total)).foldl addToRuns []

/-- The loop over one run, which takes at most `fuel` turns. -/
def chunkRun (fragsPerMsg runStart runLen : Nat) (isLastRun : Bool) : (fuel offset : Nat) → List PlanEntry
  | 0, _ => []
  | fuel + 1, offset =>
    if offset < runLen then
      let count := min fragsPerMsg (runLen - offset)
      ⟨runStart + offset, count, isLastRun && decide (offset + count = runLen)⟩ ::
        chunkRun fragsPerMsg runStart runLen isLastRun fuel (offset + count)
    else []

def fragmentSendPlan (fragsPerMsg : Nat) : List (Nat × Nat) → List PlanEntry
  | [] => []
  | (runStart, runLen) :: runs =>
    chunkRun fragsPerMsg runStart runLen runs.isEmpty runLen 0 ++ fragmentSendPlan fragsPerMsg runs

def FlagsLast : List PlanEntry → Prop
  | [] => True
  | e :: plan => (e.isLast = true ↔ plan = []) ∧ FlagsLast plan

section Plan

variable {k runStart runLen fuel offset : Nat} {isLastRun : Bool} {runs : List (Nat × Nat)}

def runFragments (run : Nat × Nat) : List Nat := range' run.1 run.2

def PlanEntry.fragments (e : PlanEntry) : List Nat := runFragments (e.fragmentNum, e.count)

theorem runFragments_addToRuns (runs : List (Nat × Nat)) (n : Nat) :
    (addToRuns runs n).flatMap runFragments = runs.flatMap runFragments ++ [n] := by
  rcases runs.eq_nil_or_concat' with rfl | ⟨init, ⟨start, count⟩, rfl⟩
  · rfl
  · unfold addToRuns
    rw [getLast?_concat]
    dsimp only
    split_ifs with h
    · simp [runFragments, range'_1_concat, h]
    · rw [flatMap_append]
      rfl

theorem runFragments_foldl (l : List Nat) (runs : List (Nat × Nat)) :
    (l.foldl addToRuns runs).flatMap runFragments = runs.flatMap runFragments ++ l := by
  induction l generalizing runs with
  | nil => simp
  | cons n l ih => rw [foldl_cons, ih, runFragments_addToRuns, append_assoc, singleton_append]

theorem pos_foldl_addToRuns (l : List Nat) (h : ∀ run ∈ runs, 0 < run.2) :
    ∀ run ∈ l.foldl addToRuns runs, 0 < run.2 := by
  induction l generalizing runs with
  | nil => exact h
  | cons n l ih =>
    refine ih fun run hrun => ?_
    unfold addToRuns at hrun
    split at hrun <;> grind [mem_of_mem_dropLast]

theorem chunkRun_spec (hk : 1 ≤ k) (hfuel : runLen ≤ offset + fuel) :
    (chunkRun k runStart runLen isLastRun fuel offset).flatMap PlanEntry.fragments =
        runFragments (runStart + offset, runLen - offset) ∧
      (∀ e ∈ chunkRun k runStart runLen isLastRun fuel offset, 1 ≤ e.count ∧ e.count ≤ k) ∧
      (chunkRun k runStart runLen isLastRun fuel offset = [] ↔ runLen ≤ offset) ∧
      ∀ tail, FlagsLast tail → (isLastRun = true ↔ tail = []) →
        FlagsLast (chunkRun k runStart runLen isLastRun fuel offset ++ tail) := by
  induction fuel generalizing offset with
  | zero =>
    have hdone : runLen ≤ offset := hfuel
    rw [Nat.sub_eq_zero_of_le hdone]
    exact ⟨rfl, nofun, iff_of_true rfl hfuel, fun tail h _ => h⟩
  | succ fuel ih =>
    unfold chunkRun
    split_ifs with hlt
    · obtain ⟨hflat, hcount, hnil, hflags⟩ := @ih (offset + min k (runLen - offset)) (by omega)
      refine ⟨?_, ?_, iff_of_false id (by omega), fun tail htail hlast => ⟨?_, hflags tail htail hlast⟩⟩
      · rw [flatMap_cons, hflat]
        unfold PlanEntry.fragments runFragments
        dsimp only
        rw [← Nat.add_assoc, range'_append_1]
        congr 1
        omega
      · rw [forall_mem_cons]
        exact ⟨by dsimp only; omega, hcount⟩
      · rw [append_eq, append_eq_nil_iff, hnil, ← hlast, Bool.and_eq_true, decide_eq_true_eq, and_comm]
        exact and_congr_left fun _ => by omega
    · rw [Nat.sub_eq_zero_of_le (by omega)]
      exact ⟨rfl, nofun, iff_of_true rfl (by omega), fun tail h _ => h⟩

theorem fragmentSendPlan_spec (hk : 1 ≤ k) (hpos : ∀ run ∈ runs, 0 < run.2) :
    (fragmentSendPlan k runs).flatMap PlanEntry.fragments = runs.flatMap runFragments ∧
      (∀ e ∈ fragmentSendPlan k runs, 1 ≤ e.count ∧ e.count ≤ k) ∧ (fragmentSendPlan k runs = [] ↔ runs = []) ∧
      FlagsLast (fragmentSendPlan k runs) := by
  induction runs with
  | nil => exact ⟨rfl, nofun, iff_of_true rfl rfl, trivial⟩
  | cons run runs ih =>
    obtain ⟨runStart, runLen⟩ := run
    rw [forall_mem_cons] at hpos
    obtain ⟨hflat, hcount, hnil, hflags⟩ := ih hpos.2
    obtain ⟨hflat', hcount', hnil', hflags'⟩ :=
      @chunkRun_spec k runStart runLen runLen 0 runs.isEmpty hk (by omega)
    unfold fragmentSendPlan
    refine ⟨?_, ?_, ?_, hflags' _ hflags ?_⟩
    · rw [flatMap_append, hflat, hflat']
      rfl
    · rw [forall_mem_append]
      exact ⟨hcount', hcount⟩
    · rw [append_eq_nil_iff, hnil']
      exact iff_of_false (fun h => absurd h.1 (not_le.2 hpos.1)) (cons_ne_nil _ _)
    · rw [hnil, List.isEmpty_iff]

theorem flatMap_fragments_plan (hk : 1 ≤ k) (fragments : Finset Nat) (total : Nat) :
    (fragmentSendPlan k (contiguousFragmentRuns fragments total)).flatMap PlanEntry.fragments =
      (fragments.sort (· ≤ ·)).filter fun n => decide (1 ≤ n ∧ n ≤ total) := by
  rw [contiguousFragmentRuns, (fragmentSendPlan_spec hk (pos_foldl_addToRuns _ (forall_mem_nil _))).1,
    runFragments_foldl]
  rfl

end Plan

/-! ## The window -/

def saturatingMul (a b : Nat) : Nat := min (a * b) (2 ^ 64 - 1)

def PlanEntry.cost (fragmentSize sampleSize locatorCount : Nat) (e : PlanEntry) : Option Nat :=
  let offset := saturatingMul (e.fragmentNum - 1) fragmentSize
  let payload := min (sampleSize - offset) (saturatingMul e.count fragmentSize)
  (dataFragDatagramBytes payload false).map (saturatingMul · locatorCount)

/-- The room a burst has; `cost` is what an entry takes of it. -/
structure SendWindow where
  cost : PlanEntry → Option Nat
  windowRemaining : Nat
  heartbeatBytes : Nat
  atLeastOne : Bool

namespace SendWindow

variable (w : SendWindow)

/-- What is charged for the entries that fit, and how many these are. -/
def boundLoop : (charged kept : Nat) → List PlanEntry → Option (Nat × Nat)
  | charged, kept, [] => some (charged, kept)
  | charged, kept, e :: plan =>
    (w.cost e).bind fun cost =>
      if charged + cost + w.heartbeatBytes < 2 ^ 64 then
        if w.windowRemaining < charged + cost + w.heartbeatBytes ∧ ¬ (w.atLeastOne = true ∧ kept = 0) then
          some (charged, kept)
        else boundLoop (charged + cost) (kept + 1) plan
      else none

def spent (plan : List PlanEntry) : Nat := (plan.map fun e => (w.cost e).getD 0).sum

def Fits (plan : List PlanEntry) : Prop :=
  plan = [] ∨ w.spent plan + w.heartbeatBytes ≤ w.windowRemaining ∨ w.atLeastOne = true ∧ plan.length = 1

variable {w}

theorem spent_append (done plan : List PlanEntry) : w.spent (done ++ plan) = w.spent done + w.spent plan := by
  simp [spent]

/-- Where no sum overflows, the loop keeps entries until the next one does not fit. -/
theorem boundLoop_spec {done plan : List PlanEntry} (hdone : w.Fits done)
    (hcost : ∀ e ∈ plan, (w.cost e).isSome = true)
    (hsum : w.spent (done ++ plan) + w.heartbeatBytes < 2 ^ 64) :
    ∃ more rest, plan = more ++ rest ∧
      w.boundLoop (w.spent done) done.length plan = some (w.spent (done ++ more), (done ++ more).length) ∧
      w.Fits (done ++ more) ∧
      ∀ e ∈ rest.head?, w.windowRemaining < w.spent (done ++ more ++ [e]) + w.heartbeatBytes := by
  induction plan generalizing done with
  | nil =>
    refine ⟨[], [], rfl, ?_⟩
    rw [append_nil]
    exact ⟨rfl, hdone, nofun⟩
  | cons e plan ih =>
    rw [forall_mem_cons] at hcost
    obtain ⟨c, hc⟩ := Option.isSome_iff_exists.1 hcost.1
    have hone : w.spent (done ++ [e]) = w.spent done + c := by simp [spent, hc]
    have hlen : (done ++ [e]).length = done.length + 1 := length_append
    rw [append_cons] at hsum
    have hnext : w.spent done + c + w.heartbeatBytes < 2 ^ 64 := by
      rw [spent_append, hone] at hsum
      omega
    rw [boundLoop, hc, Option.bind_some, if_pos hnext]
    split_ifs with hstop
    · refine ⟨[], e :: plan, rfl, ?_⟩
      rw [append_nil]
      refine ⟨rfl, hdone, fun x hx => ?_⟩
      cases hx
      rw [hone]
      exact hstop.1
    · have hfits : w.Fits (done ++ [e]) := by
        rw [not_and, not_not] at hstop
        refine .inr ?_
        rw [hone, hlen]
        by_cases hle : w.windowRemaining < w.spent done + c + w.heartbeatBytes
        · exact .inr ⟨(hstop hle).1, by rw [(hstop hle).2]⟩
        · exact .inl (not_lt.1 hle)
      obtain ⟨more, rest, rfl, hmore⟩ := ih hfits hcost.2 hsum
      rw [hone, hlen, append_assoc] at hmore
      exact ⟨e :: more, rest, rfl, hmore⟩

end SendWindow

/-- The last entry that is kept carries the HEARTBEAT. -/
def flagLast : List PlanEntry → List PlanEntry
  | [] => []
  | [e] => [{ e with isLast := true }]
  | e :: e' :: plan => e :: flagLast (e' :: plan)

theorem flagLast_spec {plan rest : List PlanEntry} (h : FlagsLast (plan ++ rest)) :
    FlagsLast (flagLast plan) ∧ (flagLast plan = [] ↔ plan = []) ∧
      (flagLast plan).map (fun e => (e.fragmentNum, e.count)) = plan.map fun e => (e.fragmentNum, e.count) := by
  fun_induction flagLast plan with
  | case1 => exact ⟨trivial, Iff.rfl, rfl⟩
  | case2 e => exact ⟨⟨iff_of_true rfl rfl, trivial⟩, iff_of_false (cons_ne_nil _ _) (cons_ne_nil _ _), rfl⟩
  | case3 e e' plan ih =>
    obtain ⟨hflags, hnil, hsame⟩ := ih h.2
    refine ⟨⟨h.1.trans ?_, hflags⟩, iff_of_false (cons_ne_nil _ _) (cons_ne_nil _ _), ?_⟩
    · rw [hnil]
      exact iff_of_false (cons_ne_nil _ _) (cons_ne_nil _ _)
    · rw [map_cons, hsame]
      rfl

def sendWindow (fragmentSize sampleSize locatorCount windowRemaining : Nat) (atLeastOne withHeartbeat : Bool) :
    SendWindow :=
  ⟨PlanEntry.cost fragmentSize sampleSize locatorCount, windowRemaining,
    if withHeartbeat then heartbeatSubmessageBytes * locatorCount else 0, atLeastOne⟩

/-- The last charge does not overflow, for the loop has formed the sum. -/
def boundFragmentPlan (plan : List PlanEntry) (w : SendWindow) : Option (List PlanEntry × Nat) :=
  if w.heartbeatBytes < 2 ^ 64 then
    (w.boundLoop 0 0 plan).map fun (charged, kept) =>
      (flagLast (plan.take kept), if plan.take kept = [] then charged else charged + w.heartbeatBytes)
  else none

def SendWindow.Bounds (w : SendWindow) (plan kept : List PlanEntry) (charged : Nat) : Prop :=
  ∃ more rest, plan = more ++ rest ∧
    kept.map (fun e => (e.fragmentNum, e.count)) = more.map (fun e => (e.fragmentNum, e.count)) ∧ FlagsLast kept ∧
    charged = w.spent more + (if more = [] then 0 else w.heartbeatBytes) ∧
    (charged ≤ w.windowRemaining ∨ w.atLeastOne = true ∧ more.length = 1) ∧
    ∀ e ∈ rest.head?, w.windowRemaining < w.spent (more ++ [e]) + w.heartbeatBytes

theorem boundFragmentPlan_spec {plan : List PlanEntry} (hflags : FlagsLast plan) {w : SendWindow}
    (hcost : ∀ e ∈ plan, (w.cost e).isSome = true) (hsum : w.spent plan + w.heartbeatBytes < 2 ^ 64) :
    ∃ r, boundFragmentPlan plan w = some r ∧ w.Bounds plan r.1 r.2 := by
  obtain ⟨more, rest, rfl, hloop, hfits, hnext⟩ := @SendWindow.boundLoop_spec w [] plan (.inl rfl) hcost hsum
  obtain ⟨hlast, -, hsame⟩ := flagLast_spec hflags
  unfold boundFragmentPlan
  rw [if_pos (by omega)]
  refine ⟨_, congrArg (Option.map _) hloop, more, rest, rfl, ?_⟩
  dsimp only
  rw [nil_append, take_left]
  refine ⟨hsame, hlast, ?_, ?_, hnext⟩
  · split_ifs <;> rfl
  · rcases hfits with rfl | hfits | hone
    · exact .inl (Nat.zero_le _)
    · refine .inl (le_trans ?_ hfits)
      split_ifs <;> simp
    · exact .inr hone

/-! ### What the arguments allow -/

theorem cost_le {fragmentSize sampleSize locatorCount total : Nat} {e : PlanEntry} (hcount : e.count ≤ total)
    (htotal : total ≤ 2 ^ 20) (hsize : fragmentSize < 2 ^ 32) :
    ∃ c, e.cost fragmentSize sampleSize locatorCount = some c ∧
      c ≤ (e.count * fragmentSize + 115) * locatorCount := by
  have hpayload : e.count * fragmentSize ≤ 2 ^ 20 * 2 ^ 32 := Nat.mul_le_mul (hcount.trans htotal) hsize.le
  have hmin : min (sampleSize - saturatingMul (e.fragmentNum - 1) fragmentSize)
      (saturatingMul e.count fragmentSize) ≤ e.count * fragmentSize :=
    (min_le_right _ _).trans (min_le_left _ _)
  unfold PlanEntry.cost dataFragDatagramBytes dataFragFixedBytes udpIpHeaderBytes
  dsimp only
  rw [if_neg Bool.false_ne_true, if_pos (by omega)]
  refine ⟨_, rfl, (min_le_left _ _).trans (Nat.mul_le_mul_right _ ?_)⟩
  omega

/-- The entries name different fragments, so that their costs add up to what all fragments cost. -/
theorem spent_le {fragmentSize sampleSize locatorCount total : Nat} (htotal : total ≤ 2 ^ 20)
    (hsize : fragmentSize < 2 ^ 32) (w : SendWindow)
    (hw : w.cost = PlanEntry.cost fragmentSize sampleSize locatorCount) {plan : List PlanEntry}
    (hpos : ∀ e ∈ plan, 1 ≤ e.count) (hle : (plan.map PlanEntry.count).sum ≤ total) :
    (∀ e ∈ plan, (w.cost e).isSome = true) ∧
      w.spent plan ≤ (plan.map PlanEntry.count).sum * (fragmentSize + 115) * locatorCount := by
  induction plan with
  | nil => exact ⟨nofun, Nat.zero_le _⟩
  | cons e plan ih =>
    rw [forall_mem_cons] at hpos
    rw [map_cons, sum_cons] at hle ⊢
    obtain ⟨hsome, hrest⟩ := ih hpos.2 (by omega)
    obtain ⟨c, hc, hcle⟩ := @cost_le fragmentSize sampleSize locatorCount total e (by omega) htotal hsize
    rw [← hw] at hc
    refine ⟨forall_mem_cons.2 ⟨by rw [hc]; rfl, hsome⟩, ?_⟩
    have hone : e.count * fragmentSize + 115 ≤ e.count * (fragmentSize + 115) := by
      rw [Nat.mul_add]
      exact Nat.add_le_add_left (Nat.le_mul_of_pos_left _ hpos.1) _
    calc w.spent (e :: plan) = c + w.spent plan := by simp [SendWindow.spent, hc]
      _ ≤ e.count * (fragmentSize + 115) * locatorCount +
          (plan.map PlanEntry.count).sum * (fragmentSize + 115) * locatorCount :=
        Nat.add_le_add (hcle.trans (Nat.mul_le_mul_right _ hone)) hrest
      _ = _ := by ring

theorem sum_count_le {k : Nat} (hk : 1 ≤ k) (fragments : Finset Nat) (total : Nat) :
    ((fragmentSendPlan k (contiguousFragmentRuns fragments total)).map PlanEntry.count).sum ≤ total := by
  have hlen := congrArg length (flatMap_fragments_plan hk fragments total)
  rw [length_flatMap] at hlen
  have hcount : (fun e : PlanEntry => e.fragments.length) = PlanEntry.count := by
    funext e
    exact length_range'
  rw [hcount] at hlen
  have hnodup : ((fragments.sort (· ≤ ·)).filter fun n => decide (1 ≤ n ∧ n ≤ total)).Nodup :=
    (fragments.sort_nodup (· ≤ ·)).filter _
  have hsub : (fragments.sort (· ≤ ·)).filter (fun n => decide (1 ≤ n ∧ n ≤ total)) ⊆ range' 1 total := by
    intro n hn
    rw [mem_filter, decide_eq_true_eq] at hn
    exact mem_range'_1.2 (by omega)
  calc _ = _ := hlen
    _ ≤ (range' 1 total).length := (hnodup.subperm hsub).length_le
    _ = total := length_range'

/-- **The burst of a repair.** The plan names the fragments asked for, each once and in order, and what fits the
window is kept. A fragment size is a `u32`, and the locators of a peer come in one datagram of 64 KiB. -/
theorem fragment_plan_exact {k total fragmentSize locatorCount : Nat} (hk : 1 ≤ k) (htotal : total ≤ 2 ^ 20)
    (hsize : fragmentSize < 2 ^ 32) (hlocators : locatorCount < 2 ^ 12) (fragments : Finset Nat)
    (sampleSize windowRemaining : Nat) (atLeastOne withHeartbeat : Bool) :
    let plan := fragmentSendPlan k (contiguousFragmentRuns fragments total)
    let w := sendWindow fragmentSize sampleSize locatorCount windowRemaining atLeastOne withHeartbeat
    (∀ e ∈ plan, 1 ≤ e.count ∧ e.count ≤ k) ∧
      plan.Pairwise (fun a b => a.fragmentNum + a.count ≤ b.fragmentNum) ∧
      (∀ n, (∃ e ∈ plan, e.fragmentNum ≤ n ∧ n < e.fragmentNum + e.count) ↔ n ∈ fragments ∧ 1 ≤ n ∧ n ≤ total) ∧
      FlagsLast plan ∧ ∃ r, boundFragmentPlan plan w = some r ∧ w.Bounds plan r.1 r.2 := by
  intro plan w
  have hflat := flatMap_fragments_plan hk fragments total
  obtain ⟨-, hcount, -, hflags⟩ := @fragmentSendPlan_spec k (contiguousFragmentRuns fragments total) hk
    (pos_foldl_addToRuns _ (forall_mem_nil _))
  have hmem (e : PlanEntry) (n : Nat) : n ∈ e.fragments ↔ e.fragmentNum ≤ n ∧ n < e.fragmentNum + e.count :=
    mem_range'_1
  refine ⟨hcount, ?_, fun n => ?_, hflags, ?_⟩
  · have hsorted : (plan.flatMap PlanEntry.fragments).Pairwise (· < ·) := by
      rw [hflat]
      exact fragments.sortedLT_sort.pairwise.filter _
    rw [pairwise_flatMap] at hsorted
    refine hsorted.2.imp_of_mem fun {a b} ha hb hab => ?_
    have := hab (a.fragmentNum + a.count - 1) ((hmem a _).2 (by have := hcount a ha; omega)) b.fragmentNum
      ((hmem b _).2 (by have := hcount b hb; omega))
    omega
  · have hin : n ∈ plan.flatMap PlanEntry.fragments ↔ n ∈ fragments ∧ 1 ≤ n ∧ n ≤ total := by
      rw [hflat, mem_filter, Finset.mem_sort, decide_eq_true_eq]
    rw [← hin, mem_flatMap]
    exact exists_congr fun e => and_congr_right fun _ => (hmem e n).symm
  · have hsum := sum_count_le hk fragments total
    obtain ⟨hcost, hspent⟩ := spent_le htotal hsize w rfl (fun e he => (hcount e he).1) hsum
    refine boundFragmentPlan_spec hflags hcost ?_
    have hmax : (plan.map PlanEntry.count).sum * (fragmentSize + 115) ≤ 2 ^ 20 * (2 ^ 32 + 114) :=
      Nat.mul_le_mul (hsum.trans htotal) (by omega)
    have hbytes : w.heartbeatBytes ≤ 32 * locatorCount := by
      show (if withHeartbeat then 32 * locatorCount else 0) ≤ _
      split_ifs <;> omega
    have hall : w.spent plan ≤ 2 ^ 20 * (2 ^ 32 + 114) * locatorCount :=
      hspent.trans (Nat.mul_le_mul_right _ hmax)
    show w.spent plan + w.heartbeatBytes < 2 ^ 64
    omega

theorem fragment_plan_exact_three : 1 ≤ 2 ∧
    let plan := fragmentSendPlan 2 (contiguousFragmentRuns {1, 2, 4} 5)
    let w := sendWindow 1000 4500 1 4000 false true
    plan = [⟨1, 2, false⟩, ⟨4, 1, true⟩] ∧ ∃ r, boundFragmentPlan plan w = some r ∧ w.Bounds plan r.1 r.2 := by
  have hsort : [1, 2, 4].toFinset.sort (· ≤ ·) = [1, 2, 4] := (toFinset_sort (· ≤ ·) (by decide)).2 (by decide)
  refine ⟨by decide, ?_, (fragment_plan_exact (by decide) (by decide) (by decide) (by decide) {1, 2, 4} 4500 4000 false
    true).2.2.2.2⟩
  rw [contiguousFragmentRuns, show ({1, 2, 4} : Finset Nat) = [1, 2, 4].toFinset by decide, hsort]
  rfl

end Int2Dds.System
