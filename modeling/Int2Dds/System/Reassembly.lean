import Int2Dds.Messages.DataFragWire
import Int2Dds.Messages.FragmentBuffer

/-!
# From a fragmented change to the assembled sample

A change that is too large for a message is cut into fragments, runs of fragments travel as DATA_FRAG submessages in
any order and any number of times, and the reader copies them into a `FragmentBuffer`.

`reassemble_complete` : the buffer is complete exactly when the submessages cover every fragment, and it then holds
the payload.
-/

namespace Int2Dds.System

open Lib Rtps Messages List

/-! ## The writer's side -/

/-- The payload of a cache change, and how it is cut. -/
structure FragmentedChange where
  dataValue : Bytes
  fragmented : Bool
  fragmentSize : Nat
  totalFragments : Nat

namespace FragmentedChange

/-- Sizes that do not fit into 32 bits are cut off. -/
def applyFragmentation (dataValue : Bytes) (maxMessageSize fragmentSize : Nat) : FragmentedChange :=
  if 0 < maxMessageSize ∧ 0 < fragmentSize ∧ maxMessageSize < dataValue.length then
    ⟨dataValue, true, fragmentSize % 2 ^ 32, slotCount fragmentSize dataValue.length % 2 ^ 32⟩
  else ⟨dataValue, false, 0, 0⟩

/-- The payload of `count` fragments from `fragmentNum` on, up to the end of the payload. -/
def getFragmentRangeData (c : FragmentedChange) (fragmentNum count : Nat) : Outcome RtpsError (Option Bytes) :=
  if c.fragmented = false ∨ fragmentNum = 0 ∨ c.totalFragments < fragmentNum ∨ count = 0 then pure none
  else do
    let start ← Outcome.checked 64 ((fragmentNum - 1) * c.fragmentSize)
    let span ← Outcome.checked 64 (count * c.fragmentSize)
    let stop := min (min (start + span) (2 ^ 64 - 1)) c.dataValue.length
    let data ← Outcome.slice c.dataValue start stop
    pure (some data)

structure Cut (payload : Bytes) (size : Nat) (c : FragmentedChange) : Prop where
  dataValue : c.dataValue = payload
  fragmented : c.fragmented = true
  fragmentSize : c.fragmentSize = size
  totalFragments : c.totalFragments = slotCount size payload.length

theorem cut_applyFragmentation {payload : Bytes} {maxMessageSize size : Nat} (hmax : 0 < maxMessageSize)
    (hsize : 0 < size) (hlarge : maxMessageSize < payload.length) (hsize32 : size < 2 ^ 32)
    (htotal32 : slotCount size payload.length < 2 ^ 32) :
    Cut payload size (applyFragmentation payload maxMessageSize size) := by
  rw [applyFragmentation, if_pos ⟨hmax, hsize, hlarge⟩]
  exact ⟨rfl, rfl, Nat.mod_eq_of_lt hsize32, Nat.mod_eq_of_lt htotal32⟩

theorem getFragmentRangeData_eq {payload : Bytes} {size fragmentNum count : Nat} {c : FragmentedChange}
    (hc : Cut payload size c) (hsize : 0 < size) (hsize16 : size < 2 ^ 16) (hlen : payload.length < 2 ^ 64)
    (hnum : 0 < fragmentNum) (hnum32 : fragmentNum < 2 ^ 32) (hcount : 0 < count) (hcount16 : count < 2 ^ 16)
    (hle : fragmentNum ≤ slotCount size payload.length) :
    c.getFragmentRangeData fragmentNum count = pure (some (slots size payload (fragmentNum - 1) count)) := by
  have hstart : (fragmentNum - 1) * size < payload.length := (lt_slotCount_iff hsize).1 (by omega)
  rw [getFragmentRangeData, hc.fragmented, hc.totalFragments, hc.fragmentSize, hc.dataValue, if_neg (by simp; omega),
    Outcome.checked_of_lt (DataFrag.mul_lt_two_pow (by omega) hsize16), pure_bind,
    Outcome.checked_of_lt (DataFrag.mul_lt_two_pow (by omega) hsize16), pure_bind]
  dsimp only
  rw [Outcome.slice_of_le (by omega), pure_bind]
  congr 2
  rw [slots, drop_take, take_eq_take_iff, length_drop]
  omega

end FragmentedChange

/-! ## A submessage on its way -/

/-- A DATA_FRAG submessage: the fragments it carries, its flags, its timestamp and when it came. -/
structure Parcel where
  flags : Byte
  readerId : EntityId
  fragmentNum : BitVec 32
  count : BitVec 16
  inlineQos : Option ParameterList
  sourceTimestamp : Option Messages.RtpsTime
  now : Nat

namespace Parcel

/-- `deserialize` does not look at the length. -/
def header (p : Parcel) : SubmessageHeader := ⟨SubmessageKind.dataFrag.id, p.flags, 0⟩

/-- The submessage `create_data_frag_msg` makes of a change, with sizes cut off to the fields' widths. -/
def dataFrag (c : FragmentedChange) (writerId : EntityId) (sn : SequenceNumber) (data : Bytes) (p : Parcel) :
    DataFrag :=
  ⟨p.readerId, writerId, sn, p.fragmentNum, p.count, BitVec.ofNat 16 c.fragmentSize, BitVec.ofNat 32 c.dataValue.length,
    p.inlineQos, data⟩

def Covers (p : Parcel) (n : Nat) : Prop := p.fragmentNum.toNat ≤ n ∧ n < p.fragmentNum.toNat + p.count.toNat

end Parcel

def openBuffer (d : DataFrag) (now : Nat) : Outcome RtpsError FragmentBuffer :=
  if h : 0 < d.fragmentSize.toNat then pure (FragmentBuffer.new d.sampleSize.toNat d.fragmentSize.toNat now h)
  else Outcome.panic

/-- The buffer of the sample, if there is one, after a submessage for it has been read. -/
def takeDataFrag (d : DataFrag) (p : Parcel) (buffer : Option FragmentBuffer) :
    Outcome RtpsError (Option FragmentBuffer) := do
  let b ← buffer.elim (openBuffer d p.now) pure
  pure (some (d.copyInto p.sourceTimestamp p.now b).2)

/-- Fragments are taken from the change, written, read and copied. What is not read is dropped. -/
def exchange (c : FragmentedChange) (writerId : EntityId) (sn : SequenceNumber) (p : Parcel)
    (buffer : Option FragmentBuffer) : Outcome RtpsError (Option FragmentBuffer) := do
  let some data ← c.getFragmentRangeData p.fragmentNum.toNat p.count.toNat | pure buffer
  let body ← (p.dataFrag c writerId sn data).writeTo p.header.byteOrder
  (DataFrag.deserialize body p.header).onError (pure buffer) fun d => takeDataFrag d p buffer

def reassemble (c : FragmentedChange) (writerId : EntityId) (sn : SequenceNumber) :
    List Parcel → Option FragmentBuffer → Outcome RtpsError (Option FragmentBuffer)
  | [], buffer => pure buffer
  | p :: ps, buffer => do
    let buffer' ← exchange c writerId sn p buffer
    reassemble c writerId sn ps buffer'

/-! ## Submessages that arrive -/

structure Sizes (payload : Bytes) (size : Nat) : Prop where
  pos : 0 < size
  lt : size < 2 ^ 16
  le : size ≤ payload.length
  total_le : slotCount size payload.length ≤ DataFrag.maxFragmentsPerSample

/-- `p` names fragments of the sample, announces its inline QoS and has a length of 16 bits. -/
structure Parcel.Fits (payload : Bytes) (size : Nat) (p : Parcel) : Prop where
  fragmentNum_pos : 0 < p.fragmentNum.toNat
  count_pos : 0 < p.count.toNat
  last_le : p.fragmentNum.toNat - 1 + p.count.toNat ≤ slotCount size payload.length
  inlineQosFlag : p.header.hasFlag 0x02 = p.inlineQos.isSome
  qos : ∀ l ∈ p.inlineQos, (ParameterList.readFrom p.header.byteOrder).Decodes
    (ParameterList.writeTo p.header.byteOrder l) l
  length : DataFrag.lengthSum p.inlineQos (slots size payload (p.fragmentNum.toNat - 1) p.count.toNat).length < 2 ^ 16

variable {payload : Bytes} {size : Nat} {c : FragmentedChange} {writerId : EntityId} {sn : SequenceNumber}

def Parcel.sent (payload : Bytes) (size : Nat) (writerId : EntityId) (sn : SequenceNumber) (p : Parcel) : DataFrag :=
  ⟨p.readerId, writerId, sn, p.fragmentNum, p.count, BitVec.ofNat 16 size, BitVec.ofNat 32 payload.length, p.inlineQos,
    slots size payload (p.fragmentNum.toNat - 1) p.count.toNat⟩

variable {p : Parcel} {b : FragmentBuffer} {done : List Parcel} {n : Nat}

theorem announced (hp : p.Fits payload size) (hsn : IsSampleSn sn) :
    (p.sent payload size writerId sn).Announced p.header :=
  ⟨SubmessageKind.ofId_id .dataFrag, hp.inlineQosFlag, hsn, hp.qos⟩

theorem sizes_sent (hs : Sizes payload size) (hlen : payload.length < 2 ^ 32) (p : Parcel) (w : EntityId)
    (n : SequenceNumber) : (p.sent payload size w n).fragmentSize.toNat = size ∧
      (p.sent payload size w n).sampleSize.toNat = payload.length :=
  ⟨(BitVec.toNat_ofNat _ _).trans (Nat.mod_eq_of_lt hs.lt), (BitVec.toNat_ofNat _ _).trans (Nat.mod_eq_of_lt hlen)⟩

theorem carries (hs : Sizes payload size) (hlen : payload.length < 2 ^ 32) (hp : p.Fits payload size) :
    (p.sent payload size writerId sn).Carries := by
  obtain ⟨hsize, hsample⟩ := sizes_sent hs hlen p writerId sn
  constructor
  case starting_pos => exact hp.fragmentNum_pos
  case count_pos => exact hp.count_pos
  case size_pos => rw [hsize]; exact hs.pos
  case size_le => rw [hsize, hsample]; exact hs.le
  case total_le => rw [hsize, hsample]; exact hs.total_le
  case last_le => rw [hsize, hsample]; exact hp.last_le
  case length_data => rw [hsize, hsample]; exact length_slots

theorem exchange_written (hs : Sizes payload size) (hlen : payload.length < 2 ^ 64) (hc : c.Cut payload size)
    (hp : p.Fits payload size) (buffer : Option FragmentBuffer) :
    ∃ body, ((p.sent payload size writerId sn).writeTo p.header.byteOrder).result = .ok body ∧
      (exchange c writerId sn p buffer).result =
        ((DataFrag.deserialize body p.header).onError (pure buffer) fun d => takeDataFrag d p buffer).result := by
  have hle : p.fragmentNum.toNat ≤ slotCount size payload.length := by
    have := hp.last_le
    have := hp.count_pos
    omega
  have hdata := FragmentedChange.getFragmentRangeData_eq hc hs.pos hs.lt hlen hp.fragmentNum_pos p.fragmentNum.isLt
    hp.count_pos p.count.isLt hle
  have hfrag : p.dataFrag c writerId sn (slots size payload (p.fragmentNum.toNat - 1) p.count.toNat) =
      p.sent payload size writerId sn := by
    rw [Parcel.dataFrag, hc.fragmentSize, hc.dataValue]
    rfl
  obtain ⟨body, hbody⟩ : ∃ body, (p.sent payload size writerId sn).writeTo p.header.byteOrder = pure body :=
    DataFrag.writeTo_of_lt hp.length
  refine ⟨body, by rw [hbody]; rfl, ?_⟩
  rw [exchange, hdata, pure_bind]
  dsimp only
  rw [hfrag, hbody, pure_bind]

/-! ## The buffer between submessages -/

/-- `b` holds the sample, with the fragments that the submessages `done` cover. -/
structure StoredIn (payload : Bytes) (size : Nat) (done : List Parcel) (b : FragmentBuffer) : Prop where
  holds : b.Holds payload
  fragmentSize : b.fragmentSize = size
  filled : ∀ i, b.filled[i]? = some true ↔ ∃ p ∈ done, p.Covers (i + 1)

/-- The buffer after the submessages `done`, open once there was one. -/
def Stored (payload : Bytes) (size : Nat) (done : List Parcel) : Option FragmentBuffer → Prop
  | none => done = []
  | some b => StoredIn payload size done b

theorem storedIn_new (hs : Sizes payload size) (now : Nat) :
    StoredIn payload size [] (FragmentBuffer.new payload.length size now hs.pos) := by
  refine ⟨FragmentBuffer.holds_new hs.pos, rfl, fun i => iff_of_false ?_ (by simp)⟩
  show (replicate _ false)[i]? ≠ some true
  rw [getElem?_replicate]
  split_ifs <;> nofun

theorem StoredIn.totalFragments (hb : StoredIn payload size done b) :
    b.totalFragments = slotCount size payload.length := by
  rw [b.totalFragments_eq, hb.fragmentSize, hb.holds.size]

theorem StoredIn.copyInto (hs : Sizes payload size) (hp : p.Fits payload size) (hb : StoredIn payload size done b) :
    StoredIn payload size (done ++ [p]) ((p.sent payload size writerId sn).copyInto p.sourceTimestamp p.now b).2 := by
  have hsize : (p.sent payload size writerId sn).fragmentSize.toNat = b.fragmentSize :=
    ((BitVec.toNat_ofNat _ _).trans (Nat.mod_eq_of_lt hs.lt)).trans hb.fragmentSize.symm
  obtain ⟨hholds, hfilled⟩ := DataFrag.holds_copyInto hb.holds p.sourceTimestamp hp.fragmentNum_pos hsize
    (by rw [hb.fragmentSize]; rfl) (by rw [hb.totalFragments]; exact hp.last_le)
  refine ⟨hholds, (DataFrag.took_copyFrom _ _ _ _ _).fragmentSize.trans hb.fragmentSize, fun i => ?_⟩
  rw [hfilled, hb.filled]
  simp only [mem_append, mem_singleton, or_and_right, exists_or, exists_eq_left]
  rfl

theorem exchange_stored (hs : Sizes payload size) (hlen : payload.length < 2 ^ 32) (hc : c.Cut payload size)
    (hsn : IsSampleSn sn) (hp : p.Fits payload size) {buffer : Option FragmentBuffer}
    (hb : Stored payload size done buffer) :
    ∃ buffer', (exchange c writerId sn p buffer).result = .ok buffer' ∧ Stored payload size (done ++ [p]) buffer' := by
  obtain ⟨body, hbody, hexchange⟩ := exchange_written hs (by omega) hc hp buffer
  have hread := DataFrag.deserialize_writeTo (announced hp hsn) (carries hs hlen hp) hbody
  rw [hexchange, Outcome.result_onError_of_ok hread]
  cases buffer with
  | some b => exact ⟨_, rfl, hb.copyInto hs hp⟩
  | none =>
    subst hb
    obtain ⟨hsize, hsample⟩ := sizes_sent hs hlen p writerId sn
    have hopen : openBuffer (p.sent payload size writerId sn) p.now =
        pure (FragmentBuffer.new payload.length size p.now hs.pos) := by
      simp only [openBuffer, hsize, hsample, dif_pos hs.pos]
    have htake : takeDataFrag (p.sent payload size writerId sn) p none =
        pure (some ((p.sent payload size writerId sn).copyInto p.sourceTimestamp p.now
          (FragmentBuffer.new payload.length size p.now hs.pos)).2) := by
      rw [takeDataFrag, Option.elim_none, hopen, pure_bind]
    rw [htake]
    exact ⟨_, rfl, (storedIn_new hs p.now).copyInto hs hp⟩

theorem reassemble_stored (hs : Sizes payload size) (hlen : payload.length < 2 ^ 32) (hc : c.Cut payload size)
    (hsn : IsSampleSn sn) {ps : List Parcel} (hps : ∀ p ∈ ps, p.Fits payload size) {buffer : Option FragmentBuffer}
    (hb : Stored payload size done buffer) :
    ∃ buffer', (reassemble c writerId sn ps buffer).result = .ok buffer' ∧
      Stored payload size (done ++ ps) buffer' := by
  induction ps generalizing done buffer with
  | nil => exact ⟨buffer, rfl, by rwa [append_nil]⟩
  | cons p ps ih =>
    obtain ⟨buffer', hexchange, hb'⟩ := exchange_stored hs hlen hc hsn (hps p mem_cons_self) hb
    obtain ⟨buffer'', hrun, hb''⟩ := ih (forall_mem_cons.1 hps).2 hb'
    rw [append_assoc] at hb''
    exact ⟨buffer'', (Outcome.result_bind_of_ok hexchange).trans hrun, hb''⟩

/-- Every fragment of the sample is among those that the submessages carry. -/
def CoversAll (payload : Bytes) (size : Nat) (ps : List Parcel) : Prop :=
  ∀ n, 0 < n → n ≤ slotCount size payload.length → ∃ p ∈ ps, p.Covers n

theorem StoredIn.allFragmentsReceived_iff (hb : StoredIn payload size done b) :
    b.allFragmentsReceived ↔ CoversAll payload size done := by
  rw [FragmentBuffer.allFragmentsReceived_iff, hb.totalFragments]
  constructor
  · intro h n hpos hn
    obtain ⟨i, rfl⟩ := Nat.exists_eq_succ_of_ne_zero hpos.ne'
    exact (hb.filled i).1 (h i hn)
  · intro h i hi
    exact (hb.filled i).2 (h (i + 1) (Nat.succ_pos i) hi)

/-- Submessages that carry fragments of one sample, in any order and number, complete its buffer exactly when they
cover it, and the buffer then is the payload. -/
theorem reassemble_complete (c : FragmentedChange) (payload : Bytes) (size : Nat) (hc : c.Cut payload size)
    (hs : Sizes payload size) (hlen : payload.length < 2 ^ 32) (writerId : EntityId) (sn : SequenceNumber)
    (hsn : IsSampleSn sn) (ps : List Parcel) (hps : ∀ p ∈ ps, p.Fits payload size) :
    ∃ buffer, (reassemble c writerId sn ps none).result = .ok buffer ∧
      ((∃ b, buffer = some b ∧ b.allFragmentsReceived) ↔ CoversAll payload size ps) ∧
      ∀ b, buffer = some b → b.allFragmentsReceived → b.intoBytes = some payload := by
  have hnone : Stored payload size [] none := rfl
  obtain ⟨buffer, hrun, hb⟩ := reassemble_stored hs hlen hc hsn hps hnone
  rw [nil_append] at hb
  refine ⟨buffer, hrun, ?_, ?_⟩
  · cases buffer with
    | none =>
      subst hb
      refine iff_of_false nofun (fun h => ?_)
      have htotal : 0 < slotCount size payload.length := by
        rw [lt_slotCount_iff hs.pos, Nat.zero_mul]
        exact hs.pos.trans_le hs.le
      obtain ⟨p, hp, -⟩ := h 1 Nat.one_pos htotal
      cases hp
    | some b =>
      rw [← hb.allFragmentsReceived_iff]
      exact ⟨fun ⟨_, heq, h⟩ => Option.some.inj heq ▸ h, fun h => ⟨b, rfl, h⟩⟩
  · rintro b rfl hall
    exact hb.holds.intoBytes_eq hall

/-! ## The limits of the fields -/

def single (n : Nat) : Parcel := ⟨1, 0, BitVec.ofNat 32 n, 1, none, none, 0⟩

theorem reassemble_complete_five :
    ∃ buffer, (reassemble (FragmentedChange.applyFragmentation [1, 2, 3, 4, 5] 4 2) 1 ⟨0, 1⟩
        [⟨0, 0, 2, 2, none, none, 0⟩, single 1, single 3] none).result = .ok buffer ∧
      ((∃ b, buffer = some b ∧ b.allFragmentsReceived) ↔
        CoversAll [1, 2, 3, 4, 5] 2 [⟨0, 0, 2, 2, none, none, 0⟩, single 1, single 3]) ∧
      ∀ b, buffer = some b → b.allFragmentsReceived → b.intoBytes = some [1, 2, 3, 4, 5] := by
  refine reassemble_complete _ [1, 2, 3, 4, 5] 2 ⟨rfl, rfl, rfl, rfl⟩ ⟨by decide, by decide, by decide, by decide⟩
    (by decide) 1 ⟨0, 1⟩ (by decide) _ ?_
  intro p hp
  simp only [mem_cons, not_mem_nil, or_false] at hp
  rcases hp with rfl | rfl | rfl <;>
  exact ⟨by decide, by decide, by decide, by decide, nofun, by decide⟩

section

variable (hs : Sizes payload size) (hlen : payload.length < 2 ^ 64) (hc : c.Cut payload size)
include hs hlen hc

/-- A sample size that does not fit into its field drops every submessage. -/
theorem exchange_truncated
    (htruncated : payload.length % 2 ^ 32 < size) (writerId : EntityId) (hsn : IsSampleSn sn)
    (hp : p.Fits payload size) (buffer : Option FragmentBuffer) :
    (exchange c writerId sn p buffer).result = .ok buffer := by
  obtain ⟨body, hbody, hexchange⟩ := exchange_written hs hlen hc hp buffer
  obtain ⟨padding, -, hread⟩ := DataFrag.deserialize_written (announced hp hsn) hbody
  have hlt :
      (p.sent payload size writerId sn).sampleSize.toNat < (p.sent payload size writerId sn).fragmentSize.toNat := by
    show (BitVec.ofNat 32 _).toNat < (BitVec.ofNat 16 _).toNat
    rwa [BitVec.toNat_ofNat, BitVec.toNat_ofNat, Nat.mod_eq_of_lt hs.lt]
  rcases DataFrag.checkFragments_cases (BitVec.isLt _) (BitVec.isLt _) (BitVec.isLt _) (BitVec.isLt _)
    ((p.sent payload size writerId sn).serializedData ++ padding) with ⟨hclaim, -⟩ | ⟨-, e, he⟩
  · exact absurd hclaim.size_le (Nat.not_le.2 hlt)
  · have herror : (DataFrag.deserialize body p.header).result = .error e := by
      rw [hread, he]
      rfl
    rw [hexchange, Outcome.result_onError_of_error herror]
    rfl

theorem reassemble_truncated (htruncated : payload.length % 2 ^ 32 < size) (hsn : IsSampleSn sn) {ps : List Parcel}
    (hps : ∀ p ∈ ps, p.Fits payload size) (buffer : Option FragmentBuffer) :
    (reassemble c writerId sn ps buffer).result = .ok buffer := by
  induction ps with
  | nil => rfl
  | cons p ps ih =>
    have hdropped := exchange_truncated hs hlen hc htruncated writerId hsn (hps p mem_cons_self) buffer
    exact (Outcome.result_bind_of_ok hdropped).trans (ih (forall_mem_cons.1 hps).2)

/-- A run of fragments whose body does not fit into 16 bits panics. -/
theorem exchange_overflow
    (writerId : EntityId) (sn : SequenceNumber) (hnum : 0 < p.fragmentNum.toNat) (hcount : 0 < p.count.toNat)
    (hle : p.fragmentNum.toNat ≤ slotCount size payload.length)
    (hlong : 2 ^ 16 ≤ DataFrag.lengthSum p.inlineQos
      (slots size payload (p.fragmentNum.toNat - 1) p.count.toNat).length)
    (buffer : Option FragmentBuffer) : (exchange c writerId sn p buffer).result = .panic := by
  have hdata :=
    FragmentedChange.getFragmentRangeData_eq hc hs.pos hs.lt hlen hnum p.fragmentNum.isLt hcount p.count.isLt
    hle
  have hpanic : ((p.dataFrag c writerId sn (slots size payload (p.fragmentNum.toNat - 1) p.count.toNat)).writeTo
      p.header.byteOrder).result = .panic := DataFrag.writeTo_of_le hlong
  rw [exchange, hdata, pure_bind]
  dsimp only
  rw [Outcome.bind_of_panic hpanic]

end

/-- Four gigabytes in fragments of four kilobytes, one by one. -/
def manyFragments : List Parcel := (List.range 1048576).map fun i => single (i + 1)

theorem toNat_single (h : n < 2 ^ 32) : (single n).fragmentNum.toNat = n :=
  (BitVec.toNat_ofNat _ _).trans (Nat.mod_eq_of_lt h)

theorem covers_single (h : n < 2 ^ 32) : (single n).Covers n := by
  rw [Parcel.Covers, toNat_single h]
  exact ⟨le_refl n, Nat.lt_succ_self n⟩

theorem fits_single (h : n < 2 ^ 32) (hpos : 0 < n) (hle : n ≤ slotCount size payload.length)
    (hsize : size + 32 < 2 ^ 16) : (single n).Fits payload size := by
  have hnum := toNat_single h
  constructor
  case fragmentNum_pos => rwa [hnum]
  case count_pos => show 0 < 1; decide
  case last_le =>
    rw [hnum]
    show n - 1 + 1 ≤ _
    omega
  case inlineQosFlag =>
    show SubmessageHeader.hasFlag ⟨SubmessageKind.dataFrag.id, 1, 0⟩ 0x02 = false
    decide
  case qos => nofun
  case length =>
    rw [length_slots]
    show 32 + 0 + min (1 * size) _ % 2 ^ 16 < 2 ^ 16
    omega

/-- A sample of 2^32 octets is never assembled: its size is sent as zero. -/
theorem four_gigabytes (hlen : payload.length = 2 ^ 32) :
    Sizes payload 4096 ∧ CoversAll payload 4096 manyFragments ∧
      (reassemble (FragmentedChange.applyFragmentation payload 65000 4096) 1 ⟨0, 1⟩ manyFragments none).result =
        .ok none := by
  have htotal : slotCount 4096 payload.length = 1048576 := by
    rw [hlen]
    decide
  have hs : Sizes payload 4096 := ⟨by decide, by decide, by rw [hlen]; decide, by rw [htotal]; decide⟩
  have hc : FragmentedChange.Cut payload 4096 (FragmentedChange.applyFragmentation payload 65000 4096) :=
    FragmentedChange.cut_applyFragmentation (by decide) hs.pos (by rw [hlen]; decide) (by decide)
      (by rw [htotal]; decide)
  refine ⟨hs, fun n hpos hn => ?_, ?_⟩
  · exact ⟨single n, mem_map.2 ⟨n - 1, mem_range.2 (by omega), by rw [Nat.sub_add_cancel hpos]⟩,
      covers_single (by omega)⟩
  · refine reassemble_truncated hs (by rw [hlen]; decide) hc (by rw [hlen]; decide) (by decide) ?_ none
    intro p hp
    obtain ⟨i, hi, rfl⟩ := mem_map.1 hp
    rw [mem_range] at hi
    exact fits_single (by omega) (Nat.succ_pos i) (by omega) (by decide)

/-- The one fragment of a sample of 65535 octets panics its writer: the length of the body is 65567. -/
theorem largest_fragment (hlen : payload.length = 65535) :
    Sizes payload 65535 ∧ CoversAll payload 65535 [single 1] ∧
      (reassemble (FragmentedChange.applyFragmentation payload 65000 65535) 1 ⟨0, 1⟩ [single 1] none).result =
        .panic := by
  have htotal : slotCount 65535 payload.length = 1 := by
    rw [hlen]
    decide
  have hs : Sizes payload 65535 := ⟨by decide, by decide, by rw [hlen], by rw [htotal]; decide⟩
  have hc : FragmentedChange.Cut payload 65535 (FragmentedChange.applyFragmentation payload 65000 65535) :=
    FragmentedChange.cut_applyFragmentation (by decide) hs.pos (by rw [hlen]; decide) (by decide)
      (by rw [htotal]; decide)
  refine ⟨hs, fun n hpos hn => ?_, ?_⟩
  · obtain rfl : n = 1 := by omega
    exact ⟨single 1, mem_singleton_self _, covers_single (by decide)⟩
  · have hpanic := exchange_overflow hs (by rw [hlen]; decide) hc 1 ⟨0, 1⟩ (p := single 1) (by decide) (by decide)
      (by rw [htotal]; decide) (by rw [length_slots, hlen]; decide) none
    rw [reassemble, Outcome.bind_of_panic hpanic]

theorem reassemble_limits :
    (Sizes (List.replicate (2 ^ 32) 0) 4096 ∧ CoversAll (List.replicate (2 ^ 32) 0) 4096 manyFragments ∧
      (reassemble (FragmentedChange.applyFragmentation (List.replicate (2 ^ 32) 0) 65000 4096) 1 ⟨0, 1⟩ manyFragments
        none).result = .ok none) ∧
    (Sizes (List.replicate 65535 0) 65535 ∧ CoversAll (List.replicate 65535 0) 65535 [single 1] ∧
      (reassemble (FragmentedChange.applyFragmentation (List.replicate 65535 0) 65000 65535) 1 ⟨0, 1⟩ [single 1]
        none).result = .panic) :=
  ⟨four_gigabytes length_replicate, largest_fragment length_replicate⟩

end Int2Dds.System
