import Int2Dds.Messages.DataFragWire
import Int2Dds.Messages.Receiver

/-!
# The reassembly buffer

`FragmentBuffer` holds one sample while its fragments arrive. Its octets start out uninitialised (`none`) and are
written in place, one slot per fragment; `filled` says which slots have arrived.

* `copyFragmentData` takes a fragment that is exactly as long as its slot (`copyFragmentData_of_fits`), and
  changes that slot and no other (`getElem?_filled_store`).
-/

namespace Int2Dds.Messages

open Lib Rtps List

structure FragmentBuffer where
  totalSize : Nat
  /-- The octets of the sample, `none` where none was written yet. -/
  buf : List (Option Byte)
  filled : List Bool
  receivedCount : Nat
  totalFragments : Nat
  fragmentSize : Nat
  sourceTimestamp : Option RtpsTime
  inlineQos : Option ParameterList
  createdAt : Nat
  lastUpdated : Nat
  fragmentSize_pos : 0 < fragmentSize
  totalFragments_eq : totalFragments = slotCount fragmentSize totalSize
  length_buf : buf.length = totalSize
  length_filled : filled.length = totalFragments
  receivedCount_eq : receivedCount = filled.count true
  /-- The octets of a filled slot have been written. -/
  written : ∀ j, filled[j / fragmentSize]? = some true → buf[j]? ≠ some none

namespace FragmentBuffer

/-- An empty buffer. A fragment size of zero would be a division by zero. -/
def new (totalSize fragmentSize now : Nat) (h : 0 < fragmentSize) : FragmentBuffer where
  totalSize := totalSize
  buf := List.replicate totalSize none
  filled := List.replicate (slotCount fragmentSize totalSize) false
  receivedCount := 0
  totalFragments := slotCount fragmentSize totalSize
  fragmentSize := fragmentSize
  sourceTimestamp := none
  inlineQos := none
  createdAt := now
  lastUpdated := now
  fragmentSize_pos := h
  totalFragments_eq := rfl
  length_buf := List.length_replicate
  length_filled := List.length_replicate
  receivedCount_eq := by rw [List.count_replicate, if_neg (by decide)]
  written := by
    intro j hj
    rw [List.getElem?_replicate] at hj
    split_ifs at hj
    cases hj

def allFragmentsReceived (b : FragmentBuffer) : Prop := b.receivedCount = b.totalFragments

instance (b : FragmentBuffer) : Decidable b.allFragmentsReceived := inferInstanceAs (Decidable (_ = _))

def expectedSize (b : FragmentBuffer) (idx : Nat) : Nat := min b.fragmentSize (b.totalSize - idx * b.fragmentSize)

variable {idx : Nat}

section

variable (b : FragmentBuffer) (h : idx < b.totalFragments)
include h

/-- A slot of the buffer starts inside it: no product or difference below overflows. -/
theorem offset_lt : idx * b.fragmentSize < b.totalSize := by
  rw [b.totalFragments_eq] at h
  exact (lt_slotCount_iff b.fragmentSize_pos).1 h

theorem getElem?_overwrite_buf {data : Bytes}
    (hdata : data.length = b.expectedSize idx) (j : Nat) :
    (overwrite b.buf (idx * b.fragmentSize) (data.map some))[j]? =
      if j / b.fragmentSize = idx then (data.map some)[j - idx * b.fragmentSize]? else b.buf[j]? := by
  apply getElem?_overwrite_slot b.fragmentSize_pos
  · rw [b.length_buf]
    exact b.offset_lt h
  · rw [length_map, b.length_buf, hdata, expectedSize]

theorem count_set_filled :
    (if b.filled.getD idx false then b.receivedCount else b.receivedCount + 1) =
      (b.filled.set idx true).count true := by
  have hidx : idx < b.filled.length := by rwa [b.length_filled]
  rw [count_set hidx, b.receivedCount_eq, getD_eq_getElem?_getD, getElem?_eq_getElem hidx,
    Option.getD_some]
  cases hfilled : b.filled[idx] with
  | false => simp
  | true =>
    have hpos : 0 < b.filled.count true := count_pos_iff.2 (hfilled ▸ getElem_mem hidx)
    simp only [beq_self_eq_true, if_true]
    omega

end

def store (b : FragmentBuffer) (now idx : Nat) (data : Bytes) (h : idx < b.totalFragments)
    (hdata : data.length = b.expectedSize idx) : FragmentBuffer :=
  { b with
    buf := overwrite b.buf (idx * b.fragmentSize) (data.map some)
    filled := b.filled.set idx true
    receivedCount := if b.filled.getD idx false then b.receivedCount else b.receivedCount + 1
    lastUpdated := now
    length_buf := by
      rw [length_overwrite, b.length_buf]
      rw [b.length_buf]
      apply add_le_of_length_slot (b.offset_lt h)
      rw [List.length_map, hdata, expectedSize]
    length_filled := by rw [List.length_set, b.length_filled]
    receivedCount_eq := b.count_set_filled h
    written := by
      intro j hj
      rw [b.getElem?_overwrite_buf h hdata]
      split_ifs with hslot
      · rw [List.getElem?_map]
        cases data[j - idx * b.fragmentSize]? <;> nofun
      · rw [List.getElem?_set_ne (Ne.symm hslot)] at hj
        exact b.written j hj }

/-- Writes a fragment into its place, if it has one and is exactly as long. -/
def copyFragmentData (b : FragmentBuffer) (now fragmentNum : Nat) (data : Bytes) : Bool × FragmentBuffer :=
  if h : fragmentNum = 0 ∨ b.totalFragments < fragmentNum then (false, b)
  else if hdata : data.length = b.expectedSize (fragmentNum - 1) then
    (true, b.store now (fragmentNum - 1) data (by omega) hdata)
  else (false, b)

/-- Zeros in slot `idx`, if it never arrived. -/
def zeroUnfilled (b : FragmentBuffer) (buf : List (Option Byte)) (idx : Nat) : List (Option Byte) :=
  if b.filled.getD idx false then buf
  else overwrite buf (idx * b.fragmentSize) (List.replicate (b.expectedSize idx) (some 0))

def exposePayload (b : FragmentBuffer) : List (Option Byte) :=
  (List.range b.filled.length).foldl b.zeroUnfilled b.buf

/-- The assembled sample; `none` where an octet that was never written would be handed out. -/
def intoBytes (b : FragmentBuffer) : Option Bytes := b.exposePayload.mapM id

variable {b : FragmentBuffer} {now idx : Nat} {data : Bytes}

/-! ## Slots -/

theorem getElem?_filled_store (h : idx < b.totalFragments) (hdata : data.length = b.expectedSize idx) (i : Nat) :
    (b.store now idx data h hdata).filled[i]? = if idx = i then some true else b.filled[i]? := by
  have hidx : idx < b.filled.length := by rwa [b.length_filled]
  show (b.filled.set idx true)[i]? = _
  rw [getElem?_set, if_pos hidx]

theorem allFragmentsReceived_iff :
    b.allFragmentsReceived ↔ ∀ i < b.totalFragments, b.filled[i]? = some true := by
  rw [allFragmentsReceived, b.receivedCount_eq, ← b.length_filled, count_eq_length]
  constructor
  · intro h i hi
    rw [getElem?_eq_getElem hi, ← h _ (getElem_mem hi)]
  · intro h x hx
    obtain ⟨i, hi, rfl⟩ := getElem_of_mem hx
    have := h i hi
    rw [getElem?_eq_getElem hi] at this
    exact (Option.some.inj this).symm

theorem copyFragmentData_of_fits {fragmentNum : Nat} (hpos : 0 < fragmentNum) (h : fragmentNum ≤ b.totalFragments)
    (hdata : data.length = b.expectedSize (fragmentNum - 1)) :
    b.copyFragmentData now fragmentNum data = (true, b.store now (fragmentNum - 1) data (by omega) hdata) := by
  rw [copyFragmentData, dif_neg (by omega), dif_pos hdata]

/-! ## Handing the sample out -/

theorem mapM_id_map_some (xs : Bytes) : (xs.map some).mapM id = some xs := by
  induction xs with
  | nil => rfl
  | cons x xs ih =>
    rw [map_cons, mapM_cons, ih]
    rfl

/-! ## The sample it holds -/

/-- The slots that are filled are those of `payload`. -/
structure Holds (payload : Bytes) (b : FragmentBuffer) : Prop where
  size : b.totalSize = payload.length
  octets : ∀ j, b.filled[j / b.fragmentSize]? = some true → b.buf[j]? = (payload.map some)[j]?

variable {payload : Bytes}

theorem holds_new {fragmentSize : Nat} (h : 0 < fragmentSize) :
    Holds payload (new payload.length fragmentSize now h) := by
  refine ⟨rfl, fun j hj => ?_⟩
  change (replicate _ false)[_]? = some true at hj
  rw [getElem?_replicate] at hj
  split_ifs at hj
  cases hj

theorem Holds.store (hb : Holds payload b) (h : idx < b.totalFragments)
    (hdata : (slot b.fragmentSize payload idx).length = b.expectedSize idx) :
    Holds payload (b.store now idx (slot b.fragmentSize payload idx) h hdata) := by
  refine ⟨hb.size, fun j hj => ?_⟩
  rw [getElem?_filled_store h hdata] at hj
  show (overwrite b.buf _ _)[j]? = _
  rw [b.getElem?_overwrite_buf h hdata]
  change (if idx = j / b.fragmentSize then some true else b.filled[j / b.fragmentSize]?) = some true at hj
  split_ifs with hslot
  · obtain ⟨hle, hlt⟩ := (div_eq_iff_slot b.fragmentSize_pos).1 hslot
    rw [getElem?_map, getElem?_slot (by omega), getElem?_map, Nat.add_sub_cancel' hle]
  · rw [if_neg (Ne.symm hslot)] at hj
    exact hb.octets j hj

theorem Holds.intoBytes_eq (hb : Holds payload b) (h : b.allFragmentsReceived) : b.intoBytes = some payload := by
  rw [allFragmentsReceived_iff] at h
  have hbuf : b.buf = payload.map some := by
    apply ext_getElem?
    intro j
    by_cases hj : j < b.totalSize
    · refine hb.octets j (h _ ?_)
      rw [b.totalFragments_eq]
      exact div_lt_slotCount b.fragmentSize_pos hj
    · rw [getElem?_eq_none (by rw [b.length_buf]; omega), getElem?_eq_none]
      rw [length_map, ← hb.size]
      omega
  have hexpose : ∀ {idxs : List Nat}, (∀ i ∈ idxs, i < b.totalFragments) → idxs.foldl b.zeroUnfilled b.buf = b.buf := by
    intro idxs hidxs
    induction idxs with
    | nil => rfl
    | cons i idxs ih =>
      have hfilled : b.filled.getD i false = true := by
        rw [getD_eq_getElem?_getD, h i (hidxs i mem_cons_self), Option.getD_some]
      rw [foldl_cons, zeroUnfilled, if_pos hfilled]
      exact ih (forall_mem_cons.1 hidxs).2
  rw [intoBytes, exposePayload, hexpose (fun i hi => by rwa [mem_range, b.length_filled] at hi), hbuf,
    mapM_id_map_some]

/-! ## What a submessage adds -/

/-- `b'` is `b` after it took the fragments `accepted`. -/
structure Took (b : FragmentBuffer) (accepted : List Nat) (b' : FragmentBuffer) : Prop where
  totalSize : b'.totalSize = b.totalSize
  fragmentSize : b'.fragmentSize = b.fragmentSize
  sourceTimestamp : b'.sourceTimestamp = b.sourceTimestamp
  filled : ∀ i, b'.filled[i]? = some true ↔ b.filled[i]? = some true ∨ i + 1 ∈ accepted
  within : ∀ n ∈ accepted, 0 < n ∧ n ≤ b.totalFragments

theorem Took.totalFragments {b b' : FragmentBuffer} {accepted : List Nat} (h : Took b accepted b') :
    b'.totalFragments = b.totalFragments := by
  rw [b'.totalFragments_eq, b.totalFragments_eq, h.totalSize, h.fragmentSize]

theorem took_nil : Took b [] b :=
  ⟨rfl, rfl, rfl, fun _ => (or_iff_left not_mem_nil).symm, nofun⟩

theorem Took.append {b b' b'' : FragmentBuffer} {ns ms : List Nat} (h : Took b ns b') (h' : Took b' ms b'') :
    Took b (ns ++ ms) b'' where
  totalSize := h'.totalSize.trans h.totalSize
  fragmentSize := h'.fragmentSize.trans h.fragmentSize
  sourceTimestamp := h'.sourceTimestamp.trans h.sourceTimestamp
  filled i := by rw [h'.filled, h.filled, mem_append, or_assoc]
  within n hn := by
    rcases mem_append.1 hn with hn | hn
    · exact h.within n hn
    · rw [← h.totalFragments]
      exact h'.within n hn

theorem took_copyFragmentData (fragmentNum : Nat) :
    Took b (if (b.copyFragmentData now fragmentNum data).1 then [fragmentNum] else [])
      (b.copyFragmentData now fragmentNum data).2 := by
  by_cases hnum : fragmentNum = 0 ∨ b.totalFragments < fragmentNum
  · rw [copyFragmentData, dif_pos hnum]
    exact took_nil
  by_cases hdata : data.length = b.expectedSize (fragmentNum - 1)
  swap
  · rw [copyFragmentData, dif_neg hnum, dif_neg hdata]
    exact took_nil
  rw [copyFragmentData_of_fits (by omega) (by omega) hdata]
  refine ⟨rfl, rfl, rfl, fun i => ?_, fun n hn => ?_⟩
  · rw [getElem?_filled_store (by omega) hdata, if_pos rfl, mem_singleton]
    split_ifs with hi
    · exact iff_of_true rfl (.inr (by omega))
    · exact (or_iff_left (by omega)).symm
  · rw [if_pos rfl, mem_singleton] at hn
    omega

/-- What the first submessage with a timestamp or with inline QoS leaves in the buffer. -/
def annotate (b : FragmentBuffer) (sourceTimestamp : Option RtpsTime) (inlineQos : Option ParameterList) :
    FragmentBuffer :=
  { b with
    sourceTimestamp := b.sourceTimestamp.or sourceTimestamp
    inlineQos := b.inlineQos.or inlineQos }

end FragmentBuffer

namespace DataFrag

open FragmentBuffer

/-- Fragments `i`, `i + 1`, .. of a submessage, `n` of them, copied into the buffer, and which it took. A submessage
may claim more than it carries. -/
def copyFrom (d : DataFrag) (now : Nat) : Nat → Nat → FragmentBuffer → List Nat × FragmentBuffer
  | 0, _, b => ([], b)
  | n + 1, i, b =>
    if d.serializedData.length ≤ i * d.fragmentSize.toNat then ([], b)
    else
      let fragmentNum := d.fragmentStartingNum.toNat + i
      let (took, b') := b.copyFragmentData now fragmentNum (slot d.fragmentSize.toNat d.serializedData i)
      let (accepted, b'') := copyFrom d now n (i + 1) b'
      ((if took then [fragmentNum] else []) ++ accepted, b'')

def copyInto (d : DataFrag) (sourceTimestamp : Option RtpsTime) (now : Nat) (b : FragmentBuffer) :
    List Nat × FragmentBuffer :=
  copyFrom d now d.fragmentsInSubmessage.toNat 0 (b.annotate sourceTimestamp d.inlineQos)

theorem took_copyFrom (d : DataFrag) (now n i : Nat) (b : FragmentBuffer) :
    Took b (d.copyFrom now n i b).1 (d.copyFrom now n i b).2 := by
  induction n generalizing i b with
  | zero => exact took_nil
  | succ n ih =>
    unfold copyFrom
    split_ifs
    · exact took_nil
    · exact (took_copyFragmentData _).append (ih (i + 1) _)

variable {b : FragmentBuffer} {d : DataFrag} {i n now : Nat}

theorem mem_copyFrom {f : Nat} (h : f ∈ (d.copyFrom now n i b).1) :
    d.fragmentStartingNum.toNat + i ≤ f ∧ f < d.fragmentStartingNum.toNat + i + n := by
  induction n generalizing i b with
  | zero => cases h
  | succ n ih =>
    unfold copyFrom at h
    split_ifs at h with hcarried
    · cases h
    · rcases mem_append.1 h with h | h
      · split_ifs at h
        · rw [mem_singleton] at h
          omega
        · cases h
      · have := ih h
        omega

/-- The fragments that a submessage carries of a sample are those of the sample. -/
theorem holds_copyFrom {payload : Bytes} {first count : Nat} (hb : Holds payload b)
    (hstart : d.fragmentStartingNum.toNat = first + 1) (hsize : d.fragmentSize.toNat = b.fragmentSize)
    (hdata : d.serializedData = slots b.fragmentSize payload first count) (hcount : i + n = count)
    (hlast : first + count ≤ b.totalFragments) :
    Holds payload (d.copyFrom now n i b).2 ∧ (d.copyFrom now n i b).1 = range' (first + 1 + i) n := by
  induction n generalizing i b with
  | zero => exact ⟨hb, rfl⟩
  | succ n ih =>
    have hslot : slot d.fragmentSize.toNat d.serializedData i = slot b.fragmentSize payload (first + i) := by
      rw [hsize, hdata, slot_slots (by omega)]
    have hlen : (slot b.fragmentSize payload (first + i)).length = b.expectedSize (first + i) := by
      rw [length_slot, expectedSize, hb.size]
    have hcarried : ¬ d.serializedData.length ≤ i * d.fragmentSize.toNat := by
      -- slot `i` of what is carried is not empty
      intro hle
      have hoff : (first + i) * b.fragmentSize < b.totalSize := b.offset_lt (by omega)
      have hpos := b.fragmentSize_pos
      have hempty : (slot d.fragmentSize.toNat d.serializedData i).length = 0 := by
        rw [length_slot]
        omega
      rw [hslot, hlen, expectedSize] at hempty
      omega
    have hcopy :
        b.copyFragmentData now (d.fragmentStartingNum.toNat + i) (slot d.fragmentSize.toNat d.serializedData i) =
        (true, b.store now (first + i) (slot b.fragmentSize payload (first + i)) (by omega) hlen) := by
      have hnum : first + i + 1 ≤ b.totalFragments := by omega
      rw [hslot, hstart, Nat.add_right_comm]
      exact copyFragmentData_of_fits (Nat.succ_pos _) hnum hlen
    rw [copyFrom, if_neg hcarried]
    dsimp only
    rw [hcopy, hstart]
    obtain ⟨hholds, haccepted⟩ := ih (i := i + 1) (hb.store (by omega) hlen) hsize hdata (by omega) hlast
    exact ⟨hholds, congrArg (_ :: ·) haccepted⟩

theorem holds_copyInto {payload : Bytes} (hb : Holds payload b) (sourceTimestamp : Option RtpsTime)
    (hstart : 0 < d.fragmentStartingNum.toNat) (hsize : d.fragmentSize.toNat = b.fragmentSize)
    (hdata :
      d.serializedData = slots b.fragmentSize payload (d.fragmentStartingNum.toNat - 1) d.fragmentsInSubmessage.toNat)
    (hlast : d.fragmentStartingNum.toNat - 1 + d.fragmentsInSubmessage.toNat ≤ b.totalFragments) :
    Holds payload (d.copyInto sourceTimestamp now b).2 ∧
      ∀ i, (d.copyInto sourceTimestamp now b).2.filled[i]? = some true ↔ b.filled[i]? = some true ∨
        (d.fragmentStartingNum.toNat ≤ i + 1 ∧
          i + 1 < d.fragmentStartingNum.toNat + d.fragmentsInSubmessage.toNat) := by
  have hannotated : Holds payload (b.annotate sourceTimestamp d.inlineQos) := ⟨hb.size, hb.octets⟩
  have hstart' : d.fragmentStartingNum.toNat = d.fragmentStartingNum.toNat - 1 + 1 := by omega
  obtain ⟨hholds, haccepted⟩ := holds_copyFrom hannotated hstart' hsize hdata (Nat.zero_add _) hlast
  refine ⟨hholds, fun i => ?_⟩
  rw [copyInto, (took_copyFrom d now _ 0 _).filled, haccepted, ← hstart', mem_range'_1]
  rfl

end DataFrag

/-! ## Nothing out of range -/

namespace FragmentBuffer

open Outcome

/-- `copy_fragment_data` in the width of its types, with the bounds of what it indexes and writes. -/
def copyFragmentDataChecked (b : FragmentBuffer) (now fragmentNum : Nat) (data : Bytes) :
    Outcome RtpsError (Bool × FragmentBuffer) :=
  if fragmentNum = 0 ∨ b.totalFragments < fragmentNum then pure (false, b)
  else do
    let idx ← checkedSub fragmentNum 1
    let start ← checked 32 (idx * b.fragmentSize)
    let remaining ← checkedSub b.totalSize start
    if data.length ≠ min b.fragmentSize remaining then pure (false, b)
    else do
      let off ← checked 64 (idx * b.fragmentSize)
      let stop ← checked 64 (off + data.length)
      let _ ← slice b.buf off stop
      let filled ← unwrap b.filled[idx]?
      let _ ← checked 32 (if filled then b.receivedCount else b.receivedCount + 1)
      pure (b.copyFragmentData now fragmentNum data)

theorem totalFragments_le (b : FragmentBuffer) : b.totalFragments ≤ b.totalSize := by
  refine Nat.le_of_not_lt fun h => ?_
  have hoff := b.offset_lt h
  exact absurd (Nat.le_mul_of_pos_right b.totalSize b.fragmentSize_pos) (Nat.not_le.2 hoff)

theorem copyFragmentDataChecked_eq {b : FragmentBuffer} (hb : b.totalSize < 2 ^ 32) (now fragmentNum : Nat)
    (data : Bytes) :
    b.copyFragmentDataChecked now fragmentNum data = pure (b.copyFragmentData now fragmentNum data) := by
  unfold copyFragmentDataChecked
  split_ifs with hnum
  · rw [copyFragmentData, dif_pos hnum]
  have hidx : fragmentNum - 1 < b.totalFragments := by omega
  have hoff := b.offset_lt hidx
  rw [checkedSub_of_le (by omega), pure_bind, checked_of_lt (by omega), pure_bind, checkedSub_of_le hoff.le, pure_bind]
  split_ifs with hdata
  · rw [copyFragmentData, dif_neg hnum, dif_neg (show ¬ data.length = b.expectedSize _ from hdata)]
  have hstop := add_le_of_length_slot hoff (not_not.1 hdata)
  have hfilled : fragmentNum - 1 < b.filled.length := by rwa [b.length_filled]
  have hcount := b.count_set_filled hidx
  have hlength := count_le_length (a := true) (l := b.filled.set (fragmentNum - 1) true)
  have htotal := b.totalFragments_le
  rw [getD_eq_getElem?_getD, getElem?_eq_getElem hfilled, Option.getD_some] at hcount
  rw [length_set, b.length_filled] at hlength
  rw [checked_of_lt (by omega), pure_bind, checked_of_lt (by omega), pure_bind,
    slice_of_le ⟨Nat.le_add_right _ _, by rw [b.length_buf]; exact hstop⟩, getElem?_eq_getElem hfilled]
  show (checked 32 (if b.filled[fragmentNum - 1] then _ else _) >>= _) = _
  rw [checked_of_lt (by omega), pure_bind]

end FragmentBuffer

namespace DataFrag

open FragmentBuffer Outcome

/-- `copyFrom`, with the arithmetic in the width of its types and the bounds of what it slices. -/
def copyFromChecked (d : DataFrag) (now : Nat) :
    Nat → Nat → FragmentBuffer → Outcome RtpsError (List Nat × FragmentBuffer)
  | 0, _, b => pure ([], b)
  | n + 1, i, b => do
    let fragmentNum ← checked 32 (d.fragmentStartingNum.toNat + i)
    let start ← checked 64 (i * d.fragmentSize.toNat)
    if d.serializedData.length ≤ start then pure ([], b)
    else do
      let stop ← checked 64 (start + d.fragmentSize.toNat)
      let data ← slice d.serializedData start (min stop d.serializedData.length)
      let (took, b') ← b.copyFragmentDataChecked now fragmentNum data
      let (accepted, b'') ← copyFromChecked d now n (i + 1) b'
      pure ((if took then [fragmentNum] else []) ++ accepted, b'')

theorem copyFromChecked_eq {d : DataFrag} {b : FragmentBuffer} {n i : Nat} (now : Nat) (hb : b.totalSize < 2 ^ 32)
    (hlast : d.fragmentStartingNum.toNat + i + n < 2 ^ 32) (hn : i + n < 2 ^ 16) :
    d.copyFromChecked now n i b = pure (d.copyFrom now n i b) := by
  induction n generalizing i b with
  | zero => rfl
  | succ n ih =>
    have hsize := d.fragmentSize.isLt
    have hstart : i * d.fragmentSize.toNat ≤ 2 ^ 16 * 2 ^ 16 := Nat.mul_le_mul (by omega) hsize.le
    rw [copyFromChecked, copyFrom, checked_of_lt (by omega), pure_bind, checked_of_lt (by omega), pure_bind]
    split_ifs with hcarried
    · rfl
    have hslot : (d.serializedData.take (min (i * d.fragmentSize.toNat + d.fragmentSize.toNat)
        d.serializedData.length)).drop (i * d.fragmentSize.toNat) = slot d.fragmentSize.toNat d.serializedData i := by
      rw [slot, drop_take, take_eq_take_iff, length_drop]
      omega
    rw [checked_of_lt (by omega), pure_bind, slice_of_le ⟨by omega, by omega⟩, pure_bind, hslot,
      copyFragmentDataChecked_eq hb, pure_bind]
    dsimp only
    rw [ih (by rw [(took_copyFragmentData _).totalSize]; exact hb) (by omega) (by omega), pure_bind]

variable {body : Bytes} {h : SubmessageHeader} {d : DataFrag}

/-- **The copy loop stays in range.** -/
theorem fragments_copied_in_range (hd : (deserialize body h).result = .ok d) (b : FragmentBuffer)
    (hb : b.totalSize < 2 ^ 32) (sourceTimestamp : Option RtpsTime) (now : Nat) :
    d.copyFromChecked now d.fragmentsInSubmessage.toNat 0 (b.annotate sourceTimestamp d.inlineQos) =
        pure (d.copyInto sourceTimestamp now b) ∧
      (∀ i < d.fragmentsInSubmessage.toNat, 1 ≤ d.fragmentStartingNum.toNat + i ∧
        d.fragmentStartingNum.toNat + i ≤ slotCount d.fragmentSize.toNat d.sampleSize.toNat) ∧
      (d.copyInto sourceTimestamp now b).2.receivedCount = (d.copyInto sourceTimestamp now b).2.filled.count true ∧
      (d.copyInto sourceTimestamp now b).2.buf.length = b.totalSize := by
  obtain ⟨-, length, hclaim⟩ := claimable_of_deserialize hd
  have hlast : d.fragmentStartingNum.toNat - 1 + (d.fragmentsInSubmessage.toNat - 1) <
      slotCount d.fragmentSize.toNat d.sampleSize.toNat := by
    have hlt := hclaim.lt_length
    rw [lt_slotCount_iff hclaim.size_pos, Nat.add_mul]
    omega
  have hstart := hclaim.start_pos
  have htotal := hclaim.total_le
  have htook := took_copyFrom d now d.fragmentsInSubmessage.toNat 0 (b.annotate sourceTimestamp d.inlineQos)
  unfold maxFragmentsPerSample at htotal
  refine ⟨copyFromChecked_eq now hb (by omega) (by omega), fun i hi => by omega, FragmentBuffer.receivedCount_eq _, ?_⟩
  rw [FragmentBuffer.length_buf]
  exact htook.totalSize

def twoFragments : DataFrag := ⟨1, 2, ⟨0, 1⟩, 1, 2, 2, 5, none, [1, 2, 3, 4]⟩

def twoFragmentsBody : Bytes :=
  [0, 0, 28, 0, 0, 0, 0, 1, 0, 0, 0, 2, 0, 0, 0, 0, 1, 0, 0, 0, 1, 0, 0, 0, 2, 0, 2, 0, 5, 0, 0, 0, 1, 2, 3, 4]

theorem fragments_copied_in_range_other :
    copyFromChecked twoFragments 0 2 0 ((FragmentBuffer.new 8 3 0 (by decide)).annotate none none) =
      pure (copyInto twoFragments none 0 (.new 8 3 0 (by decide))) :=
  (fragments_copied_in_range (show (deserialize twoFragmentsBody ⟨0x16, 1, 36⟩).result = .ok twoFragments from rfl) _
    (by decide) none 0).1

end DataFrag

end Int2Dds.Messages
