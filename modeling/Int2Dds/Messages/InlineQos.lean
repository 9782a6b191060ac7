import Int2Dds.Messages.Header

/-!
# Inline QoS: parameter lists and their two readers

* `InlineQosParser.parseInlineQos` reads the parameters of a DATA submessage. It checks every length against what is
  left before it takes anything, and stops quietly at the first parameter that does not fit.
* `ParameterList.readFrom` reads the parameters of a DATA_FRAG submessage. It makes room for a value of the announced
  length before it looks for the value, and takes the length as a signed number: a length of 0x8000 or more asks for
  room that no allocator has. `ParameterList.safe_iff` says on which bytes it is safe.
-/

namespace Int2Dds.Messages

open Lib Rtps Outcome List

/-! ## Parameters -/

namespace ParameterId

def pad : BitVec 16 := 0x0000

def sentinel : BitVec 16 := 0x0001

def contentFilterInfo : BitVec 16 := 0x0055

def statusInfo : BitVec 16 := 0x0071

def unknown : BitVec 16 := 0xffff

def all : List (BitVec 16) :=
  [0x0000, 0x0001, 0x002c, 0x0005, 0x0007, 0x002d, 0x002e, 0x001d, 0x001e, 0x0023, 0x0027, 0x001b, 0x001a,
    0x002b, 0x0025, 0x0040, 0x0041, 0x001f, 0x0006, 0x0021, 0x0029, 0x0004, 0x0049, 0x000f, 0x4014, 0x0015,
    0x0016, 0x002f, 0x0030, 0x0031, 0x0048, 0x0032, 0x0033, 0x0043, 0x0034, 0x0002, 0x0035, 0x0050, 0x0052,
    0x0053, 0x0058, 0x0077, 0x0059, 0x0060, 0x0062, 0x005a, 0x0055, 0x0056, 0x0057, 0x0061, 0x0063, 0x0064,
    0x0065, 0x0066, 0x0070, 0x0071, 0x0072, 0x0003, 0x0008, 0x0009, 0x000a, 0x0010, 0x0012, 0x0013, 0x0014,
    0x0017, 0x0018, 0x0011, 0x000c, 0x000e, 0x0045, 0x000d, 0x000b, 0x0046, 0x0044, 0x0051, 0x0073, 0x0069,
    0x0075, 0x0074, 0x8001, 0xffff]

end ParameterId

/-- A parameter id by its number; an id without a name becomes `UNKNOWN`. -/
def u16ToParameterId (value : BitVec 16) : BitVec 16 :=
  if value ∈ ParameterId.all then value else ParameterId.unknown

structure Parameter where
  parameterId : BitVec 16
  -- an `i16`
  length : BitVec 16
  value : Bytes
deriving DecidableEq

/-- The bytes of a parameter in memory: a `SmallVec<[u8; 16]>` of 32 and two numbers of 2, on a 64-bit target. -/
def Parameter.size : Nat := 40

def Parameter.new (parameterId : BitVec 16) (value : Bytes) : Parameter :=
  ⟨parameterId, BitVec.ofNat 16 value.length, value⟩

abbrev ParameterList := List Parameter

/-- `StatusInfo`: the flags of the first status parameter of four octets, reserved bits removed. -/
def ParameterList.getStatusInfo (l : ParameterList) : Option (BitVec 32) :=
  (l.find? fun p => p.parameterId = ParameterId.statusInfo ∧ p.value.length = 4).map fun p =>
    BitVec.ofNat 32 (Endianness.big.get p.value) &&& 0x07

/-! ## The reader of DATA -/

/-- `PlCdrReader`: a position in the bytes of a parameter list. -/
structure PlCdrReader (data : Bytes) where
  position : Nat
  position_le : position ≤ data.length

namespace PlCdrReader

variable {data : Bytes}

def start : PlCdrReader data := ⟨0, Nat.zero_le _⟩

variable (r : PlCdrReader data) (e : Endianness)

def remaining : Nat := data.length - r.position

def finished : Bool := decide (data.length ≤ r.position)

def advance (n : Nat) (h : ¬ r.remaining < n) : PlCdrReader data :=
  ⟨r.position + n, by have := r.position_le; unfold remaining at h; omega⟩

def readBytes (len : Nat) : Decoder (PlCdrReader data) String Bytes := fun r =>
  let remaining := r.remaining
  if h : r.remaining < len then Outcome.error s!"insufficient data for {len} bytes, have {remaining}"
  else do
    let bytes ← slice data r.position (r.position + len)
    pure (bytes, r.advance len h)

def readWord (name : String) (e : Endianness) (k w : Nat) : Decoder (PlCdrReader data) String (BitVec w) := fun r =>
  let remaining := r.remaining
  if h : r.remaining < k then Outcome.error s!"insufficient data for {name}: need {k} bytes, have {remaining}"
  else do
    let bytes ← slice data r.position (r.position + k)
    pure (BitVec.ofNat w (e.get bytes), r.advance k h)

def readU16 : Decoder (PlCdrReader data) String (BitVec 16) := readWord "u16" e 2 16

def readU32 : Decoder (PlCdrReader data) String (BitVec 32) := readWord "u32" e 4 32

def readI32 : Decoder (PlCdrReader data) String (BitVec 32) := readWord "i32" e 4 32

def alignParameters : PlCdrReader data := ⟨min ((r.position + 3) / 4 * 4) data.length, Nat.min_le_right _ _⟩

variable {bound : Nat}

theorem safe_slice (r : PlCdrReader data) {n : Nat} (h : ¬ r.remaining < n) :
    (slice data r.position (r.position + n) : Outcome String Bytes).Safe bound := by
  have := r.position_le
  unfold remaining at h
  exact Outcome.safe_slice.2 ⟨by omega, by omega⟩

theorem safe_readBytes (len : Nat) : Decoder.Safe bound (readBytes len : Decoder (PlCdrReader data) String Bytes) := by
  intro r
  unfold readBytes
  split_ifs with h
  · exact safe_error _
  · exact (r.safe_slice h).bind (fun _ _ => Outcome.safe_pure _)

theorem safe_readWord (name : String) (e : Endianness) (k w : Nat) :
    Decoder.Safe bound (readWord name e k w : Decoder (PlCdrReader data) String _) := by
  intro r
  unfold readWord
  split_ifs with h
  · exact safe_error _
  · exact (r.safe_slice h).bind (fun _ _ => Outcome.safe_pure _)

theorem readBytes_eq_ok {len : Nat} {r r' : PlCdrReader data} {bytes : Bytes}
    (h : (readBytes len r).result = .ok (bytes, r')) :
    bytes.length = len ∧ len ≤ data.length ∧ r'.position = r.position + len := by
  unfold readBytes at h
  split_ifs at h with hlen
  · cases h
  · obtain ⟨bs, hbs, heq⟩ := result_bind_eq_ok.1 h
    obtain ⟨-, rfl⟩ := result_slice.1 hbs
    cases heq
    unfold remaining at hlen
    rw [length_drop, length_take]
    exact ⟨by omega, by omega, rfl⟩

theorem position_of_readWord {name : String} {e : Endianness} {k w : Nat} {r r' : PlCdrReader data} {v : BitVec w}
    (h : (readWord name e k w r).result = .ok (v, r')) : r'.position = r.position + k := by
  unfold readWord at h
  split_ifs at h
  · cases h
  · obtain ⟨_, -, heq⟩ := result_bind_eq_ok.1 h
    cases heq
    rfl

end PlCdrReader

namespace InlineQosParser

def maxInlineQosParameters : Nat := 100

/-- The loops of `parse_content_filter_info` : `n` items of `size` bytes are read and pushed, after `len` others. -/
def readItems {σ α : Type} (size : Nat) (read : Decoder σ String α) : Nat → Nat → Decoder σ String (List α)
  | 0, _ => pure []
  | n + 1, len => do
    let item ← read
    Decoder.lift (pushVec size len)
    let items ← readItems size read n (len + 1)
    pure (item :: items)

/-- `parse_content_filter_info`. What it finds is only logged. -/
def parseContentFilterInfo (e : Endianness) (data : Bytes) :
    Decoder (PlCdrReader data) String (List (BitVec 32) × List Bytes) := do
  let numBitmaps ← PlCdrReader.readU32 e
  let filterResult ← readItems 4 (PlCdrReader.readI32 e) numBitmaps.toNat 0
  let numSignatures ← PlCdrReader.readU32 e
  let bitmaps := numBitmaps.toNat
  let signatures := numSignatures.toNat
  let expected := signatures / 32 + if signatures % 32 ≠ 0 then 1 else 0
  Decoder.lift (require (bitmaps = expected)
    s!"Invalid content filter info: numBitmaps={bitmaps} but expected {expected} for numSignatures={signatures}")
  let filterSignatures ← readItems 16 (PlCdrReader.readBytes 16) signatures 0
  pure (filterResult, filterSignatures)

/-- A filter is parsed for the log; either way the raw bytes are kept, with `to_vec`. -/
def storeParameter (e : Endianness) (id : BitVec 16) (paramData : Bytes) : Outcome String Parameter := do
  if id = ParameterId.contentFilterInfo then
    ((parseContentFilterInfo e paramData).runOn PlCdrReader.start).onError (pure ()) fun _ => pure ()
  else pure ()
  Outcome.request paramData.length
  pure (Parameter.new id paramData)

/-- The loop of `parse_raw_bytes_internal_with_size`; `n` iterations are left. -/
def parseLoop (e : Endianness) {data : Bytes} :
    Nat → PlCdrReader data → ParameterList → Outcome String (ParameterList × PlCdrReader data)
  | 0, r, parameters => pure (parameters, r)
  | n + 1, r, parameters =>
    if r.finished then pure (parameters, r)
    else (PlCdrReader.readU16 e r).onError (pure (parameters, r)) fun (paramId, r) =>
      if paramId = ParameterId.sentinel then do
        pushSmall 2 Parameter.size parameters.length
        let parameters := parameters ++ [Parameter.new ParameterId.sentinel []]
        (PlCdrReader.readU16 e r).onError (pure (parameters, r)) fun (_, r) => pure (parameters, r)
      else (PlCdrReader.readU16 e r).onError (pure (parameters, r)) fun (paramLength, r) =>
        (PlCdrReader.readBytes paramLength.toNat r).onError (pure (parameters, r)) fun (paramData, r) =>
          if paramId = ParameterId.pad then parseLoop e n r.alignParameters parameters
          else do
            let parameter ← storeParameter e (u16ToParameterId paramId) paramData
            pushSmall 2 Parameter.size parameters.length
            parseLoop e n r.alignParameters (parameters ++ [parameter])

/-- The parameters, and how many bytes they take. -/
def parseInlineQos (e : Endianness) (data : Bytes) : Outcome String (ParameterList × Nat) :=
  if data = [] then pure ([], 0)
  else do
    let (parameters, r) ← parseLoop e maxInlineQosParameters (PlCdrReader.start : PlCdrReader data) []
    pure (parameters, r.position)

variable {bound : Nat} (e : Endianness)

/-- Room for what growing collections ask for beyond the bytes they read: a filter is in a parameter of less than 2^16
bytes. -/
def growthRoom : Nat := 2 ^ 17 + 64

theorem safe_readItems {data : Bytes} {α : Type} {size : Nat} {read : Decoder (PlCdrReader data) String α}
    (hread : read.Safe bound) (hsize : size ≤ 16) (hdata : 2 * data.length + 64 ≤ bound)
    (hposition : ∀ r p, (read r).result = .ok p → p.2.position = r.position + size) {n len : Nat} {r : PlCdrReader data}
    (hlen : len * size ≤ r.position) : (readItems size read n len r).Safe bound := by
  induction n generalizing len r with
  | zero => exact Outcome.safe_pure _
  | succ n ih =>
    rw [readItems, Decoder.bind_apply]
    refine (hread r).bind (fun p hp => ?_)
    have hnext := hposition r p hp
    have hend := p.2.position_le
    have hitems : (len + 1) * size ≤ p.2.position := by
      rw [Nat.succ_mul]
      omega
    rw [Decoder.bind_apply, Decoder.lift, bind_assoc, pushVec, safe_requestIf_bind]
    refine ⟨fun _ => ?_, ?_⟩
    · -- as many items have been read as there are
      rcases max_choice 4 (2 * len) with hmax | hmax <;> rw [hmax]
      · omega
      · rw [Nat.mul_assoc]
        omega
    · show Outcome.Safe bound ((readItems size read n (len + 1) >>= _) p.2)
      rw [Decoder.bind_apply]
      exact (ih hitems).bind (fun _ _ => Outcome.safe_pure _)

theorem safe_parseContentFilterInfo {data : Bytes} (hdata : 2 * data.length + 64 ≤ bound) :
    Decoder.Safe bound (parseContentFilterInfo e data) := by
  refine (PlCdrReader.safe_readWord _ e 4 32).bind (fun _ => ?_)
  refine Decoder.Safe.bind (fun _ => ?_) (fun _ => ?_)
  · exact safe_readItems (PlCdrReader.safe_readWord _ e 4 32) (by decide) hdata
      (fun _ _ h => PlCdrReader.position_of_readWord h) (by omega)
  refine (PlCdrReader.safe_readWord _ e 4 32).bind (fun _ => ?_)
  refine (Decoder.safe_lift safe_require).bind (fun _ => ?_)
  refine Decoder.Safe.bind (fun _ => ?_) (fun _ => Decoder.safe_pure _)
  exact safe_readItems (PlCdrReader.safe_readBytes 16) (by decide) hdata
    (fun _ _ h => (PlCdrReader.readBytes_eq_ok h).2.2) (by omega)

theorem safe_storeParameter (id : BitVec 16) {paramData : Bytes} (hroom : growthRoom ≤ bound)
    (hlen : paramData.length < 2 ^ 16) : (storeParameter e id paramData).Safe bound := by
  unfold growthRoom at hroom
  unfold storeParameter
  have hstore : (Outcome.request paramData.length >>= fun _ => pure (Parameter.new id paramData) :
      Outcome String Parameter).Safe bound := (safe_request.2 (by omega)).bind (fun _ _ => Outcome.safe_pure _)
  split_ifs
  · have hparse : ((parseContentFilterInfo e paramData).runOn PlCdrReader.start).Safe bound :=
      (safe_parseContentFilterInfo e (by omega)).runOn _
    exact (hparse.onError (Outcome.safe_pure ()) (fun _ _ => Outcome.safe_pure ())).bind (fun _ _ => hstore)
  · exact (Outcome.safe_pure ()).bind (fun _ _ => hstore)

variable {data : Bytes}

theorem safe_parseLoop (hroom : growthRoom ≤ bound) (n : Nat) (r : PlCdrReader data) (parameters : ParameterList)
    (hcount : parameters.length + n ≤ maxInlineQosParameters) : (parseLoop e n r parameters).Safe bound := by
  induction n generalizing r parameters with
  | zero => exact Outcome.safe_pure _
  | succ n ih =>
    have hstop (r : PlCdrReader data) (ps : ParameterList) :
        (pure (ps, r) : Outcome String (ParameterList × PlCdrReader data)).Safe bound := Outcome.safe_pure _
    have hu16 : Decoder.Safe bound (PlCdrReader.readU16 e : Decoder (PlCdrReader data) _ _) :=
      PlCdrReader.safe_readWord _ e 2 16
    have hpush : (pushSmall 2 Parameter.size parameters.length : Outcome String Unit).Safe bound := by
      rw [pushSmall, safe_requestIf, Parameter.size]
      unfold maxInlineQosParameters at hcount
      unfold growthRoom at hroom
      omega
    unfold parseLoop
    by_cases hfin : r.finished
    · rw [if_pos hfin]
      exact hstop r parameters
    rw [if_neg hfin]
    apply (hu16 r).onError (hstop r parameters)
    rintro ⟨paramId, r1⟩ -
    dsimp only
    split
    · exact hpush.bind (fun _ _ => (hu16 r1).onError (hstop r1 _) (fun q _ => hstop q.2 _))
    apply (hu16 r1).onError (hstop r1 parameters)
    rintro ⟨paramLength, r2⟩ -
    apply (PlCdrReader.safe_readBytes _ r2).onError (hstop r2 parameters)
    rintro ⟨paramData, r3⟩ hread
    have hlen := (PlCdrReader.readBytes_eq_ok hread).1
    dsimp only
    split
    · exact ih _ _ (by omega)
    refine (safe_storeParameter e _ hroom (hlen ▸ paramLength.isLt)).bind (fun _ _ => hpush.bind (fun _ _ => ih _ _ ?_))
    rw [length_append, length_singleton]
    omega

theorem safe_parseInlineQos (hroom : growthRoom ≤ bound) : (parseInlineQos e data).Safe bound := by
  unfold parseInlineQos
  split_ifs
  · exact Outcome.safe_pure _
  · exact (safe_parseLoop e hroom _ _ _ (by simp)).bind (fun _ _ => Outcome.safe_pure _)

theorem consumed_le {e : Endianness} {parameters : ParameterList} {consumed : Nat}
    (h : (parseInlineQos e data).result = .ok (parameters, consumed)) : consumed ≤ data.length := by
  unfold parseInlineQos at h
  split_ifs at h
  · cases h
    exact Nat.zero_le _
  · obtain ⟨p, -, heq⟩ := result_bind_eq_ok.1 h
    cases heq
    exact p.2.position_le

end InlineQosParser

/-! ## The reader of DATA_FRAG -/

/-- `vec![0u8; length as usize]` for an `i16`: a negative length becomes a `usize` that no allocation has. -/
def vecZeroed {ε : Type} (length : BitVec 16) : Outcome ε Unit :=
  if length.msb then Outcome.panic else Outcome.request length.toNat

namespace Parameter

variable (e : Endianness)

def readFrom : Read Parameter := do
  let parameterId ← readU16 e
  let length ← readU16 e
  Decoder.lift (vecZeroed length)
  let value ← Decoder.take RtpsError.ofReader length.toNat
  pure ⟨u16ToParameterId parameterId, length, value⟩

def idAt (s : Bytes) : BitVec 16 := BitVec.ofNat 16 (e.get (s.take 2))

def lengthAt (s : Bytes) : BitVec 16 := BitVec.ofNat 16 (e.get ((s.drop 2).take 2))

end Parameter

namespace ParameterList

/-- Parameters up to the sentinel, after `len` others; `n` more fit into the bytes at most. -/
def readLoop (e : Endianness) : Nat → Nat → Read ParameterList
  | 0, _ => Decoder.lift Outcome.panic
  | n + 1, len => do
    let param ← Parameter.readFrom e
    if param.parameterId = ParameterId.sentinel then pure []
    else do
      Decoder.lift (pushSmall 2 Parameter.size len)
      let params ← readLoop e n (len + 1)
      pure (param :: params)

def readFrom (e : Endianness) : Read ParameterList := fun s => readLoop e (s.length + 1) 0 s

/-- A parameter that is not the sentinel, with all of its value, is at the front of the bytes. -/
abbrev GoesOn (e : Endianness) (s : Bytes) : Prop :=
  Parameter.idAt e s ≠ ParameterId.sentinel ∧ (Parameter.lengthAt e s).toNat ≤ (s.drop 4).length

/-- The length fields that reading a list from these bytes comes to. -/
def reachedLengths (e : Endianness) : Nat → Bytes → List (BitVec 16)
  | 0, _ => []
  | n + 1, s =>
    if 4 ≤ s.length then
      let length := Parameter.lengthAt e s
      length :: if GoesOn e s then reachedLengths e n ((s.drop 4).drop length.toNat) else []
    else []

/-- How many parameters reading a list from these bytes pushes. -/
def pushed (e : Endianness) : Nat → Bytes → Nat
  | 0, _ => 0
  | n + 1, s =>
    if 4 ≤ s.length ∧ GoesOn e s then pushed e n ((s.drop 4).drop (Parameter.lengthAt e s).toNat) + 1 else 0

end ParameterList

section DataFragReader

variable {bound : Nat}

theorem u16ToParameterId_eq_sentinel {v : BitVec 16} :
    u16ToParameterId v = ParameterId.sentinel ↔ v = ParameterId.sentinel := by
  unfold u16ToParameterId
  split_ifs with h
  · rfl
  · refine iff_of_false (by decide) (fun hv => h ?_)
    rw [hv]
    decide

def FitsLength (bound : Nat) (length : BitVec 16) : Prop := length.toNat < 0x8000 ∧ length.toNat ≤ bound

theorem safe_vecZeroed {ε : Type} {length : BitVec 16} :
    (vecZeroed length : Outcome ε Unit).Safe bound ↔ FitsLength bound length := by
  have hmsb : length.msb = true ↔ ¬ length.toNat < 0x8000 := by
    rw [BitVec.msb_eq_decide, decide_eq_true_eq]
    omega
  unfold vecZeroed
  split_ifs with h
  · exact iff_of_false not_safe_panic (fun hf => hmsb.1 h hf.1)
  · have hlt : length.toNat < 0x8000 := by_contra (fun hn => h (hmsb.2 hn))
    rw [safe_request]
    exact (and_iff_right hlt).symm

namespace Parameter

variable {e : Endianness} {s : Bytes}

theorem readFrom_of_le (h : 4 ≤ s.length) :
    readFrom e s = vecZeroed (lengthAt e s) >>= fun _ =>
      Decoder.take RtpsError.ofReader (lengthAt e s).toNat (s.drop 4) >>= fun p =>
        pure (⟨u16ToParameterId (idAt e s), lengthAt e s, p.1⟩, p.2) := by
  have h2 : 2 ≤ s.length := by omega
  have h4 : 2 ≤ (s.drop 2).length := by rw [length_drop]; omega
  rw [readFrom, Decoder.bind_apply, readU16, Decoder.word_of_le h2, pure_bind, Decoder.bind_apply,
    Decoder.word_of_le h4, pure_bind, drop_drop, Decoder.bind_apply, Decoder.lift, bind_assoc]
  rfl

theorem readFrom_of_lt (h : s.length < 4) : readFrom e s = Outcome.error RtpsError.ofReader := by
  rw [readFrom, Decoder.bind_apply, readU16]
  by_cases h2 : 2 ≤ s.length
  · have h4 : (s.drop 2).length < 2 := by rw [length_drop]; omega
    rw [Decoder.word_of_le h2, pure_bind, Decoder.bind_apply, Decoder.word_of_lt h4]
    rfl
  · rw [Decoder.word_of_lt (by omega)]
    rfl

theorem safe_readFrom_iff : (readFrom e s).Safe bound ↔ (4 ≤ s.length → FitsLength bound (lengthAt e s)) := by
  by_cases h : 4 ≤ s.length
  · rw [readFrom_of_le h, safe_bind, safe_vecZeroed]
    constructor
    · intro hs _
      exact hs.1
    · intro hf
      refine ⟨hf h, fun _ _ => ?_⟩
      exact (Decoder.safe_take _ _).bind (fun _ _ => Outcome.safe_pure _)
  · rw [readFrom_of_lt (by omega)]
    exact iff_of_true (safe_error _) (fun hn => absurd hn h)

theorem readFrom_eq_ok {s' : Bytes} {p : Parameter} (h : (readFrom e s).result = .ok (p, s')) :
    4 ≤ s.length ∧ (lengthAt e s).toNat ≤ (s.drop 4).length ∧ s' = (s.drop 4).drop (lengthAt e s).toNat ∧
      p.parameterId = u16ToParameterId (idAt e s) := by
  by_cases h4 : 4 ≤ s.length
  · rw [readFrom_of_le h4] at h
    obtain ⟨_, -, htake⟩ := result_bind_eq_ok.1 h
    obtain ⟨q, hq, hpure⟩ := result_bind_eq_ok.1 htake
    unfold Decoder.take at hq
    split_ifs at hq with hle
    · cases hq
      cases hpure
      exact ⟨h4, hle, rfl, rfl⟩
    · cases hq
  · rw [readFrom_of_lt (by omega)] at h
    cases h

theorem readFrom_result (h4 : 4 ≤ s.length) (hfits : FitsLength bound (lengthAt e s))
    (hle : (lengthAt e s).toNat ≤ (s.drop 4).length) :
    (readFrom e s).result = .ok (⟨u16ToParameterId (idAt e s), lengthAt e s, (s.drop 4).take (lengthAt e s).toNat⟩,
      (s.drop 4).drop (lengthAt e s).toNat) := by
  have hvec : (vecZeroed (lengthAt e s) : Outcome RtpsError Unit).result = .ok () := by
    have hmsb : ¬ (lengthAt e s).msb = true := by
      rw [BitVec.msb_eq_decide, decide_eq_true_eq]
      have := hfits.1
      omega
    rw [vecZeroed, if_neg hmsb]
    rfl
  rw [readFrom_of_le h4, Decoder.take, if_pos hle]
  exact result_bind_eq_ok.2 ⟨(), hvec, rfl⟩

end Parameter

namespace ParameterList

/-- What reading the list asks for can be had. -/
def Fits (bound : Nat) (e : Endianness) (s : Bytes) : Prop :=
  (∀ length ∈ reachedLengths e (s.length + 1) s, FitsLength bound length) ∧
    GrowsWithin bound 2 Parameter.size 0 (pushed e (s.length + 1) s)

/-- Reading a list is safe exactly when every length it comes to fits, and the list has room to grow. -/
theorem safe_readLoop_iff {e : Endianness} {n len : Nat} {s : Bytes} (hn : s.length < n) :
    (readLoop e n len s).Safe bound ↔ (∀ length ∈ reachedLengths e n s, FitsLength bound length) ∧
      GrowsWithin bound 2 Parameter.size len (pushed e n s) := by
  induction n generalizing s len with
  | zero => omega
  | succ n ih =>
    rw [readLoop, Decoder.bind_apply, safe_bind, Parameter.safe_readFrom_iff, reachedLengths, pushed]
    by_cases h4 : 4 ≤ s.length
    swap
    · -- a parameter that is cut off ends the list with an error
      rw [if_neg h4, if_neg (fun h => h4 h.1)]
      refine iff_of_true ⟨fun h => absurd h h4, fun p hp => ?_⟩ ⟨nofun, growsWithin_zero⟩
      exact absurd (Parameter.readFrom_eq_ok hp).1 h4
    rw [if_pos h4]
    simp only [h4, forall_const, true_and, mem_cons, forall_eq_or_imp, and_assoc]
    refine and_congr_right (fun hfits => ?_)
    have hshort : ((s.drop 4).drop (Parameter.lengthAt e s).toNat).length < n := by
      rw [length_drop, length_drop]
      omega
    by_cases hgo : GoesOn e s
    · have hne : ¬ u16ToParameterId (Parameter.idAt e s) = ParameterId.sentinel := fun h =>
        hgo.1 (u16ToParameterId_eq_sentinel.1 h)
      have hread := Parameter.readFrom_result h4 hfits hgo.2
      rw [if_pos hgo, if_pos hgo, growsWithin_succ, hread]
      simp only [Result.ok.injEq, forall_eq']
      rw [if_neg hne, Decoder.bind_apply, Decoder.lift, bind_assoc, pushSmall, safe_requestIf_bind]
      show _ ∧ Outcome.Safe bound ((readLoop e n (len + 1) >>= _) _) ↔ _
      rw [Decoder.bind_apply, safe_bind, ih hshort]
      exact (and_congr_right' (and_iff_left (fun _ _ => Outcome.safe_pure _))).trans and_left_comm
    · -- the sentinel, or a value that is cut off
      rw [if_neg hgo, if_neg hgo]
      refine iff_of_true ?_ ⟨nofun, growsWithin_zero⟩
      rintro ⟨p, s'⟩ hread
      obtain ⟨-, hle, -, hid⟩ := Parameter.readFrom_eq_ok hread
      have hsentinel : p.parameterId = ParameterId.sentinel := by
        rw [hid, u16ToParameterId_eq_sentinel]
        exact by_contra (fun h => hgo ⟨h, hle⟩)
      rw [if_pos hsentinel]
      exact Outcome.safe_pure _

theorem safe_readFrom_iff {e : Endianness} {s : Bytes} : (readFrom e s).Safe bound ↔ Fits bound e s :=
  safe_readLoop_iff (Nat.lt_succ_self _)

end ParameterList

end DataFragReader

end Int2Dds.Messages
