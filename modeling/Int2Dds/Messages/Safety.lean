import Int2Dds.Messages.Receiver

/-!
# What receiving a datagram asks for

Which datagrams `MessageReceiver.init` survives, and with how much memory. The lengths and offsets of a datagram are
checked before they are used, with two exceptions:

* INFO_REPLY makes room for as many locators as it announces (`InfoReply.announced`);
* DATA_FRAG makes room for as many octets as each parameter of its inline QoS announces, as a signed number
  (`ParameterList.Fits`).

What is read takes more room in memory than on the wire, and a collection that is full doubles: the submessages
(`GrowsWithin`), the parameters of DATA_FRAG and the locators of INFO_REPLY (`Submessage.ReplyFits`). Those of DATA are
few. `init_safe_iff` says that this is all.
-/

namespace Int2Dds.Messages

open Lib Rtps Outcome List

variable {bound : Nat}

/-! ## INFO_REPLY -/

namespace InfoReply

def countAt (e : Endianness) (s : Bytes) : Nat := (BitVec.ofNat 32 (e.get (s.take 4)) : BitVec 32).toNat

/-- The locator counts of an INFO_REPLY body that `deserialize` comes to. -/
def announced (h : SubmessageHeader) (body : Bytes) : List Nat :=
  if 4 ≤ body.length then
    let unicast := countAt h.byteOrder body
    let rest := body.drop (4 + Locator.size * unicast)
    unicast ::
      if 4 + Locator.size * unicast ≤ body.length ∧ h.multicastFlag = some true ∧ 4 ≤ rest.length then
        [countAt h.byteOrder rest]
      else []
  else []

theorem fixedSize_locators (e : Endianness) (n : Nat) :
    (Decoder.times n (Locator.readFrom e)).FixedSize (Locator.size * n) := by
  apply Decoder.fixedSize_times
  refine (Decoder.fixedSize_word _ e 4 32).bind (n := 20) (fun _ => ?_)
  refine (Decoder.fixedSize_word _ e 4 32).bind (n := 16) (fun _ => ?_)
  exact (Decoder.fixedSize_word _ .big 16 128).bind_pure _

variable {e : Endianness} {s : Bytes}

theorem readLocatorList_of_le (h : 4 ≤ s.length) :
    readLocatorList e s = Outcome.request (Locator.size * countAt e s) >>= fun _ =>
      Decoder.times (countAt e s) (Locator.readFrom e) (s.drop 4) := by
  rw [readLocatorList, Decoder.bind_apply, readU32, Decoder.word_of_le h]
  rfl

theorem readLocatorList_of_lt (h : s.length < 4) : readLocatorList e s = Outcome.error RtpsError.ofReader := by
  rw [readLocatorList, Decoder.bind_apply, readU32, Decoder.word_of_lt h]
  rfl

theorem safe_readLocatorList_iff :
    (readLocatorList e s).Safe bound ↔ (4 ≤ s.length → Locator.size * countAt e s ≤ bound) := by
  by_cases h : 4 ≤ s.length
  · rw [readLocatorList_of_le h, safe_bind, safe_request]
    constructor
    · intro hs _
      exact hs.1
    · intro hn
      exact ⟨hn h, fun _ _ => Decoder.safe_times (Locator.safe e) _⟩
  · rw [readLocatorList_of_lt (by omega)]
    exact iff_of_true (safe_error _) (fun hn => absurd hn h)

theorem readLocatorList_eq_ok {p : List Locator × Bytes} (h : (readLocatorList e s).result = .ok p) :
    4 + Locator.size * countAt e s ≤ s.length ∧ p.2 = s.drop (4 + Locator.size * countAt e s) := by
  by_cases h4 : 4 ≤ s.length
  · rw [readLocatorList_of_le h4] at h
    obtain ⟨_, -, htimes⟩ := result_bind_eq_ok.1 h
    obtain ⟨hle, hrest⟩ := (fixedSize_locators e _).of_ok htimes
    rw [length_drop] at hle
    rw [drop_drop] at hrest
    exact ⟨by omega, hrest⟩
  · rw [readLocatorList_of_lt (by omega)] at h
    cases h

theorem exists_readLocatorList (h : 4 + Locator.size * countAt e s ≤ s.length) :
    ∃ list, (readLocatorList e s).result = .ok (list, s.drop (4 + Locator.size * countAt e s)) := by
  obtain ⟨list, hlist⟩ := ((fixedSize_locators e (countAt e s)) (s.drop 4)).1 (by rw [length_drop]; omega)
  rw [drop_drop] at hlist
  refine ⟨list, ?_⟩
  rw [readLocatorList_of_le (by omega)]
  exact result_bind_eq_ok.2 ⟨(), rfl, hlist⟩

theorem safe_optional_iff {c : Prop} [Decidable c] :
    (Decoder.optional c (readLocatorList e) s).Safe bound ↔
      (c → 4 ≤ s.length → Locator.size * countAt e s ≤ bound) := by
  unfold Decoder.optional
  split_ifs with hc
  · rw [Decoder.bind_apply, safe_bind, safe_readLocatorList_iff]
    constructor
    · intro hs _
      exact hs.1
    · intro hn
      exact ⟨hn hc, fun _ _ => Outcome.safe_pure _⟩
  · exact iff_of_true (Outcome.safe_pure _) (fun h => absurd h hc)

theorem safe_iff {h : SubmessageHeader} (hk : h.kind = some .infoReply) {body : Bytes} :
    ((deserialize h).runOn body).Safe bound ↔ ∀ n ∈ announced h body, Locator.size * n ≤ bound := by
  have hflag : h.multicastFlag = some (h.hasFlag 0x02) := by rw [SubmessageHeader.multicastFlag, hk]
  have hend : okOr h.endiannessFlag RtpsError.unsupported = pure h.byteOrder := by
    rw [SubmessageHeader.endiannessFlag_of_kind hk]
    rfl
  have hrun : (deserialize h).runOn body = readLocatorList h.byteOrder body >>= fun p =>
      Decoder.optional (h.hasFlag 0x02 = true) (readLocatorList h.byteOrder) p.2 >>= fun q =>
        pure ⟨p.1, q.1.getD []⟩ := by
    rw [Decoder.runOn, deserialize, Decoder.bind_apply, endiannessOf, Decoder.lift, hend, pure_bind, pure_bind,
      Decoder.bind_apply, bind_assoc]
    congr 1
    funext p
    rw [hflag]
    show (Decoder.optional _ _ >>= _) p.2 >>= _ = _
    rw [Decoder.bind_apply, bind_assoc]
    rfl
  rw [hrun, safe_bind, safe_readLocatorList_iff, announced, hflag]
  by_cases h4 : 4 ≤ body.length
  swap
  · rw [if_neg h4]
    refine iff_of_true ⟨fun hn => absurd hn h4, fun p hp => ?_⟩ (by simp)
    have := (readLocatorList_eq_ok hp).1
    omega
  rw [if_pos h4, forall_mem_cons]
  refine and_congr (by simp only [h4, forall_const]) ?_
  constructor
  · intro hs
    split_ifs with hgo
    · obtain ⟨list, hlist⟩ := exists_readLocatorList hgo.1
      have hsecond := (safe_bind.1 (hs _ hlist)).1
      rw [safe_optional_iff] at hsecond
      simpa using hsecond (Option.some.inj hgo.2.1) hgo.2.2
    · simp
  · intro hn p hp
    obtain ⟨hle, hrest⟩ := readLocatorList_eq_ok hp
    refine Outcome.Safe.bind ?_ (fun _ _ => Outcome.safe_pure _)
    rw [safe_optional_iff, hrest]
    intro hmulticast h4'
    rw [if_pos ⟨hle, congrArg some hmulticast, h4'⟩] at hn
    exact hn _ (mem_singleton.2 rfl)

end InfoReply

/-! ## Bodies -/

/-- What reading a body asks for can be had. Only INFO_REPLY and DATA_FRAG ask for more than `growthRoom`. -/
def BodyFits (bound : Nat) (h : SubmessageHeader) (body : Bytes) : Prop :=
  match h.kind with
  | some .infoReply => ∀ n ∈ InfoReply.announced h body, Locator.size * n ≤ bound
  | some .dataFrag => DataFrag.Fits bound body h
  | _ => True

namespace Submessage

theorem safe_bodyOf_iff {α : Type} {wrap : α → SubmessageBody} {x : Outcome RtpsError α} :
    (bodyOf wrap x).Safe bound ↔ x.Safe bound := by
  rw [bodyOf, safe_bind]
  exact and_iff_left (fun _ _ => Outcome.safe_pure _)

theorem safe_readBody_iff {h : SubmessageHeader} {body : Bytes} (hroom : InlineQosParser.growthRoom ≤ bound) :
    (readBody h body).Safe bound ↔ BodyFits bound h body := by
  unfold readBody BodyFits
  have hsafe {α : Type} {d : Decoder Bytes RtpsError α} {wrap : α → SubmessageBody} (hd : d.Safe bound) :
      (bodyOf wrap (d.runOn body)).Safe bound ↔ True := iff_of_true (safe_bodyOf_iff.2 (hd.runOn body)) trivial
  match hk : h.kind with
  | some .infoReply => exact safe_bodyOf_iff.trans (InfoReply.safe_iff hk)
  | some .dataFrag => exact safe_bodyOf_iff.trans (DataFrag.safe_iff hk)
  | some .acknack => exact hsafe (AckNack.safe h)
  | some .data => exact iff_of_true (safe_bodyOf_iff.2 (Data.safe hroom h)) trivial
  | some .gap => exact hsafe (Gap.safe h)
  | some .heartbeat => exact hsafe (Heartbeat.safe h)
  | some .heartbeatFrag => exact hsafe (HeartbeatFrag.safe h)
  | some .infoDst => exact hsafe (safe_endiannessOf.bind (fun _ => InfoDestination.safe))
  | some .infoReplyIp4 => exact hsafe (InfoReplyIp4.safe h)
  | some .infoSrc => exact hsafe (safe_endiannessOf.bind InfoSource.safe)
  | some .infoTs => exact hsafe (safe_endiannessOf.bind InfoTimestamp.safe)
  | some .nackFrag => exact hsafe (NackFrag.safe h)
  | some .pad => exact iff_of_true (Outcome.safe_pure _) trivial
  | none => exact iff_of_true (Outcome.safe_pure _) trivial

/-- The locators of an INFO_REPLY can be collected. -/
def ReplyFits (bound : Nat) (m : Submessage) : Prop :=
  ∀ b, m.body = .infoReply b →
    ∀ n ∈ [b.unicastLocatorList.length,
        if m.header.multicastFlag = some true then b.multicastLocatorList.length else 0],
      1 < n → 2 ^ ((n - 1).log2 + 1) * Locator.size ≤ bound

theorem safe_collectReply_iff {m : Submessage} : m.collectReply.Safe bound ↔ m.ReplyFits bound := by
  obtain ⟨h, body⟩ := m
  cases body with
  | infoReply b => simp [collectReply, collectSmall, ReplyFits, safe_requestIf_bind]
  | _ => exact iff_of_true (Outcome.safe_pure _) nofun

end Submessage

/-! ## The datagram -/

namespace MessageReceiver

def headerAt (buffer : Bytes) : Header :=
  ⟨DataFrag.wordAt .big buffer 0 4 32, (DataFrag.wordAt .big buffer 4 1 8, DataFrag.wordAt .big buffer 5 1 8),
    DataFrag.wordAt .big buffer 6 2 16, DataFrag.wordAt .big buffer 8 12 96⟩

/-- A datagram with an RTPS header of a version this implementation speaks. -/
def HeaderAccepted (buffer : Bytes) : Prop :=
  rtpsHeaderLength ≤ buffer.length ∧ buffer.take 4 = magic ∧ (headerAt buffer).IsValid

def framesOf (buffer : Bytes) : List (SubmessageHeader × Bytes) :=
  frames ((buffer.drop rtpsHeaderLength).length + 1) (buffer.drop rtpsHeaderLength)

variable {size : Nat} {buffer : Bytes}

theorem readFrom_header (h : rtpsHeaderLength ≤ buffer.length) :
    Header.readFrom.runOn buffer = pure (headerAt buffer) := by
  unfold rtpsHeaderLength at h
  have hword {k w : Nat} (i : Nat) (hi : i + k ≤ 20) : readOctets k w (buffer.drop i) =
      pure (DataFrag.wordAt .big buffer i k w, buffer.drop (i + k)) := by
    rw [readOctets, Decoder.word_of_le (by rw [length_drop]; omega), drop_drop]
    rfl
  rw [← drop_zero (l := buffer)]
  rw [Decoder.runOn, Header.readFrom, Decoder.bind_apply, hword 0 (by decide), pure_bind, Decoder.bind_apply,
    hword 4 (by decide), pure_bind, Decoder.bind_apply, hword 5 (by decide), pure_bind, Decoder.bind_apply,
    hword 6 (by decide), pure_bind, Decoder.bind_apply, readGuidPrefix, hword 8 (by decide)]
  rfl

theorem init_of_accepted {receiver : MessageReceiver} (h : HeaderAccepted buffer) :
    init size receiver buffer =
      submessageLoop size ((buffer.drop rtpsHeaderLength).length + 1) receiver [] (buffer.drop rtpsHeaderLength) >>=
        fun p => pure (⟨headerAt buffer, p.1⟩, p.2) := by
  obtain ⟨hlen, hmagic, hvalid⟩ := h
  have hfour : 4 ≤ buffer.length := by
    unfold rtpsHeaderLength at hlen
    omega
  unfold init
  dsimp only
  rw [require_of (by omega), pure_bind, slice_of_le ⟨Nat.zero_le _, hfour⟩, pure_bind,
    drop_zero, require_of hmagic, readFrom_header hlen]
  show (require _ _ >>= _) = _
  rw [require_of hvalid, pure_bind, slice_of_le ⟨hlen, le_refl _⟩, pure_bind, take_length]

theorem init_of_refused (receiver : MessageReceiver) (h : ¬ HeaderAccepted buffer) :
    ∃ e, init size receiver buffer = Outcome.error e := by
  unfold init
  dsimp only
  by_cases hlen : rtpsHeaderLength ≤ buffer.length
  swap
  · rw [require, if_neg (by omega)]
    exact ⟨_, rfl⟩
  have hfour : 4 ≤ buffer.length := by
    unfold rtpsHeaderLength at hlen
    omega
  rw [require_of (by omega), pure_bind, slice_of_le ⟨Nat.zero_le _, hfour⟩, pure_bind,
    readFrom_header hlen, drop_zero]
  by_cases hmagic : buffer.take 4 = magic
  · have hvalid : ¬ (headerAt buffer).IsValid := fun hv => h ⟨hlen, hmagic, hv⟩
    rw [require_of hmagic]
    show ∃ e, (require _ _ >>= _) = _
    rw [require, if_neg hvalid]
    exact ⟨_, rfl⟩
  · rw [require, if_neg hmagic]
    exact ⟨_, rfl⟩

/-- A datagram is received without a panic and without asking for more than a `constant` beyond its length exactly when
its header is refused, or what each submessage asks for can be had and the message has room to grow. A `Submessage`
takes `size` bytes in memory. -/
theorem init_safe_iff (size : Nat) (receiver : MessageReceiver) (buffer : Bytes) (constant : Nat)
    (hconstant : InlineQosParser.growthRoom ≤ constant) :
    (init size receiver buffer).Safe (buffer.length + constant) ↔
      (HeaderAccepted buffer →
        (∀ f ∈ framesOf buffer, BodyFits (buffer.length + constant) f.1 f.2 ∧
          ∀ m, Submessage.parse f = some m → m.ReplyFits (buffer.length + constant)) ∧
        GrowsWithin (buffer.length + constant) 4 size 0 ((framesOf buffer).filterMap Submessage.parse).length) := by
  by_cases haccepted : HeaderAccepted buffer
  swap
  · obtain ⟨e, he⟩ := init_of_refused receiver haccepted
    rw [he]
    exact iff_of_true (safe_error e) (fun h => absurd h haccepted)
  rw [init_of_accepted haccepted, safe_bind, and_iff_left (fun _ _ => Outcome.safe_pure _),
    safe_submessageLoop_iff (Nat.lt_succ_self _)]
  simp only [haccepted, forall_const, Submessage.safe_readBody_iff (hconstant.trans (Nat.le_add_left _ _)),
    Submessage.safe_collectReply_iff]
  rfl

/-- The header of a datagram from this implementation's version. -/
def sampleHeader : Bytes := magic ++ [2, 5, 1, 0x41] ++ List.replicate 12 1

/-- A DATA_FRAG whose first inline QoS parameter announces 0x8000 octets. -/
def longParameter : Bytes :=
  sampleHeader ++ [0x16, 0x03, 36, 0] ++ ([0, 0, 28, 0] ++ List.replicate 8 1 ++ [0, 0, 0, 0, 1, 0, 0, 0] ++
    [1, 0, 0, 0, 1, 0, 4, 0, 4, 0, 0, 0] ++ [0x70, 0, 0, 0x80])

def manyLocators : Bytes := sampleHeader ++ [0x0F, 0x01, 4, 0] ++ [0xFF, 0xFF, 0xFF, 0xFF]

def fresh : MessageReceiver := ⟨(2, 5), 0, 0, 1, 1, [], [], false, ⟨0, 0⟩⟩

def padFrame : SubmessageHeader × Bytes := (⟨0x01, 0x01, 4⟩, [0, 0, 0, 0])

/-- The fifth submessage makes the message grow. -/
def fivePads : Bytes := sampleHeader ++ (List.replicate 5 [0x01, 0x01, 4, 0, 0, 0, 0, 0]).flatten

theorem init_safe_fivePads : (init 256 fresh fivePads).Safe (fivePads.length + InlineQosParser.growthRoom) := by
  have hframes : framesOf fivePads = List.replicate 5 padFrame := by decide +kernel
  refine (init_safe_iff 256 fresh fivePads _ (Nat.le_refl _)).2 (fun _ => ⟨fun f hf => ?_, fun k _ hk _ => ?_⟩)
  · obtain rfl := eq_of_mem_replicate (hframes ▸ hf)
    refine ⟨trivial, fun m hm => ?_⟩
    obtain rfl := Option.some.inj hm
    exact nofun
  · rw [hframes, filterMap_replicate_of_some (show Submessage.parse padFrame = some ⟨padFrame.1, .pad⟩ from rfl),
      length_replicate] at hk
    unfold InlineQosParser.growthRoom
    omega

/-- Sixty bytes take the receiving thread down, and twenty-eight ask for 96 gigabytes. -/
theorem init_unsafe :
    (init 256 fresh longParameter).result = .panic ∧
      (init 256 fresh manyLocators).requests = [103079215080] := by
  constructor <;> decide

end MessageReceiver

end Int2Dds.Messages
