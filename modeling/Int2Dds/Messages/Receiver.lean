import Int2Dds.Messages.Data
import Int2Dds.Messages.Submessages

/-!
# The message receiver

`MessageReceiver.init` cuts a datagram into submessages and reads the body of each. A body that cannot be read is
dropped; a header that runs past the datagram ends the loop.
-/

namespace Int2Dds.Messages

open Lib Rtps Outcome List

/-! ## Messages -/

inductive SubmessageBody where
  | ackNack (b : AckNack)
  | data (b : Data)
  | dataFrag (b : DataFrag)
  | gap (b : Gap)
  | heartbeat (b : Heartbeat)
  | heartbeatFrag (b : HeartbeatFrag)
  | infoDestination (b : InfoDestination)
  | infoReply (b : InfoReply)
  | infoReplyIp4 (b : InfoReplyIp4)
  | infoSource (b : InfoSource)
  | infoTimestamp (b : InfoTimestamp)
  | nackFrag (b : NackFrag)
  | pad
deriving DecidableEq

structure Submessage where
  header : SubmessageHeader
  body : SubmessageBody
deriving DecidableEq

structure Header where
  protocol : BitVec 32
  version : Byte × Byte
  vendorId : BitVec 16
  guidPrefix : GuidPrefix
deriving DecidableEq

namespace Header

def protocolRtps : BitVec 32 := 0x52545053

def readFrom : Read Header := do
  let protocol ← readOctets 4 32
  let major ← readOctets 1 8
  let minor ← readOctets 1 8
  let vendorId ← readOctets 2 16
  let guidPrefix ← readGuidPrefix
  pure ⟨protocol, (major, minor), vendorId, guidPrefix⟩

def writeTo (h : Header) : Bytes :=
  writeOctets 4 h.protocol ++ (writeOctets 1 h.version.1 ++ (writeOctets 1 h.version.2 ++
    (writeOctets 2 h.vendorId ++ writeGuidPrefix h.guidPrefix)))

/-- 8.3.6.3: the protocol, and a major version of at most 2. -/
def IsValid (h : Header) : Prop := h.protocol = protocolRtps ∧ h.version.1.toNat ≤ 2

instance (h : Header) : Decidable h.IsValid := inferInstanceAs (Decidable (_ ∧ _))

end Header

structure RtpsMessage where
  header : Header
  submessages : List Submessage
deriving DecidableEq

structure RtpsTime where
  seconds : BitVec 32
  fraction : BitVec 32
deriving DecidableEq

/-- The state of the receiver: 8.3.4. -/
structure MessageReceiver where
  sourceVersion : Byte × Byte
  sourceVendorId : BitVec 16
  sourceGuidPrefix : GuidPrefix
  destGuidPrefix : GuidPrefix
  participantGuidPrefix : GuidPrefix
  unicastReplyLocatorList : List Locator
  multicastReplyLocatorList : List Locator
  haveTimestamp : Bool
  timestamp : RtpsTime
deriving DecidableEq

namespace MessageReceiver

variable (r : MessageReceiver) (h : SubmessageHeader)

def fromDestination (b : InfoDestination) : MessageReceiver :=
  { r with destGuidPrefix := if b.guidPrefix ≠ 0 then b.guidPrefix else r.participantGuidPrefix }

def fromReply (b : InfoReply) : MessageReceiver :=
  { r with
    unicastReplyLocatorList := b.unicastLocatorList
    multicastReplyLocatorList := if h.multicastFlag = some true then b.multicastLocatorList else [] }

def fromReplyIp4 (b : InfoReplyIp4) : MessageReceiver :=
  match h.endiannessFlag with
  | some e =>
    { r with
      unicastReplyLocatorList := [b.unicastLocator.toLocator e]
      multicastReplyLocatorList := (b.multicastLocator.map (·.toLocator e)).toList }
  | none => r

def fromSource (b : InfoSource) : MessageReceiver :=
  { r with
    sourceGuidPrefix := b.guidPrefix
    sourceVersion := b.protocolVersion
    sourceVendorId := b.vendorId
    unicastReplyLocatorList := [Locator.invalid]
    multicastReplyLocatorList := [Locator.invalid]
    haveTimestamp := false }

def fromTimestamp (b : InfoTimestamp) : MessageReceiver :=
  if h.invalidateFlag = some false then
    { r with
      haveTimestamp := true
      timestamp := if 0 ≤ b.seconds.toInt then ⟨b.seconds, b.fraction⟩ else ⟨0xffffffff, 0xffffffff⟩ }
  else { r with haveTimestamp := false }

def after (m : Submessage) : MessageReceiver :=
  match m.body with
  | .infoDestination b => r.fromDestination b
  | .infoReply b => r.fromReply m.header b
  | .infoReplyIp4 b => r.fromReplyIp4 m.header b
  | .infoSource b => r.fromSource b
  | .infoTimestamp b => r.fromTimestamp m.header b
  | _ => r

end MessageReceiver

/-! ## Reading a submessage -/

namespace SubmessageHeader

/-- The derived reader, in the default byte order. -/
def readFrom : Read SubmessageHeader := do
  let submessageId ← readOctets 1 8
  let flags ← readOctets 1 8
  let submessageLength ← readU16 .little
  pure ⟨submessageId, flags, submessageLength⟩

/-- The length goes out in the byte order of the E flag. -/
def writeTo (h : SubmessageHeader) : Bytes :=
  h.submessageId :: h.flags :: h.byteOrder.put 2 h.submessageLength.toNat

end SubmessageHeader

namespace Submessage

def bodyOf {α : Type} (wrap : α → SubmessageBody) (x : Outcome RtpsError α) :
    Outcome RtpsError (Option SubmessageBody) :=
  x >>= fun a => pure (some (wrap a))

/-- The body of a submessage, or nothing for an id that is not known. -/
def readBody (h : SubmessageHeader) (bytes : Bytes) : Outcome RtpsError (Option SubmessageBody) :=
  match h.kind with
  | some .acknack => bodyOf .ackNack ((AckNack.deserialize h).runOn bytes)
  | some .data => bodyOf .data (Data.deserialize bytes h)
  | some .dataFrag => bodyOf .dataFrag (DataFrag.deserialize bytes h)
  | some .gap => bodyOf .gap ((Gap.deserialize h).runOn bytes)
  | some .heartbeat => bodyOf .heartbeat ((Heartbeat.deserialize h).runOn bytes)
  | some .heartbeatFrag => bodyOf .heartbeatFrag ((HeartbeatFrag.deserialize h).runOn bytes)
  | some .infoDst => bodyOf .infoDestination ((endiannessOf h >>= fun _ => InfoDestination.readFrom).runOn bytes)
  | some .infoReply => bodyOf .infoReply ((InfoReply.deserialize h).runOn bytes)
  | some .infoReplyIp4 => bodyOf .infoReplyIp4 ((InfoReplyIp4.deserialize h).runOn bytes)
  | some .infoSrc => bodyOf .infoSource ((endiannessOf h >>= InfoSource.readFrom).runOn bytes)
  | some .infoTs => bodyOf .infoTimestamp ((endiannessOf h >>= InfoTimestamp.readFrom).runOn bytes)
  | some .nackFrag => bodyOf .nackFrag ((NackFrag.deserialize h).runOn bytes)
  | some .pad => pure (some .pad)
  | none => pure none

/-- The first submessage of `all`: header, body and what follows. A length of zero stands for all that is left. -/
def split (all : Bytes) : Outcome RtpsError (SubmessageHeader × Bytes × Bytes) := do
  let header ← SubmessageHeader.readFrom.runOn all
  let submessageLen := header.submessageLength.toNat
  let actualBody := if submessageLen = 0 then all.length - 4 else submessageLen
  let requiredLen := 4 + actualBody
  let available := all.length
  require (¬ available < requiredLen)
    (RtpsError.invalidBody s!"Submessage length {requiredLen} exceeds available bytes {available}")
  let current ← slice all 0 requiredLen
  let rest ← slice all requiredLen available
  let body ← slice current 4 current.length
  pure (header, body, rest)

/-- `from_reply` collects the locators of an INFO_REPLY anew. -/
def collectReply (m : Submessage) : Outcome RtpsError Unit :=
  match m.body with
  | .infoReply b => do
    collectSmall Locator.size b.unicastLocatorList.length
    collectSmall Locator.size (if m.header.multicastFlag = some true then b.multicastLocatorList.length else 0)
  | _ => pure ()

/-- The result, the receiver after it, and the bytes left in `all_submessages_bytes`: all where the header could not
be used, else those after the submessage. -/
def readFromBuffer (receiver : MessageReceiver) (all : Bytes) :
    Outcome RtpsError (Except RtpsError (Option Submessage) × MessageReceiver × Bytes) :=
  (split all).attempt >>= fun framed => match framed with
    | .error e => pure (.error e, receiver, all)
    | .ok (header, bytes, rest) =>
      (readBody header bytes).attempt >>= fun read => match read with
        | .error e => pure (.error e, receiver, rest)
        | .ok none => pure (.ok none, receiver, rest)
        | .ok (some body) => do
          collectReply ⟨header, body⟩
          pure (.ok (some ⟨header, body⟩), receiver.after ⟨header, body⟩, rest)

end Submessage

namespace MessageReceiver

/-- The loop stops where nothing is left or nothing was taken; with `n` above the bytes left it never runs out. A
`Submessage` takes `size` bytes in memory. -/
def submessageLoop (size : Nat) :
    Nat → MessageReceiver → List Submessage → Bytes → Outcome RtpsError (List Submessage × MessageReceiver)
  | 0, _, _, _ => Outcome.panic
  | n + 1, receiver, submessages, all =>
    if all = [] then pure (submessages, receiver)
    else do
      let (result, receiver, rest) ← Submessage.readFromBuffer receiver all
      let submessages ← match result with
        | .ok (some submessage) => do
          pushSmall 4 size submessages.length
          pure (submessages ++ [submessage])
        | _ => pure submessages
      if rest.length = all.length then pure (submessages, receiver)
      else submessageLoop size n receiver submessages rest

def rtpsHeaderLength : Nat := 20

def magic : Bytes := [0x52, 0x54, 0x50, 0x53]

def init (size : Nat) (receiver : MessageReceiver) (buffer : Bytes) :
    Outcome RtpsError (RtpsMessage × MessageReceiver) := do
  let length := buffer.length
  require (¬ length < rtpsHeaderLength)
    (RtpsError.new .bufferTooShortForRtpsHeader (some s!"Buffer too short to contain RTPS header: {length}"))
  let first ← slice buffer 0 4
  require (first = magic) (RtpsError.new .invalidRtpsMagic none)
  (Header.readFrom.runOn buffer).onError (Outcome.error ⟨.invalidRtpsHeader, .reader⟩) fun header => do
    require header.IsValid (RtpsError.new .invalidRtpsHeader none)
    let rest ← slice buffer rtpsHeaderLength buffer.length
    let (submessages, receiver) ← submessageLoop size (rest.length + 1) receiver [] rest
    pure (⟨header, submessages⟩, receiver)

end MessageReceiver

/-! ## Framing -/

/-- The length field of a submessage header, as it is read. -/
def lengthField (l0 l1 : Byte) : BitVec 16 := BitVec.ofNat 16 (Endianness.little.get [l0, l1])

/-- The body that this length field stands for, with `rest` after the header. -/
def bodyLength (length : BitVec 16) (rest : Bytes) : Nat := if length.toNat = 0 then rest.length else length.toNat

/-- The headers and bodies that the submessage loop comes to. -/
def frames : Nat → Bytes → List (SubmessageHeader × Bytes)
  | n + 1, id :: flags :: l0 :: l1 :: rest =>
    let length := lengthField l0 l1
    let body := bodyLength length rest
    if body ≤ rest.length then (⟨id, flags, length⟩, rest.take body) :: frames n (rest.drop body) else []
  | _, _ => []

@[simp] theorem frames_nil (n : Nat) : frames n [] = [] := by cases n <;> rfl

theorem frames_cons (n : Nat) (id flags l0 l1 : Byte) (rest : Bytes) :
    frames (n + 1) (id :: flags :: l0 :: l1 :: rest) =
      if bodyLength (lengthField l0 l1) rest ≤ rest.length then
        (⟨id, flags, lengthField l0 l1⟩, rest.take (bodyLength (lengthField l0 l1) rest)) ::
          frames n (rest.drop (bodyLength (lengthField l0 l1) rest))
      else [] := rfl

namespace Submessage

theorem readOctets_cons (b : Byte) (s : Bytes) : readOctets 1 8 (b :: s) = pure (b, s) := by
  have hget : BitVec.ofNat 8 (Endianness.big.get [b]) = b := by
    show BitVec.ofNat 8 (b.toNat + 256 * 0) = b
    rw [Nat.add_zero, BitVec.ofNat_toNat, BitVec.setWidth_eq]
  show pure (BitVec.ofNat 8 (Endianness.big.get [b]), s) = _
  rw [hget]

theorem readFrom_cons (id flags l0 l1 : Byte) (rest : Bytes) :
    SubmessageHeader.readFrom.runOn (id :: flags :: l0 :: l1 :: rest) = pure ⟨id, flags, lengthField l0 l1⟩ := by
  rw [Decoder.runOn, SubmessageHeader.readFrom, Decoder.bind_apply, readOctets_cons, pure_bind, Decoder.bind_apply,
    readOctets_cons]
  rfl

theorem split_cons (id flags l0 l1 : Byte) (rest : Bytes) :
    split (id :: flags :: l0 :: l1 :: rest) =
      if bodyLength (lengthField l0 l1) rest ≤ rest.length then
        pure (⟨id, flags, lengthField l0 l1⟩, rest.take (bodyLength (lengthField l0 l1) rest),
          rest.drop (bodyLength (lengthField l0 l1) rest))
      else
        let requiredLen := 4 + bodyLength (lengthField l0 l1) rest
        let available := (id :: flags :: l0 :: l1 :: rest).length
        Outcome.error (RtpsError.invalidBody
          s!"Submessage length {requiredLen} exceeds available bytes {available}") := by
  have hlen : (id :: flags :: l0 :: l1 :: rest).length = 4 + rest.length := by
    simp only [length_cons]
    omega
  have hbody : (if (lengthField l0 l1).toNat = 0 then (id :: flags :: l0 :: l1 :: rest).length - 4
      else (lengthField l0 l1).toNat) = bodyLength (lengthField l0 l1) rest := by
    rw [bodyLength, hlen, Nat.add_sub_cancel_left]
  rw [split, readFrom_cons, pure_bind]
  dsimp only
  rw [hbody]
  split_ifs with hfits
  · rw [require_of (by omega), slice_of_le ⟨by omega, by omega⟩, pure_bind,
      slice_of_le ⟨by omega, by omega⟩, pure_bind, drop_zero,
      slice_of_le ⟨by rw [length_take]; omega, le_refl _⟩, take_length, take_length,
      Nat.add_comm 4]
    rfl
  · rw [require, if_neg (by omega)]
    rfl

theorem split_cases (all : Bytes) :
    (∃ h body rest, split all = pure (h, body, rest) ∧ rest.length < all.length ∧
      ∀ n, frames (n + 1) all = (h, body) :: frames n rest) ∨
    (∃ e, split all = Outcome.error e ∧ ∀ n, frames n all = []) := by
  match all with
  | [] | [_] | [_, _] | [_, _, _] => exact .inr ⟨_, rfl, fun n => by cases n <;> rfl⟩
  | id :: flags :: l0 :: l1 :: rest =>
    have hsplit := split_cons id flags l0 l1 rest
    split_ifs at hsplit with hfits
    · refine .inl ⟨_, _, _, hsplit, ?_, fun n => ?_⟩
      · rw [length_drop]
        simp only [length_cons]
        omega
      · rw [frames_cons, if_pos hfits]
    · refine .inr ⟨_, hsplit, fun n => ?_⟩
      cases n with
      | zero => rfl
      | succ n => rw [frames_cons, if_neg hfits]

def parse (frame : SubmessageHeader × Bytes) : Option Submessage :=
  match (readBody frame.1 frame.2).result with
  | .ok (some body) => some ⟨frame.1, body⟩
  | _ => none

end Submessage

/-! ## The loop -/

namespace MessageReceiver

open Submessage

def kept (header : SubmessageHeader) (read : Except RtpsError (Option SubmessageBody)) : Option Submessage :=
  match read with
  | .ok (some body) => some ⟨header, body⟩
  | _ => none

/-- What keeping a submessage asks for. -/
def roomFor (size : Nat) (submessages : List Submessage) (o : Option Submessage) : Outcome RtpsError Unit :=
  o.elim (pure ()) fun m => m.collectReply >>= fun _ => pushSmall 4 size submessages.length

variable {size : Nat} {all : Bytes} {n : Nat} {receiver : MessageReceiver} {submessages : List Submessage}

theorem result_collectReply (m : Submessage) : m.collectReply.result = .ok () := by
  unfold collectReply
  split
  · exact result_bind_eq_ok.2 ⟨(), result_requestIf _, result_requestIf _⟩
  · rfl

theorem result_roomFor (o : Option Submessage) : (roomFor size submessages o).result = .ok () := by
  cases o with
  | none => rfl
  | some m => exact result_bind_eq_ok.2 ⟨(), result_collectReply m, result_requestIf _⟩

theorem submessageLoop_of_split {h : SubmessageHeader} {body rest : Bytes} (hsplit : split all = pure (h, body, rest))
    (hrest : rest.length < all.length) :
    submessageLoop size (n + 1) receiver submessages all =
      (readBody h body).attempt >>= fun read => roomFor size submessages (kept h read) >>= fun _ =>
        submessageLoop size n ((kept h read).elim receiver receiver.after)
          (submessages ++ (kept h read).toList) rest := by
  have hne : all ≠ [] := by
    rintro rfl
    exact absurd hrest (Nat.not_lt_zero _)
  have hread : (split all).attempt = (pure (.ok (h, body, rest)) : Outcome RtpsError _) := by rw [hsplit]; rfl
  rw [submessageLoop, if_neg hne, readFromBuffer, hread, pure_bind, bind_assoc]
  congr 1
  funext read
  match read with
  | .error _ | .ok none =>
    show _ = submessageLoop size n receiver (submessages ++ []) rest
    rw [append_nil]
    exact if_neg hrest.ne
  | .ok (some b) =>
    simp only [kept, roomFor, Option.elim_some, Option.toList_some, Outcome.bind_assoc, pure_bind, if_neg hrest.ne]

theorem submessageLoop_of_error {e : RtpsError} (hsplit : split all = Outcome.error e) :
    submessageLoop size (n + 1) receiver submessages all = pure (submessages, receiver) := by
  have hread : (split all).attempt = (pure (.error e) : Outcome RtpsError _) := by rw [hsplit]; rfl
  rw [submessageLoop]
  split_ifs with hnil
  · rfl
  · rw [readFromBuffer, hread]
    exact if_pos rfl

theorem kept_eq {h : SubmessageHeader} {body : Bytes} {read : Except RtpsError (Option SubmessageBody)}
    (hread : ((readBody h body).attempt : Outcome RtpsError _).result = .ok read) : kept h read = parse (h, body) := by
  rcases result_attempt_eq_ok.1 hread with ⟨o, ho, rfl⟩ | ⟨e, he, rfl⟩
  · rw [parse, ho]
    cases o <;> rfl
  · rw [parse, he]
    rfl

/-- The message holds what could be read, in the order of the frames. -/
theorem submessageLoop_result {receiver' : MessageReceiver} {result : List Submessage}
    (h : (submessageLoop size n receiver submessages all).result = .ok (result, receiver')) :
    result = submessages ++ (frames n all).filterMap parse := by
  induction n generalizing receiver submessages all with
  | zero => cases h
  | succ n ih =>
    rcases split_cases all with ⟨header, body, rest, hsplit, hrest, hframes⟩ | ⟨e, hsplit, hframes⟩
    · rw [submessageLoop_of_split hsplit hrest] at h
      obtain ⟨read, hread, hkeep⟩ := result_bind_eq_ok.1 h
      obtain ⟨_, -, hloop⟩ := result_bind_eq_ok.1 hkeep
      rw [ih hloop, kept_eq hread, hframes, filterMap_cons, append_assoc]
      cases parse (header, body) <;> rfl
    · rw [submessageLoop_of_error hsplit] at h
      cases h
      rw [hframes, filterMap_nil, append_nil]

theorem submessageLoop_total (receiver : MessageReceiver) (submessages : List Submessage) (hn : all.length < n)
    (hno : ∀ f ∈ frames n all, (readBody f.1 f.2).result ≠ .panic) :
    ∃ p, (submessageLoop size n receiver submessages all).result = .ok p := by
  induction n generalizing receiver submessages all with
  | zero => omega
  | succ n ih =>
    rcases split_cases all with ⟨header, body, rest, hsplit, hrest, hframes⟩ | ⟨e, hsplit, hframes⟩
    · rw [hframes] at hno
      rw [submessageLoop_of_split hsplit hrest]
      obtain ⟨read, hread⟩ := exists_result_attempt (hno _ mem_cons_self)
      obtain ⟨p, hp⟩ := ih ((kept header read).elim receiver receiver.after)
        (submessages ++ (kept header read).toList) (by omega) (forall_mem_cons.1 hno).2
      exact ⟨p, result_bind_eq_ok.2 ⟨read, hread, result_bind_eq_ok.2 ⟨(), result_roomFor _, hp⟩⟩⟩
    · rw [submessageLoop_of_error hsplit]
      exact ⟨_, rfl⟩

/-- The loop is safe exactly when the reading of every frame is, and there is room for what is kept. -/
theorem safe_submessageLoop_iff {bound : Nat} (hn : all.length < n) :
    (submessageLoop size n receiver submessages all).Safe bound ↔
      (∀ f ∈ frames n all, (readBody f.1 f.2).Safe bound ∧ ∀ m, parse f = some m → m.collectReply.Safe bound) ∧
        GrowsWithin bound 4 size submessages.length ((frames n all).filterMap parse).length := by
  induction n generalizing receiver submessages all with
  | zero => omega
  | succ n ih =>
    rcases split_cases all with ⟨header, body, rest, hsplit, hrest, hframes⟩ | ⟨e, hsplit, hframes⟩
    · rw [submessageLoop_of_split hsplit hrest, safe_bind, safe_attempt, hframes, forall_mem_cons, and_assoc, and_assoc]
      apply and_congr_right
      intro hbody
      obtain ⟨read, hread⟩ := exists_result_attempt (δ := RtpsError) hbody.1
      simp only [hread, Result.ok.injEq, forall_eq', kept_eq hread]
      rw [safe_bind_of_ok (result_roomFor _)]
      cases hparse : parse (header, body) with
      | none =>
        rw [filterMap_cons_none hparse, ih (by omega)]
        simp [roomFor]
      | some m =>
        rw [filterMap_cons_some hparse, ih (by omega), length_cons, growsWithin_succ, length_append]
        rw [roomFor, Option.elim_some, safe_bind_of_ok (result_collectReply m), pushSmall, safe_requestIf]
        simp [and_assoc, and_left_comm]
    · rw [submessageLoop_of_error hsplit, hframes]
      exact iff_of_true (Outcome.safe_pure _) ⟨forall_mem_nil _, growsWithin_zero⟩

end MessageReceiver

end Int2Dds.Messages
