import Int2Dds.Messages.Safety

/-!
# Framing: which messages are read back

A message is an RTPS header and a list of submessages, each in its own byte order, with the length of its body in
that byte order too. `init_reads_iff` says which messages `MessageReceiver.init` reads back as the list that was
written:

* the length field is read little-endian, so a big-endian submessage needs a length whose two octets are equal;
* a length of zero stands for the rest of the message, so an empty body is read only at the end;
* an INFO_TS without a timestamp is read as one with a timestamp, and fails;
* a timestamp is rounded down twice on its way.
-/

namespace Int2Dds.Messages

open Lib Rtps List Decoder

/-! ## Submessages to send -/

inductive Sendable where
  | ackNack (b : AckNack)
  | gap (b : Gap)
  | heartbeat (b : Heartbeat)
  | heartbeatFrag (b : HeartbeatFrag)
  | nackFrag (b : NackFrag)
  | infoDestination (b : InfoDestination)
  /-- With InvalidateFlag there is no timestamp. -/
  | infoTimestamp (b : Option InfoTimestamp)
  | pad (padding : Bytes)
deriving DecidableEq

namespace Sendable

def kind : Sendable → SubmessageKind
  | .ackNack _ => .acknack
  | .gap _ => .gap
  | .heartbeat _ => .heartbeat
  | .heartbeatFrag _ => .heartbeatFrag
  | .nackFrag _ => .nackFrag
  | .infoDestination _ => .infoDst
  | .infoTimestamp _ => .infoTs
  | .pad _ => .pad

def write (e : Endianness) : Sendable → Bytes
  | .ackNack b => b.writeTo e
  | .gap b => b.writeTo e
  | .heartbeat b => b.writeTo e
  | .heartbeatFrag b => b.writeTo e
  | .nackFrag b => b.writeTo e
  | .infoDestination b => b.writeTo
  | .infoTimestamp b => b.elim [] (InfoTimestamp.writeTo e)
  | .pad padding => padding

/-- `body` is what was sent. Whatever an INFO_TS without a timestamp is read as, it is an INFO_TS. -/
def IsReadAs (sent : Sendable) (body : SubmessageBody) : Prop :=
  match sent with
  | .ackNack b => body = .ackNack b
  | .gap b => body = .gap b
  | .heartbeat b => body = .heartbeat b
  | .heartbeatFrag b => body = .heartbeatFrag b
  | .nackFrag b => body = .nackFrag b
  | .infoDestination b => body = .infoDestination b
  | .infoTimestamp (some t) => body = .infoTimestamp t
  | .infoTimestamp none => ∃ t, body = .infoTimestamp t
  | .pad _ => body = .pad

instance decidableIsReadAs (sent : Sendable) (body : SubmessageBody) : Decidable (sent.IsReadAs body) :=
  match sent with
  | .ackNack b => inferInstanceAs (Decidable (body = .ackNack b))
  | .gap b => inferInstanceAs (Decidable (body = .gap b))
  | .heartbeat b => inferInstanceAs (Decidable (body = .heartbeat b))
  | .heartbeatFrag b => inferInstanceAs (Decidable (body = .heartbeatFrag b))
  | .nackFrag b => inferInstanceAs (Decidable (body = .nackFrag b))
  | .infoDestination b => inferInstanceAs (Decidable (body = .infoDestination b))
  | .infoTimestamp (some t) => inferInstanceAs (Decidable (body = .infoTimestamp t))
  | .infoTimestamp none =>
    match body with
    | .infoTimestamp t => isTrue ⟨t, rfl⟩
    | .ackNack _ | .data _ | .dataFrag _ | .gap _ | .heartbeat _ | .heartbeatFrag _ | .infoDestination _
    | .infoReply _ | .infoReplyIp4 _ | .infoSource _ | .nackFrag _ | .pad => isFalse nofun
  | .pad _ => inferInstanceAs (Decidable (body = .pad))

/-- A body that the receiver's checks accept, with the flags in `h` that say what it holds. -/
def Valid (h : SubmessageHeader) : Sendable → Prop
  | .ackNack b => b.Valid
  | .gap b => b.Valid h
  | .heartbeat b => b.Valid h
  | .heartbeatFrag b => b.Valid
  | .nackFrag b => b.Valid
  | .infoTimestamp b => h.invalidateFlag = some b.isNone
  | .infoDestination _ | .pad _ => True

def read : Sendable → Option SubmessageBody
  | .ackNack b => some (.ackNack b)
  | .gap b => some (.gap b)
  | .heartbeat b => some (.heartbeat b)
  | .heartbeatFrag b => some (.heartbeatFrag b)
  | .nackFrag b => some (.nackFrag b)
  | .infoDestination b => some (.infoDestination b)
  | .infoTimestamp b => b.map fun t => .infoTimestamp (InfoTimestamp.ofFraction t.seconds t.fraction)
  | .pad _ => some .pad

/-- A timestamp that is there, and survives being rounded to 2^-32 seconds. -/
def KeepsTime : Sendable → Prop
  | .infoTimestamp none => False
  | .infoTimestamp (some t) => 1953125 ∣ t.nanos.val
  | _ => True

instance decidableKeepsTime : DecidablePred KeepsTime
  | .infoTimestamp none => isFalse id
  | .infoTimestamp (some t) => inferInstanceAs (Decidable (1953125 ∣ t.nanos.val))
  | .ackNack _ | .gap _ | .heartbeat _ | .heartbeatFrag _ | .nackFrag _ | .infoDestination _ | .pad _ => isTrue trivial

end Sendable

/-- A submessage to send: its flags, the byte order among them, and its body. -/
structure Sent where
  flags : Byte
  body : Sendable
deriving DecidableEq

namespace Sent

def byteOrder (m : Sent) : Endianness := (SubmessageHeader.mk m.body.kind.id m.flags 0).byteOrder

def bodyBytes (m : Sent) : Bytes := m.body.write m.byteOrder

/-- The header, with `octetsToNextHeader` the length of the body. -/
def header (m : Sent) : SubmessageHeader := ⟨m.body.kind.id, m.flags, BitVec.ofNat 16 m.bodyBytes.length⟩

def encode (m : Sent) : Bytes := m.header.writeTo ++ m.bodyBytes

structure Valid (m : Sent) : Prop where
  body : m.body.Valid m.header
  length : m.bodyBytes.length < 2 ^ 16

def IsReadAs (m : Sent) (s : Submessage) : Prop := s.header = m.header ∧ m.body.IsReadAs s.body

instance (m : Sent) (s : Submessage) : Decidable (m.IsReadAs s) := inferInstanceAs (Decidable (_ ∧ _))

/-- The length field means the same in the byte order of `m` and in little-endian. -/
def LengthReads (m : Sent) : Prop :=
  m.byteOrder = .little ∨ m.bodyBytes.length % 256 = m.bodyBytes.length / 256

instance : DecidablePred LengthReads := fun _ => inferInstanceAs (Decidable (_ ∨ _))

@[simp] theorem byteOrder_header (m : Sent) : m.header.byteOrder = m.byteOrder := rfl

@[simp] theorem kind_header (m : Sent) : m.header.kind = some m.body.kind := SubmessageKind.ofId_id _

end Sent

/-- Every submessage says where it ends, and holds what survives the reading. -/
structure Delimited (ms : List Sent) : Prop where
  length : ∀ m ∈ ms, m.LengthReads
  time : ∀ m ∈ ms, m.body.KeepsTime
  nonempty : ∀ m ∈ ms.dropLast, m.bodyBytes ≠ []

instance (ms : List Sent) : Decidable (Delimited ms) :=
  decidable_of_iff ((∀ m ∈ ms, m.LengthReads) ∧ (∀ m ∈ ms, m.body.KeepsTime) ∧ ∀ m ∈ ms.dropLast, m.bodyBytes ≠ [])
    ⟨fun h => ⟨h.1, h.2.1, h.2.2⟩, fun h => ⟨h.length, h.time, h.nonempty⟩⟩

def encodeAll (ms : List Sent) : Bytes := ms.flatMap Sent.encode

/-! ## Bodies -/

namespace Sent

open Submessage

theorem bodyOf_result {α : Type} {wrap : α → SubmessageBody} {x : Outcome RtpsError α} {a : α}
    (hx : x.result = .ok a) : (bodyOf wrap x).result = .ok (some (wrap a)) :=
  Outcome.result_bind_eq_ok.2 ⟨a, hx, rfl⟩

theorem runOn_result {α : Type} {d : Read α} {bytes : Bytes} {a : α} (hd : d.Decodes bytes a) :
    (d.runOn bytes).result = .ok a := by
  have h := hd.runOn []
  rwa [append_nil] at h

variable {m : Sent}

theorem readBody_result (hm : m.Valid) {b : SubmessageBody} (hb : m.body.read = some b) :
    (readBody m.header m.bodyBytes).result = .ok (some b) := by
  have hk := m.kind_header
  have hvalid := hm.body
  obtain ⟨flags, body⟩ := m
  cases body with
  | ackNack a =>
    cases hb
    exact bodyOf_result (runOn_result (AckNack.decodes hk hvalid))
  | gap g =>
    cases hb
    exact bodyOf_result (runOn_result (Gap.decodes hk hvalid))
  | heartbeat h =>
    cases hb
    exact bodyOf_result (runOn_result (Heartbeat.decodes hk hvalid))
  | heartbeatFrag h =>
    cases hb
    exact bodyOf_result (runOn_result (HeartbeatFrag.decodes hk hvalid))
  | nackFrag n =>
    cases hb
    exact bodyOf_result (runOn_result (NackFrag.decodes hk hvalid))
  | infoDestination d =>
    cases hb
    exact bodyOf_result (runOn_result ((decodes_endiannessOf hk).bind_nil (InfoDestination.decodes d)))
  | infoTimestamp o =>
    obtain ⟨t, rfl, rfl⟩ := Option.map_eq_some_iff.1 hb
    exact bodyOf_result (runOn_result ((decodes_endiannessOf hk).bind_nil (InfoTimestamp.decodes _ t)))
  | pad padding =>
    cases hb
    rfl

theorem parse_isReadAs_iff (hm : m.Valid) :
    (∃ s, parse (m.header, m.bodyBytes) = some s ∧ m.IsReadAs s) ↔ m.body.KeepsTime := by
  have hparse {b : SubmessageBody} (hb : m.body.read = some b) :
      parse (m.header, m.bodyBytes) = some ⟨m.header, b⟩ := by
    rw [parse, readBody_result hm hb]
  have hsame {b : SubmessageBody} (hb : m.body.read = some b) (hread : m.body.IsReadAs b) :
      ∃ s, parse (m.header, m.bodyBytes) = some s ∧ m.IsReadAs s := ⟨_, hparse hb, rfl, hread⟩
  obtain ⟨flags, body⟩ := m
  cases body with
  | ackNack | gap | heartbeat | heartbeatFrag | nackFrag | infoDestination | pad =>
    exact iff_of_true (hsame rfl rfl) trivial
  | infoTimestamp o =>
    cases o with
    | none =>
      refine iff_of_false ?_ id
      rintro ⟨s, hs, -⟩
      cases hs
    | some t =>
      show _ ↔ 1953125 ∣ t.nanos.val
      rw [← InfoTimestamp.ofFraction_fraction_eq_iff, hparse rfl]
      constructor
      · rintro ⟨s, hs, -, hread⟩
        cases hs
        exact SubmessageBody.infoTimestamp.inj hread
      · intro ht
        exact ⟨_, rfl, rfl, congrArg _ ht⟩

/-! ## Length fields -/

theorem encode_eq (m : Sent) : ∃ l0 l1, m.encode = m.body.kind.id :: m.flags :: l0 :: l1 :: m.bodyBytes ∧
    [l0, l1] = m.byteOrder.put 2 m.header.submessageLength.toNat := by
  obtain ⟨l0, l1, hput⟩ : ∃ l0 l1, m.byteOrder.put 2 m.header.submessageLength.toNat = [l0, l1] :=
    length_eq_two.1 (Endianness.length_put _ _ _)
  refine ⟨l0, l1, ?_, hput.symm⟩
  rw [encode, SubmessageHeader.writeTo, byteOrder_header, hput]
  rfl

theorem length_encode : m.encode.length = 4 + m.bodyBytes.length := by
  obtain ⟨l0, l1, henc, -⟩ := m.encode_eq
  rw [henc]
  simp only [length_cons]
  omega

theorem toNat_submessageLength (hm : m.Valid) : m.header.submessageLength.toNat = m.bodyBytes.length := by
  exact Nat.mod_eq_of_lt hm.length

theorem lengthField_eq_iff (hm : m.Valid) {l0 l1 : Byte}
    (hput : [l0, l1] = m.byteOrder.put 2 m.header.submessageLength.toNat) :
    lengthField l0 l1 = m.header.submessageLength ↔ m.LengthReads := by
  have hlt := hm.length
  rw [toNat_submessageLength hm] at hput
  unfold LengthReads
  cases he : m.byteOrder with
  | little =>
    refine iff_of_true ?_ (.inl rfl)
    rw [lengthField, hput, he, Endianness.get_put_of_lt _ hlt]
    rfl
  | big =>
    rw [he] at hput
    obtain ⟨rfl, rfl⟩ : l0 = BitVec.ofNat 8 (m.bodyBytes.length / 256) ∧ l1 = BitVec.ofNat 8 m.bodyBytes.length := by
      simpa [Endianness.put, leBytes] using hput
    have hfield : (lengthField (BitVec.ofNat 8 (m.bodyBytes.length / 256)) (BitVec.ofNat 8 m.bodyBytes.length)).toNat =
        m.bodyBytes.length / 256 + 256 * (m.bodyBytes.length % 256) := by
      have hhigh : m.bodyBytes.length / 256 % 2 ^ 8 = m.bodyBytes.length / 256 := Nat.mod_eq_of_lt (by omega)
      simp only [lengthField, Endianness.get, ofLeBytes, BitVec.toNat_ofNat, hhigh]
      exact Nat.mod_eq_of_lt (by omega)
    rw [← BitVec.toNat_inj, toNat_submessageLength hm]
    simp only [reduceCtorEq, false_or]
    omega

end Sent

/-! ## Messages -/

section Messages

open Submessage

theorem parse_header {f : SubmessageHeader × Bytes} {s : Submessage} (h : parse f = some s) : s.header = f.1 := by
  unfold parse at h
  split at h
  · cases h
    rfl
  · cases h

theorem encodeAll_cons (m : Sent) (ms : List Sent) : encodeAll (m :: ms) = m.encode ++ encodeAll ms :=
  flatMap_cons

variable {m : Sent} {ms : List Sent} {n : Nat}

theorem delimited_cons_iff :
    Delimited (m :: ms) ↔ m.LengthReads ∧ m.body.KeepsTime ∧ (m.bodyBytes = [] → ms = []) ∧ Delimited ms := by
  constructor
  · intro h
    refine ⟨h.length m mem_cons_self, h.time m mem_cons_self, fun hnil => ?_, ?_⟩
    · by_contra hne
      refine h.nonempty m ?_ hnil
      rw [dropLast_cons_of_ne_nil hne]
      exact mem_cons_self
    · refine ⟨(forall_mem_cons.1 h.length).2, fun x hx => h.time x (mem_cons_of_mem _ hx),
        fun x hx => h.nonempty x ?_⟩
      have hne : ms ≠ [] := by
        rintro rfl
        cases hx
      rw [dropLast_cons_of_ne_nil hne]
      exact mem_cons_of_mem _ hx
  · rintro ⟨hlength, htime, hlast, hrest⟩
    refine ⟨forall_mem_cons.2 ⟨hlength, hrest.length⟩, forall_mem_cons.2 ⟨htime, hrest.time⟩, ?_⟩
    by_cases hne : ms = []
    · rw [hne]
      exact nofun
    · rw [dropLast_cons_of_ne_nil hne]
      exact forall_mem_cons.2 ⟨fun hnil => hne (hlast hnil), hrest.nonempty⟩

theorem length_le_of_isReadAs {bytes : Bytes} (hms : ∀ m ∈ ms, m.Valid)
    (h : Forall₂ Sent.IsReadAs ms ((frames n bytes).filterMap parse)) : (encodeAll ms).length ≤ bytes.length := by
  induction n generalizing bytes ms with
  | zero =>
    cases h
    exact Nat.zero_le _
  | succ n ih =>
    match bytes with
    | [] | [_] | [_, _] | [_, _, _] =>
      cases h
      exact Nat.zero_le _
    | id :: flags :: l0 :: l1 :: rest =>
      rw [frames_cons] at h
      split_ifs at h with hfits
      swap
      · cases h
        exact Nat.zero_le _
      have hdrop : (rest.drop (bodyLength (lengthField l0 l1) rest)).length =
          rest.length - bodyLength (lengthField l0 l1) rest := length_drop
      rw [filterMap_cons] at h
      split at h
      · have := ih hms h
        simp only [length_cons]
        omega
      · rename_i s hs
        cases h with
        | @cons m _ ms _ hread hrest =>
          have hm := hms m mem_cons_self
          have hlength : (lengthField l0 l1).toNat = m.bodyBytes.length := by
            rw [← Sent.toNat_submessageLength hm, ← hread.1, parse_header hs]
          have hbody : m.bodyBytes.length ≤ bodyLength (lengthField l0 l1) rest := by
            unfold bodyLength
            split_ifs <;> omega
          have := ih (forall_mem_cons.1 hms).2 hrest
          rw [encodeAll_cons, length_append, Sent.length_encode]
          simp only [length_cons]
          omega

/-- A first frame that is dropped leaves too few bytes for the rest of the list. -/
theorem isReadAs_cons_iff {rest : Bytes} {f : SubmessageHeader × Bytes} (hms : ∀ x ∈ m :: ms, x.Valid)
    (hrest : rest.length < (encodeAll (m :: ms)).length) :
    Forall₂ Sent.IsReadAs (m :: ms) ((f :: frames n rest).filterMap parse) ↔
      (∃ s, parse f = some s ∧ m.IsReadAs s) ∧ Forall₂ Sent.IsReadAs ms ((frames n rest).filterMap parse) := by
  cases hf : parse f with
  | none =>
    rw [filterMap_cons_none hf]
    refine iff_of_false (fun h => ?_) (by simp)
    have := length_le_of_isReadAs hms h
    omega
  | some s =>
    rw [filterMap_cons_some hf]
    simp

/-- A length that is read as it was meant cuts the message where it should, unless it is zero. -/
theorem frames_encodeAll_cons (hm : m.Valid) (hreads : m.LengthReads) :
    frames (n + 1) (encodeAll (m :: ms)) =
      if m.bodyBytes = [] then (m.header, encodeAll ms) :: frames n []
      else (m.header, m.bodyBytes) :: frames n (encodeAll ms) := by
  obtain ⟨l0, l1, henc, hput⟩ := m.encode_eq
  have hfield := (Sent.lengthField_eq_iff hm hput).2 hreads
  have hlength : (lengthField l0 l1).toNat = m.bodyBytes.length := by
    rw [hfield, Sent.toNat_submessageLength hm]
  have hheader : SubmessageHeader.mk m.body.kind.id m.flags (lengthField l0 l1) = m.header := by
    rw [hfield]
    rfl
  rw [encodeAll_cons, henc, cons_append, cons_append, cons_append, cons_append, frames_cons, hheader,
    bodyLength, hlength]
  by_cases hempty : m.bodyBytes = []
  · rw [if_pos hempty, hempty, nil_append, length_nil, if_pos rfl, if_pos (le_refl _), take_length,
      drop_length]
  · have hpos : m.bodyBytes.length ≠ 0 := mt length_eq_zero_iff.1 hempty
    have hle : m.bodyBytes.length ≤ (m.bodyBytes ++ encodeAll ms).length := by
      rw [length_append]
      omega
    rw [if_neg hempty, if_neg hpos, if_pos hle, take_left, drop_left]

theorem lengthReads_of_isReadAs (hms : ∀ x ∈ m :: ms, x.Valid)
    (h : Forall₂ Sent.IsReadAs (m :: ms) ((frames (n + 1) (encodeAll (m :: ms))).filterMap parse)) :
    m.LengthReads := by
  have hm := hms m mem_cons_self
  obtain ⟨l0, l1, henc, hput⟩ := m.encode_eq
  rw [encodeAll_cons, henc, cons_append, cons_append, cons_append, cons_append, frames_cons] at h
  split_ifs at h with hfits
  · have hlt :
        ((m.bodyBytes ++ encodeAll ms).drop (bodyLength (lengthField l0 l1) (m.bodyBytes ++ encodeAll ms))).length <
        (encodeAll (m :: ms)).length := by
      rw [encodeAll_cons, length_append, Sent.length_encode, length_drop, length_append]
      omega
    obtain ⟨⟨s, hs, hread⟩, -⟩ := (isReadAs_cons_iff hms hlt).1 h
    rw [← Sent.lengthField_eq_iff hm hput, ← hread.1, parse_header hs]
  · cases h

variable (hms : ∀ m ∈ ms, m.Valid)
include hms

theorem delimited_of_isReadAs (hn : (encodeAll ms).length < n)
    (h : Forall₂ Sent.IsReadAs ms ((frames n (encodeAll ms)).filterMap parse)) : Delimited ms := by
  induction ms generalizing n with
  | nil => exact ⟨nofun, nofun, nofun⟩
  | cons m ms ih =>
    have hm := hms m mem_cons_self
    have hlen : (encodeAll (m :: ms)).length = 4 + m.bodyBytes.length + (encodeAll ms).length := by
      rw [encodeAll_cons, length_append, Sent.length_encode]
    obtain ⟨n, rfl⟩ : ∃ k, n = k + 1 := ⟨n - 1, by omega⟩
    have hreads := lengthReads_of_isReadAs hms h
    rw [frames_encodeAll_cons hm hreads] at h
    rw [delimited_cons_iff]
    split_ifs at h with hempty
    · -- the body is taken to be everything that follows, so nothing may follow
      obtain ⟨hread, hrest⟩ := (isReadAs_cons_iff hms (by rw [length_nil]; omega)).1 h
      rw [frames_nil, filterMap_nil, forall₂_nil_right_iff] at hrest
      subst hrest
      have htime := (Sent.parse_isReadAs_iff hm).1 (by rw [hempty]; exact hread)
      exact ⟨hreads, htime, fun _ => rfl, nofun, nofun, nofun⟩
    · obtain ⟨hread, hrest⟩ := (isReadAs_cons_iff hms (by omega)).1 h
      refine ⟨hreads, (Sent.parse_isReadAs_iff hm).1 hread, fun hnil => absurd hnil hempty, ?_⟩
      exact ih (forall_mem_cons.1 hms).2 (by omega) hrest

theorem frames_of_delimited (hn : (encodeAll ms).length < n) (h : Delimited ms) :
    frames n (encodeAll ms) = ms.map fun m => (m.header, m.bodyBytes) := by
  induction ms generalizing n with
  | nil => exact frames_nil n
  | cons m ms ih =>
    rw [encodeAll_cons, length_append, Sent.length_encode] at hn
    obtain ⟨n, rfl⟩ : ∃ k, n = k + 1 := ⟨n - 1, by omega⟩
    obtain ⟨hreads, -, hlast, hrest⟩ := delimited_cons_iff.1 h
    rw [frames_encodeAll_cons (hms m mem_cons_self) hreads, map_cons]
    split_ifs with hempty
    · obtain rfl := hlast hempty
      rw [hempty, frames_nil]
      rfl
    · rw [ih (forall_mem_cons.1 hms).2 (by omega) hrest]

theorem isReadAs_of_keepsTime (htime : ∀ m ∈ ms, m.body.KeepsTime) :
    Forall₂ Sent.IsReadAs ms ((ms.map fun m => (m.header, m.bodyBytes)).filterMap parse) := by
  induction ms with
  | nil => exact .nil
  | cons m ms ih =>
    obtain ⟨s, hs, hread⟩ := (Sent.parse_isReadAs_iff (hms m mem_cons_self)).2 (htime m mem_cons_self)
    rw [map_cons, filterMap_cons_some hs]
    exact .cons hread (ih (forall_mem_cons.1 hms).2 (forall_mem_cons.1 htime).2)

end Messages

namespace Header

@[simp] theorem length_writeTo (h : Header) : h.writeTo.length = MessageReceiver.rtpsHeaderLength := by
  simp [writeTo, writeOctets, writeGuidPrefix, MessageReceiver.rtpsHeaderLength]

theorem decodes (h : Header) : readFrom.Decodes h.writeTo h := by
  apply (decodes_word _ .big (by decide) h.protocol).bind
  apply (decodes_word _ .big (by decide) h.version.1).bind
  apply (decodes_word _ .big (by decide) h.version.2).bind
  apply (decodes_word _ .big (by decide) h.vendorId).bind
  exact (decodes_readGuidPrefix h.guidPrefix).bind_pure (Header.mk h.protocol h.version h.vendorId)

end Header

namespace MessageReceiver

def message (header : Header) (ms : List Sent) : Bytes := header.writeTo ++ encodeAll ms

def ReadsBack (size : Nat) (receiver : MessageReceiver) (header : Header) (ms : List Sent) : Prop :=
  ∃ result receiver', (init size receiver (message header ms)).result = .ok (result, receiver') ∧
    result.header = header ∧ List.Forall₂ Sent.IsReadAs ms result.submessages

instance (size : Nat) (receiver : MessageReceiver) (header : Header) (ms : List Sent) :
    Decidable (ReadsBack size receiver header ms) :=
  match h : (init size receiver (message header ms)).result with
  | .ok (result, receiver') =>
    decidable_of_iff (result.header = header ∧ List.Forall₂ Sent.IsReadAs ms result.submessages)
      ⟨fun hread => ⟨result, receiver', h, hread⟩, fun ⟨_, _, hok, hread⟩ => by cases h.symm.trans hok; exact hread⟩
  | .error _ => isFalse fun ⟨_, _, hok, _⟩ => by cases h.symm.trans hok
  | .panic => isFalse fun ⟨_, _, hok, _⟩ => by cases h.symm.trans hok

theorem headerAt_message (header : Header) (ms : List Sent) : headerAt (message header ms) = header := by
  have hread : (Header.readFrom.runOn (message header ms)).result = .ok header := header.decodes.runOn _
  exact Result.ok.inj hread

theorem headerAccepted_message {header : Header} (h : header.IsValid) (ms : List Sent) :
    HeaderAccepted (message header ms) := by
  refine ⟨?_, ?_, ?_⟩
  · rw [message, length_append, Header.length_writeTo]
    omega
  · rw [message, Header.writeTo, h.1, append_assoc, take_left' (by rfl)]
    decide
  · rw [headerAt_message]
    exact h

theorem init_message (size : Nat) (receiver : MessageReceiver) {header : Header} (hheader : header.IsValid)
    (ms : List Sent) :
    init size receiver (message header ms) =
      submessageLoop size ((encodeAll ms).length + 1) receiver [] (encodeAll ms) >>= fun p =>
        pure (⟨header, p.1⟩, p.2) := by
  have hrest : (message header ms).drop rtpsHeaderLength = encodeAll ms := by
    rw [message, drop_left' header.length_writeTo]
  rw [init_of_accepted (headerAccepted_message hheader ms), hrest, headerAt_message]

/-- A list of valid submessages is read back exactly when it is delimited. -/
theorem init_reads_iff (size : Nat) (receiver : MessageReceiver) (header : Header) (hheader : header.IsValid)
    (ms : List Sent) (hms : ∀ m ∈ ms, m.Valid) : ReadsBack size receiver header ms ↔ Delimited ms := by
  rw [ReadsBack, init_message size receiver hheader]
  constructor
  · rintro ⟨result, receiver', hok, -, hall⟩
    obtain ⟨p, hloop, hpure⟩ := Outcome.result_bind_eq_ok.1 hok
    have hsub := submessageLoop_result hloop
    cases hpure
    rw [nil_append] at hsub
    apply delimited_of_isReadAs hms (Nat.lt_succ_self _)
    rw [← hsub]
    exact hall
  · intro h
    have hframes := frames_of_delimited hms (Nat.lt_succ_self _) h
    have hread := isReadAs_of_keepsTime hms h.time
    have hno : ∀ f ∈ frames ((encodeAll ms).length + 1) (encodeAll ms),
        (Submessage.readBody f.1 f.2).result ≠ .panic := by
      rw [hframes]
      intro f hf hpanic
      obtain ⟨m, hm, rfl⟩ := mem_map.1 hf
      obtain ⟨s, hs, -⟩ := (Sent.parse_isReadAs_iff (hms m hm)).2 (h.time m hm)
      rw [Submessage.parse, hpanic] at hs
      cases hs
    obtain ⟨p, hp⟩ := submessageLoop_total receiver [] (Nat.lt_succ_self _) hno
    have hsub := submessageLoop_result hp
    rw [hframes] at hsub
    refine ⟨⟨header, p.1⟩, p.2, Outcome.result_bind_eq_ok.2 ⟨p, hp, rfl⟩, rfl, ?_⟩
    rw [hsub]
    exact hread

def messageHeader : Header := ⟨Header.protocolRtps, (2, 5), 0x0141, 1⟩

def infoDst (flags : Byte) : Sent := ⟨flags, .infoDestination ⟨1⟩⟩

/-- INFO_DST and half past seven seconds, both little-endian. -/
def dated : List Sent := [infoDst 1, ⟨1, .infoTimestamp (some ⟨7, 500000000⟩)⟩]

theorem init_reads_dated : ReadsBack 256 fresh messageHeader dated := by
  refine (init_reads_iff 256 fresh messageHeader (by decide) dated ?_).2 (by decide)
  intro m hm
  obtain rfl | rfl : m = infoDst 1 ∨ m = ⟨1, .infoTimestamp (some ⟨7, 500000000⟩)⟩ := by
    simpa [dated] using hm
  · exact ⟨trivial, by decide⟩
  · exact ⟨rfl, by decide⟩

/-- A big-endian submessage, one after an empty PAD, an INFO_TS without a timestamp and a nanosecond are lost. -/
theorem init_loses :
    ¬ ReadsBack 256 fresh messageHeader [infoDst 0] ∧
      ¬ ReadsBack 256 fresh messageHeader [⟨1, .pad []⟩, infoDst 1] ∧
      ¬ ReadsBack 256 fresh messageHeader [⟨3, .infoTimestamp none⟩] ∧
      ¬ ReadsBack 256 fresh messageHeader [⟨1, .infoTimestamp (some ⟨0, 1⟩)⟩] := by
  refine ⟨?_, ?_, ?_, ?_⟩ <;> decide

end MessageReceiver

end Int2Dds.Messages
