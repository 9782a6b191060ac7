import Int2Dds.Lib.Run
import Int2Dds.Tcp.Framing

/-!
# The frames do not depend on how the stream is cut

However a stream of frames is cut into chunks, and wherever it blocks or is interrupted, the calls of `readAvailable`
hand out the frames one by one, each as soon as it is received whole (`frames_of_any_chunks`).

* `rank_turn` : every turn of the loop brings it nearer to its end, so a call returns on every stream.
* `BufferRequest.allocated_le_iff` : what is allocated for a frame is no more than the largest frame exactly if the
  request is `Served`; `recycled_buffer_outgrows` : a request that is not.
-/

namespace Int2Dds.Tcp
open Lib Messages List

/-! ## Streams -/

def ReadEvent.bytes : ReadEvent → Bytes
  | .data bs => bs
  | _ => []

def bytesOf (stream : List ReadEvent) : Bytes := stream.flatMap ReadEvent.bytes

def blocks (stream : List ReadEvent) : Nat := stream.count .wouldBlock

/-- No error but that it blocks or is interrupted, and no end before the last byte. -/
def Clean (stream : List ReadEvent) : Prop := ∀ event ∈ stream, event ≠ .failed ∧ event ≠ .data []

instance (stream : List ReadEvent) : Decidable (Clean stream) := inferInstanceAs (Decidable (∀ _ ∈ _, _))

inductive Reads (n : Nat) (stream : List ReadEvent) : ReadEvent × List ReadEvent → Prop
  | eof {stream' : List ReadEvent} (ended : Clean stream → stream = [] ∧ stream' = []) :
      Reads n stream (.data [], stream')
  | data {bs : Bytes} {stream' : List ReadEvent} (ne : bs ≠ []) (fits : bs.length ≤ n)
      (bytes : bytesOf stream = bs ++ bytesOf stream') (lighter : Connection.weight stream' < Connection.weight stream)
      (clean : Clean stream → Clean stream') (same : blocks stream' = blocks stream) :
      Reads n stream (.data bs, stream')
  | event {event : ReadEvent} {stream' : List ReadEvent} (noData : ∀ bs, event ≠ .data bs)
      (split : stream = event :: stream') : Reads n stream (event, stream')

theorem reads_readStream {n : Nat} (hn : 0 < n) (stream : List ReadEvent) : Reads n stream (readStream n stream) := by
  cases stream with
  | nil => exact .eof fun _ => ⟨rfl, rfl⟩
  | cons event rest => cases event with
    | data bs =>
      rw [readStream]
      by_cases hbs : bs = []
      · subst hbs
        rw [take_nil]
        exact .eof fun hclean => absurd rfl (hclean _ mem_cons_self).2
      · have hne : bs.take n ≠ [] := by
          rw [ne_eq, take_eq_nil_iff, not_or]
          exact ⟨by omega, hbs⟩
        have hle : (bs.take n).length ≤ n := length_take_le n bs
        split_ifs with hmore
        · refine .data hne hle ?_ ?_ (fun hclean event hevent => ?_) ?_
          · simp [bytesOf, ReadEvent.bytes, ← append_assoc]
          · simp [Connection.weight]
            omega
          · rcases mem_cons.1 hevent with rfl | hevent
            · simp
              omega
            · exact hclean event (mem_cons_of_mem _ hevent)
          · simp [blocks]
        · have hall : bs.take n = bs := take_of_length_le (by omega)
          rw [hall]
          refine .data hbs (by omega) ?_ ?_ (fun hclean event hevent => hclean event (mem_cons_of_mem _ hevent)) ?_
          · simp [bytesOf, ReadEvent.bytes]
          · simp [Connection.weight]
          · simp [blocks]
    | interrupted => exact .event (by simp) rfl
    | wouldBlock => exact .event (by simp) rfl
    | failed => exact .event (by simp) rfl
    | released i => exact .event (by simp) rfl

/-! ## The loop ends -/

namespace Connection

inductive Turns (c : Connection) : Turn → Prop
  | header (closed : c.state.frame = none) (short : c.state.header.length < streamHeaderSize)
      (onEof : Except TcpError TcpReadOutcome) (eof : c.state.header = [] → onEof = .ok .closed) :
      Turns c (c.receive (streamHeaderSize - c.state.header.length) onEof
        (fun bs => { c.state with header := c.state.header ++ bs }))
  | refused {e : TcpError} (closed : c.state.frame = none) (full : streamHeaderSize ≤ c.state.header.length)
      (bad : frameSize c.state.header = .error e) : Turns c (.done (.error e) c)
  | opened {size : Nat} (closed : c.state.frame = none) (full : streamHeaderSize ≤ c.state.header.length)
      (good : frameSize c.state.header = .ok size) :
      Turns c (.go { c with
        state := { c.state with frame := some ⟨size, (c.pool.takeOwner size).1, c.state.header⟩ }
        pool := (c.pool.takeOwner size).2
        requests := c.requests ++ [⟨size, c.pool⟩] })
  | body {frame : PartialFrame} (started : c.state.frame = some frame) (short : frame.filled.length < frame.size)
      (e : TcpError) :
      Turns c (c.receive (frame.size - frame.filled.length) (.error e)
        (fun bs => { c.state with frame := some { frame with filled := frame.filled ++ bs } }))
  | delivered {frame : PartialFrame} (started : c.state.frame = some frame) (full : frame.size ≤ frame.filled.length) :
      Turns c (.go { c with
        state := .new
        frames := c.frames ++ [.ofPayload frame.filled]
        inUse := c.inUse ++ [frame.capacity] })

theorem turns_turn (c : Connection) : Turns c c.turn := by
  unfold turn
  cases hframe : c.state.frame with
  | none =>
    by_cases hlen : c.state.header.length < streamHeaderSize
    · rw [if_pos hlen]
      exact .header hframe hlen _ (fun hnil => by simp [hnil])
    · rw [if_neg hlen]
      cases hsize : frameSize c.state.header with
      | error e => exact .refused hframe (Nat.not_lt.1 hlen) hsize
      | ok size => exact .opened hframe (Nat.not_lt.1 hlen) hsize
  | some frame =>
    dsimp only
    by_cases hlen : frame.filled.length < frame.size
    · rw [if_pos hlen]
      exact .body hframe hlen _
    · rw [if_neg hlen]
      exact .delivered hframe (Nat.not_lt.1 hlen)

/-- A bound on the turns left in a call. -/
def rank (c : Connection) : Nat :=
  3 * weight c.stream + match c.state.frame with
    | none => if c.state.header.length < streamHeaderSize then 0 else 2
    | some frame => if frame.filled.length < frame.size then 0 else 1

theorem rank_le (c : Connection) : c.rank ≤ 3 * weight c.stream + 2 := by
  unfold rank
  cases c.state.frame with
  | none | some =>
    dsimp only
    split_ifs <;> omega

variable {c : Connection} {onEof : Except TcpError TcpReadOutcome} {store : Bytes → TcpFrameReadState}

theorem rank_receive {c' : Connection} {n : Nat}
    (hn : 0 < n) (h : c.receive n onEof store = .go c') : c'.rank < c.rank := by
  have hreads := reads_readStream hn c.stream
  have hlighter : weight c'.stream < weight c.stream := by
    unfold receive at h
    generalize readStream n c.stream = res at hreads h
    cases hreads with
    | eof => cases h
    | @data bs stream' ne fits bytes lighter =>
      cases bs with
      | nil => exact absurd rfl ne
      | cons b bs =>
        cases h
        exact lighter
    | @event event stream' noData split =>
      rw [split]
      cases event with
      | data bs => exact absurd rfl (noData bs)
      | interrupted =>
        cases h
        simp [weight]
      | wouldBlock => cases h
      | failed => cases h
      | released i =>
        cases h
        simp [weight]
  have hle := c'.rank_le
  have hge : 3 * weight c.stream ≤ c.rank := Nat.le_add_right _ _
  omega

theorem rank_turn {c' : Connection} (h : c.turn = .go c') : c'.rank < c.rank := by
  have hturns := turns_turn c
  rw [h] at hturns
  generalize hgo : Turn.go c' = t at hturns
  cases hturns with
  | header closed short onEof =>
    exact rank_receive (by omega) hgo.symm
  | refused => cases hgo
  | opened closed full size =>
    cases hgo
    unfold rank
    rw [closed]
    dsimp only
    split_ifs <;> omega
  | body started short => exact rank_receive (by omega) hgo.symm
  | delivered started full =>
    cases hgo
    unfold rank
    rw [started]
    dsimp only
    rw [if_neg (Nat.not_lt.2 full)]
    exact Nat.lt_succ_self _

section

variable {I : Connection → Prop} {J : Except TcpError TcpReadOutcome → Connection → Prop}
  (hgo : ∀ c c', I c → c.turn = .go c' → I c') (hdone : ∀ c r c', I c → c.turn = .done r c' → J r c')
include hgo hdone

/-- What every turn keeps holds when the call returns, and the call returns. -/
theorem loop_induction {fuel : Nat}
    (hfuel : c.rank < fuel) (hc : I c) : ∃ r c', c.loop fuel = some (r, c') ∧ J r c' := by
  induction fuel generalizing c with
  | zero => omega
  | succ fuel ih =>
    rw [loop]
    cases hturn : c.turn with
    | go c' => exact ih (by have := rank_turn hturn; omega) (hgo c c' hc hturn)
    | done r c' => exact ⟨r, c', rfl, hdone c r c' hc hturn⟩

theorem readAvailable_induction (hc : I c) :
    ∃ r c', c.readAvailable = some (r, c') ∧ J r c' :=
  loop_induction hgo hdone (Nat.lt_succ_of_le c.rank_le) hc

end

/-! ## The buffers -/

theorem frameSize_le {header : Bytes} {size : Nat} (h : frameSize header = .ok size) :
    size ≤ maxPayloadSize + msgLenSize := by
  unfold frameSize at h
  by_cases hmagic : header.take 4 ≠ protocolRtps
  · rw [if_pos hmagic] at h
    cases h
  by_cases hid : header.getD rtpsHeaderSize 0 ≠ msgLenId
  · rw [if_neg hmagic, if_pos hid] at h
    cases h
  dsimp only at h
  generalize Endianness.get _ _ = totalLen at h
  unfold validatePayloadSize at h
  split_ifs at h with hmin hmax
  cases h
  omega

def Bounded (c : Connection) : Prop := ∀ r ∈ c.requests, r.len ≤ maxPayloadSize + msgLenSize

/-- A release touches the pool only. -/
theorem release_eq (c : Connection) (i : Nat) :
    ∃ inUse pool, c.release i = { c with inUse := inUse, pool := pool } := by
  unfold release
  cases c.inUse[i]? with
  | none => exact ⟨c.inUse, c.pool, rfl⟩
  | some capacity => exact ⟨_, _, rfl⟩

theorem requests_receive {n : Nat} :
    (∀ c', c.receive n onEof store = .go c' → c'.requests = c.requests) ∧
      ∀ r c', c.receive n onEof store = .done r c' → c'.requests = c.requests := by
  unfold receive
  constructor
  · intro c' h
    split at h <;> cases h
    · rfl
    · rfl
    · next i _ _ =>
      obtain ⟨inUse, pool, heq⟩ := c.release_eq i
      rw [heq]
  · intro r c' h
    split at h <;> cases h <;> rfl

theorem bounded_turn (hc : Bounded c) :
    (∀ c', c.turn = .go c' → Bounded c') ∧ ∀ r c', c.turn = .done r c' → Bounded c' := by
  have hsame {c' : Connection} (hreq : c'.requests = c.requests) : Bounded c' := by
    rw [Bounded, hreq]
    exact hc
  have hturns := turns_turn c
  generalize c.turn = t at hturns
  cases hturns with
  | header | body =>
    exact ⟨fun c' h => hsame (requests_receive.1 c' h), fun r c' h => hsame (requests_receive.2 r c' h)⟩
  | refused closed full bad =>
    refine ⟨nofun, fun r c' h => ?_⟩
    cases h
    exact hc
  | opened closed full good =>
    refine ⟨fun c' h => ?_, nofun⟩
    cases h
    intro r hr
    rcases mem_append.1 hr with hr | hr
    · exact hc r hr
    · rw [mem_singleton.1 hr]
      exact frameSize_le good
  | delivered started full =>
    refine ⟨fun c' h => ?_, nofun⟩
    cases h
    exact hc

end Connection

/-- A cached buffer is large enough, or the one that grows is not more than half as large as the largest frame. -/
def BufferRequest.Served (r : BufferRequest) : Prop :=
  (∃ capacity ∈ r.cached, r.len ≤ capacity) ∨ ∀ capacity ∈ r.cached.getLast?, 2 * capacity ≤ maxPayloadSize + msgLenSize

theorem BufferRequest.allocated_le_iff {r : BufferRequest} (hlen : r.len ≤ maxPayloadSize + msgLenSize) :
    r.allocated ≤ maxPayloadSize + msgLenSize ↔ r.Served := by
  unfold allocated Served
  by_cases hfits : ∃ capacity ∈ r.cached, r.len ≤ capacity
  · rw [if_pos (any_eq_true.2 (by simpa using hfits))]
    exact iff_of_true (Nat.zero_le _) (.inl hfits)
  · have hnone : r.cached.filter (r.len ≤ ·) = [] := by
      rw [filter_eq_nil_iff]
      intro capacity hmem hle
      exact hfits ⟨capacity, hmem, of_decide_eq_true hle⟩
    rw [if_neg (by simpa using hfits), TcpBufferPool.takeOwner, hnone, or_iff_right hfits]
    cases hlast : r.cached.getLast? with
    | none => simpa [grown, getLastD_eq_getLast?, hlast] using hlen
    | some capacity => simpa [grown, getLastD_eq_getLast?, hlast] using fun _ => hlen

/-! ## Frames on the stream -/

structure Carried (message : Bytes) : Prop where
  min : rtpsHeaderSize ≤ message.length
  max : message.length ≤ maxPayloadSize
  magic : message.take 4 = protocolRtps

variable {message later : Bytes} {c : Connection} {todo all : List Bytes}

theorem Carried.encode (h : Carried message) : encodeFrame message = .ok (framed message) := by
  unfold encodeFrame validatePayloadSize
  rw [if_neg (Nat.not_lt.2 h.max)]
  rw [if_neg (Nat.not_lt.2 h.min)]

theorem length_framed : (framed message).length = message.length + msgLenSize := by
  unfold framed msgLenSize
  simp
  omega

def streamHeader (message : Bytes) : Bytes :=
  message.take rtpsHeaderSize ++ (msgLenId :: 0x01 :: (leBytes 2 4 ++ leBytes 4 (message.length + msgLenSize)))

theorem framed_eq : framed message = streamHeader message ++ message.drop rtpsHeaderSize := by
  simp [framed, streamHeader]

theorem Carried.length_take (h : Carried message) :
    (message.take rtpsHeaderSize).length = rtpsHeaderSize := length_take_of_le h.min

theorem Carried.take_framed (h : Carried message) : (framed message).take streamHeaderSize = streamHeader message := by
  rw [framed_eq]
  apply take_left'
  rw [streamHeader, length_append, h.length_take]
  simp [streamHeaderSize, msgLenSize]

theorem Carried.frameSize_streamHeader (h : Carried message) :
    frameSize (streamHeader message) = .ok (framed message).length := by
  have hlen := h.length_take
  have hmax := h.max
  have hmin := h.min
  have hmagic : (streamHeader message).take 4 = protocolRtps := by
    rw [streamHeader, take_append_of_le_length (by rw [hlen]; decide), take_take, ← h.magic]
    rfl
  have hid : (streamHeader message).getD rtpsHeaderSize 0 = msgLenId := by
    rw [streamHeader, getD_eq_getElem?_getD, getElem?_append_right (by rw [hlen]), hlen]
    rfl
  have hflags : (streamHeader message).getD (rtpsHeaderSize + 1) 0 = 0x01 := by
    rw [streamHeader, getD_eq_getElem?_getD, getElem?_append_right (by rw [hlen]; decide), hlen]
    rfl
  have hdrop : (streamHeader message).drop (rtpsHeaderSize + 4) = leBytes 4 (message.length + msgLenSize) := by
    rw [streamHeader, drop_append, hlen, drop_of_length_le (by rw [hlen]; decide)]
    rfl
  have hget : Endianness.little.get (leBytes 4 (message.length + msgLenSize)) = message.length + msgLenSize := by
    refine Endianness.get_put_of_lt (w := 4) .little ?_
    unfold maxPayloadSize at hmax
    unfold msgLenSize
    omega
  unfold frameSize
  rw [hmagic, hid, hflags, hdrop, if_neg (not_not.2 rfl), if_neg (not_not.2 rfl)]
  have hlittle : (if (0x01 : Byte) &&& 0x01 ≠ 0 then Endianness.little else Endianness.big) = .little := by decide
  rw [hlittle]
  dsimp only
  rw [hget, length_framed]
  unfold validatePayloadSize
  rw [Nat.add_sub_cancel, if_neg (Nat.not_lt.2 hmax), if_neg (by unfold streamHeaderSize; omega)]

/-! ## Every cut -/

def TcpFrameReadState.received (st : TcpFrameReadState) : Bytes := st.frame.elim st.header PartialFrame.filled

/-- The received part of the next frame, the rest of the stream and `later` are the frames of `todo`. -/
structure Tracks (later : Bytes) (todo : List Bytes) (c : Connection) : Prop where
  carried : ∀ m ∈ todo, Carried m
  clean : Clean c.stream
  bytes : c.state.received ++ (bytesOf c.stream ++ later) = (todo.map framed).flatten
  header : c.state.frame = none → c.state.header.length ≤ streamHeaderSize
  frame : ∀ f, c.state.frame = some f → ∃ m rest, todo = m :: rest ∧ f.size = (framed m).length ∧
    0 < f.filled.length ∧ f.filled.length ≤ f.size

/-- The next frame is not received whole. -/
def AtRest (todo : List Bytes) (c : Connection) : Prop :=
  ∀ m ∈ todo.head?, c.state.received.length < (framed m).length

theorem Tracks.received_eq {m : Bytes} {rest : List Bytes} (h : Tracks later (m :: rest) c) {n : Nat}
    (hn : c.state.received.length = n) (hle : n ≤ (framed m).length) : c.state.received = (framed m).take n := by
  have hb := congrArg (take n) h.bytes
  rw [take_left' hn, map_cons, flatten_cons, take_append_of_le_length hle] at hb
  exact hb

theorem Tracks.header_eq (h : Tracks later todo c) (closed : c.state.frame = none)
    (full : streamHeaderSize ≤ c.state.header.length) :
    ∃ m rest, todo = m :: rest ∧ c.state.header = streamHeader m := by
  have hreceived : c.state.received = c.state.header := by rw [TcpFrameReadState.received, closed, Option.elim_none]
  have hlen : c.state.header.length = streamHeaderSize := Nat.le_antisymm (h.header closed) full
  cases todo with
  | nil =>
    have hbytes := congrArg length h.bytes
    rw [length_append, hreceived, hlen] at hbytes
    exact absurd hbytes (by simp [streamHeaderSize, rtpsHeaderSize])
  | cons m rest =>
    have hm := h.carried m mem_cons_self
    have hmin := hm.min
    refine ⟨m, rest, rfl, ?_⟩
    rw [← hm.take_framed, ← hreceived]
    refine h.received_eq (by rw [hreceived, hlen]) ?_
    rw [length_framed]
    unfold streamHeaderSize
    omega

theorem framed_pos : 0 < (framed message).length := by
  rw [framed_eq, streamHeader]
  simp

theorem Tracks.todo_eq_nil (h : Tracks later todo c) (hrest : AtRest todo c) (hend : bytesOf c.stream ++ later = []) :
    todo = [] := by
  cases todo with
  | nil => rfl
  | cons m rest =>
    have hlt := hrest m rfl
    have hlen := congrArg length h.bytes
    rw [hend, append_nil, map_cons, flatten_cons, length_append] at hlen
    omega

/-- The frames of `all` that are handed out, and those to come. -/
def Delivering (all : List Bytes) (later : Bytes) (limit : Nat) (c : Connection) : Prop :=
  ∃ done todo, all = done ++ todo ∧ c.frames = done.map (fun m => .ofPayload (framed m)) ∧ Tracks later todo c ∧
    blocks c.stream ≤ limit

/-- No whole frame is left in the buffer, and the stream blocked or has ended. -/
def Returned (all : List Bytes) (later : Bytes) (limit : Nat) (r : Except TcpError TcpReadOutcome)
    (c : Connection) : Prop :=
  ∃ done todo, all = done ++ todo ∧ c.frames = done.map (fun m => .ofPayload (framed m)) ∧ Tracks later todo c ∧
    AtRest todo c ∧ (blocks c.stream < limit ∨ c.stream = [] ∧ (c.state.received = [] → r = .ok .closed))

/-- One read of the stream, for the header or the frame; `limit` is where it ends. -/
theorem Tracks.receive {done : List Bytes} {bound : Nat} (h : Tracks later todo c) (hall : all = done ++ todo)
    (hframes : c.frames = done.map (fun m => .ofPayload (framed m))) (hblocks : blocks c.stream ≤ bound) {limit : Nat}
    {onEof : Except TcpError TcpReadOutcome} {store : Bytes → TcpFrameReadState}
    (hshort : c.state.received.length < limit) (hrest : AtRest todo c)
    (heof : c.state.received = [] → onEof = .ok .closed)
    (hstore : ∀ bs, bs.length ≤ limit - c.state.received.length →
      (store bs).received = c.state.received ++ bs ∧
      ((store bs).frame = none → (store bs).header.length ≤ streamHeaderSize) ∧
      ∀ f, (store bs).frame = some f → ∃ m rest, todo = m :: rest ∧ f.size = (framed m).length ∧
        0 < f.filled.length ∧ f.filled.length ≤ f.size) :
    (∀ c', c.receive (limit - c.state.received.length) onEof store = .go c' → Delivering all later bound c') ∧
      ∀ r c', c.receive (limit - c.state.received.length) onEof store = .done r c' → Returned all later bound r c' := by
  have hreads := reads_readStream (Nat.sub_pos_of_lt hshort) c.stream
  unfold Connection.receive
  generalize readStream (limit - c.state.received.length) c.stream = res at hreads ⊢
  cases hreads with
  | @eof stream' ended =>
    obtain ⟨hempty, rfl⟩ := ended h.clean
    refine ⟨nofun, fun r c' hr => ?_⟩
    cases hr
    refine ⟨done, todo, hall, hframes, ⟨h.carried, nofun, ?_, h.header, h.frame⟩, hrest, .inr ⟨rfl, heof⟩⟩
    have hbytes := h.bytes
    rwa [hempty] at hbytes
  | @data bs stream' ne fits bytes lighter clean same =>
    obtain ⟨hreceived, hheader, hframe⟩ := hstore bs fits
    cases bs with
    | nil => exact absurd rfl ne
    | cons b bs =>
      refine ⟨fun c' hr => ?_, nofun⟩
      cases hr
      refine ⟨done, todo, hall, hframes, ⟨h.carried, clean h.clean, ?_, hheader, hframe⟩, same.trans_le hblocks⟩
      rw [hreceived, append_assoc, ← append_assoc (b :: bs), ← bytes]
      exact h.bytes
  | @event event stream' noData split =>
    have hclean : Clean stream' := fun e he => h.clean e (by rw [split]; exact mem_cons_of_mem _ he)
    have hnone : event.bytes = [] := by
      cases event with
      | data bs => exact absurd rfl (noData bs)
      | _ => rfl
    have hbytes : c.state.received ++ (bytesOf stream' ++ later) = (todo.map framed).flatten := by
      have hbytes := h.bytes
      rwa [split, bytesOf, flatMap_cons, hnone] at hbytes
    have htracks : Tracks later todo { c with stream := stream' } := ⟨h.carried, hclean, hbytes, h.header, h.frame⟩
    cases event with
    | data bs => exact absurd rfl (noData bs)
    | interrupted =>
      refine ⟨fun c' hr => ?_, nofun⟩
      cases hr
      refine ⟨done, todo, hall, hframes, htracks, ?_⟩
      simpa [blocks, split] using hblocks
    | wouldBlock =>
      refine ⟨nofun, fun r c' hr => ?_⟩
      cases hr
      have hone : blocks stream' + 1 = blocks c.stream := by simp [blocks, split]
      exact ⟨done, todo, hall, hframes, htracks, hrest, .inl (hone.trans_le hblocks)⟩
    | failed =>
      have hmem : ReadEvent.failed ∈ c.stream := by
        rw [split]
        exact mem_cons_self
      exact absurd rfl (h.clean _ hmem).1
    | released i =>
      refine ⟨fun c' hr => ?_, nofun⟩
      obtain ⟨inUse, pool, heq⟩ := c.release_eq i
      dsimp only at hr
      rw [heq] at hr
      cases hr
      refine ⟨done, todo, hall, hframes, ⟨h.carried, hclean, hbytes, h.header, h.frame⟩, ?_⟩
      simpa [blocks, split] using hblocks

theorem delivering_turn {limit : Nat} (h : Delivering all later limit c) :
    (∀ c', c.turn = .go c' → Delivering all later limit c') ∧
      ∀ r c', c.turn = .done r c' → Returned all later limit r c' := by
  obtain ⟨done, todo, hall, hframes, htracks, hlimit⟩ := h
  have hturns := c.turns_turn
  generalize c.turn = t at hturns ⊢
  cases hturns with
  | header closed short onEof eof =>
    have hreceived : c.state.received = c.state.header := by rw [TcpFrameReadState.received, closed, Option.elim_none]
    rw [← hreceived] at short ⊢
    refine htracks.receive hall hframes hlimit short (fun m hm => ?_) (fun h => eof (hreceived ▸ h)) (fun bs hbs => ?_)
    · have hmin := (htracks.carried m (mem_of_mem_head? hm)).min
      rw [length_framed]
      unfold streamHeaderSize at short
      omega
    · refine ⟨?_, fun _ => ?_, fun f hf => ?_⟩
      · simp [TcpFrameReadState.received, closed]
      · rw [length_append]
        omega
      · rw [closed] at hf
        cases hf
  | refused closed full bad =>
    -- the header is that of the next frame
    obtain ⟨m, rest, rfl, hheader⟩ := htracks.header_eq closed full
    rw [hheader, (htracks.carried m mem_cons_self).frameSize_streamHeader] at bad
    cases bad
  | opened closed full good =>
    obtain ⟨m, rest, rfl, hheader⟩ := htracks.header_eq closed full
    have hm := htracks.carried m mem_cons_self
    rw [hheader, hm.frameSize_streamHeader] at good
    cases good
    refine ⟨fun c' hc' => ?_, nofun⟩
    cases hc'
    refine ⟨done, m :: rest, hall, hframes, ⟨htracks.carried, htracks.clean, ?_, nofun, fun f hf => ?_⟩, hlimit⟩
    · have hbytes := htracks.bytes
      rw [TcpFrameReadState.received, closed] at hbytes
      exact hbytes
    · cases hf
      refine ⟨m, rest, rfl, rfl, ?_, ?_⟩
      · dsimp only
        unfold streamHeaderSize rtpsHeaderSize at full
        omega
      · rw [hheader, framed_eq, length_append]
        exact Nat.le_add_right _ _
  | @body frame started short e =>
    have hreceived : c.state.received = frame.filled := by rw [TcpFrameReadState.received, started, Option.elim_some]
    obtain ⟨m, rest, rfl, hsize, hpos, hfilled⟩ := htracks.frame frame started
    rw [← hreceived] at short hpos ⊢
    refine htracks.receive hall hframes hlimit short (fun m' hm' => ?_) (fun hempty => ?_) (fun bs hbs => ?_)
    · cases hm'
      exact hsize ▸ short
    · rw [hempty] at hpos
      cases hpos
    · refine ⟨?_, nofun, fun f hf => ?_⟩
      · simp [TcpFrameReadState.received, started]
      · cases hf
        refine ⟨m, rest, rfl, hsize, ?_, ?_⟩
        all_goals
          dsimp only
          rw [length_append]
          omega
  | @delivered frame started full =>
    have hreceived : c.state.received = frame.filled := by rw [TcpFrameReadState.received, started, Option.elim_some]
    obtain ⟨m, rest, rfl, hsize, hpos, hfilled⟩ := htracks.frame frame started
    have hwhole : frame.filled = framed m := by
      rw [← hreceived, htracks.received_eq (by rw [hreceived]) (by omega : frame.filled.length ≤ (framed m).length)]
      exact take_of_length_le (by omega)
    refine ⟨fun c' hc' => ?_, nofun⟩
    cases hc'
    refine ⟨done ++ [m], rest, by simp [hall], by simp [hframes, hwhole],
      ⟨(forall_mem_cons.1 htracks.carried).2, htracks.clean, ?_, fun _ => Nat.zero_le _, nofun⟩,
      hlimit⟩
    have hbytes := htracks.bytes
    rw [hreceived, hwhole] at hbytes
    exact append_cancel_left hbytes

/-! ## Calls -/

def Connection.call (c : Connection) (_ : Unit) : Option Connection := c.readAvailable.map Prod.snd

theorem bounded_calls (n : Nat) (stream : List ReadEvent) (pool : TcpBufferPool) :
    ∃ c, run Connection.call (.new stream pool) (replicate n ()) = some c ∧ c.Bounded := by
  induction n with
  | zero => exact ⟨.new stream pool, rfl, forall_mem_nil _⟩
  | succ n ih =>
    obtain ⟨c, hc, hbounded⟩ := ih
    obtain ⟨r, c', hread, hbounded'⟩ := Connection.readAvailable_induction
      (fun c c' h => (Connection.bounded_turn h).1 c') (fun c r c' h => (Connection.bounded_turn h).2 r c') hbounded
    refine ⟨c', ?_, hbounded'⟩
    rw [replicate_succ']
    exact run_append.2 ⟨c, hc, run_cons.2 ⟨c', by rw [Connection.call, hread]; rfl, rfl⟩⟩

theorem tracks_calls {stream : List ReadEvent} (pool : TcpBufferPool) (hall : ∀ m ∈ all, Carried m)
    (hclean : Clean stream)
    (hbytes : bytesOf stream ++ later = (all.map framed).flatten) (n : Nat) :
    ∃ c done todo, run Connection.call (.new stream pool) (replicate n ()) = some c ∧ all = done ++ todo ∧
      c.frames = done.map (fun m => .ofPayload (framed m)) ∧ Tracks later todo c ∧ AtRest todo c ∧
      (blocks c.stream + n ≤ blocks stream ∨ c.stream = []) := by
  induction n with
  | zero =>
    exact ⟨.new stream pool, [], all, rfl, rfl, rfl,
      ⟨hall, hclean, hbytes, fun _ => Nat.zero_le _, fun _ h => nomatch h⟩,
      fun m _ => framed_pos, .inl (le_refl _)⟩
  | succ n ih =>
    obtain ⟨c, done, todo, hrun, hsplit, hframes, htracks, -, hblocks⟩ := ih
    obtain ⟨r, c', hread, done', todo', hsplit', hframes', htracks', hrest', hend⟩ :=
      Connection.readAvailable_induction (fun c c' h => (delivering_turn h).1 c')
        (fun c r c' h => (delivering_turn h).2 r c')
        (⟨done, todo, hsplit, hframes, htracks, le_refl _⟩ : Delivering all later (blocks c.stream) c)
    refine ⟨c', done', todo', ?_, hsplit', hframes', htracks', hrest', ?_⟩
    · rw [replicate_succ']
      exact run_append.2 ⟨c, hrun, run_cons.2 ⟨c', by rw [Connection.call, hread]; rfl, rfl⟩⟩
    · rcases hend with hlt | ⟨hnil, -⟩
      · rcases hblocks with hle | hnil
        · exact .inl (by omega)
        · rw [hnil] at hlt
          exact absurd hlt (Nat.not_lt_zero _)
      · exact .inr hnil

theorem readAvailable_ended (hstream : c.stream = []) (hframe : c.state.frame = none)
    (hheader : c.state.header = []) : c.readAvailable = some (.ok .closed, c) := by
  obtain ⟨⟨header, frame⟩, stream, frames, inUse, pool, requests⟩ := c
  cases hstream
  cases hframe
  cases hheader
  rfl

/-- The first bytes of a frame that is said to have `len` bytes. -/
def announced (len : Nat) : Bytes := protocolRtps ++ replicate 16 0 ++ [msgLenId, 0x01, 4, 0] ++ leBytes 4 len

end Int2Dds.Tcp
