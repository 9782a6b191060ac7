import Int2Dds.Messages.Header

/-!
# RTPS messages on a TCP stream

On the stream each message carries, right behind its RTPS header, a vendor submessage with the length of the whole.
`encodeFrame` puts it in, and `TcpFrameReadState` cuts the stream into messages again, over any number of calls of
`readAvailable`, each of which goes on where the stream blocked.

The two buffers of the source, for the first 28 bytes and for the frame, are represented by the bytes received into
them; what lies behind these is never read. The buffers of frames come from a `TcpBufferPool`, of which only the
capacities count. `Connection` adds the stream, the frames handed out, the pool and what was asked of it.
-/

namespace Int2Dds.Tcp
open Lib Messages

def maxPayloadSize : Nat := 64 * 1024

def rtpsHeaderSize : Nat := 20

def msgLenSize : Nat := 8

def streamHeaderSize : Nat := rtpsHeaderSize + msgLenSize

def protocolRtps : Bytes := [0x52, 0x54, 0x50, 0x53]

def msgLenId : Byte := 0x80

inductive TcpError
  /-- "stream is not RTPS", with the first bytes. -/
  | frameInvalidMagic (magic : Bytes)
  /-- "payload too large". -/
  | frameTooLarge (size : Nat)
  /-- "message too short", or "message shorter than an RTPS header". -/
  | frameInvalidLength (length : Nat)
  /-- "leading submessage is". -/
  | frameMissingMsgLen (id : Byte)
  | unexpectedEof (message : String)
  /-- Any other error of the stream. -/
  | io
deriving DecidableEq

def validatePayloadSize (size : Nat) : Except TcpError Unit :=
  if maxPayloadSize < size then .error (.frameTooLarge size) else .ok ()

def framed (message : Bytes) : Bytes :=
  message.take rtpsHeaderSize ++
    (msgLenId :: 0x01 :: (leBytes 2 4 ++ (leBytes 4 (message.length + msgLenSize) ++ message.drop rtpsHeaderSize)))

def encodeFrame (message : Bytes) : Except TcpError Bytes :=
  match validatePayloadSize message.length with
  | .error e => .error e
  | .ok () =>
    if message.length < rtpsHeaderSize then .error (.frameInvalidLength message.length) else .ok (framed message)

/-! ## The class of a message -/

/-- Where the writer id starts in the body of a submessage that has one. -/
def writerIdOffset (id : Byte) : Option Nat :=
  match SubmessageKind.ofId id with
  | some .data | some .dataFrag => some 8
  | some .acknack | some .heartbeat | some .gap | some .nackFrag | some .heartbeatFrag => some 4
  | _ => none

/-- The walk over the submessages from `offset` on, of at most `fuel` submessages. -/
def carriesBuiltinFrom (message : Bytes) : Nat → Nat → Bool
  | 0, _ => false
  | fuel + 1, offset =>
    match message.drop offset with
    | id :: flags :: b₀ :: b₁ :: _ =>
      let endianness : Endianness := if flags &&& 0x01 ≠ 0 then .little else .big
      let octetsToNextHeader := endianness.get [b₀, b₁]
      let body := offset + 4
      match writerIdOffset id with
      | some writerId => message[body + writerId + 3]?.any (fun kind => kind &&& 0xF0 == 0xC0)
      | none => if octetsToNextHeader = 0 then false else carriesBuiltinFrom message fuel (body + octetsToNextHeader)
    | _ => false

/-- The first writer id of the message is a builtin endpoint's. Every submessage has a header, so there are at most as
many as bytes. -/
def carriesBuiltinWriter (message : Bytes) : Bool := carriesBuiltinFrom message message.length rtpsHeaderSize

inductive TcpFrameKind
  | discovery
  | userData
deriving DecidableEq

structure TcpFrame where
  kind : TcpFrameKind
  payload : Bytes
deriving DecidableEq

def TcpFrame.ofPayload (payload : Bytes) : TcpFrame :=
  ⟨if carriesBuiltinWriter payload then .discovery else .userData, payload⟩

/-! ## The buffers -/

/-- The capacities of the cached buffers. -/
abbrev TcpBufferPool := List Nat

def maxCachedBuffers : Nat := 16

/-- The capacity of a vector that is resized beyond it: at least twice what it was. -/
def grown (capacity len : Nat) : Nat := max (2 * capacity) len

namespace TcpBufferPool

def swapRemove (pool : TcpBufferPool) (i : Nat) : TcpBufferPool := (pool.set i (pool.getLastD 0)).dropLast

/-- The smallest buffer that is large enough, else the one cached last, else a new one, resized to `len`: its capacity,
and what stays in the pool. -/
def takeOwner (pool : TcpBufferPool) (len : Nat) : Nat × TcpBufferPool :=
  match (pool.filter (len ≤ ·)).min? with
  | some capacity => (capacity, pool.swapRemove (pool.idxOf capacity))
  | none => (grown (pool.getLastD 0) len, pool.dropLast)

def recycle (pool : TcpBufferPool) (capacity : Nat) : TcpBufferPool :=
  if pool.length < maxCachedBuffers then pool ++ [capacity] else pool

end TcpBufferPool

/-- A buffer of `len` bytes that was asked for, and what was cached then. -/
structure BufferRequest where
  len : Nat
  cached : TcpBufferPool
deriving DecidableEq

/-- The bytes allocated for a request; none if a cached buffer is large enough. -/
def BufferRequest.allocated (r : BufferRequest) : Nat :=
  if r.cached.any (r.len ≤ ·) then 0 else (r.cached.takeOwner r.len).1

/-! ## The stream -/

/-- What a read of the stream finds, or what happens between two reads. -/
inductive ReadEvent
  | data (bs : Bytes)
  | interrupted
  | wouldBlock
  | failed
  /-- The last clone of a frame handed out is dropped, and its buffer goes back to the pool. -/
  | released (i : Nat)
deriving DecidableEq

/-- `stream.read(buf)` with a buffer of `n` bytes. At the end of the stream it returns no bytes. -/
def readStream (n : Nat) : List ReadEvent → ReadEvent × List ReadEvent
  | [] => (.data [], [])
  | .data bs :: rest => (.data (bs.take n), if n < bs.length then .data (bs.drop n) :: rest else rest)
  | event :: rest => (event, rest)

/-! ## Reading frames -/

/-- A buffer of `size` bytes, of which `filled` are received. -/
structure PartialFrame where
  size : Nat
  capacity : Nat
  filled : Bytes
deriving DecidableEq

structure TcpFrameReadState where
  header : Bytes
  frame : Option PartialFrame
deriving DecidableEq

namespace TcpFrameReadState

def new : TcpFrameReadState := ⟨[], none⟩

end TcpFrameReadState

def frameSize (header : Bytes) : Except TcpError Nat :=
  if header.take 4 ≠ protocolRtps then .error (.frameInvalidMagic (header.take 4))
  else if header.getD rtpsHeaderSize 0 ≠ msgLenId then .error (.frameMissingMsgLen (header.getD rtpsHeaderSize 0))
  else
    let endianness : Endianness := if header.getD (rtpsHeaderSize + 1) 0 &&& 0x01 ≠ 0 then .little else .big
    let totalLen := endianness.get (header.drop (rtpsHeaderSize + 4))
    if totalLen < streamHeaderSize then .error (.frameInvalidLength totalLen)
    else match validatePayloadSize (totalLen - msgLenSize) with
      | .error e => .error e
      | .ok () => .ok totalLen

inductive TcpReadOutcome
  | wouldBlock
  | closed
deriving DecidableEq

/-- The state of the reader, the rest of the stream, the frames handed out and the capacities of those still in use,
the pool and the buffers asked of it. -/
structure Connection where
  state : TcpFrameReadState
  stream : List ReadEvent
  frames : List TcpFrame
  inUse : List Nat
  pool : TcpBufferPool
  requests : List BufferRequest
deriving DecidableEq

namespace Connection

/-- A connection of a listener whose pool is `pool`. -/
def new (stream : List ReadEvent) (pool : TcpBufferPool) : Connection := ⟨.new, stream, [], [], pool, []⟩

def release (c : Connection) (i : Nat) : Connection :=
  match c.inUse[i]? with
  | none => c
  | some capacity => { c with inUse := c.inUse.eraseIdx i, pool := c.pool.recycle capacity }

/-- The pool when the listener drops the connection. -/
def dropped (c : Connection) : TcpBufferPool :=
  c.state.frame.elim c.pool fun frame => c.pool.recycle frame.capacity

/-- The loop of `read_available` goes on, or the call returns. -/
inductive Turn
  | go (c : Connection)
  | done (result : Except TcpError TcpReadOutcome) (c : Connection)

/-- One read of the stream into a buffer with room for `n` bytes; `store` puts the bytes there. -/
def receive (c : Connection) (n : Nat) (onEof : Except TcpError TcpReadOutcome)
    (store : Bytes → TcpFrameReadState) : Turn :=
  match readStream n c.stream with
  | (.data [], stream) => .done onEof { c with stream }
  | (.data bs, stream) => .go { c with state := store bs, stream }
  | (.interrupted, stream) => .go { c with stream }
  | (.wouldBlock, stream) => .done (.ok .wouldBlock) { c with stream }
  | (.failed, stream) => .done (.error .io) { c with stream }
  | (.released i, stream) => .go { c.release i with stream }

/-- The loop reads on, takes a buffer for the frame whose header is there, or hands out the frame. -/
def turn (c : Connection) : Turn :=
  match c.state.frame with
  | none =>
    if c.state.header.length < streamHeaderSize then
      c.receive (streamHeaderSize - c.state.header.length)
        (if c.state.header.length = 0 then .ok .closed
          else .error (.unexpectedEof "TCP stream closed in the frame header"))
        (fun bs => { c.state with header := c.state.header ++ bs })
    else match frameSize c.state.header with
      | .error e => .done (.error e) c
      | .ok size =>
        let (capacity, pool) := c.pool.takeOwner size
        .go { c with
          state := { c.state with frame := some ⟨size, capacity, c.state.header⟩ }
          pool := pool
          requests := c.requests ++ [⟨size, c.pool⟩] }
  | some frame =>
    if frame.filled.length < frame.size then
      c.receive (frame.size - frame.filled.length)
        (.error (.unexpectedEof "TCP stream closed in the frame body"))
        (fun bs => { c.state with frame := some { frame with filled := frame.filled ++ bs } })
    else .go { c with
      state := .new
      frames := c.frames ++ [.ofPayload frame.filled]
      inUse := c.inUse ++ [frame.capacity] }

/-- The loop of one call. `none` when it takes more than `fuel` turns. -/
def loop : Nat → Connection → Option (Except TcpError TcpReadOutcome × Connection)
  | 0, _ => none
  | fuel + 1, c => match c.turn with
    | .go c => loop fuel c
    | .done result c => some (result, c)

/-- The bytes that are still to come, and one for each event. -/
def weight (stream : List ReadEvent) : Nat :=
  (stream.map fun event => match event with
    | .data bs => bs.length + 1
    | _ => 1).sum

/-- A call of `read_available`. Three turns for each byte are enough. -/
def readAvailable (c : Connection) : Option (Except TcpError TcpReadOutcome × Connection) :=
  c.loop (3 * weight c.stream + 3)

end Connection

end Int2Dds.Tcp
