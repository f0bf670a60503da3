/-
# `UQuic.Wire.ControlFrames` — frames without stream data

The frames of `internal/wire` that carry numbers, and at most a few bytes after them.
Each is a type byte, a sequence of variable-length integers and some bytes:

    RESET_STREAM          0x4         stream, error code, final size
    STOP_SENDING          0x5         stream, error code
    NEW_TOKEN             0x7         length | token
    MAX_DATA              0x10        limit
    MAX_STREAM_DATA       0x11        stream, limit
    MAX_STREAMS           0x12, 0x13  number
    DATA_BLOCKED          0x14        limit
    STREAM_DATA_BLOCKED   0x15        stream, limit
    STREAMS_BLOCKED       0x16, 0x17  number
    NEW_CONNECTION_ID     0x18        sequence number, retire prior to | connection ID, token
    RETIRE_CONNECTION_ID  0x19        sequence number
    PATH_CHALLENGE        0x1a        | 8 bytes
    PATH_RESPONSE         0x1b        | 8 bytes
    CONNECTION_CLOSE      0x1c, 0x1d  error code, frame type (0x1c only), length | reason

A parser is given what follows the type.  When a frame is written, `none` is the panic
on a number of more than 62 bits.

## What is proved

`RoundTrip`, for each kind of frame: it is written with as many bytes as `Length` says,
and its parser takes exactly these bytes for it.
-/
import UQuic.Lib.Parser
import UQuic.Wire.Header

namespace UQuic.Wire

open QuicVarint (maxVarInt8)

/-! ## Fields -/

/-- Why a frame cannot be read. -/
inductive ParseError
  /-- `io.EOF`. -/
  | eof
  /-- `io.ErrUnexpectedEOF`, of a frame type only. -/
  | unexpectedEOF
  /-- `invalid first ACK range`. -/
  | invalidFirstAckRange
  /-- `errInvalidAckRanges`: `AckFrame: ACK frame contains invalid ACK ranges`. -/
  | invalidAckRanges
  /-- `token must not be empty`. -/
  | emptyToken
  /-- `%d exceeds the maximum stream count`. -/
  | streamCount (n : Nat)
  /-- `Retire Prior To value (%d) larger than Sequence Number (%d)`. -/
  | retirePriorTo (ret seq : Nat)
  /-- `invalid zero-length connection ID`. -/
  | zeroLengthConnectionID
  /-- `protocol.ErrInvalidConnectionIDLen`. -/
  | invalidConnectionIDLen
  /-- `stream data overflows maximum offset`. -/
  | streamOffset
  /-- `unknown frame type`. -/
  | unknownFrameType
  deriving DecidableEq, Repr

/-- A parser of frames. -/
abbrev FrameReader (α : Type) : Type := Parser UInt8 ParseError α

/-- `quicvarint.Parse`, with `replaceUnexpectedEOF`. -/
def varint : FrameReader Nat := .ofOption .eof QuicVarint.read

def byte : FrameReader UInt8
  | [] => .error .eof
  | x :: b => .ok (x, b)

/-- The `n` bytes of a connection ID. -/
def connectionID (n : Nat) : FrameReader ConnectionID := fun b =>
  if h : maxConnIDLen < n then .error .invalidConnectionIDLen
  else if b.length < n then .error .eof
  else .ok (⟨b.take n, by rw [List.length_take]; omega⟩, b.drop n)

/-- What the `Append` functions write: a type, numbers, and bytes. -/
def appendFrame (b : List UInt8) (typ : Nat) (fields : List Nat) (data : List UInt8) :
    Option (List UInt8) :=
  (fields.foldlM QuicVarint.append (b ++ [.ofNat typ])).map (· ++ data)

/-- What the `Length` functions add up: one for the type, numbers, and bytes. -/
def frameLength (fields : List Nat) (dataLen : Nat) : Option Nat :=
  (fields.foldlM (fun n i => (QuicVarint.len i).map (n + ·)) 1).map (· + dataLen)

def frameBody (fields : List Nat) (data : List UInt8) : List UInt8 :=
  fields.foldr (fun i b => QuicVarint.encode i ++ b) data

theorem frameBody_eq (fields : List Nat) (data : List UInt8) :
    frameBody fields data = fields.flatMap QuicVarint.encode ++ data := by
  induction fields with
  | nil => rfl
  | cons i fields ih =>
    rw [List.flatMap_cons, List.append_assoc, ← ih]
    rfl

variable {rest : List UInt8}

theorem reads_varint {i : Nat} (h : i ≤ maxVarInt8) : varint.Reads (QuicVarint.encode i) i rest :=
  .ofOption (QuicVarint.read_encode h rest)

theorem reads_byte {x : UInt8} : byte.Reads [x] x rest := rfl

theorem reads_connectionID {c : ConnectionID} :
    (connectionID c.bytes.length).Reads c.bytes c rest := by
  have hlen : ¬ (c.bytes ++ rest).length < c.bytes.length := by
    rw [List.length_append]
    omega
  have htake : (c.bytes ++ rest).take c.bytes.length = c.bytes := List.take_left
  rw [Parser.Reads, connectionID, dif_neg (Nat.not_lt.mpr c.le), if_neg hlen, List.drop_left]
  congr 2
  obtain ⟨bytes, le⟩ := c
  congr 1

/-- A frame is written as its type and a body, with as many bytes as `Length` says, and
before `rest` the parser of its type takes the body for it. -/
def RoundTrip {α : Type} (append : List UInt8 → Option (List UInt8)) (length : Option Nat)
    (typ : Nat) (parse : FrameReader α) (f : α) (rest : List UInt8) : Prop :=
  ∃ body, (∀ b, append b = some (b ++ .ofNat typ :: body)) ∧ length = some (body.length + 1) ∧
    parse.Reads body f rest

/-- A frame of numbers and bytes. -/
theorem RoundTrip.of_fields {α : Type} {typ n : Nat} {fields : List Nat} {data rest : List UInt8}
    {parse : FrameReader α} {f : α} (hfields : ∀ i ∈ fields, i ≤ maxVarInt8)
    (hn : n = data.length) (hparse : parse.Reads (frameBody fields data) f rest) :
    RoundTrip (fun b => appendFrame b typ fields data) (frameLength fields n) typ parse f rest := by
  refine ⟨frameBody fields data, fun b => ?_, ?_, hparse⟩
  · dsimp only
    rw [appendFrame, QuicVarint.foldlM_append _ _ hfields, Option.map_some, frameBody_eq]
    simp only [List.append_assoc, List.cons_append, List.nil_append]
  · rw [frameLength, QuicVarint.foldlM_len _ _ hfields, Option.map_some, frameBody_eq,
      List.length_append, hn]
    congr 1
    omega

/-! ## Streams -/

/-- `protocol.StreamType`. -/
inductive StreamType
  | uni
  | bidi
  deriving DecidableEq, Repr

/-- `ResetStreamFrame`. -/
structure ResetStreamFrame where
  streamID : Nat
  errorCode : Nat
  finalSize : Nat
  deriving DecidableEq, Repr

namespace ResetStreamFrame

/-- `parseResetStreamFrame`. -/
def parse : FrameReader ResetStreamFrame := do
  let streamID ← varint
  let errorCode ← varint
  let finalSize ← varint
  return ⟨streamID, errorCode, finalSize⟩

def append (b : List UInt8) (f : ResetStreamFrame) : Option (List UInt8) :=
  appendFrame b 0x4 [f.streamID, f.errorCode, f.finalSize] []

def length (f : ResetStreamFrame) : Option Nat :=
  frameLength [f.streamID, f.errorCode, f.finalSize] 0

theorem roundTrip {f : ResetStreamFrame} (h : f.streamID ≤ maxVarInt8 ∧ f.errorCode ≤ maxVarInt8 ∧
    f.finalSize ≤ maxVarInt8) (rest : List UInt8) :
    RoundTrip (append · f) f.length 0x4 parse f rest := by
  obtain ⟨h1, h2, h3⟩ := h
  refine .of_fields (by simp [h1, h2, h3]) rfl ?_
  exact (reads_varint h1).bind ((reads_varint h2).bind ((reads_varint h3).bind .pure))

end ResetStreamFrame

/-- `StopSendingFrame`. -/
structure StopSendingFrame where
  streamID : Nat
  errorCode : Nat
  deriving DecidableEq, Repr

namespace StopSendingFrame

/-- `parseStopSendingFrame`. -/
def parse : FrameReader StopSendingFrame := do
  let streamID ← varint
  let errorCode ← varint
  return ⟨streamID, errorCode⟩

def append (b : List UInt8) (f : StopSendingFrame) : Option (List UInt8) :=
  appendFrame b 0x5 [f.streamID, f.errorCode] []

def length (f : StopSendingFrame) : Option Nat := frameLength [f.streamID, f.errorCode] 0

theorem roundTrip {f : StopSendingFrame} (h : f.streamID ≤ maxVarInt8 ∧ f.errorCode ≤ maxVarInt8)
    (rest : List UInt8) : RoundTrip (append · f) f.length 0x5 parse f rest := by
  refine .of_fields (by simp [h]) rfl ?_
  exact (reads_varint h.1).bind ((reads_varint h.2).bind .pure)

end StopSendingFrame

/-- `MaxStreamDataFrame`. -/
structure MaxStreamDataFrame where
  streamID : Nat
  maximumStreamData : Nat
  deriving DecidableEq, Repr

namespace MaxStreamDataFrame

/-- `parseMaxStreamDataFrame`. -/
def parse : FrameReader MaxStreamDataFrame := do
  let streamID ← varint
  let maximumStreamData ← varint
  return ⟨streamID, maximumStreamData⟩

def append (b : List UInt8) (f : MaxStreamDataFrame) : Option (List UInt8) :=
  appendFrame b 0x11 [f.streamID, f.maximumStreamData] []

def length (f : MaxStreamDataFrame) : Option Nat := frameLength [f.streamID, f.maximumStreamData] 0

theorem roundTrip {f : MaxStreamDataFrame}
    (h : f.streamID ≤ maxVarInt8 ∧ f.maximumStreamData ≤ maxVarInt8) (rest : List UInt8) :
    RoundTrip (append · f) f.length 0x11 parse f rest := by
  refine .of_fields (by simp [h]) rfl ?_
  exact (reads_varint h.1).bind ((reads_varint h.2).bind .pure)

end MaxStreamDataFrame

/-- `StreamDataBlockedFrame`. -/
structure StreamDataBlockedFrame where
  streamID : Nat
  maximumStreamData : Nat
  deriving DecidableEq, Repr

namespace StreamDataBlockedFrame

/-- `parseStreamDataBlockedFrame`. -/
def parse : FrameReader StreamDataBlockedFrame := do
  let streamID ← varint
  let maximumStreamData ← varint
  return ⟨streamID, maximumStreamData⟩

def append (b : List UInt8) (f : StreamDataBlockedFrame) : Option (List UInt8) :=
  appendFrame b 0x15 [f.streamID, f.maximumStreamData] []

def length (f : StreamDataBlockedFrame) : Option Nat :=
  frameLength [f.streamID, f.maximumStreamData] 0

theorem roundTrip {f : StreamDataBlockedFrame}
    (h : f.streamID ≤ maxVarInt8 ∧ f.maximumStreamData ≤ maxVarInt8) (rest : List UInt8) :
    RoundTrip (append · f) f.length 0x15 parse f rest := by
  refine .of_fields (by simp [h]) rfl ?_
  exact (reads_varint h.1).bind ((reads_varint h.2).bind .pure)

end StreamDataBlockedFrame

/-- A frame that is one number. -/
theorem roundTrip_number {α : Type} {typ n : Nat} {g : Nat → α} (h : n ≤ maxVarInt8)
    (rest : List UInt8) : RoundTrip (fun b => appendFrame b typ [n] []) (frameLength [n] 0) typ
      (varint >>= fun n => pure (g n)) (g n) rest :=
  .of_fields (by simp [h]) rfl ((reads_varint h).bind .pure)

/-- `MaxDataFrame`. -/
structure MaxDataFrame where
  maximumData : Nat
  deriving DecidableEq, Repr

namespace MaxDataFrame

/-- `parseMaxDataFrame`. -/
def parse : FrameReader MaxDataFrame := do
  let maximumData ← varint
  return ⟨maximumData⟩

def append (b : List UInt8) (f : MaxDataFrame) : Option (List UInt8) :=
  appendFrame b 0x10 [f.maximumData] []

def length (f : MaxDataFrame) : Option Nat := frameLength [f.maximumData] 0

theorem roundTrip {f : MaxDataFrame} (h : f.maximumData ≤ maxVarInt8) (rest : List UInt8) :
    RoundTrip (append · f) f.length 0x10 parse f rest :=
  roundTrip_number (g := MaxDataFrame.mk) h rest

end MaxDataFrame

/-- `DataBlockedFrame`. -/
structure DataBlockedFrame where
  maximumData : Nat
  deriving DecidableEq, Repr

namespace DataBlockedFrame

/-- `parseDataBlockedFrame`. -/
def parse : FrameReader DataBlockedFrame := do
  let maximumData ← varint
  return ⟨maximumData⟩

def append (b : List UInt8) (f : DataBlockedFrame) : Option (List UInt8) :=
  appendFrame b 0x14 [f.maximumData] []

def length (f : DataBlockedFrame) : Option Nat := frameLength [f.maximumData] 0

theorem roundTrip {f : DataBlockedFrame} (h : f.maximumData ≤ maxVarInt8) (rest : List UInt8) :
    RoundTrip (append · f) f.length 0x14 parse f rest :=
  roundTrip_number (g := DataBlockedFrame.mk) h rest

end DataBlockedFrame

/-- A number of streams, which is bounded: the parser of MAX_STREAMS and STREAMS_BLOCKED. -/
def streamNum : FrameReader Nat := do
  let n ← varint
  Parser.check (n ≤ maxStreamCount) (.streamCount n)
  return n

theorem maxStreamCount_le : maxStreamCount ≤ maxVarInt8 := by decide

theorem reads_streamNum {n : Nat} (h : n ≤ maxStreamCount) :
    streamNum.Reads (QuicVarint.encode n ++ []) n rest :=
  (reads_varint (h.trans maxStreamCount_le)).bind (Parser.Reads.check h).bind_pure

/-- `MaxStreamsFrame`. -/
structure MaxStreamsFrame where
  type : StreamType
  maxStreamNum : Nat
  deriving DecidableEq, Repr

namespace MaxStreamsFrame

def typ (f : MaxStreamsFrame) : Nat :=
  match f.type with
  | .bidi => 0x12
  | .uni => 0x13

/-- `parseMaxStreamsFrame`. -/
def parse (typ : Nat) : FrameReader MaxStreamsFrame := do
  let n ← streamNum
  return ⟨if typ = 0x12 then .bidi else .uni, n⟩

def append (b : List UInt8) (f : MaxStreamsFrame) : Option (List UInt8) :=
  appendFrame b f.typ [f.maxStreamNum] []

def length (f : MaxStreamsFrame) : Option Nat := frameLength [f.maxStreamNum] 0

theorem roundTrip {f : MaxStreamsFrame} (h : f.maxStreamNum ≤ maxStreamCount) (rest : List UInt8) :
    RoundTrip (append · f) f.length f.typ (parse f.typ) f rest := by
  refine .of_fields (by simp [h.trans maxStreamCount_le]) rfl ?_
  obtain ⟨type, n⟩ := f
  cases type with
  | bidi | uni => exact (reads_streamNum h).bind_pure

end MaxStreamsFrame

/-- `StreamsBlockedFrame`. -/
structure StreamsBlockedFrame where
  type : StreamType
  streamLimit : Nat
  deriving DecidableEq, Repr

namespace StreamsBlockedFrame

def typ (f : StreamsBlockedFrame) : Nat :=
  match f.type with
  | .bidi => 0x16
  | .uni => 0x17

/-- `parseStreamsBlockedFrame`. -/
def parse (typ : Nat) : FrameReader StreamsBlockedFrame := do
  let n ← streamNum
  return ⟨if typ = 0x16 then .bidi else .uni, n⟩

def append (b : List UInt8) (f : StreamsBlockedFrame) : Option (List UInt8) :=
  appendFrame b f.typ [f.streamLimit] []

def length (f : StreamsBlockedFrame) : Option Nat := frameLength [f.streamLimit] 0

theorem roundTrip {f : StreamsBlockedFrame} (h : f.streamLimit ≤ maxStreamCount)
    (rest : List UInt8) : RoundTrip (append · f) f.length f.typ (parse f.typ) f rest := by
  refine .of_fields (by simp [h.trans maxStreamCount_le]) rfl ?_
  obtain ⟨type, n⟩ := f
  cases type with
  | bidi | uni => exact (reads_streamNum h).bind_pure

end StreamsBlockedFrame

/-! ## Tokens and connection IDs -/

/-- `NewTokenFrame`. -/
structure NewTokenFrame where
  token : List UInt8
  deriving DecidableEq, Repr

namespace NewTokenFrame

/-- `parseNewTokenFrame`. -/
def parse : FrameReader NewTokenFrame := do
  let tokenLen ← varint
  Parser.check (tokenLen ≠ 0) .emptyToken
  let token ← Parser.take .eof tokenLen
  return ⟨token⟩

def append (b : List UInt8) (f : NewTokenFrame) : Option (List UInt8) :=
  appendFrame b 0x7 [f.token.length] f.token

def length (f : NewTokenFrame) : Option Nat := frameLength [f.token.length] f.token.length

theorem roundTrip {f : NewTokenFrame} (h : f.token ≠ [] ∧ f.token.length ≤ maxVarInt8)
    (rest : List UInt8) : RoundTrip (append · f) f.length 0x7 parse f rest := by
  have hne : f.token.length ≠ 0 := fun h0 => h.1 (List.length_eq_zero_iff.mp h0)
  refine .of_fields (by simp [h]) rfl ?_
  refine (reads_varint h.2).bind ((Parser.Reads.check hne).bind_nil ?_)
  exact Parser.Reads.take.bind_pure

end NewTokenFrame

/-- `NewConnectionIDFrame`, with a `StatelessResetToken`. -/
structure NewConnectionIDFrame where
  sequenceNumber : Nat
  retirePriorTo : Nat
  connectionID : ConnectionID
  statelessResetToken : Vector UInt8 16
  deriving DecidableEq, Repr

namespace NewConnectionIDFrame

/-- `parseNewConnectionIDFrame`. -/
def parse : FrameReader NewConnectionIDFrame := do
  let seq ← varint
  let ret ← varint
  Parser.check (ret ≤ seq) (.retirePriorTo ret seq)
  let connIDLen ← byte
  Parser.check (connIDLen.toNat ≠ 0) .zeroLengthConnectionID
  let connID ← Wire.connectionID connIDLen.toNat
  let token ← Parser.takeArray .eof 16
  return ⟨seq, ret, connID, token⟩

/-- `Append`; a connection ID of more than 20 bytes, which it checks for, cannot be built. -/
def append (b : List UInt8) (f : NewConnectionIDFrame) : Option (List UInt8) :=
  appendFrame b 0x18 [f.sequenceNumber, f.retirePriorTo]
    (.ofNat f.connectionID.bytes.length :: (f.connectionID.bytes ++ f.statelessResetToken.toList))

def length (f : NewConnectionIDFrame) : Option Nat :=
  frameLength [f.sequenceNumber, f.retirePriorTo] (1 + f.connectionID.bytes.length + 16)

/-- What the parser checks. -/
structure InRange (f : NewConnectionIDFrame) : Prop where
  sequenceNumber : f.sequenceNumber ≤ maxVarInt8
  retirePriorTo : f.retirePriorTo ≤ f.sequenceNumber
  connectionID : f.connectionID.bytes ≠ []

theorem roundTrip {f : NewConnectionIDFrame} (h : f.InRange) (rest : List UInt8) :
    RoundTrip (append · f) f.length 0x18 parse f rest := by
  obtain ⟨seq, ret, connID, token⟩ := f
  have hseq : seq ≤ maxVarInt8 := h.sequenceNumber
  have hle : ret ≤ seq := h.retirePriorTo
  have hret : ret ≤ maxVarInt8 := hle.trans hseq
  have hbyte : (UInt8.ofNat connID.bytes.length).toNat = connID.bytes.length := by
    have := connID.le
    rw [maxConnIDLen] at this
    rw [UInt8.toNat_ofNat']
    omega
  have hne : (UInt8.ofNat connID.bytes.length).toNat ≠ 0 := by
    rw [hbyte]
    exact fun h0 => h.connectionID (List.length_eq_zero_iff.mp h0)
  refine .of_fields (by simp [hseq, hret]) ?_ ?_
  · rw [List.length_cons, List.length_append, Vector.length_toList]
    omega
  · refine (reads_varint hseq).bind
      ((reads_varint hret).bind ((Parser.Reads.check hle).bind_nil ?_))
    refine reads_byte.bind ((Parser.Reads.check hne).bind_nil ?_)
    rw [hbyte]
    exact reads_connectionID.bind (Parser.Reads.takeArray token).bind_pure

end NewConnectionIDFrame

/-- `RetireConnectionIDFrame`. -/
structure RetireConnectionIDFrame where
  sequenceNumber : Nat
  deriving DecidableEq, Repr

namespace RetireConnectionIDFrame

/-- `parseRetireConnectionIDFrame`. -/
def parse : FrameReader RetireConnectionIDFrame := do
  let seq ← varint
  return ⟨seq⟩

def append (b : List UInt8) (f : RetireConnectionIDFrame) : Option (List UInt8) :=
  appendFrame b 0x19 [f.sequenceNumber] []

def length (f : RetireConnectionIDFrame) : Option Nat := frameLength [f.sequenceNumber] 0

theorem roundTrip {f : RetireConnectionIDFrame} (h : f.sequenceNumber ≤ maxVarInt8)
    (rest : List UInt8) :
    RoundTrip (append · f) f.length 0x19 parse f rest :=
  roundTrip_number (g := RetireConnectionIDFrame.mk) h rest

end RetireConnectionIDFrame

/-! ## Paths -/

/-- A frame that is eight bytes. -/
theorem roundTrip_eight {α : Type} {typ : Nat} {g : Vector UInt8 8 → α} (data : Vector UInt8 8)
    (rest : List UInt8) : RoundTrip (fun b => appendFrame b typ [] data.toList) (some (1 + 8)) typ
      (Parser.takeArray .eof 8 >>= fun data => pure (g data)) (g data) rest := by
  have hread : Parser.Reads (Parser.takeArray ParseError.eof 8 >>= fun data => pure (g data))
      data.toList (g data) rest := (Parser.Reads.takeArray data).bind_pure
  exact .of_fields (n := 8) nofun Vector.length_toList.symm hread

/-- `PathChallengeFrame`. -/
structure PathChallengeFrame where
  data : Vector UInt8 8
  deriving DecidableEq, Repr

namespace PathChallengeFrame

/-- `parsePathChallengeFrame`. -/
def parse : FrameReader PathChallengeFrame := do
  let data ← Parser.takeArray .eof 8
  return ⟨data⟩

def append (b : List UInt8) (f : PathChallengeFrame) : Option (List UInt8) :=
  appendFrame b 0x1a [] f.data.toList

def length (_ : PathChallengeFrame) : Option Nat := some (1 + 8)

theorem roundTrip (f : PathChallengeFrame) (rest : List UInt8) :
    RoundTrip (append · f) f.length 0x1a parse f rest :=
  roundTrip_eight (g := PathChallengeFrame.mk) f.data rest

end PathChallengeFrame

/-- `PathResponseFrame`. -/
structure PathResponseFrame where
  data : Vector UInt8 8
  deriving DecidableEq, Repr

namespace PathResponseFrame

/-- `parsePathResponseFrame`. -/
def parse : FrameReader PathResponseFrame := do
  let data ← Parser.takeArray .eof 8
  return ⟨data⟩

def append (b : List UInt8) (f : PathResponseFrame) : Option (List UInt8) :=
  appendFrame b 0x1b [] f.data.toList

def length (_ : PathResponseFrame) : Option Nat := some (1 + 8)

theorem roundTrip (f : PathResponseFrame) (rest : List UInt8) :
    RoundTrip (append · f) f.length 0x1b parse f rest :=
  roundTrip_eight (g := PathResponseFrame.mk) f.data rest

end PathResponseFrame

/-! ## Closing -/

/-- `ConnectionCloseFrame`. -/
structure ConnectionCloseFrame where
  isApplicationError : Bool
  errorCode : Nat
  frameType : Nat
  reasonPhrase : List UInt8
  deriving DecidableEq, Repr

namespace ConnectionCloseFrame

def typ (f : ConnectionCloseFrame) : Nat := if f.isApplicationError then 0x1d else 0x1c

/-- The numbers of the frame; the frame type is not one of an application's errors. -/
def fields (f : ConnectionCloseFrame) : List Nat :=
  [f.errorCode] ++ (if f.isApplicationError then [] else [f.frameType]) ++ [f.reasonPhrase.length]

/-- `parseConnectionCloseFrame`. -/
def parse (typ : Nat) : FrameReader ConnectionCloseFrame := do
  let isApplicationError := decide (typ = 0x1d)
  let errorCode ← varint
  let frameType ← if isApplicationError then pure 0 else varint
  let reasonPhraseLen ← varint
  let reasonPhrase ← Parser.take .eof reasonPhraseLen
  return ⟨isApplicationError, errorCode, frameType, reasonPhrase⟩

def append (b : List UInt8) (f : ConnectionCloseFrame) : Option (List UInt8) :=
  appendFrame b f.typ f.fields f.reasonPhrase

def length (f : ConnectionCloseFrame) : Option Nat := frameLength f.fields f.reasonPhrase.length

/-- Numbers that have an encoding. -/
structure InRange (f : ConnectionCloseFrame) : Prop where
  errorCode : f.errorCode ≤ maxVarInt8
  frameType : f.frameType ≤ maxVarInt8
  reasonPhrase : f.reasonPhrase.length ≤ maxVarInt8

/-- What is on the wire of a frame: no frame type with an application's error. -/
def OnWire (f : ConnectionCloseFrame) : Prop := f.isApplicationError = true → f.frameType = 0

instance (f : ConnectionCloseFrame) : Decidable f.OnWire :=
  inferInstanceAs (Decidable (_ → _))

theorem roundTrip {f : ConnectionCloseFrame} (h : f.InRange) (hwire : f.OnWire)
    (rest : List UInt8) : RoundTrip (append · f) f.length f.typ (parse f.typ) f rest := by
  obtain ⟨app, code, ft, reason⟩ := f
  have hcode : code ≤ maxVarInt8 := h.errorCode
  have hft : ft ≤ maxVarInt8 := h.frameType
  have hreason : reason.length ≤ maxVarInt8 := h.reasonPhrase
  have htail : ∀ ft, Parser.Reads
      (varint >>= fun n => Parser.take ParseError.eof n >>= fun reason =>
      pure (ConnectionCloseFrame.mk app code ft reason))
      (QuicVarint.encode reason.length ++ reason) ⟨app, code, ft, reason⟩ rest := by
    intro ft
    exact (reads_varint hreason).bind Parser.Reads.take.bind_pure
  cases app with
  | true =>
    obtain rfl : ft = 0 := hwire rfl
    refine .of_fields (by simp [fields, hcode, hreason]) rfl ?_
    exact (reads_varint hcode).bind (Parser.Reads.bind_nil .pure (htail 0))
  | false =>
    refine .of_fields (by simp [fields, hcode, hft, hreason]) rfl ?_
    exact (reads_varint hcode).bind ((reads_varint hft).bind (htail ft))

end ConnectionCloseFrame

end UQuic.Wire
